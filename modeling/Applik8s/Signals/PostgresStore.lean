import Applik8s.Lib.Sessions
import Applik8s.Signals.Records

/-! `createPostgresApplicationSignalStore`. Every mutating method is one transaction. The
tables are addressed by their primary keys; the unique index on `occurrence_key` is a
table of its own, written with the row it points to. -/
namespace Applik8s.Signals
open Lib

/-- The host with the database's reading of `timestamptz` texts, in milliseconds. -/
structure PostgresHost extends Host where
  timestamptz : String → Option Int

/-- A row of `applik8s_signals`. -/
structure SignalRow where
  id : String
  occurrenceKey : String
  contract : Contract
  input : Json
  actions : List String
  target : Json
  access : Access
  issueReceipt : Receipt
  issuedAt : Int
  expiresAt : Int
  terminal : Option Terminal
  deriving DecidableEq

/-- A row of `applik8s_signal_resolutions`. -/
structure ResolutionRow where
  action : String
  receipt : Receipt
  deriving DecidableEq

/-- A row of `applik8s_signal_outbox`. -/
structure OutboxRow where
  kind : FactKind
  signalId : String
  contractId : String
  payload : FactPayload
  recordedAt : Int
  published : Bool
  deriving DecidableEq

/-- A row of `applik8s_public_stream_events`, its sequence and envelope apart. -/
structure IssuanceEvent where
  contractName : String
  contractVersion : String
  partitionKey : String
  payload : FactPayload
  contextDigest : String
  recordedAt : Int
  deriving DecidableEq

inductive SignalKey where
  | signal (id : String)
  | occurrence (key : String)
  | resolution (id key : String)
  | fact (id : String)
  | event (id : String)
  deriving DecidableEq

@[reducible] def SignalKey.Row : SignalKey → Type
  | .signal _ => SignalRow
  | .occurrence _ => String
  | .resolution _ _ => ResolutionRow
  | .fact _ => OutboxRow
  | .event _ => IssuanceEvent

inductive SignalStatement where
  /-- `INSERT INTO applik8s_signals … ON CONFLICT (occurrence_key) DO NOTHING RETURNING *`. -/
  | insertSignal (id : String) (request : IssueRequest)
  | signalOfOccurrence (key : String)
  | updateReceipt (id : String) (receipt : Receipt)
  | signalForUpdate (id : String)
  | resolutionOf (id key : String)
  | insertResolution (id key : String) (row : ResolutionRow)
  | updateTerminal (id : String) (terminal : Terminal) (updatedAt : String)
  /-- `SELECT id … WHERE terminal IS NULL AND expires_at <= $1 … FOR UPDATE SKIP LOCKED LIMIT $2`. -/
  | dueForUpdate (now : String) (limit : Int)
  /-- `UPDATE … WHERE id = $1 AND terminal IS NULL RETURNING contract_id`. -/
  | updatePending (id : String) (terminal : Terminal) (updatedAt : String)
  | insertFact (fact : OutboxFact)
  | insertEvent (id : String) (event : IssuanceEvent)
  | acknowledge (ids : List String)

@[reducible] def SignalStatement.Reply : SignalStatement → Type
  | .insertSignal .. => Option SignalRow
  | .signalOfOccurrence _ => Option SignalRow
  | .updateReceipt .. => Option SignalRow
  | .signalForUpdate _ => Option SignalRow
  | .resolutionOf .. => Option ResolutionRow
  | .insertResolution .. => Unit
  | .updateTerminal .. => Option SignalRow
  | .dueForUpdate .. => List String
  | .updatePending .. => Option String
  | .insertFact _ => Unit
  | .insertEvent .. => Unit
  | .acknowledge _ => Unit

abbrev SignalInterface : Interface := ⟨SignalStatement, SignalStatement.Reply⟩
abbrev SignalRows := (key : SignalKey) → Option key.Row

variable (host : PostgresHost) (rows : SignalRows) (id : String)

def freshRow (request : IssueRequest) (issuedAt expiresAt : Int) : SignalRow where
  id := id
  occurrenceKey := request.occurrenceKey
  contract := ⟨request.definition.id, request.definition.name, request.definition.version⟩
  input := request.input
  actions := sortStrings (request.definition.actions.map Prod.fst)
  target := request.target
  access := request.access
  issueReceipt := request.issueReceipt
  issuedAt := issuedAt
  expiresAt := expiresAt
  terminal := none

def issuedRow (request : IssueRequest) : Option SignalRow := do
  return freshRow id request (← host.timestamptz request.issuedAt) (← host.timestamptz request.expiresAt)

def outboxRow (fact : OutboxFact) : Option OutboxRow := do
  let recordedAt ← host.timestamptz fact.recordedAt
  return { kind := fact.kind, signalId := fact.signalId, contractId := fact.contractId
           payload := fact.payload, recordedAt, published := false }

def SignalRow.isDue (row : SignalRow) (now : Int) : Bool := row.terminal.isNone && row.expiresAt ≤ now

/-- The rows of a sweep: of those the database found unlocked, the ones that are due. -/
def dueIds (unlocked : List String) (now limit : Int) : List String :=
  (unlocked.filter fun id => (rows (.signal id)).any fun row => SignalRow.isDue row now).take limit.toNat

def publish (row : OutboxRow) : OutboxRow := { row with published := true }

abbrev SignalWrites := List ((key : SignalKey) × Option key.Row)

/-- `UPDATE … WHERE id = $1 … RETURNING`, of the signals the change is defined on. -/
def updateSignal (change : SignalRow → Option SignalRow) :
    Option SignalRow × SignalWrites :=
  match (rows (.signal id)).bind change with
  | some row => (some row, [⟨.signal id, some row⟩])
  | none => (none, [])

/-- `INSERT … ON CONFLICT (id) DO NOTHING`. -/
def insertIfAbsent (key : SignalKey) (row : key.Row) : SignalWrites :=
  match rows key with
  | some _ => []
  | none => [⟨key, some row⟩]

/-- What each statement does. `unlocked` are the signals a sweep finds unlocked, in the
order of their expiry. -/
def signalAct : (statement : SignalStatement) → (unlocked : List String) →
    SignalRows → Option (statement.Reply × SignalWrites)
  | .insertSignal id request, _, rows => do
    let row ← issuedRow host id request
    if (rows (.occurrence request.occurrenceKey)).isSome then return (none, [])
    else if (rows (.signal id)).isSome then none
    else return (some row, [⟨.signal id, some row⟩, ⟨.occurrence request.occurrenceKey, some id⟩])
  | .signalOfOccurrence key, _, rows => do
    return ((rows (.occurrence key)).bind fun id => rows (.signal id), [])
  | .updateReceipt id receipt, _, rows => do
    return updateSignal rows id fun row => some { row with issueReceipt := receipt }
  | .signalForUpdate id, _, rows => do
    return updateSignal rows id some
  | .resolutionOf id key, _, rows => do
    return (rows (.resolution id key), [])
  | .insertResolution id key row, _, rows =>
    if (rows (.resolution id key)).isSome then none
    else some ((), [⟨.resolution id key, some row⟩])
  | .updateTerminal id terminal updatedAt, _, rows => do
    let _ ← host.timestamptz updatedAt
    return updateSignal rows id fun row => some { row with terminal := some terminal }
  | .dueForUpdate now limit, unlocked, rows => do
    let due := dueIds rows unlocked (← host.timestamptz now) limit
    return (due, due.map fun id => ⟨.signal id, rows (.signal id)⟩)
  | .updatePending id terminal updatedAt, _, rows => do
    let _ ← host.timestamptz updatedAt
    let (updated, writes) := updateSignal rows id fun row =>
      if row.terminal.isNone then some { row with terminal := some terminal } else none
    return (updated.map fun row => row.contract.id, writes)
  | .insertFact fact, _, rows => do
    return ((), insertIfAbsent rows (.fact fact.id) (← outboxRow host fact))
  | .insertEvent id event, _, rows => do
    return ((), insertIfAbsent rows (.event id) event)
  | .acknowledge ids, _, rows => do
    let known := ids.filter fun id => (rows (.fact id)).isSome
    return ((), known.map fun id => ⟨.fact id, (rows (.fact id)).map publish⟩)

abbrev signalDialect : Dialect SignalInterface where
  Key := SignalKey
  Row := SignalKey.Row
  Choice := List String
  act := signalAct host

/-- What the driver throws when a statement fails or a failed transaction is committed. -/
def sqlFailure : Failure := .error "PostgreSQL statement failed."

abbrev SignalProgram := Program (Sql SignalInterface) Failure

namespace Postgres

def run (statement : SignalStatement) : SignalProgram statement.Reply :=
  Lib.run (I := SignalInterface) sqlFailure statement

def requiredPostgresSignalString (value field : String) : Except Failure Unit :=
  if blank value then .error (.error s!"Signal PostgreSQL row has invalid {field}.") else .ok ()

variable (host : PostgresHost)

def signalInstance (row : SignalRow) : StoredInstance :=
  { id := row.id, occurrenceKey := row.occurrenceKey, contract := row.contract, input := row.input
    actions := row.actions, issuedAt := host.dates.toISOString row.issuedAt
    expiresAt := host.dates.toISOString row.expiresAt, target := row.target, access := row.access
    issueReceipt := row.issueReceipt, terminal := row.terminal }

def postgresSignalInstance (row : SignalRow) : Except Failure StoredInstance := do
  requiredPostgresSignalString row.id "id"
  requiredPostgresSignalString row.occurrenceKey "occurrence_key"
  requiredPostgresSignalString row.contract.id "contract_id"
  requiredPostgresSignalString row.contract.name "contract_name"
  requiredPostgresSignalString row.contract.version "contract_version"
  return signalInstance host row

/-- `insertPostgresSignalIssuanceEvent`. -/
def insertPostgresSignalIssuanceEvent (signal : StoredInstance) :
    SignalProgram Unit :=
  match host.timestamptz signal.issuedAt with
  | none => .throw sqlFailure
  | some recordedAt =>
    run (.insertEvent (stableSignalId host.toHost [signal.id, "issuance-event"])
      { contractName := signal.contract.name, contractVersion := signal.contract.version
        partitionKey := signal.id, payload := signalIssuancePayload signal
        contextDigest := "signal:" ++ signal.id, recordedAt })

/-- `insertPostgresSignalOutbox`. -/
def insertPostgresSignalOutbox (fact : OutboxFact) : SignalProgram Unit := run (.insertFact fact)

def issue (request : IssueRequest) (authorize : IssueAuthorizer) :
    SignalProgram Answer := do
  match ← run (.insertSignal (signalIdOf host.toHost request.occurrenceKey) request) with
  | some inserted =>
    let initial ← .check (postgresSignalInstance host inserted)
    let authorizedReceipt ← .check (authorize request initial.id)
    let authorized ← match authorizedReceipt with
      | some receipt => run (.updateReceipt initial.id receipt)
      | none => pure (some inserted)
    match authorized with
    | none => .throw (.error s!"Signal {initial.id} authorization receipt could not be persisted.")
    | some row =>
      let signal ← .check (postgresSignalInstance host row)
      insertPostgresSignalIssuanceEvent host signal
      insertPostgresSignalOutbox (issuedFact host.toHost signal)
      return .issued signal false
  | none =>
    match ← run (.signalOfOccurrence request.occurrenceKey) with
    | none => .throw (.error s!"Signal occurrence {request.occurrenceKey} could not be inserted or replayed.")
    | some row => return .issued (← .check (postgresSignalInstance host row)) true

/-- A failure of a callback of `resolve`; a denial passes unchanged where it is told apart. -/
def wrapped {α : Type} (message : String) (passes : Failure → Bool) : Except Failure α → Except Failure α
  | .ok value => .ok value
  | .error failure => .error (if passes failure then failure else .error message)

def resolve (request : ResolutionRequest) (authorize : Option ResolutionAuthorizer)
    (finalize : TerminalFinalizer) : SignalProgram Answer := do
  match ← run (.signalForUpdate request.id) with
  | none => .throw (.error s!"Signal {request.id} does not exist.")
  | some row =>
    let current ← .check (postgresSignalInstance host row)
    match ← run (.resolutionOf request.id request.idempotencyKey) with
    | some replay =>
      .check (requiredPostgresSignalString replay.action "action")
      return .resolved current (if replay.action = request.action then .idempotent else .terminal)
    | none =>
      if current.terminal.isSome then return .resolved current .terminal
      else if request.action ∉ current.actions then
        .throw (.error s!"Signal {request.id} does not declare action {request.action}.")
      else
        let receipt ← match authorize with
          | some authorize => .check (wrapped s!"Signal {request.id} {request.action} authorization failed."
              (· = .denied) (authorize request current))
          | none => pure request.receipt
        match receipt with
        | none => .throw (.error s!"Signal {request.id} resolution requires an authorization receipt.")
        | some receipt =>
          let closing := .resolved request.action request.actor receipt request.decidedAt
          .check (wrapped s!"Signal {request.id} {request.action} finalization failed." (fun _ => false)
            (finalize current closing))
          run (.insertResolution request.id request.idempotencyKey ⟨request.action, receipt⟩)
          let terminal := .resolved request.action request.input request.actor receipt request.decidedAt
          match ← run (.updateTerminal request.id terminal request.decidedAt) with
          | none => .throw (.error s!"Signal {request.id} resolution was lost.")
          | some updated =>
            let signal ← .check (postgresSignalInstance host updated)
            insertPostgresSignalOutbox (resolvedFact host.toHost current request.action request.decidedAt)
            return .resolved signal .none

def expire (id expiredAt : String) (finalize : TerminalFinalizer) :
    SignalProgram Answer := do
  match ← run (.signalForUpdate id) with
  | none => .throw (.error s!"Signal {id} does not exist.")
  | some row =>
    let current ← .check (postgresSignalInstance host row)
    if current.terminal.isSome then return .expired current true
    else
      .check (finalize current (.expired expiredAt))
      match ← run (.updateTerminal id (.expired expiredAt) expiredAt) with
      | none => .throw (.error s!"Signal {id} expiry was lost.")
      | some updated =>
        let signal ← .check (postgresSignalInstance host updated)
        insertPostgresSignalOutbox (expiredFact host.toHost current expiredAt)
        return .expired signal false

/-- One signal of a sweep; answers whether it was expired by it. -/
def expireSwept (now : String) (finalize : TerminalFinalizer) (id : String) :
    SignalProgram Bool := do
  .check (requiredPostgresSignalString id "id")
  match ← run (.signalForUpdate id) with
  | none => return false
  | some row =>
    let current ← .check (postgresSignalInstance host row)
    if current.terminal.isSome then return false
    else
      .check (finalize current (.expired now))
      match ← run (.updatePending id (.expired now) now) with
      | none => return false
      | some contractId =>
        .check (requiredPostgresSignalString contractId "contract_id")
        insertPostgresSignalOutbox { expiredFact host.toHost current now with contractId }
        return true

def expireDue (now : String) (limit : Int) (finalize : TerminalFinalizer) :
    SignalProgram Answer := do
  .check (assertSignalBatchSize limit)
  let due ← run (.dueForUpdate now limit)
  let expired ← Program.collect due fun id => do
    return (id, ← expireSwept host now finalize id)
  return .swept ((expired.filter Prod.snd).map Prod.fst)

/-- `acknowledgeOutbox`. -/
def acknowledgeOutbox (ids : List String) : SignalProgram Unit :=
  if ids = [] then pure () else run (.acknowledge ids)

end Postgres

/-- A transaction of the store: one of its mutating methods, or an acknowledgement. -/
inductive PostgresOperation where
  | mutate (operation : Operation)
  | acknowledge (ids : List String)

variable (host : PostgresHost)

def Operation.inPostgres : Operation → SignalProgram Answer
  | .issue request authorize => Postgres.issue host request authorize
  | .resolve request authorize finalize => Postgres.resolve host request authorize finalize
  | .expire id expiredAt finalize => Postgres.expire host id expiredAt finalize
  | .expireDue now limit finalize => Postgres.expireDue host now limit finalize

def PostgresOperation.body : PostgresOperation → SignalProgram (Option Answer)
  | .mutate operation => do return some (← operation.inPostgres host)
  | .acknowledge ids => do
    Postgres.acknowledgeOutbox ids
    return none

/-- The database of the store, with the transactions under way. -/
abbrev SignalDatabase :=
  Database (signalDialect host) Failure (Option Answer) PostgresOperation

abbrev SignalEvent := DatabaseEvent (signalDialect host) PostgresOperation

def SignalDatabase.advance (database : SignalDatabase host) (event : SignalEvent host) :
    SignalDatabase host :=
  Database.advance sqlFailure (PostgresOperation.body host) database event

def SignalDatabase.fresh : SignalDatabase host := { rows := fun _ => none }
end Applik8s.Signals
