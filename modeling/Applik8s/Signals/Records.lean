import Applik8s.Platform
import Applik8s.Lib.Table

/-! The records of `signal-runtime.ts`: issuances, their terminal states, outbox facts,
and the pure functions over them. The `Application` prefix of the source's type names
is dropped. A JSON value is its text; timestamps are texts, as the stores carry them. -/
namespace Applik8s.Signals

/-- What the runtime takes from its host: SHA-256 in hexadecimal, the collation behind
`localeCompare`, and dates. -/
structure Host where
  sha256 : String → String
  sha256_length : ∀ text, (sha256 text).length = 64
  localeLess : String → String → Bool
  dates : Dates

structure Json where
  text : String
  deriving DecidableEq

structure Actor where
  id : String
  roles : Option (List String) := none
  attributes : Option Json := none
  deriving DecidableEq

/-- `ApplicationSignalAuthorizationReceiptReference`. -/
structure Receipt where
  id : String
  deriving DecidableEq

inductive Access where
  | authorize (selectors : List Json)
  | grant (subject : Json)
  deriving DecidableEq

structure Contract where
  id : String
  name : String
  version : String
  deriving DecidableEq

/-- A declared signal. An action's schema is the validation it performs: the normalized
payload, or why there is none. -/
structure SignalDefinition where
  id : String
  name : String
  version : String
  actions : List (String × (Json → Except String Json))

structure IssueRequest where
  occurrenceKey : String
  definition : SignalDefinition
  input : Json
  issuedAt : String
  expiresAt : String
  target : Json
  access : Access
  issueReceipt : Receipt

inductive Terminal where
  | resolved (action : String) (input : Json) (actor : Actor) (receipt : Receipt) (decidedAt : String)
  | expired (expiredAt : String)
  deriving DecidableEq

structure StoredInstance where
  id : String
  occurrenceKey : String
  contract : Contract
  input : Json
  actions : List String
  issuedAt : String
  expiresAt : String
  target : Json
  access : Access
  issueReceipt : Receipt
  terminal : Option Terminal := none
  deriving DecidableEq

instance : Lib.Keyed StoredInstance String := ⟨StoredInstance.id⟩

structure ResolutionRequest where
  id : String
  action : String
  input : Json
  actor : Actor
  receipt : Option Receipt := none
  decidedAt : String
  idempotencyKey : String

/-- What a finalizer is told about the terminal state to come. -/
inductive Closing where
  | resolved (action : String) (actor : Actor) (receipt : Receipt) (decidedAt : String)
  | expired (expiredAt : String)

inductive FactKind where
  | issued | resolved | expired
  deriving DecidableEq

def FactKind.name : FactKind → String
  | .issued => "issued"
  | .resolved => "resolved"
  | .expired => "expired"

structure SignalReference where
  contract : Contract
  issuanceId : String
  expiresAt : String
  deriving DecidableEq

inductive FactPayload where
  | issuance (id : String) (input : Json) (signal : SignalReference) (issuedAt expiresAt : String)
  | resolution (signalId action decidedAt : String)
  | expiry (signalId expiredAt : String)
  deriving DecidableEq

structure OutboxFact where
  id : String
  kind : FactKind
  signalId : String
  contractId : String
  payload : FactPayload
  recordedAt : String
  deriving DecidableEq

instance : Lib.Keyed OutboxFact String := ⟨OutboxFact.id⟩

/-- Why a call failed. A denial is told apart from every other failure. -/
inductive Failure where
  | denied
  | error (message : String)
  deriving DecidableEq

abbrev IssueAuthorizer := IssueRequest → String → Except Failure (Option Receipt)
abbrev ResolutionAuthorizer := ResolutionRequest → StoredInstance → Except Failure (Option Receipt)
abbrev TerminalFinalizer := StoredInstance → Closing → Except Failure Unit

/-- Whether an issued one-shot signal may still accept an action. -/
def applicationSignalIsActionable (dates : Dates) (signal : StoredInstance) (now : Int) : Bool :=
  match dates.parse signal.expiresAt with
  | some expiresAt => signal.terminal.isNone && now < expiresAt
  | none => false

variable (host : Host) (signal : StoredInstance) (parts : List String)

def stableSignalId : String :=
  host.sha256 (join "\x00" parts)

@[simp] theorem stableSignalId_length :
    (stableSignalId host parts).length = 64 := host.sha256_length _

def signalIdOf (occurrenceKey : String) : String :=
  stableSignalId host ["signal", occurrenceKey]

/-- The inert reference to a signal, `$type` apart. -/
def signalReference : SignalReference :=
  ⟨signal.contract, signal.id, signal.expiresAt⟩

def signalIssuancePayload : FactPayload :=
  .issuance signal.id signal.input (signalReference signal) signal.issuedAt signal.expiresAt

def issuedFact : OutboxFact :=
  { id := stableSignalId host [signal.id, "issued"], kind := .issued, signalId := signal.id
    contractId := signal.contract.id, payload := signalIssuancePayload signal
    recordedAt := signal.issuedAt }

def resolvedFact (action decidedAt : String) : OutboxFact :=
  { id := stableSignalId host [signal.id, "resolved"], kind := .resolved, signalId := signal.id
    contractId := signal.contract.id, payload := .resolution signal.id action decidedAt
    recordedAt := decidedAt }

variable (expiredAt : String)

def expiredFact : OutboxFact :=
  { id := stableSignalId host [signal.id, "expired"], kind := .expired, signalId := signal.id
    contractId := signal.contract.id, payload := .expiry signal.id expiredAt
    recordedAt := expiredAt }

def issuedInstance (request : IssueRequest) (id : String) (authorizedReceipt : Option Receipt) :
    StoredInstance :=
  { id, occurrenceKey := request.occurrenceKey
    contract := ⟨request.definition.id, request.definition.name, request.definition.version⟩
    input := request.input
    actions := sortStrings (request.definition.actions.map Prod.fst)
    issuedAt := request.issuedAt, expiresAt := request.expiresAt, target := request.target
    access := request.access, issueReceipt := authorizedReceipt.getD request.issueReceipt }

/-- The signal with the terminal state a resolution gives it. -/
def StoredInstance.decidedBy (request : ResolutionRequest) (receipt : Receipt) :
    StoredInstance :=
  let terminal := .resolved request.action request.input request.actor receipt request.decidedAt
  { signal with terminal := some terminal }

/-- The signal with the terminal state an expiry gives it. -/
def StoredInstance.lapsedAt : StoredInstance :=
  { signal with terminal := some (.expired expiredAt) }

inductive Replay where
  | none | idempotent | terminal
  deriving DecidableEq

inductive Answer where
  | issued (signal : StoredInstance) (replayed : Bool)
  | resolved (signal : StoredInstance) (replay : Replay)
  | expired (signal : StoredInstance) (replayed : Bool)
  | swept (ids : List String)
  deriving DecidableEq

def assertSignalBatchSize (limit : Int) : Except Failure Unit :=
  if limit < 1 ∨ limit > 1000 then .error (.error "Signal batch size must be between 1 and 1000.")
  else .ok ()

/-- A call of one of the mutating methods. A missing callback is one that does nothing. -/
inductive Operation where
  | issue (request : IssueRequest) (authorize : IssueAuthorizer)
  | resolve (request : ResolutionRequest) (authorize : Option ResolutionAuthorizer)
      (finalize : TerminalFinalizer)
  | expire (id expiredAt : String) (finalize : TerminalFinalizer)
  | expireDue (now : String) (limit : Int) (finalize : TerminalFinalizer)

end Applik8s.Signals
