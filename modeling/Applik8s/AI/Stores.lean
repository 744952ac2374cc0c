import Applik8s.AI.Attempts
import Applik8s.Lib.Run

/-! The two attempt stores: `createMemoryApplicationAIAttemptStore` of `packages/ai/src/memory.ts`,
which writes at once and undoes nothing, and `createPostgresApplicationAIAttemptStore` of
`packages/runtime-ai/src/postgres-attempt-store.ts`, which buffers what is written and persists it
when the operation has succeeded. Both let the operations on one invocation run one at a time. -/
namespace Applik8s.AI
open Function (update)
open Lib

/-- What a store holds for one invocation: `InvocationState`, or `AttemptStoreState`. Attempts are
listed in the order of their map; the order of other maps is never seen. -/
structure AttemptStoreState where
  invocation : Option InvocationRecord
  attempts : Record AttemptRecord
  deltas : String → List StreamDelta
  proposals : String × String → Option ToolProposalRecord

def AttemptStoreState.empty : AttemptStoreState := ⟨none, [], fun _ => [], fun _ => none⟩

variable (state : AttemptStoreState)

def AttemptStoreState.withInvocation (record : InvocationRecord) :
    AttemptStoreState :=
  { state with invocation := some record }

def AttemptStoreState.withAttempt (record : AttemptRecord) :
    AttemptStoreState :=
  { state with attempts := state.attempts.set record.id record }

def AttemptStoreState.withDelta (delta : StreamDelta) :
    AttemptStoreState :=
  { state with
    deltas := update state.deltas delta.attemptId (state.deltas delta.attemptId ++ [delta]) }

def AttemptStoreState.withProposal (record : ToolProposalRecord) :
    AttemptStoreState :=
  { state with
    proposals := update state.proposals (record.attemptId, record.providerToolCallId) (some record) }

/-- The clock and the generator of identifiers, by how often they have been asked. -/
structure Surroundings where
  times : Nat → String
  ids : Nat → String → String

/-- How often the clock and the generator have been asked. -/
structure Drawn where
  times : Nat
  ids : Nat
  deriving DecidableEq

section
variable (surroundings : Surroundings)

/-- `createTransaction` of the memory store. -/
def memoryTransaction : Interpreter Transaction (AttemptStoreState × Drawn) where
  answer
    | .getInvocation, (state, drawn) => (state.invocation, state, drawn)
    | .putInvocation record, (state, drawn) => (.ok (), state.withInvocation record, drawn)
    | .listAttempts, (state, drawn) => (state.attempts.map Prod.snd, state, drawn)
    | .getAttempt attemptId, (state, drawn) => (state.attempts.get attemptId, state, drawn)
    | .putAttempt record, (state, drawn) => (.ok (), state.withAttempt record, drawn)
    | .appendDelta delta, (state, drawn) =>
      if (state.deltas delta.attemptId).any (·.sequence = delta.sequence) then
        (.error (.plain (s!"AI attempt {delta.attemptId} already contains stream sequence " ++
          s!"{delta.sequence}.")), state, drawn)
      else (.ok (), state.withDelta delta, drawn)
    | .listDeltas attemptId, (state, drawn) => ((state.deltas attemptId).filter (0 < ·.sequence), state, drawn)
    | .getToolProposal attemptId providerToolCallId, (state, drawn) =>
      (state.proposals (attemptId, providerToolCallId), state, drawn)
    | .putToolProposal record, (state, drawn) => (.ok (), state.withProposal record, drawn)
    | .now, (state, drawn) => (surroundings.times drawn.times, state, { drawn with times := drawn.times + 1 })
    | .nextId kind, (state, drawn) => (surroundings.ids drawn.ids kind, state, { drawn with ids := drawn.ids + 1 })

/-- The memory store: what it holds for each invocation. -/
structure MemoryStore where
  states : String → AttemptStoreState
  drawn : Drawn

def MemoryStore.transact {α : Type} (store : MemoryStore) (invocationId : String)
    (operation : AttemptProgram α) : Except Failure α × MemoryStore :=
  let (result, state, drawn) :=
    operation.exec (memoryTransaction surroundings) (store.states invocationId, store.drawn)
  (result, ⟨update store.states invocationId state, drawn⟩)

end

section
/-- A row of `applik8s_ai_attempts`. -/
structure AttemptRow where
  invocationId : String
  ordinal : Nat
  record : AttemptRecord

/-- The tables. A row of `applik8s_ai_stream_deltas` has the attempt and the sequence of its record
as its key, one of `applik8s_ai_tool_proposals` the attempt and the tool call. -/
structure Database where
  invocations : String → Option InvocationRecord
  attempts : Record AttemptRow
  deltas : List StreamDelta
  proposals : String × String → Option ToolProposalRecord

/-- `SELECT id, record … WHERE invocation_id = $1 ORDER BY ordinal`. -/
def Database.attemptsOf (database : Database) (invocationId : String) : Record AttemptRecord :=
  ((database.attempts.filter (·.2.invocationId = invocationId)).insertionSort
    fun left right => left.2.ordinal ≤ right.2.ordinal).map fun row => (row.1, row.2.record)

/-- `… WHERE attempt_id = ANY($1) ORDER BY attempt_id, sequence`, for one of the attempts. -/
def Database.deltasOf (database : Database) (attemptId : String) : List StreamDelta :=
  (database.deltas.filter (·.attemptId = attemptId)).insertionSort fun left right => left.sequence ≤ right.sequence

/-- `loadInvocationState`. -/
def Database.load (database : Database) (invocationId : String) : AttemptStoreState :=
  let attempts := database.attemptsOf invocationId
  { invocation := database.invocations invocationId
    attempts
    deltas := fun attemptId =>
      if (attempts.get attemptId).isSome then database.deltasOf attemptId else []
    proposals := fun key => if (attempts.get key.1).isSome then database.proposals key else none }

/-- What is buffered in a transaction, and what of it is dirty. -/
structure Buffer where
  state : AttemptStoreState
  invocationDirty : Bool
  dirtyAttempts : List String
  dirtyDeltas : List (String × Nat)
  dirtyProposals : List (String × String)

/-- `set.add(value)`. -/
def addTo {α : Type} [DecidableEq α] (set : List α) (value : α) : List α :=
  if value ∈ set then set else set ++ [value]

variable (surroundings : Surroundings)

/-- `applicationAIAttemptTransaction`. A delta that was loaded has its members in another order, so
its text differs from any that is appended. -/
def postgresTransaction (invocationId : String) : Interpreter Transaction (Buffer × Drawn) where
  answer
    | .getInvocation, (buffer, drawn) => (buffer.state.invocation, buffer, drawn)
    | .putInvocation record, (buffer, drawn) =>
      if record.id ≠ invocationId then
        (.error (.plain s!"AI invocation transaction {invocationId} cannot store {record.id}."), buffer, drawn)
      else
        (.ok (), { buffer with
          state := buffer.state.withInvocation record
          invocationDirty := true }, drawn)
    | .listAttempts, (buffer, drawn) => (buffer.state.attempts.map Prod.snd, buffer, drawn)
    | .getAttempt attemptId, (buffer, drawn) => (buffer.state.attempts.get attemptId, buffer, drawn)
    | .putAttempt record, (buffer, drawn) =>
      if record.invocationId ≠ invocationId then
        (.error (.plain (s!"AI attempt {record.id} belongs to {record.invocationId}, not " ++
          s!"{invocationId}.")), buffer, drawn)
      else
        (.ok (), { buffer with
          state := buffer.state.withAttempt record
          dirtyAttempts := addTo buffer.dirtyAttempts record.id }, drawn)
    | .appendDelta delta, (buffer, drawn) =>
      if !(buffer.state.attempts.get delta.attemptId).any (·.invocationId = invocationId) then
        (.error (.plain s!"AI stream delta references unavailable attempt {delta.attemptId}."), buffer, drawn)
      else if (buffer.state.deltas delta.attemptId).any (·.sequence = delta.sequence) then
        (.error (.plain (s!"AI stream delta {delta.attemptId}/{delta.sequence} conflicts with " ++
          "durable state.")), buffer, drawn)
      else
        (.ok (), { buffer with
          state := buffer.state.withDelta delta
          dirtyDeltas := addTo buffer.dirtyDeltas (delta.attemptId, delta.sequence) }, drawn)
    | .listDeltas attemptId, (buffer, drawn) =>
      (((buffer.state.deltas attemptId).filter (0 < ·.sequence)).insertionSort
        fun left right => left.sequence ≤ right.sequence, buffer, drawn)
    | .getToolProposal attemptId providerToolCallId, (buffer, drawn) =>
      (buffer.state.proposals (attemptId, providerToolCallId), buffer, drawn)
    | .putToolProposal record, (buffer, drawn) =>
      if !(buffer.state.attempts.get record.attemptId).any (·.invocationId = invocationId) then
        (.error (.plain (s!"AI tool proposal {record.id} references unavailable attempt " ++
          s!"{record.attemptId}.")), buffer, drawn)
      else
        (.ok (), { buffer with
          state := buffer.state.withProposal record
          dirtyProposals :=
            addTo buffer.dirtyProposals (record.attemptId, record.providerToolCallId) }, drawn)
    | .now, (buffer, drawn) => (surroundings.times drawn.times, buffer, { drawn with times := drawn.times + 1 })
    | .nextId kind, (buffer, drawn) => (surroundings.ids drawn.ids kind, buffer, { drawn with ids := drawn.ids + 1 })

variable (database : Database)

/-- `INSERT INTO … ON CONFLICT (id) DO UPDATE SET record = EXCLUDED.record`, of an attempt. -/
def Database.putAttempt (attempt : AttemptRecord) :
    Except Failure Database :=
  match database.attempts.get attempt.id with
  | some row => .ok { database with
      attempts := database.attempts.set attempt.id { row with record := attempt } }
  | none =>
    if (database.invocations attempt.invocationId).isNone then
      .error (.plain "violates foreign key constraint")
    else if database.attempts.any fun row =>
        row.2.invocationId = attempt.invocationId && row.2.ordinal = attempt.ordinal then
      .error (.plain "duplicate key value violates unique constraint")
    else .ok { database with
      attempts :=
        database.attempts.set attempt.id ⟨attempt.invocationId, attempt.ordinal, attempt⟩ }

/-- `INSERT INTO … ON CONFLICT (attempt_id, sequence) DO NOTHING`. -/
def Database.putDelta (delta : StreamDelta) : Except Failure Database :=
  if (database.attempts.get delta.attemptId).isNone then
    .error (.plain "violates foreign key constraint")
  else if database.deltas.any fun row =>
      row.attemptId = delta.attemptId && row.sequence = delta.sequence then .ok database
  else .ok { database with deltas := database.deltas ++ [delta] }

/-- `INSERT INTO … ON CONFLICT (attempt_id, provider_tool_call_id) DO UPDATE …`. -/
def Database.putProposal (proposal : ToolProposalRecord) :
    Except Failure Database :=
  if (database.attempts.get proposal.attemptId).isNone then
    .error (.plain "violates foreign key constraint")
  else .ok { database with
    proposals := update database.proposals (proposal.attemptId, proposal.providerToolCallId) (some proposal) }

/-- `persistInvocationState`. -/
def Database.persist (buffer : Buffer) : Except Failure Database := do
  let database :=
    match buffer.invocationDirty, buffer.state.invocation with
    | true, some invocation => { database with
        invocations := update database.invocations invocation.id (some invocation) }
    | _, _ => database
  let database ← (buffer.dirtyAttempts.filterMap buffer.state.attempts.get).foldlM
    Database.putAttempt database
  let database ← (buffer.dirtyDeltas.filterMap fun key =>
    (buffer.state.deltas key.1).find? (·.sequence = key.2)).foldlM Database.putDelta database
  (buffer.dirtyProposals.filterMap buffer.state.proposals).foldlM Database.putProposal database

structure PostgresStore where
  database : Database
  drawn : Drawn

/-- `transact`: the whole transaction is rolled back where something throws. -/
def PostgresStore.transact {α : Type} (store : PostgresStore) (invocationId : String)
    (operation : AttemptProgram α) : Except Failure α × PostgresStore :=
  if blank invocationId then
    (.error (.plain "AI attempt storage requires a non-empty invocation ID."), store)
  else
    let loaded : Buffer := ⟨store.database.load invocationId, false, [], [], []⟩
    match operation.exec (postgresTransaction surroundings invocationId) (loaded, store.drawn) with
    | (.error failure, _, drawn) => (.error failure, { store with drawn })
    | (.ok value, buffer, drawn) =>
      match store.database.persist buffer with
      | .error failure => (.error failure, { store with drawn })
      | .ok database => (.ok value, ⟨database, drawn⟩)

end

section
/-- `ApplicationAIAttemptStore`: operations are transacted one at a time. -/
structure AttemptStore (σ : Type) where
  transact : {α : Type} → σ → (invocationId : String) → AttemptProgram α → Except Failure α × σ
  /-- What the store holds for an invocation. -/
  held : σ → String → AttemptStoreState

def memoryStore (surroundings : Surroundings) : AttemptStore MemoryStore where
  transact := MemoryStore.transact surroundings
  held := MemoryStore.states

def postgresStore (surroundings : Surroundings) : AttemptStore PostgresStore where
  transact := PostgresStore.transact surroundings
  held store := store.database.load

inductive Operation where
  | reserveInvocation (input : InvocationReservation)
  | reserveAttempt (input : AttemptReservation)
  | transition (invocationId attemptId : String) (expectedVersion : Nat) (target : Transition)
  | appendDelta (invocationId attemptId : String) (event : Json)
  | commitCanonicalResult (invocationId attemptId messageId : String)
  | cancel (invocationId reason : String)
  | reserveToolProposal (input : ToolProposalInput)
  | observe (invocationId : String)

inductive Outcome where
  | invocation (record : InvocationRecord)
  | decision (decision : AttemptDecision)
  | attempt (record : AttemptRecord)
  | delta (delta : StreamDelta)
  | proposal (record : ToolProposalRecord)
  | observation (observation : Observation)

def Operation.invocationId : Operation → String
  | .reserveInvocation input => input.invocationId
  | .reserveAttempt input => input.invocationId
  | .transition invocationId _ _ _ => invocationId
  | .appendDelta invocationId _ _ => invocationId
  | .commitCanonicalResult invocationId _ _ => invocationId
  | .cancel invocationId _ => invocationId
  | .reserveToolProposal input => input.invocationId
  | .observe invocationId => invocationId

def Operation.admitted : Operation → Except Failure Unit
  | .reserveInvocation input => validatePrincipal input.admittedPrincipal input.agentRunId
  | _ => .ok ()

def Operation.body (digest : Digest) : Operation → AttemptProgram Outcome
  | .reserveInvocation input => do return .invocation (← AI.reserveInvocation digest input)
  | .reserveAttempt input => do return .decision (← AI.reserveAttempt input)
  | .transition invocationId attemptId expectedVersion target => do
    return .attempt (← AI.transition invocationId attemptId expectedVersion target)
  | .appendDelta invocationId attemptId event => do
    return .delta (← AI.appendDelta invocationId attemptId event)
  | .commitCanonicalResult invocationId attemptId messageId => do
    return .attempt (← AI.commitCanonicalResult invocationId attemptId messageId)
  | .cancel invocationId reason => do return .invocation (← AI.cancel invocationId reason)
  | .reserveToolProposal input => do return .proposal (← AI.reserveToolProposal digest input)
  | .observe invocationId => do return .observation (← AI.observe invocationId)

variable {σ : Type} (store : AttemptStore σ) (digest : Digest)

def Operation.call (operation : Operation) (state : σ) : Except Failure Outcome × σ :=
  match operation.admitted with
  | .error failure => (.error failure, state)
  | .ok () => store.transact state operation.invocationId (operation.body digest)

/-- The operations of a run, in the order in which the store takes them. -/
def next (state : σ) (operation : Operation) : σ := (operation.call store digest state).2

end
end Applik8s.AI
