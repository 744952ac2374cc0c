import Applik8s.AI.Records
import Applik8s.Lib.Program

/-! `createApplicationAIAttemptRuntime` of `packages/ai/src/runtime.ts`: its operations as programs
over a store transaction, the clock and the generator of identifiers. -/
namespace Applik8s.AI
open Lib

/-- What an operation asks of `ApplicationAIAttemptTransaction`, of the clock and of the generator. -/
inductive Request where
  | getInvocation
  | putInvocation (record : InvocationRecord)
  | listAttempts
  | getAttempt (attemptId : String)
  | putAttempt (record : AttemptRecord)
  | appendDelta (delta : StreamDelta)
  | listDeltas (attemptId : String)
  | getToolProposal (attemptId providerToolCallId : String)
  | putToolProposal (record : ToolProposalRecord)
  /-- `clock.now().toISOString()`. -/
  | now
  /-- `ids.next(prefix)`. -/
  | nextId (kind : String)

@[reducible] def Request.Reply : Request → Type
  | .getInvocation => Option InvocationRecord
  | .putInvocation _ => Except Failure Unit
  | .listAttempts => List AttemptRecord
  | .getAttempt _ => Option AttemptRecord
  | .putAttempt _ => Except Failure Unit
  | .appendDelta _ => Except Failure Unit
  | .listDeltas _ => List StreamDelta
  | .getToolProposal _ _ => Option ToolProposalRecord
  | .putToolProposal _ => Except Failure Unit
  | .now => String
  | .nextId _ => String

def Transaction : Interface where
  Call := Request
  Reply := Request.Reply

abbrev AttemptProgram (α : Type) := Program Transaction Failure α

def ask (request : Request) : AttemptProgram request.Reply := .call request .done

def putInvocation (record : InvocationRecord) : AttemptProgram Unit :=
  .call (.putInvocation record) Program.check

def putAttempt (record : AttemptRecord) : AttemptProgram Unit :=
  .call (.putAttempt record) Program.check

def appendDeltaRecord (delta : StreamDelta) : AttemptProgram Unit :=
  .call (.appendDelta delta) Program.check

def putToolProposal (record : ToolProposalRecord) : AttemptProgram Unit :=
  .call (.putToolProposal record) Program.check

def requireInvocation (invocationId : String) : AttemptProgram InvocationRecord := do
  match ← ask .getInvocation with
  | some invocation =>
    if invocation.id = invocationId then return invocation
    else .throw (.stateConflict s!"AI invocation {invocationId} does not exist.")
  | none => .throw (.stateConflict s!"AI invocation {invocationId} does not exist.")

def requireAttempt (attemptId : String) : AttemptProgram AttemptRecord := do
  match ← ask (.getAttempt attemptId) with
  | some attempt => return attempt
  | none => .throw (.stateConflict s!"AI attempt {attemptId} does not exist.")

variable (input : AttemptReservation) (invocation : InvocationRecord)

/-- `updateInvocation`: what is falsy is not patched. -/
def updateInvocation (updatedAt : String) (state : InvocationState)
    (currentAttemptId canonicalMessageId : Option String) : InvocationRecord :=
  { invocation with
    state
    currentAttemptId := (whenTruthy currentAttemptId).or invocation.currentAttemptId
    canonicalMessageId := (whenTruthy canonicalMessageId).or invocation.canonicalMessageId
    updatedAt }

def invocationStateForAttempt (state : AttemptState) (recovery : Recovery) : InvocationState :=
  match state with
  | .completionUncertain => .uncertain
  | .providerFailed => if recovery = .terminal then .failed else .active
  | .cancelled => .cancelled
  | .canonicalCommitted => .completed
  | .reserved | .dispatching | .streaming | .providerCompleted => .active

def transitions : AttemptState → List AttemptState
  | .reserved => [.dispatching, .cancelled]
  | .dispatching => [.streaming, .providerCompleted, .providerFailed, .completionUncertain, .cancelled]
  | .streaming => [.providerCompleted, .providerFailed, .completionUncertain, .cancelled]
  | .providerCompleted => [.canonicalCommitted, .cancelled]
  | .providerFailed => []
  | .completionUncertain => []
  | .canonicalCommitted => []
  | .cancelled => []

def assertTransition (current next : AttemptState) : Except Failure Unit :=
  if next ∈ transitions current then .ok ()
  else .error (.stateConflict
    s!"AI attempt cannot transition from {current.text} to {next.text}.")

def validatePrincipal (principal : Principal) (agentRunId : String) : Except Failure Unit :=
  if principal.kind ≠ "execution" || principal.executionKind ≠ "agent"
      || principal.executionId ≠ agentRunId then
    .error (.protocolConflict (s!"AI invocation agent run {agentRunId} requires its distinct " ++
      "admitted agent execution principal."))
  else if principal.workloadIdentityKind ≠ "workload"
      || principal.serviceIdentityKind ≠ some "service" then
    .error (.protocolConflict ("AI execution principal must preserve separate workload and " ++
      "logical service identities."))
  else .ok ()

/-- `ApplicationAIInvocationReservation`. -/
structure InvocationReservation where
  invocationId : String
  conversationId : String
  protocolRunId : String
  agentRunId : String
  logicalModel : String
  request : Json
  admittedPrincipal : Principal

/-- `ApplicationAIAttemptReservation`. -/
structure AttemptReservation where
  invocationId : String
  redactedRequestMetadata : Json
  route : ResolvedRoute
  /-- `retry: 'if-replay-safe'`. -/
  retryIfReplaySafe : Bool

inductive Action where
  | dispatch
  | join
  | returnTerminal
  | escalate
  deriving DecidableEq

/-- `ApplicationAIAttemptDecision`. -/
structure AttemptDecision where
  action : Action
  invocation : InvocationRecord
  attempt : AttemptRecord

/-- The third argument of `transition`. -/
structure Transition where
  state : AttemptState
  recovery : Recovery
  providerRequestId : Option String
  deliveryLogReference : Option String
  usage : Option Json
  terminalReason : Option String

/-- `ApplicationAIToolProposalInput`. -/
structure ToolProposalInput where
  invocationId : String
  attemptId : String
  providerToolCallId : String
  operationId : String
  operationVersion : String
  arguments : Json
  grantReservationId : Option String

/-- `applicationAIDigest`: `sha256:` and the SHA-256 of the canonical JSON. -/
abbrev Digest := Json → String

/-- What `reserveInvocation` does in its transaction. -/
def reserveInvocation (digest : Digest) (input : InvocationReservation) :
    AttemptProgram InvocationRecord := do
  let requestHash := digest input.request
  match ← ask .getInvocation with
  | some existing =>
    if existing.requestHash ≠ requestHash || existing.conversationId ≠ input.conversationId
        || existing.protocolRunId ≠ input.protocolRunId || existing.agentRunId ≠ input.agentRunId
        || existing.logicalModel ≠ input.logicalModel
        || existing.admittedPrincipal.id ≠ input.admittedPrincipal.id then
      .throw (.protocolConflict (s!"AI invocation {input.invocationId} was reused with another " ++
        "request or execution identity."))
    else return existing
  | none =>
    let now ← ask .now
    let id ← Program.check (nonEmpty input.invocationId "invocationId")
    let conversationId ← Program.check (nonEmpty input.conversationId "conversationId")
    let protocolRunId ← Program.check (nonEmpty input.protocolRunId "protocolRunId")
    let agentRunId ← Program.check (nonEmpty input.agentRunId "agentRunId")
    let logicalModel ← Program.check (nonEmpty input.logicalModel "logicalModel")
    let invocation : InvocationRecord :=
      { id, conversationId, protocolRunId, agentRunId, logicalModel, requestHash
        admittedPrincipal := input.admittedPrincipal
        authorityRevision := input.admittedPrincipal.authorityRevision
        state := .active
        currentAttemptId := none
        canonicalMessageId := none
        createdAt := now
        updatedAt := now }
    putInvocation invocation
    return invocation

variable (attempts : List AttemptRecord)

/-- The current attempt, or the one of the last ordinal. -/
def currentAttempt :
    AttemptProgram (Option AttemptRecord) :=
  match whenTruthy invocation.currentAttemptId with
  | some attemptId => ask (.getAttempt attemptId)
  | none => return attempts.getLast?

/-- The tests of a current attempt, in their order: whether the reservation ends with it. -/
def decideCurrent (current : AttemptRecord) :
    Except Failure (Option Action) :=
  if current.route.policyRevision ≠ input.route.policyRevision then
    .error (.protocolConflict (s!"AI invocation {input.invocationId} cannot silently change " ++
      s!"routing policy from {current.route.policyRevision} to {input.route.policyRevision}."))
  else if current.state = .reserved || current.state = .dispatching || current.state = .streaming
      || current.state = .providerCompleted then .ok (some .join)
  else if current.state = .canonicalCommitted || current.state = .cancelled then
    .ok (some .returnTerminal)
  else if current.state = .completionUncertain || current.recovery = .uncertain then
    .ok (some .escalate)
  else if current.state = .providerFailed
      && (current.recovery ≠ .replaySafe || !input.retryIfReplaySafe) then
    .ok (some .returnTerminal)
  else .ok none

def dispatchAttempt (count : Nat) :
    AttemptProgram AttemptDecision := do
  if invocation.state ≠ .active then
    .throw (.stateConflict (s!"AI invocation {input.invocationId} is {invocation.state.text} and " ++
      "cannot reserve another attempt."))
  else
    let now ← ask .now
    let id ← ask (.nextId "attempt")
    let attempt : AttemptRecord :=
      { id
        invocationId := invocation.id
        ordinal := count + 1
        state := .reserved
        recovery := .joinable
        requestHash := invocation.requestHash
        redactedRequestMetadata := input.redactedRequestMetadata
        route := input.route
        providerRequestId := none
        streamFrontier := 0
        deliveryLogReference := none
        usage := none
        terminalReason := none
        version := 1
        createdAt := now
        updatedAt := now }
    let updated := updateInvocation invocation now .active (some attempt.id) none
    putAttempt attempt
    putInvocation updated
    return ⟨.dispatch, updated, attempt⟩

/-- `attempts.slice().sort((left, right) => left.ordinal - right.ordinal)`. -/
def byOrdinal : List AttemptRecord :=
  attempts.insertionSort fun left right => left.ordinal ≤ right.ordinal

def reserveAttempt : AttemptProgram AttemptDecision := do
  let invocation ← requireInvocation input.invocationId
  let attempts := byOrdinal (← ask .listAttempts)
  match ← currentAttempt invocation attempts with
  | some current =>
    match ← Program.check (decideCurrent input current) with
    | some action => return ⟨action, invocation, current⟩
    | none => dispatchAttempt input invocation attempts.length
  | none => dispatchAttempt input invocation attempts.length

variable (invocationId attemptId : String)

def transition (expectedVersion : Nat) (target : Transition) :
    AttemptProgram AttemptRecord := do
  let invocation ← requireInvocation invocationId
  let current ← requireAttempt attemptId
  if current.invocationId ≠ invocationId || invocation.currentAttemptId ≠ some attemptId then
    .throw (.stateConflict s!"AI attempt {attemptId} is not the current attempt for {invocationId}.")
  else if current.version ≠ expectedVersion then
    .throw (.stateConflict (s!"AI attempt {attemptId} expected version {expectedVersion}, " ++
      s!"observed {current.version}."))
  else
    Program.check (assertTransition current.state target.state)
    let now ← ask .now
    let updated : AttemptRecord :=
      { current with
        state := target.state
        recovery := target.recovery
        providerRequestId := (whenTruthy target.providerRequestId).or current.providerRequestId
        deliveryLogReference :=
          (whenTruthy target.deliveryLogReference).or current.deliveryLogReference
        usage := target.usage.or current.usage
        terminalReason := (whenTruthy target.terminalReason).or current.terminalReason
        version := current.version + 1
        updatedAt := now }
    putAttempt updated
    putInvocation (updateInvocation invocation now (invocationStateForAttempt updated.state updated.recovery) none none)
    return updated

def appendDelta (event : Json) : AttemptProgram StreamDelta := do
  let invocation ← requireInvocation invocationId
  let attempt ← requireAttempt attemptId
  if invocation.state = .cancelled || attempt.state = .cancelled
      || attempt.state = .canonicalCommitted then
    .throw (.stateConflict s!"AI attempt {attemptId} cannot accept provider output after {attempt.state.text}.")
  else if attempt.state ≠ .streaming && attempt.state ≠ .dispatching then
    .throw (.stateConflict s!"AI attempt {attemptId} cannot append a delta while {attempt.state.text}.")
  else
    let now ← ask .now
    let delta : StreamDelta := ⟨attemptId, attempt.streamFrontier + 1, event, now⟩
    let updated : AttemptRecord :=
      { attempt with
        state := .streaming
        recovery := .joinable
        streamFrontier := delta.sequence
        version := attempt.version + 1
        updatedAt := delta.createdAt }
    appendDeltaRecord delta
    putAttempt updated
    return delta

def commitCanonicalResult (invocationId attemptId messageId : String) :
    AttemptProgram AttemptRecord := do
  let invocation ← requireInvocation invocationId
  let attempt ← requireAttempt attemptId
  if attempt.state ≠ .providerCompleted then
    .throw (.stateConflict s!"AI attempt {attemptId} must be provider-completed before canonical commit.")
  else if invocation.state = .cancelled then
    .throw (.stateConflict s!"AI invocation {invocationId} was cancelled before canonical commit.")
  else
    let now ← ask .now
    let updated : AttemptRecord :=
      { attempt with
        state := .canonicalCommitted
        recovery := .terminal
        version := attempt.version + 1
        updatedAt := now }
    putAttempt updated
    let messageId ← Program.check (nonEmpty messageId "messageId")
    putInvocation (updateInvocation invocation now .completed none (some messageId))
    return updated

/-- The current attempt of a cancelled invocation is cancelled, unless it is committed. -/
def cancelCurrent (reason now : String) : AttemptProgram Unit := do
  match whenTruthy invocation.currentAttemptId with
  | none => return ()
  | some attemptId =>
    let current ← requireAttempt attemptId
    if current.state = .canonicalCommitted then return ()
    else
      let terminalReason ← Program.check (nonEmpty reason "cancellation reason")
      putAttempt
        { current with
          state := .cancelled
          recovery := .terminal
          terminalReason := some terminalReason
          version := current.version + 1
          updatedAt := now }

def cancel (invocationId reason : String) : AttemptProgram InvocationRecord := do
  let invocation ← requireInvocation invocationId
  if invocation.state = .completed then
    .throw (.stateConflict s!"Completed AI invocation {invocationId} cannot be cancelled.")
  else if invocation.state = .cancelled then return invocation
  else
    let now ← ask .now
    cancelCurrent invocation reason now
    let updated := updateInvocation invocation now .cancelled none none
    putInvocation updated
    return updated

/-- What `reserveToolProposal` does in its transaction. -/
def reserveToolProposal (digest : Digest) (input : ToolProposalInput) :
    AttemptProgram ToolProposalRecord := do
  let argumentsHash := digest input.arguments
  let proposalIdentity := digest (.object [
    ("invocationId", .string input.invocationId), ("attemptId", .string input.attemptId),
    ("providerToolCallId", .string input.providerToolCallId),
    ("operationId", .string input.operationId),
    ("operationVersion", .string input.operationVersion),
    ("argumentsHash", .string argumentsHash)])
  let proposalId := "proposal_" ++ (proposalIdentity.dropPrefix "sha256:").toString
  let invocation ← requireInvocation input.invocationId
  let attempt ← requireAttempt input.attemptId
  if invocation.currentAttemptId ≠ some attempt.id || attempt.state = .cancelled
      || attempt.state = .providerFailed || attempt.state = .completionUncertain then
    .throw (.stateConflict (s!"AI attempt {attempt.id} cannot reserve a tool proposal while " ++
      s!"{attempt.state.text}."))
  else
    match ← ask (.getToolProposal attempt.id input.providerToolCallId) with
    | some existing =>
      if existing.operationId ≠ input.operationId
          || existing.operationVersion ≠ input.operationVersion
          || existing.argumentsHash ≠ argumentsHash then
        .throw (.protocolConflict (s!"Provider tool-call {input.providerToolCallId} was reused " ++
          s!"with another operation or arguments in attempt {attempt.id}."))
      else return existing
    | none =>
      let commandId ← ask (.nextId "command")
      let providerToolCallId ← Program.check (nonEmpty input.providerToolCallId "providerToolCallId")
      let operationVersion ← Program.check (nonEmpty input.operationVersion "operationVersion")
      let createdAt ← ask .now
      let proposal : ToolProposalRecord :=
        { id := proposalId
          invocationId := input.invocationId
          attemptId := input.attemptId
          providerToolCallId
          operationId := input.operationId
          operationVersion
          argumentsHash
          commandId
          grantReservationId := whenTruthy input.grantReservationId
          createdAt }
      putToolProposal proposal
      return proposal

/-- What `observe` tells. -/
structure Observation where
  invocation : InvocationRecord
  attempts : List AttemptRecord
  deltas : List StreamDelta

def observe (invocationId : String) : AttemptProgram Observation := do
  let invocation ← requireInvocation invocationId
  let attempts ← ask .listAttempts
  let deltas ← Program.collect attempts fun attempt => ask (.listDeltas attempt.id)
  return ⟨invocation, attempts, deltas.flatten⟩

end Applik8s.AI
