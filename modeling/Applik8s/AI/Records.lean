import Applik8s.Lib.Json
import Applik8s.Lib.Record
import Applik8s.Platform

/-! The durable records of AI invocations, their physical attempts, stream deltas and tool
proposals: `packages/ai/src/contracts.ts`. Texts hold no U+0000, which PostgreSQL has no place
for. -/
namespace Applik8s.AI

/-- `ApplicationAIAttemptState`. -/
inductive AttemptState where
  | reserved
  | dispatching
  | streaming
  | providerCompleted
  | providerFailed
  | completionUncertain
  | canonicalCommitted
  | cancelled
  deriving DecidableEq

def AttemptState.text : AttemptState → String
  | .reserved => "reserved"
  | .dispatching => "dispatching"
  | .streaming => "streaming"
  | .providerCompleted => "provider-completed"
  | .providerFailed => "provider-failed"
  | .completionUncertain => "completion-uncertain"
  | .canonicalCommitted => "canonical-committed"
  | .cancelled => "cancelled"

/-- `ApplicationAIAttemptRecoveryClass`. -/
inductive Recovery where
  | joinable
  | replaySafe
  | uncertain
  | terminal
  deriving DecidableEq

inductive InvocationState where
  | active
  | completed
  | failed
  | uncertain
  | cancelled
  deriving DecidableEq

def InvocationState.text : InvocationState → String
  | .active => "active"
  | .completed => "completed"
  | .failed => "failed"
  | .uncertain => "uncertain"
  | .cancelled => "cancelled"

/-- `ApplicationExecutionPrincipal`, as far as the runtime reads it; the rest is carried along. -/
structure Principal where
  kind : String
  id : String
  executionKind : String
  executionId : String
  workloadIdentityKind : String
  serviceIdentityKind : Option String
  authorityRevision : String
  rest : Json

/-- `ApplicationAIResolvedRoute`. -/
structure ResolvedRoute where
  policyRevision : String
  logicalModel : String
  providerClass : String
  backend : String
  concreteModel : String
  concreteModelVersion : Option String
  capabilities : List String
  route : String
  pricingRevision : Option String
  fallbackChain : List String

/-- `ApplicationAIInvocationRecord`. -/
structure InvocationRecord where
  id : String
  conversationId : String
  protocolRunId : String
  agentRunId : String
  logicalModel : String
  requestHash : String
  admittedPrincipal : Principal
  authorityRevision : String
  state : InvocationState
  currentAttemptId : Option String
  canonicalMessageId : Option String
  createdAt : String
  updatedAt : String

/-- `ApplicationAIAttemptRecord`. -/
structure AttemptRecord where
  id : String
  invocationId : String
  ordinal : Nat
  state : AttemptState
  recovery : Recovery
  requestHash : String
  redactedRequestMetadata : Json
  route : ResolvedRoute
  providerRequestId : Option String
  streamFrontier : Nat
  deliveryLogReference : Option String
  usage : Option Json
  terminalReason : Option String
  version : Nat
  createdAt : String
  updatedAt : String

/-- `ApplicationAIStreamDelta`. -/
structure StreamDelta where
  attemptId : String
  sequence : Nat
  event : Json
  createdAt : String

/-- `ApplicationAIToolProposalRecord`. -/
structure ToolProposalRecord where
  id : String
  invocationId : String
  attemptId : String
  providerToolCallId : String
  operationId : String
  operationVersion : String
  argumentsHash : String
  commandId : String
  grantReservationId : Option String
  createdAt : String

inductive Failure where
  /-- `ApplicationAIProtocolConflictError`. -/
  | protocolConflict (message : String)
  /-- `ApplicationAIStateConflictError`. -/
  | stateConflict (message : String)
  | plain (message : String)
  deriving DecidableEq

def nonEmpty (value name : String) : Except Failure String :=
  if blank value then .error (.protocolConflict s!"AI {name} must not be empty.") else .ok value

end Applik8s.AI
