import Applik8s.Lib.Program
import Applik8s.Signals.Records

/-! Acting on a signal: the methods `hydrateApplicationSignal` gives a reference, and the
gateway that serves them over HTTP. Both see the store only through `read` and
`resolve`. -/
namespace Applik8s.Signals
open Lib

inductive StoreCall where
  | read (id : String)
  | resolve (request : ResolutionRequest) (authorize : Option ResolutionAuthorizer)
      (finalize : TerminalFinalizer)

@[reducible] def StoreCall.Reply : StoreCall → Type
  | .read _ => Except Failure (Option StoredInstance)
  | .resolve .. => Except Failure (StoredInstance × Replay)

abbrev StoreInterface : Interface := ⟨StoreCall, StoreCall.Reply⟩

/-- `ApplicationSignalOutcome`. -/
inductive Outcome where
  | resolved (action : String) (input : Json) (actor : Actor) (receipt : Receipt) (decidedAt : String)
      (signal : SignalReference)
  | expired (signal : SignalReference) (expiredAt : String)
  deriving DecidableEq

inductive TerminalStatus where
  | resolved | expired
  deriving DecidableEq

/-- `ApplicationSignalActionResult`. -/
inductive ActionResult where
  | resolved (outcome : Outcome) (receipt : Receipt)
  | alreadyResolved (status : TerminalStatus) (decidedAt : String)
  deriving DecidableEq

inductive ActionFailure where
  | aborted
  /-- `ApplicationSignalInputValidationError`. -/
  | invalidInput (message : String)
  | failed (failure : Failure)
  deriving DecidableEq

abbrev ActionProgram := Program StoreInterface ActionFailure

def signalOutcome (reference : SignalReference) (signal : StoredInstance) : Except Failure Outcome :=
  match signal.terminal with
  | none => .error (.error s!"Signal {signal.id} is not terminal.")
  | some (.expired expiredAt) => .ok (.expired reference expiredAt)
  | some (.resolved action input actor receipt decidedAt) =>
    .ok (.resolved action input actor receipt decidedAt reference)

def losingResult (signal : StoredInstance) : Except Failure ActionResult :=
  match signal.terminal with
  | none => .error (.error s!"Signal {signal.id} has no terminal outcome.")
  | some (.expired expiredAt) => .ok (.alreadyResolved .expired expiredAt)
  | some (.resolved _ _ _ _ decidedAt) => .ok (.alreadyResolved .resolved decidedAt)

def signalActionResult (reference : SignalReference) (action : String) (signal : StoredInstance)
    (replay : Replay) : Except Failure ActionResult :=
  match signal.terminal with
  | some (.resolved won _ _ receipt _) =>
    if replay ≠ .terminal ∧ won = action then do
      return .resolved (← signalOutcome reference signal) receipt
    else losingResult signal
  | _ => losingResult signal

/-- One call of an action method of a hydrated signal, with the options of the hydration. -/
structure Attempt where
  definition : SignalDefinition
  reference : SignalReference
  actor : Actor
  action : String
  input : Json
  /-- `actionOptions.idempotencyKey`. -/
  idempotencyKey : Option String := none
  aborted : Bool := false
  now : String
  authorizeAction : StoredInstance → String → Actor → Json → Except Failure Receipt
  finalizeAction : TerminalFinalizer

def Attempt.authorizer (attempt : Attempt) : ResolutionAuthorizer := fun request current => do
  return some (← attempt.authorizeAction current request.action request.actor request.input)

namespace Actions

def read (id : String) : ActionProgram (Option StoredInstance) :=
  .call (.read id) fun reply => .check (reply.mapError .failed)

def resolve (request : ResolutionRequest) (authorize : ResolutionAuthorizer) (finalize : TerminalFinalizer) :
    ActionProgram (StoredInstance × Replay) :=
  .call (.resolve request (some authorize) finalize) fun reply => .check (reply.mapError .failed)

def validated (definition : SignalDefinition) (action : String) (input : Json) : Except ActionFailure Json :=
  match definition.actions.lookup action with
  | none => .error (.failed (.error s!"Signal {definition.id} no longer declares action {action}."))
  | some schema => match schema input with
    | .ok payload => .ok payload
    | .error message => .error (.invalidInput
        s!"applik8s-workflow-schema-invalid: {definition.id}.actions.{action}: {message}")

def derivedKey (host : Host) (id action : String) (actor : Actor) (payload : Json) : String :=
  stableSignalId host [id, action, actor.id, payload.text]

def resolutionOf (host : Host) (attempt : Attempt) (id : String) (payload : Json) : ResolutionRequest where
  id := id
  action := attempt.action
  input := payload
  actor := attempt.actor
  decidedAt := attempt.now
  idempotencyKey := attempt.idempotencyKey.getD (derivedKey host id attempt.action attempt.actor payload)

def act (host : Host) (attempt : Attempt) : ActionProgram ActionResult := do
  if attempt.aborted then .throw .aborted
  else match ← read attempt.reference.issuanceId with
    | none => .throw (.failed (.error s!"Signal {attempt.reference.issuanceId} no longer exists."))
    | some signal =>
      let payload ← .check (validated attempt.definition attempt.action attempt.input)
      let (resolved, replay) ← resolve (resolutionOf host attempt signal.id payload) attempt.authorizer
        attempt.finalizeAction
      .check ((signalActionResult attempt.reference attempt.action resolved replay).mapError .failed)

end Actions

structure Identity where
  actor : Actor
  principal : Json

structure Route where
  contractId : String
  signalId : String
  action : Option String

inductive ResponseBody where
  | error (code : String)
  | issuance (payload : FactPayload)
  | result (value : ActionResult)
  deriving DecidableEq

structure Response where
  body : ResponseBody
  status : Nat
  allow : Option String := none
  deriving DecidableEq

/-- A request as the gateway takes it apart: its route if it has one, and the input and
key of its body or the response a bad body gets (`boundedSignalJson`). -/
structure GatewayRequest where
  route : Option Route
  method : String
  body : Except Response (Json × Option String)
  aborted : Bool := false

structure Gateway where
  definitions : List SignalDefinition
  authenticate : GatewayRequest → Option Identity
  authorizeRead : Identity → StoredInstance → Except Failure Bool
  /-- None is a denial. -/
  authorizeAction : Identity → StoredInstance → String → Json → Except Failure (Option Receipt)
  finalizeAction : TerminalFinalizer
  now : String

namespace Gateway
variable (host : Host) (gateway : Gateway) (request : GatewayRequest) (definition : SignalDefinition)
  (signal : StoredInstance)

/-- `signalReference`, under the contract of the gateway's definition. -/
def referenceTo : SignalReference :=
  ⟨⟨definition.id, definition.name, definition.version⟩, signal.id, signal.expiresAt⟩

def signalIssuance : FactPayload :=
  .issuance signal.id signal.input (referenceTo definition signal) signal.issuedAt signal.expiresAt

def signalJson (body : ResponseBody) (status : Nat) : Response := { body, status }
def failure (code : String) (status : Nat) : Response := signalJson (.error code) status

def identify : Option Identity :=
  (gateway.authenticate request).filter fun identity => !blank identity.actor.id

def attemptOf (identity : Identity) (action : String) (input : Json) (idempotencyKey : Option String)
    (aborted : Bool) : Attempt where
  definition := definition
  reference := referenceTo definition signal
  actor := identity.actor
  action := action
  input := input
  idempotencyKey := whenTruthy idempotencyKey
  aborted := aborted
  now := gateway.now
  authorizeAction current action _ input := do
    match ← gateway.authorizeAction identity current action input with
    | some receipt => return receipt
    | none => .error .denied
  finalizeAction := gateway.finalizeAction

/-- The response to what an action came to; other failures are the server's. -/
def respond : Except ActionFailure ActionResult → Except ActionFailure Response
  | .ok value => .ok (signalJson (.result value) 200)
  | .error (.failed .denied) => .ok (failure "forbidden" 403)
  | .error (.invalidInput _) => .ok (failure "invalid_input" 400)
  | .error failed => .error failed

/-- The part of `handle` that is about one action. -/
def handleAction (identity : Identity) (action : String) : ActionProgram Response := do
  if request.method ≠ "POST" then
    return { failure "method_not_allowed" 405 with allow := some "POST" }
  else if (definition.actions.lookup action).isNone then return failure "not_found" 404
  else match request.body with
    | .error response => return response
    | .ok (input, idempotencyKey) =>
      let attempt := gateway.attemptOf definition signal identity action input idempotencyKey request.aborted
      let came ← (Actions.act host attempt).attempt
      .check (respond came)

def handle (host : Host) (gateway : Gateway) (request : GatewayRequest) : ActionProgram (Option Response) := do
  match request.route with
  | none => return none
  | some route =>
    match gateway.definitions.find? fun definition => definition.id = route.contractId with
    | none => return some (failure "not_found" 404)
    | some definition =>
      match (← Actions.read route.signalId).filter fun signal => signal.contract.id = definition.id with
      | none => return some (failure "not_found" 404)
      | some signal =>
        match gateway.identify request with
        | none => return some (failure "unauthenticated" 401)
        | some identity =>
          match route.action with
          | some action => return some (← gateway.handleAction host request definition signal identity action)
          | none =>
            if request.method ≠ "GET" then
              return some { failure "method_not_allowed" 405 with allow := some "GET" }
            else if ← .check ((gateway.authorizeRead identity signal).mapError .failed) then
              return some (signalJson (.issuance (signalIssuance definition signal)) 200)
            else return some (failure "forbidden" 403)

end Gateway
end Applik8s.Signals
