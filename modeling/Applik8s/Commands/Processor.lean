import Mathlib.Algebra.Group.Nat.Defs
import Applik8s.Lib.Json
import Applik8s.Lib.Record
import Applik8s.Lib.Script
import Applik8s.Platform

/-! The JetStream command processor: what one delivery of a command envelope does, up to the acknowledgement of the
message. Validation, execution, the terminal recorder, the release of the authorization and the publication of dead
letters are calls, each of which may fail before or behind its effect. -/
namespace Applik8s.Commands
open Lib

/-! ### Envelopes and bindings -/

structure Contract where
  name : String
  version : String
deriving DecidableEq

/-- `ApplicationMessageEnvelope`, as far as the processor reads it or passes it on. -/
structure Envelope where
  id : String
  contract : Contract
  payload : Json
  recordedAt : String
  tenant : Option String := none
  correlationId : Option String := none
  causationId : Option String := none
  traceparent : Option String := none
  routing : Record String := []
  expectedRevision : Option String := none
  trustedContext : Option Json := none
  authorizationReceipt : Option Json := none

structure Binding where
  bindingId : String
  contract : Contract
  revalidates : Bool
  releases : Bool
  records : Bool

structure ProcessorOptions where
  bindings : List Binding
  subjectPrefix : String
  databaseUrl : Option String := none
  maxAttempts : Option Int := none
  retryDelayMs : Option Nat := none
  maxRetryDelayMs : Option Nat := none

structure DeliveryOptions where
  id : String
  tenant : Option String
  correlationId : Option String
  causationId : Option String
  traceparent : Option String
  attempt : Nat
  recordedAt : String
  expectedRevision : Option String
  context : Option Json
  authorizationReceipt : Option Json
  targetKey : Option String
  idempotencyKey : Option String
  databaseUrl : Option String

variable (options : ProcessorOptions) (binding : Binding) (envelope : Envelope) (delivery : DeliveryOptions)
  (deliveryCount : Nat)

def deliveryOptions : DeliveryOptions where
  id := envelope.id
  tenant := whenTruthy envelope.tenant
  correlationId := whenTruthy envelope.correlationId
  causationId := whenTruthy envelope.causationId
  traceparent := whenTruthy envelope.traceparent
  attempt := deliveryCount
  recordedAt := envelope.recordedAt
  expectedRevision := whenTruthy envelope.expectedRevision
  context := envelope.trustedContext
  authorizationReceipt := envelope.authorizationReceipt
  targetKey := whenTruthy (envelope.routing.get "targetKey")
  idempotencyKey := whenTruthy (envelope.routing.get "idempotencyKey")
  databaseUrl := whenTruthy options.databaseUrl

inductive FailureCode where
  | processingFailed | authorizationDenied
deriving DecidableEq

inductive ProcessorError where
  | rejected (name : String) (payload : Json)
  | other (message : String)

def ProcessorError.message : ProcessorError → String
  | .rejected name _ => name
  | .other message => message

structure DeadLetter where
  subject : String
  msgID : String
  envelope : Envelope

inductive Request where
  | revalidateAuthorization (receipt : Json) (delivery : DeliveryOptions)
  | execute (payload : Json) (delivery : DeliveryOptions)
  | recordTerminalFailure (payload : Json) (delivery : DeliveryOptions) (code : FailureCode) (attempts : Nat)
  | releaseAuthorization (receipt : Json) (envelopeId : String)
  | publish (letter : DeadLetter)
  | ack
  | nak (delayMs : Nat)
  | term (reason : String)

/-- What a revalidation answers: allowed, or denied with a code and a message. -/
abbrev Authorization := Except (String × String) Unit

@[reducible] def Request.Reply : Request → Type
  | .revalidateAuthorization .. => Except String Authorization
  | .execute .. => Except ProcessorError Unit
  | .recordTerminalFailure .. | .releaseAuthorization .. | .publish _ => Except String Unit
  | .ack | .nak _ | .term _ => Unit

abbrev processorInterface : Interface := ⟨Request, Request.Reply⟩
abbrev Processor (α : Type) := Program processorInterface ProcessorError α

inductive Settled where
  | acked | retried | terminated
deriving DecidableEq

def awaited : Except String Unit → Processor Unit
  | .ok _ => .done ()
  | .error message => .throw (.other message)

def record (payload : Json) (delivery : DeliveryOptions) (code : FailureCode) (attempts : Nat) : Processor Unit :=
  .call (.recordTerminalFailure payload delivery code attempts) awaited

/-- `releaseAuthorization`: of an envelope without a receipt nothing is held. -/
def releaseAuthorization : Processor Unit :=
  match envelope.authorizationReceipt with
  | none => .done ()
  | some receipt =>
    if binding.releases then .call (.releaseAuthorization receipt envelope.id) awaited
    else .throw (.other ("applik8s-authorization-release-missing: Binding " ++ binding.bindingId ++
      " received a protected durable command without a catalog-reference releaser."))

/-- Runs of other characters than letters, digits, `_` and `-` become one dash. -/
def dashed : Bool → List Char → List Char
  | _, [] => []
  | open_, char :: rest =>
    if char.isLower || char.isDigit || char = '_' || char = '-' then char :: dashed false rest
    else if open_ then dashed true rest
    else '-' :: dashed true rest

def subjectToken (value : String) : String :=
  let kept := (dashed false (value.toList.map Char.toLower)).dropWhile (· = '-')
  let kept := (kept.reverse.dropWhile (· = '-')).reverse
  if kept = [] then "binding" else String.ofList kept

def deadLetter (subjectPrefix bindingId : String) (envelope : Envelope) (error : ProcessorError) : DeadLetter where
  subject := subjectPrefix ++ ".dead-letter." ++ subjectToken bindingId
  msgID := envelope.id ++ ":dead-letter"
  envelope :=
    { envelope with
      id := envelope.id ++ ":dead-letter"
      causationId := some envelope.id
      routing := (envelope.routing.set "deadLetterBinding" bindingId).set "failure" error.message }

def retryDelay (attempt initial maximum : Nat) : Nat := max 1 (min maximum (initial * 2 ^ (attempt - 1)))
def ack : Processor Settled := .call .ack fun _ => .done .acked

def denial : Except String Authorization → Processor (Option (String × String))
  | .ok (.ok _) => .done none
  | .ok (.error denial) => .done (some denial)
  | .error message => .throw (.other message)

/-- A receipt is validated once more before the command is executed. -/
def revalidate :
    Processor (Option (String × String)) :=
  match envelope.authorizationReceipt with
  | none => .done none
  | some receipt =>
    if binding.revalidates then .call (.revalidateAuthorization receipt delivery) denial
    else .throw (.other ("applik8s-authorization-revalidator-missing: Binding " ++ binding.bindingId ++
      " received a protected durable command without an execution revalidator."))

def executed : Except ProcessorError Unit → Processor Unit
  | .ok _ => .done ()
  | .error error => .throw error

/-- The `try` block behind the revalidation. -/
def carryOut :
    Option (String × String) → Processor Settled
  | some (code, message) =>
    if binding.records then do
      record envelope.payload delivery .authorizationDenied deliveryCount
      releaseAuthorization binding envelope
      ack
    else .throw (.other ("applik8s-authorization-denied: " ++ code ++ ": " ++ message))
  | none => do
    .call (.execute envelope.payload delivery) executed
    releaseAuthorization binding envelope
    ack

/-- The `try` block. -/
def attemptOnce :
    Processor Settled := do
  let delivery := deliveryOptions options envelope deliveryCount
  let denied ← revalidate binding envelope delivery
  carryOut binding envelope delivery deliveryCount denied

def ProcessorOptions.attemptLimit : Nat := (max 1 (options.maxAttempts.getD 5)).toNat

/-- The `catch` block. -/
def afterFailure (error : ProcessorError) : Processor Settled :=
  match error with
  | .rejected .. => do
    releaseAuthorization binding envelope
    ack
  | .other _ =>
    if deliveryCount < options.attemptLimit then
      .call (.nak (retryDelay deliveryCount (options.retryDelayMs.getD 100) (options.maxRetryDelayMs.getD 30000)))
        fun _ => .done .retried
    else do
      .call (.publish (deadLetter options.subjectPrefix binding.bindingId envelope error)) awaited
      if binding.records then
        record envelope.payload (deliveryOptions options envelope deliveryCount) .processingFailed deliveryCount
        releaseAuthorization binding envelope
        .call (.term "applik8s command attempts exhausted") fun _ => .done .terminated
      else .throw (.other ("applik8s-command-terminal-recorder-missing: Binding " ++ binding.bindingId ++
        " cannot durably record exhausted delivery " ++ envelope.id ++ "."))

/-- `handleJetStreamCommandMessage`, once the envelope is read and `info.deliveryCount` known. -/
def handleJetStreamCommandMessage (options : ProcessorOptions) (received : Except String Envelope)
    (deliveryCount : Nat) : Processor Settled :=
  match received with
  | .error _ => .call (.term "invalid applik8s command envelope") fun _ => .done .terminated
  | .ok envelope =>
    match options.bindings.find? (·.contract = envelope.contract) with
    | none => .call (.term "unknown applik8s command binding") fun _ => .done .terminated
    | some binding =>
      if truthy (envelope.routing.get "binding") ∧ envelope.routing.get "binding" ≠ some binding.bindingId then
        .call (.term "unknown applik8s command binding") fun _ => .done .terminated
      else do
        let deliveryCount := max 1 deliveryCount
        match ← (attemptOnce options binding envelope deliveryCount).attempt with
        | .ok settled => pure settled
        | .error error => afterFailure options binding envelope deliveryCount error

inductive Result where
  | completed (output : Json)
  | rejected (name : String) (payload : Json)
  | failed (code : FailureCode) (attempts : Nat)

/-- A dead letter that was published, and the result that was stored when it was. -/
structure Publication where
  letter : DeadLetter
  attempt : Nat
  standing : Option Result

structure World where
  result : Option Result := none
  /-- The catalog holds a reference of the envelope. -/
  referenced : Bool
  published : List Publication := []
  /-- How the message was acknowledged or terminated, one by one. -/
  settlements : List Settled := []

/-- What the environment decides of a call: whether the call fails, whether it had its effect by then, what a
revalidation finds, and what an execution that is the first comes to. -/
structure Choice where
  failure : Option String := none
  effective : Bool := true
  authorization : Authorization := .ok ()
  outcome : Except (String × Json) Json := .ok .null

def Choice.takesEffect (choice : Choice) : Bool := choice.effective || choice.failure.isNone

def Choice.reply (choice : Choice) : Except String Unit :=
  match choice.failure with
  | some message => .error message
  | none => .ok ()

def outcomeResult : Except (String × Json) Json → Result
  | .ok output => .completed output
  | .error (name, payload) => .rejected name payload

def World.store (world : World) (result : Result) : World :=
  { world with result := some (world.result.getD result) }

def FailureCode.text : FailureCode → String
  | .processingFailed => "processing_failed"
  | .authorizationDenied => "authorization_denied"

/-- What an execution answers from the durable result: a terminal failure is stored as an error as well. -/
def replay : Option Result → Except ProcessorError Unit
  | some (.rejected name payload) => .error (.rejected name payload)
  | some (.failed code attempts) =>
    .error (.rejected "internalFailure" (.object [("code", .string code.text), ("attempts", .number attempts)]))
  | _ => .ok ()

/-- The answers of the binding, the broker and the message at delivery number `attempt`. -/
def answer (attempt : Nat) (request : Request) (choice : Choice) (world : World) : request.Reply × World :=
  match request with
  | .revalidateAuthorization .. =>
    (match choice.failure with
      | some message => .error message
      | none => .ok choice.authorization, world)
  | .execute .. =>
    let after := if choice.takesEffect then world.store (outcomeResult choice.outcome) else world
    (match choice.failure with
      | some message => .error (.other message)
      | none => replay after.result, after)
  | .recordTerminalFailure _ _ code attempts =>
    (choice.reply, if choice.takesEffect then world.store (.failed code attempts) else world)
  | .releaseAuthorization .. => (choice.reply, if choice.takesEffect then { world with referenced := false } else world)
  | .publish letter =>
    (choice.reply,
      if choice.takesEffect then { world with published := world.published ++ [⟨letter, attempt, world.result⟩] }
      else world)
  | .ack => ((), { world with settlements := world.settlements ++ [.acked] })
  | .nak _ => ((), world)
  | .term _ => ((), { world with settlements := world.settlements ++ [.terminated] })

def processorServer (attempt : Nat) : Server processorInterface World Choice := ⟨answer attempt⟩

/-- One delivery: its count, and how its calls are answered up to where it is gone. -/
structure Delivery where
  count : Nat
  script : List Choice

def deliver (world : World) (delivery : Delivery) : World :=
  ((processorServer (max 1 delivery.count)).play
    (handleJetStreamCommandMessage options (.ok envelope) delivery.count) delivery.script world).2

end Applik8s.Commands
