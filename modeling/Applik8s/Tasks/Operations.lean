import Applik8s.Platform
import Applik8s.Lib.Crowd
import Applik8s.Lib.Json

/-! The operations that a task may call, from `task-operation-runtime.ts`. A call publishes a command and
waits for the durable result of its scope; a processor executes each scope once. -/
namespace Applik8s.Tasks
open Lib

/-- `ApplicationCommandKey`; the values of a record as `String` gives them. -/
inductive CommandKey where
  | scalar (text : String)
  | record (entries : List (String × String))

/-- `ApplicationTaskOperationRuntimeContract`. -/
structure Command where
  id : String
  bindingId : String
  model : String
  inputSchema : Json
  databaseUrl : String
  key : Json → CommandKey
  idempotencyKey : Option (Json → String)

/-- `ApplicationTaskOperationAliasBinding`. -/
inductive AliasBinding where
  | plain (commandId : String)
  | bound (commandId operationId : String) (boundKeys : List String) (project : Option (Json → Json))
      (envelope : Option Json)

def AliasBinding.commandId : AliasBinding → String
  | .plain commandId | .bound commandId .. => commandId

def AliasBinding.envelope : AliasBinding → Option Json
  | .plain _ => none
  | .bound _ _ _ _ envelope => envelope

structure Principal where
  id : String
  catalogRevision : String
  authorityRevision : String
  trustedContext : Option Json

structure TrustedContext where
  values : Json
  digest : String
  changeScopes : List (String × String)
  deriving DecidableEq

/-- `trustedContext` of an invocation, whose change scopes may be missing. -/
structure InheritedContext where
  values : Json
  digest : String
  changeScopes : Option (List (String × String))

/-- `ApplicationTaskOperationInvocation`. -/
structure Invocation where
  invocationId : String
  idempotencyKey : String
  correlationId : Option String
  causationId : Option String
  traceparent : Option String
  cancellationRevision : Option String
  trustedContext : Option InheritedContext

structure CallOptions where
  idempotencyKey : Option String := none
  expectedRevision : Option String := none

structure Call where
  aliases : List (String × AliasBinding)
  principal : Principal
  invocation : Invocation
  source : Json
  «alias» : String
  input : List (String × Json)
  options : CallOptions

structure Routing where
  binding : String
  targetKey : String
  idempotencyKey : String
  deriving DecidableEq

structure Envelope where
  id : String
  contract : String × String
  payload : Json
  recordedAt : String
  correlationId : String
  causationId : Option String
  traceparent : Option String
  partitionKey : String
  routing : Routing
  expectedRevision : Option String
  authorizationReceipt : Option Json
  trustedContext : TrustedContext
  deriving DecidableEq

/-- A row of `applik8s_command_results`. -/
structure Result where
  output : Json
  error : Option Json
  deriving DecidableEq

inductive Failure where
  | other (message : String)
  | authority (code operationId message : String)
  | rejected (command name : String) (payload : Json)
  | failed (command code : String)
  | timeout (command : String) (timeoutMs : Nat)
  | aborted
  deriving DecidableEq

structure AuthorityRequest where
  envelope : Option Json
  operationId : String
  model : String
  targetKey : String
  inputDigest : String
  trustedContextDigest : String
  idempotencyKey : String
  commandId : String
  targetDigest : String
  cancellationRevision : Option String

inductive Verdict where
  | allowed (receipt : Json)
  | denied (code message : String)
  deriving DecidableEq

/-- The platform, what the context of a principal comes to, and the options of the runtime. -/
structure Runtime where
  dates : Dates
  sha256 : String → String
  /-- `JSON.stringify` of an array of strings. -/
  stringify : List String → String
  stableJson : Json → String
  encodeURIComponent : String → String
  localeBefore : String → String → Bool
  /-- `normalizeSchema(…).validate`, with the message of an error. -/
  validate : Json → Json → Except String Json
  contextValues : Principal → Json → Json
  contextDigest : Json → String
  changeScopes : Json → List (String × String)
  commands : List Command
  distinct : (commands.map (·.id)).Nodup
  authorizesExecution : Bool
  authorizesOperation : Bool
  resultTimeoutMs : Nat

section
variable (runtime : Runtime)

def canonicalApplicationCommandKey : CommandKey → String
  | .scalar text => text
  | .record entries => join "&" <|
    (entries.insertionSort fun left right => !runtime.localeBefore right.1 left.1).map fun (key, item) =>
      runtime.encodeURIComponent key ++ "=" ++ runtime.encodeURIComponent item

variable (bindingId model targetKey idempotencyKey contextDigest : String)

/-- The text that `applicationCommandScope` hashes. -/
def scopeText : String :=
  runtime.stringify ["v2", bindingId, model, targetKey, idempotencyKey, contextDigest]

def applicationCommandScope : String :=
  "sha256:" ++ runtime.sha256 (scopeText runtime bindingId model targetKey idempotencyKey contextDigest)

/-- The text that `stableCommandId` hashes. -/
def commandText (invocationId «alias» idempotencyKey : String) : String :=
  invocationId ++ "\x00" ++ «alias» ++ "\x00" ++ idempotencyKey

variable (call : Call) (resolved : Resolved) (command : Command) (text : String)

def Runtime.digest32 : String := String.ofList ((runtime.sha256 text).toList.take 32)

def stableCommandId (invocationId «alias» idempotencyKey : String) : String :=
  "task:" ++ runtime.digest32 (commandText invocationId «alias» idempotencyKey)

def digestJson (value : Json) : String := "sha256:" ++ runtime.sha256 (runtime.stableJson value)

/-- `/^(.*)\.(v[1-9][0-9]*)$/`. -/
def splitVersion (id : String) : Option (String × String) :=
  let reversed := id.toList.reverse
  let version := (reversed.takeWhile (· ≠ '.')).reverse
  match reversed.dropWhile (· ≠ '.'), version with
  | '.' :: name, 'v' :: first :: rest =>
    if name ≠ [] && name.all (fun c => c ∉ ['\n', '\r', Char.ofNat 0x2028, Char.ofNat 0x2029]) &&
        first.isDigit && first ≠ '0' && rest.all Char.isDigit then
      some (String.ofList name.reverse, String.ofList version)
    else none
  | _, _ => none

def commandContract (id : String) : Except Failure (String × String) :=
  match splitVersion id with
  | some contract => .ok contract
  | none => .error (.other s!"Application task operation {id} is not versioned.")

def isHexDigest : Bool :=
  text.toList.length = 64 && text.toList.all fun c => c.isDigit || ('a' ≤ c && c ≤ 'f') || ('A' ≤ c && c ≤ 'F')

def validRelationalChangeScopes (scopes : List (String × String)) : Bool :=
  (scopes.any fun scope => scope.1 = "global") && scopes.all fun scope => isHexDigest scope.2

def completeBoundInput (name operationId : String) (boundKeys : List String)
    (project : Option (Json → Json)) (source : Json) (supplied : List (String × Json)) :
    Except Failure Json :=
  if boundKeys = [] then .ok (.object supplied)
  else
    let overridden := boundKeys.filter fun key => supplied.any (·.1 = key)
    if overridden ≠ [] then
      .error (.authority "AUTHORITY_BOUND_FIELD_OVERRIDE" operationId
        (s!"Task operation {name} caller attempted to override execution-bound field(s): " ++
          join ", " overridden ++ "."))
    else
      match project with
      | none => .error (.authority "AUTHORITY_EXECUTION_BINDING_MISSING" operationId
          s!"Task operation {name} declares bound keys without a generated projection.")
      | some project =>
        match project source with
        | .object projected =>
          let expected := sortStrings boundKeys
          let actual := sortStrings (projected.map (·.1))
          if expected ≠ actual then
            .error (.authority "AUTHORITY_EXECUTION_BINDING_INVALID" operationId
              (s!"Task operation {name} execution projection changed its key set; expected " ++
                join ", " expected ++ ", received " ++ join ", " actual ++ "."))
          else .ok (.object (supplied ++ projected))
        | _ => .error (.authority "AUTHORITY_EXECUTION_BINDING_INVALID" operationId
            s!"Task operation {name} execution projection did not return an object.")

def completeInput : AliasBinding → Except Failure Json
  | .plain _ => .ok (.object call.input)
  | .bound _ operationId boundKeys project _ =>
    completeBoundInput call.alias operationId boundKeys project call.source call.input

def validateInput (input : Json) : Except Failure Json :=
  match runtime.validate command.inputSchema input with
  | .error message => .error (.other
      s!"Application task operation {command.id} input validation failed: {message}")
  | .ok (.object members) => .ok (.object members)
  | .ok _ => .error (.other (s!"Application task operation {command.id} input validation failed: " ++
      "the validated input was not an object."))

def validatePrincipal (principal : Principal) : Except Failure Unit :=
  if blank principal.id || blank principal.catalogRevision || blank principal.authorityRevision then
    .error (.other "Application task operation principal requires one canonical admitted principal.")
  else .ok ()

/-- What `bind` works out before it binds an alias: the context of the commands. -/
def bindContext : Except Failure TrustedContext := do
  validatePrincipal call.principal
  if blank call.invocation.invocationId || blank call.invocation.idempotencyKey then
    .error (.other "Application task operation invocation identity is incomplete.")
  else
    let inherited := call.invocation.trustedContext
    let values := runtime.contextValues call.principal
      ((inherited.map (·.values)).getD (call.principal.trustedContext.getD (.object [])))
    let digest := (inherited.map (·.digest)).getD (runtime.contextDigest values)
    if !isHexDigest digest then
      .error (.other "Application task operation inherited an invalid trusted-context digest.")
    else
      let changeScopes := (inherited.bind (·.changeScopes)).getD (runtime.changeScopes values)
      if !validRelationalChangeScopes changeScopes then
        .error (.other "Application task operation inherited invalid relational change scopes.")
      else if call.aliases.any (·.2.envelope.isSome) && !runtime.authorizesExecution then
        .error (.other ("Application task operation runtime received workload envelopes without " ++
          "execution authority callbacks."))
      else return { values, digest, changeScopes }

def findCommand (name : String) (binding : AliasBinding) : Except Failure Command :=
  match runtime.commands.find? (·.id = binding.commandId) with
  | some command => .ok command
  | none => .error (.other (s!"Application task operation alias {name} references undeclared command " ++
      s!"{binding.commandId}."))

/-- The binding of the alias that is called, once all aliases are known to name commands. -/
def bindAlias (call : Call) : Except Failure (AliasBinding × Command) := do
  call.aliases.forM fun (name, binding) => do
    let _ ← findCommand runtime name binding
  match call.aliases.find? (·.1 = call.alias) with
  | some (name, binding) => return (binding, ← findCommand runtime name binding)
  | none => .error (.other s!"operations.{call.alias} is not a function")

/-- The key that the command makes of its input, that the caller gives, or that of the invocation. -/
def chosenKey (input : Json) : String :=
  match command.idempotencyKey with
  | some key => key input
  | none => call.options.idempotencyKey.getD (call.invocation.idempotencyKey ++ ":" ++ call.alias)

structure Resolved where
  binding : AliasBinding
  command : Command
  context : TrustedContext
  input : Json
  targetKey : String
  idempotencyKey : String

def resolve : Except Failure Resolved := do
  let context ← bindContext runtime call
  let (binding, command) ← bindAlias runtime call
  let input ← validateInput runtime command (← completeInput call binding)
  let targetKey := canonicalApplicationCommandKey runtime (command.key input)
  let idempotencyKey := chosenKey call command input
  if blank idempotencyKey then
    .error (.other s!"Application task operation {call.alias} produced an empty idempotency key.")
  else return { binding, command, context, input, targetKey, idempotencyKey }

def Resolved.commandId : String :=
  stableCommandId runtime call.invocation.invocationId call.alias resolved.idempotencyKey

def Resolved.scope : String :=
  applicationCommandScope runtime resolved.command.bindingId resolved.command.model resolved.targetKey
    resolved.idempotencyKey resolved.context.digest

def Resolved.envelope (contract : String × String) (now : Int)
    (receipt : Option Json) : Envelope where
  id := resolved.commandId runtime call
  contract := contract
  payload := resolved.input
  recordedAt := runtime.dates.toISOString now
  correlationId := call.invocation.correlationId.getD call.invocation.invocationId
  causationId := whenTruthy call.invocation.causationId
  traceparent := whenTruthy call.invocation.traceparent
  partitionKey := resolved.targetKey
  routing := ⟨resolved.command.bindingId, resolved.targetKey, resolved.idempotencyKey⟩
  expectedRevision := whenTruthy call.options.expectedRevision
  authorizationReceipt := receipt
  trustedContext := resolved.context

/-- `durableRejection`, and what `waitForResult` throws for it. -/
def rejection (error : Json) : Failure :=
  let member (name : String) : Json → Option Json
    | .object members => members.lookup name
    | _ => none
  let name := match member "name" error with
    | some (.string text) => text
    | _ => "unknown"
  let payload := (member "payload" error).getD .null
  let code := if name = "internalFailure" then member "code" payload else none
  if code = some (.string "processing_failed") then .failed command.id "processing_failed"
  else if code = some (.string "authorization_denied") then .failed command.id "authorization_denied"
  else .rejected command.id name payload

end

section
/-- What a call asks: the clock and its signal, the authority, the event log, and the results. The last
call is the output that the caller receives. -/
inductive Request where
  | clock
  | aborted
  | authorize (request : AuthorityRequest)
  | verify
  | publish (envelope : Envelope)
  /-- How often the results are read until the deadline has passed. -/
  | rounds
  | select (databaseUrl scope : String)
  | sleep
  | receive (resolved : Resolved) (output : Json)
  | execute (position : Nat)

@[reducible] def Request.Reply : Request → Type
  | .clock => Int
  | .aborted => Bool
  | .authorize _ => Except Failure Verdict
  | .verify | .publish _ | .sleep => Except Failure Unit
  | .rounds => Nat
  | .select _ _ => Except Failure (Option Result)
  | .receive _ _ | .execute _ => Unit

def Task : Interface where
  Call := Request
  Reply := Request.Reply

abbrev TaskProgram (α : Type) := Program Task Failure α

def ask (request : Request) : TaskProgram request.Reply := .call request .done

def await {α : Type} (outcome : TaskProgram (Except Failure α)) : TaskProgram α := do
  Program.check (← outcome)

def throwIfAborted : TaskProgram Unit := do
  if ← ask .aborted then .throw .aborted else return ()

variable (runtime : Runtime)

def receiptOf (call : Call) (resolved : Resolved) : TaskProgram (Option Json) := do
  let request (operationId : String) (envelope cancellationRevision) : AuthorityRequest := {
    envelope, operationId, cancellationRevision
    model := resolved.command.model
    targetKey := resolved.targetKey
    inputDigest := digestJson runtime resolved.input
    trustedContextDigest := resolved.context.digest
    idempotencyKey := resolved.idempotencyKey
    commandId := resolved.commandId runtime call
    targetDigest := digestJson runtime (.object [("kind", .string "target"), ("model", .string resolved.command.model),
      ("identity", .object [("key", .string resolved.targetKey)])]) }
  let decided (request : AuthorityRequest) : TaskProgram (Option Json) := do
    match ← await (ask (.authorize request)) with
    | .allowed receipt => return some receipt
    | .denied code message => .throw (.authority code request.operationId message)
  match resolved.binding with
  | .bound _ operationId _ _ (some envelope) =>
    decided (request operationId (some envelope)
      (some (call.invocation.cancellationRevision.getD ("active:" ++ call.invocation.invocationId))))
  | .bound _ operationId _ _ none =>
    if runtime.authorizesOperation then decided (request operationId none none) else return none
  | .plain _ => return none

/-- One round of `waitForResult`: the result, if there is one, else the next round. -/
def readResult (resolved : Resolved) (next : TaskProgram Json) : TaskProgram Json := do
  throwIfAborted
  match ← await (ask (.select resolved.command.databaseUrl (resolved.scope runtime))) with
  | some result =>
    match result.error with
    | some error => .throw (rejection resolved.command error)
    | none => return result.output
  | none => next

def poll (resolved : Resolved) : Nat → TaskProgram Json
  | 0 => readResult runtime resolved (.throw (.timeout resolved.command.id runtime.resultTimeoutMs))
  | rounds + 1 => readResult runtime resolved do
    await (ask .sleep)
    poll resolved rounds

def waitForResult (resolved : Resolved) : TaskProgram Json := do
  if blank resolved.context.digest then
    .throw (.other "Application command scope requires an admitted context digest.")
  else poll runtime resolved (← ask .rounds)

def callOperation (call : Call) : TaskProgram Unit := do
  throwIfAborted
  let resolved ← Program.check (resolve runtime call)
  let receipt ← receiptOf runtime call resolved
  await (ask .verify)
  let contract ← Program.check (commandContract resolved.command.id)
  let now ← ask .clock
  await (ask (.publish (resolved.envelope runtime call contract now receipt)))
  let output ← waitForResult runtime resolved
  ask (.receive resolved output)

end

section
/-- A command that was executed, with what it was executed on. -/
structure Execution where
  envelope : Envelope
  model : String
  result : Result

/-- The event log, the results of each database by scope, and what has been: the envelopes that were
published, kept or dropped, and what callers received. -/
structure World where
  log : List Envelope
  results : String → String → Option Execution
  published : List Envelope
  received : List (Resolved × Json)

/-- How a call is answered: the time, the signal, whether it takes effect, whether its answer comes, what
the authority says, how long the caller waits, and how a command ends. -/
structure Choice where
  now : Int
  aborted : Bool
  takes : Bool
  answers : Bool
  verdict : Verdict
  rounds : Nat
  result : Result

def lost {α : Type} : Except Failure α := .error (.other "connection lost")

def World.publish (envelope : Envelope) (world : World) : World :=
  { world with
    log := if world.log.any (·.id = envelope.id) then world.log else world.log ++ [envelope]
    published := world.published ++ [envelope] }

variable (runtime : Runtime)

def commandScope (command : Command) (envelope : Envelope) : String :=
  applicationCommandScope runtime command.bindingId command.model envelope.routing.targetKey
    envelope.routing.idempotencyKey envelope.trustedContext.digest

/-- A processor executes an envelope in the scope it names, unless that has a result. -/
def World.execute (position : Nat) (result : Result) (world : World) : World :=
  match world.log[position]? with
  | none => world
  | some envelope =>
    match runtime.commands.find? fun command => splitVersion command.id = some envelope.contract with
    | none => world
    | some command =>
      let scope := commandScope runtime command envelope
      if command.bindingId ≠ envelope.routing.binding || (world.results command.databaseUrl scope).isSome then
        world
      else { world with
        results := Function.update world.results command.databaseUrl
          (Function.update (world.results command.databaseUrl) scope (some ⟨envelope, command.model, result⟩)) }

def World.answer : (request : Request) → Choice → World → request.Reply × World
  | .clock, choice, world => (choice.now, world)
  | .aborted, choice, world => (choice.aborted, world)
  | .authorize _, choice, world => (if choice.answers then .ok choice.verdict else lost, world)
  | .verify, choice, world => (if choice.answers then .ok () else lost, world)
  | .sleep, choice, world => (if choice.aborted then .error .aborted else .ok (), world)
  | .publish envelope, choice, world =>
    (if choice.takes && choice.answers then .ok () else lost,
      if choice.takes then world.publish envelope else world)
  | .rounds, choice, world => (choice.rounds, world)
  | .select databaseUrl scope, choice, world =>
    (if choice.answers then .ok ((world.results databaseUrl scope).map (·.result)) else lost, world)
  | .receive resolved output, _, world => ((), { world with received := world.received ++ [(resolved, output)] })
  | .execute position, choice, world => ((), world.execute runtime position choice.result)

def server : Server Task World Choice := ⟨World.answer runtime⟩

inductive Operation where
  | invoke (call : Call)
  | execute (position : Nat)

def Operation.body : Operation → TaskProgram Unit
  | .invoke call => callOperation runtime call
  | .execute position => ask (.execute position)

abbrev System := Crowd Task World Failure Unit Operation
abbrev Event := CrowdEvent Operation Choice

def next : System → Event → System := Crowd.advance (server runtime) (Operation.body runtime)

def idle : System where
  world := ⟨[], fun _ _ => none, [], []⟩

end
end Applik8s.Tasks
