import Applik8s.Platform
import Applik8s.Lib.Crowd
import Applik8s.Lib.Json
import Applik8s.Lib.Table

/-! The pre-authentication flows of `runtime.ts` on the store of `memory.ts`: a flow is consumed together with
the admission of a provider's session, or the session is contained. -/
namespace Applik8s.Admission
open Lib

inductive FlowState where
  | active | consumed | cancelled | superseded
  deriving DecidableEq

/-- `ApplicationPreAuthenticationFlowRecord`, as far as it is read. -/
structure Flow where
  id : String
  provider : String
  providerFlowId : String
  browserBindingDigest : String
  csrfBindingDigest : String
  providerContinuityDigest : String
  networkBindingDigest : Option String
  oauth : Option Json
  allowedTransitions : List String
  completedTransitions : List String
  state : FlowState
  attempts : Nat
  maximumAttempts : Nat
  expiresAt : String
  consumedAt : Option String := none
  cancelledAt : Option String := none
  version : Nat

structure Binding where
  browserBinding : String
  csrfToken : String
  providerContinuity : String
  networkBinding : Option String

structure ProviderIdentity where
  id : String
  kind : String
  issuer : String
  subject : String

/-- `ApplicationProviderAuthenticationCompletion`; its evidence is not read. -/
structure Completion where
  provider : String
  providerFlowId : String
  providerSessionId : String
  providerIdentity : ProviderIdentity
  authenticationMethod : String
  assurance : List String
  completedAt : String
  expiresAt : Option String

structure Session where
  provider : String
  id : String
  deriving DecidableEq

def Completion.session (completion : Completion) : Session :=
  ⟨completion.provider, completion.providerSessionId⟩

structure Context where
  catalogRevision : String
  authorityRevision : String
  trustedContextDigest : String
  now : Option Int

/-- `ApplicationPrincipal`, as far as an admitted one is checked. -/
structure Principal where
  identityId : String
  kind : String
  trustedContextDigest : String
  catalogRevision : String
  authorityRevision : String

structure Receipt where
  id : String
  flowId : String
  provider : String
  providerCompletionKey : String
  providerSessionId : String
  principal : Principal
  authenticationMethod : String
  assurance : List String
  trustedContextDigest : String
  oauth : Option Json
  issuedAt : String
  expiresAt : Option String

def Receipt.session (receipt : Receipt) : Session := ⟨receipt.provider, receipt.providerSessionId⟩

inductive OrphanState where
  | pending | revoked | expired
  deriving DecidableEq

/-- `ApplicationOrphanedProviderSession`; the evidence of its resolution is not read. -/
structure Orphan where
  id : String
  flowId : String
  provider : String
  providerSessionId : String
  providerCompletionKey : String
  reason : String
  state : OrphanState
  createdAt : String
  resolvedAt : Option String := none
  version : Nat

def Orphan.session (orphan : Orphan) : Session := ⟨orphan.provider, orphan.providerSessionId⟩

instance : Keyed Orphan String := ⟨Orphan.id⟩

instance : Keyed Receipt String := ⟨Receipt.providerCompletionKey⟩

inductive SessionState where
  | active | revoked | expired | unknown
  deriving DecidableEq

inductive Failure where
  | flow (code message : String)
  | other (message : String)

/-- `error.message`. -/
def Failure.message : Failure → String
  | .flow _ message | .other message => message

/-- The platform, and the names of the provider adapters. -/
structure Runtime where
  dates : Dates
  /-- `digestValue`. -/
  sha256 : String → String
  /-- `createHmac('sha256', bindingSecret)`, of a kind and a value. -/
  hmac : String → String → String
  providers : List String

section
variable (runtime : Runtime)

def flowError {α : Type} (code message : String) : Except Failure α := .error (.flow code message)

def requiredString (value field : String) : Except Failure String :=
  if blank value then .error (.other s!"{field} must not be empty.") else .ok value

def normalizedUniqueStrings (values : List String) (field : String) : Except Failure (List String) := do
  let normalized ← values.mapM (requiredString · field)
  if normalized.Nodup then return normalized
  else .error (.other s!"{field} must not contain duplicates.")

def boundedInteger (value : Int) (field : String) (minimum maximum : Int) : Except Failure Nat :=
  if value < minimum ∨ maximum < value then
    .error (.other s!"{field} must be an integer between {minimum} and {maximum}.")
  else .ok value.toNat

def digest (kind value : String) : Except Failure String := do
  return runtime.hmac kind (← requiredString value s!"{kind} binding")

def timingSafeTextEqual (left right : String) : Bool := runtime.sha256 left = runtime.sha256 right

def requiredFlow : Option Flow → Except Failure Flow
  | some flow => .ok flow
  | none => flowError "FLOW_UNAVAILABLE" "Identity flow is unavailable."

/-- `#assertBound`. -/
def assertBound (flow : Flow) (binding : Binding) : Except Failure Unit := do
  let invalid := flowError "FLOW_BINDING_INVALID" s!"Identity flow {flow.id} binding is invalid."
  if !timingSafeTextEqual runtime flow.browserBindingDigest
      (← digest runtime "browser" binding.browserBinding) then invalid
  else if !timingSafeTextEqual runtime flow.csrfBindingDigest (← digest runtime "csrf" binding.csrfToken) then invalid
  else if !timingSafeTextEqual runtime flow.providerContinuityDigest
      (← digest runtime "provider-continuity" binding.providerContinuity) then
    flowError "PROVIDER_CONTINUITY_INVALID" s!"Identity flow {flow.id} provider continuity is invalid."
  else
    let network := flowError "FLOW_BINDING_INVALID"
      s!"Identity flow {flow.id} network binding is invalid."
    match whenTruthy flow.networkBindingDigest with
    | none => return ()
    | some networkBindingDigest =>
      match whenTruthy binding.networkBinding with
      | none => network
      | some networkBinding =>
        if !timingSafeTextEqual runtime networkBindingDigest
            (← digest runtime "network" networkBinding) then network
        else return ()

/-- The checks of `#activeBoundFlow` and `#activeOrConsumedBoundFlow` on the flow that was read. -/
def boundFlow (binding : Binding) (allowed : List FlowState) (now : Int) (read : Option Flow) :
    Except Failure Flow := do
  let flow ← requiredFlow read
  assertBound runtime flow binding
  if flow.state ∉ allowed || isExpired runtime.dates (some flow.expiresAt) now then
    flowError "FLOW_UNAVAILABLE" s!"Identity flow {flow.id} is unavailable."
  else return flow

/-- Whether the dates of a completion are some, in their order. -/
def temporalEvidence (completion : Completion) : Bool :=
  match runtime.dates.parse completion.completedAt, completion.expiresAt with
  | none, _ => false
  | some _, none => true
  | some completedAt, some expiresAt =>
    match runtime.dates.parse expiresAt with
    | some expires => completedAt < expires
    | none => false

def assertProviderCompletion (flow : Flow) (completion : Completion) : Except Failure Unit := do
  if completion.provider ≠ flow.provider || completion.providerFlowId ≠ flow.providerFlowId then
    flowError "PROVIDER_COMPLETION_INVALID" s!"Identity provider completion does not belong to flow {flow.id}."
  else
    let _ ← requiredString completion.providerSessionId "providerSessionId"
    let _ ← requiredString completion.authenticationMethod "authenticationMethod"
    let identity := completion.providerIdentity
    if blank identity.id || blank identity.issuer || blank identity.subject then
      flowError "PROVIDER_COMPLETION_INVALID" s!"Identity provider completion for {flow.id} has no normalized identity."
    else if !temporalEvidence runtime completion then
      flowError "PROVIDER_COMPLETION_INVALID"
        s!"Identity provider completion for {flow.id} has invalid temporal evidence."
    else return ()

def assertAdmittedPrincipal (principal : Principal) (completion : Completion) (context : Context) :
    Except Failure Unit :=
  if principal.identityId ≠ completion.providerIdentity.id ||
      principal.kind ≠ completion.providerIdentity.kind ||
      principal.trustedContextDigest ≠ context.trustedContextDigest ||
      principal.catalogRevision ≠ context.catalogRevision ||
      principal.authorityRevision ≠ context.authorityRevision then
    flowError "PROVIDER_COMPLETION_INVALID"
      "Identity principal admission changed provider identity or authority context."
  else .ok ()

def assertAttempts (flow : Flow) : Except Failure Unit :=
  if flow.maximumAttempts ≤ flow.attempts then
    flowError "FLOW_RATE_LIMITED" s!"Identity flow {flow.id} exhausted its attempt budget."
  else .ok ()

def providerCompletionKey (completion : Completion) : String :=
  "provider_completion_" ++ runtime.sha256 (join "\x00" [completion.provider, completion.providerFlowId,
    completion.providerSessionId, completion.providerIdentity.id])

def admissionDigest (flowId completionKey : String) : String :=
  String.ofList ((runtime.sha256 (join "\x00" [flowId, completionKey])).toList.take 40)

end

section
/-- What the runtime asks. `recover` is the read of the receipt after a failed commit; `orphaned` the error
that its caller then gets. -/
inductive Request where
  | clock
  | getFlow (flowId : String)
  | replaceFlow (flow : Flow) (expectedVersion : Nat)
  | getAdmissionReceipt (completionKey : String)
  | admitPrincipal (completion : Completion) (flow : Flow) (context : Context)
  | commitAdmission (flow : Flow) (expectedFlowVersion : Nat) (receipt : Receipt)
  | recover (completionKey : String) (session : Session)
  | revokeSession (session : Session) (reason : String)
  | sessionState (session : Session)
  | recordOrphan (orphan : Orphan)
  | listPendingOrphans (limit : Nat)
  | resolveOrphan (orphanId : String) (expectedVersion : Nat) (state : OrphanState) (resolvedAt : String)
  | orphaned (session : Session)

@[reducible] def Request.Reply : Request → Type
  | .clock => Int
  | .getFlow _ => Option Flow
  | .replaceFlow _ _ => Except Failure Flow
  | .getAdmissionReceipt _ | .recover _ _ => Option Receipt
  | .admitPrincipal _ _ _ => Except Failure Principal
  | .commitAdmission _ _ _ => Except Failure Receipt
  | .revokeSession _ _ => Except Failure Unit
  | .sessionState _ => Except Failure SessionState
  | .recordOrphan _ | .orphaned _ => Unit
  | .listPendingOrphans _ => List Orphan
  | .resolveOrphan _ _ _ _ => Except Failure Orphan

def Identity : Interface where
  Call := Request
  Reply := Request.Reply

abbrev IdentityProgram (α : Type) := Program Identity Failure α

def ask (request : Request) : IdentityProgram request.Reply := .call request .done

def await {α : Type} (outcome : IdentityProgram (Except Failure α)) : IdentityProgram α := do
  Program.check (← outcome)

variable (runtime : Runtime)

/-- `now ?? this.#clock()`. -/
def readNow : Option Int → IdentityProgram Int
  | some now => return now
  | none => ask .clock

/-- `#activeBoundFlow`, or `#activeOrConsumedBoundFlow`. -/
def readBoundFlow (flowId : String) (binding : Binding) (allowed : List FlowState) (now : Option Int) :
    IdentityProgram Flow := do
  let now ← readNow now
  let flowId ← Program.check (requiredString flowId "flowId")
  let read ← ask (.getFlow flowId)
  Program.check (boundFlow runtime binding allowed now read)

structure Transition where
  flowId : String
  transition : String
  binding : Binding

variable (flow : Flow)

def admitsTransition (transition : String) : Except Failure Unit :=
  if transition ∉ flow.allowedTransitions then
    flowError "FLOW_TRANSITION_INVALID" s!"Identity flow {flow.id} does not admit transition {transition}."
  else .ok ()

def transition (input : Transition) : IdentityProgram Flow := do
  let flow ← readBoundFlow runtime input.flowId input.binding [.active] none
  Program.check (admitsTransition flow input.transition)
  if input.transition ∈ flow.completedTransitions then return flow
  else
    Program.check (assertAttempts flow)
    await (ask (.replaceFlow { flow with
      completedTransitions := flow.completedTransitions ++ [input.transition]
      attempts := flow.attempts + 1
      version := flow.version + 1 } flow.version))

def cancel (flowId : String) (binding : Binding) : IdentityProgram Flow := do
  let flow ← readBoundFlow runtime flowId binding [.active] none
  let now ← ask .clock
  await (ask (.replaceFlow { flow with
    state := .cancelled
    cancelledAt := some (runtime.dates.toISOString now)
    version := flow.version + 1 } flow.version))

def requireProvider (name : String) : Except Failure Unit :=
  if name ∈ runtime.providers then .ok () else .error (.other s!"Identity provider {name} is unavailable.")

/-- `#containOrphan`. -/
def containOrphan (completion : Completion) (completionKey reason : String) :
    IdentityProgram Unit := do
  Program.check (requireProvider runtime flow.provider)
  match ← ask (.revokeSession ⟨flow.provider, completion.providerSessionId⟩
      s!"Local admission failed for identity flow {flow.id}: {reason}") with
  | .ok _ => return ()
  | .error _ =>
    let now ← ask .clock
    ask (.recordOrphan {
      id := "identity_orphan_" ++ admissionDigest runtime flow.id completionKey
      flowId := flow.id
      provider := flow.provider
      providerSessionId := completion.providerSessionId
      providerCompletionKey := completionKey
      reason
      state := .pending
      createdAt := runtime.dates.toISOString now
      version := 1 })

/-- `ApplicationProviderCompletionAdmission`. -/
structure Admission where
  flowId : String
  binding : Binding
  completion : Completion
  context : Context

variable (input : Admission)

def admissionReceipt (principal : Principal) (assurance : List String)
    (now : Int) : Receipt where
  id := "identity_admission_" ++ admissionDigest runtime flow.id (providerCompletionKey runtime input.completion)
  flowId := flow.id
  provider := flow.provider
  providerCompletionKey := providerCompletionKey runtime input.completion
  providerSessionId := input.completion.providerSessionId
  principal
  authenticationMethod := input.completion.authenticationMethod
  assurance
  trustedContextDigest := input.context.trustedContextDigest
  oauth := flow.oauth
  issuedAt := runtime.dates.toISOString now
  expiresAt := whenTruthy input.completion.expiresAt

def consumed (now : Int) : Flow :=
  { flow with
    state := .consumed
    attempts := flow.attempts + 1
    consumedAt := some (runtime.dates.toISOString now)
    version := flow.version + 1 }

/-- The end of `complete`: the commit, and what follows where it fails. -/
def commit (flow : Flow) (input : Admission) (receipt : Receipt) (now : Int) : IdentityProgram Receipt := do
  match ← ask (.commitAdmission (consumed runtime flow now) flow.version receipt) with
  | .ok receipt => return receipt
  | .error failure =>
    let completionKey := providerCompletionKey runtime input.completion
    match ← ask (.recover completionKey ⟨flow.provider, input.completion.providerSessionId⟩) with
    | some recovered => return recovered
    | none =>
      containOrphan runtime flow input.completion completionKey failure.message
      ask (.orphaned ⟨flow.provider, input.completion.providerSessionId⟩)
      .throw (.flow "PROVIDER_SESSION_ORPHANED" <| s!"Identity provider completion for flow {flow.id} " ++
        "could not be committed locally.")

def replayed (replay : Receipt) : Except Failure Unit :=
  if replay.flowId ≠ input.flowId then
    flowError "PROVIDER_COMPLETION_INVALID"
      s!"Provider completion {providerCompletionKey runtime input.completion} belongs to another flow."
  else .ok ()

def complete : IdentityProgram Receipt := do
  match ← ask (.getAdmissionReceipt (providerCompletionKey runtime input.completion)) with
  | some replay =>
    Program.check (replayed runtime input replay)
    let _ ← readBoundFlow runtime input.flowId input.binding [.active, .consumed] input.context.now
    return replay
  | none =>
    let flow ← readBoundFlow runtime input.flowId input.binding [.active] input.context.now
    Program.check (assertProviderCompletion runtime flow input.completion)
    Program.check (assertAttempts flow)
    let principal ← await (ask (.admitPrincipal input.completion flow input.context))
    Program.check (assertAdmittedPrincipal principal input.completion input.context)
    let now ← readNow input.context.now
    let assurance ← Program.check
      (normalizedUniqueStrings input.completion.assurance "completion.assurance")
    commit runtime flow input (admissionReceipt runtime flow input principal assurance now) now

/-- The `try` of `reconcileOrphans`. -/
def reconcileOrphan (orphan : Orphan) : IdentityProgram Orphan := do
  let state ← await (ask (.sessionState orphan.session))
  if state ≠ .revoked && state ≠ .expired then
    await (ask (.revokeSession orphan.session s!"Recover orphaned identity flow {orphan.flowId}."))
  let now ← ask .clock
  await (ask (.resolveOrphan orphan.id orphan.version
    (if state = .expired then .expired else .revoked) (runtime.dates.toISOString now)))

def reconcileOrphans (limit : Int) : IdentityProgram (List Orphan) := do
  let boundedLimit ← Program.check (boundedInteger limit "orphan limit" 1 1000)
  let pending ← ask (.listPendingOrphans boundedLimit)
  let outcomes ← Program.collect pending fun orphan => do
    Program.check (requireProvider runtime orphan.provider)
    (reconcileOrphan runtime orphan).attempt
  return outcomes.filterMap Except.toOption

end

/-- The store and the provider, and the times that were told. What a call has given up is the session for which
it found no receipt after its commit had failed; it has ended when it tells its caller so. -/
structure World where
  told : List Int := []
  flows : String → Option Flow := fun _ => none
  receipts : Table Receipt := .empty
  orphans : Table Orphan := .empty
  revoked : List Session := []
  givenUp : List Session := []
  ended : List Session := []

/-- How a call is answered: the time, whether it takes effect, whether its answer comes, what the principal
admitter does, and what the provider says of a session. -/
structure Choice where
  now : Int
  takes : Bool
  answers : Bool
  principal : Except Failure Principal
  state : Except Failure SessionState

def lost {α : Type} : Except Failure α := .error (.other "connection lost")

/-- `replaceFlow`. -/
def World.replaceFlow (flow : Flow) (expectedVersion : Nat) (world : World) : Except Failure World :=
  match world.flows flow.id with
  | none => .error (.other s!"Identity flow {flow.id} expected version {expectedVersion}, observed missing.")
  | some current =>
    if current.version ≠ expectedVersion then
      .error (.other s!"Identity flow {flow.id} expected version {expectedVersion}, observed {current.version}.")
    else if flow.version ≠ expectedVersion + 1 then
      .error (.other s!"Identity flow {flow.id} replacement must advance exactly one version.")
    else .ok { world with flows := Function.update world.flows flow.id (some flow) }

/-- `commitAdmission`, with the receipt that it returns. -/
def World.commitAdmission (flow : Flow) (expectedFlowVersion : Nat) (receipt : Receipt) (world : World) :
    Except Failure (Receipt × World) :=
  match world.receipts.find? receipt.providerCompletionKey with
  | some replay =>
    if (world.flows replay.flowId).isSome then .ok (replay, world)
    else .error (.other s!"Identity admission {replay.id} exists without flow {replay.flowId}.")
  | none =>
    match world.flows flow.id with
    | none => .error (.other <| s!"Identity admission flow {flow.id} expected version " ++
        s!"{expectedFlowVersion}, observed missing.")
    | some current =>
      if current.version ≠ expectedFlowVersion then
        .error (.other <| s!"Identity admission flow {flow.id} expected version {expectedFlowVersion}, " ++
          s!"observed {current.version}.")
      else if flow.version ≠ expectedFlowVersion + 1 || flow.state ≠ .consumed then
        .error (.other s!"Identity admission flow {flow.id} must atomically advance to consumed.")
      else .ok (receipt, { world with
        flows := Function.update world.flows flow.id (some flow)
        receipts := world.receipts.put receipt })

/-- `recordOrphan`. -/
def World.recordOrphan (orphan : Orphan) (world : World) : World :=
  match world.orphans.find? orphan.id with
  | some _ => world
  | none => { world with orphans := world.orphans.put orphan }

/-- `listPendingOrphans`. -/
def World.listPendingOrphans (limit : Nat) (world : World) : List Orphan :=
  ((world.orphans.rows.filter (·.state = .pending)).mergeSort fun left right =>
    !stringLess right.createdAt left.createdAt).take limit

/-- `resolveOrphan`. -/
def World.resolveOrphan (orphanId : String) (expectedVersion : Nat) (state : OrphanState)
    (resolvedAt : String) (world : World) : Except Failure (Orphan × World) :=
  let failure := .error (.other s!"Identity orphan {orphanId} expected pending version {expectedVersion}.")
  match world.orphans.find? orphanId with
  | none => failure
  | some current =>
    if current.version ≠ expectedVersion || current.state ≠ .pending then failure
    else
      let next := { current with state, resolvedAt := some resolvedAt, version := current.version + 1 }
      .ok (next, { world with orphans := world.orphans.put next })

/-- A write of the store, which may be lost or done without an answer. -/
def World.write {α : Type} (choice : Choice) (world : World) (written : Except Failure (α × World)) :
    Except Failure α × World :=
  if choice.takes then
    match written with
    | .error failure => (.error failure, world)
    | .ok (value, after) => (if choice.answers then .ok value else lost, after)
  else (lost, world)

def World.answer : (request : Request) → Choice → World → request.Reply × World
  | .clock, choice, world => (choice.now, { world with told := choice.now :: world.told })
  | .getFlow flowId, _, world => (world.flows flowId, world)
  | .replaceFlow flow expectedVersion, choice, world =>
    world.write choice ((world.replaceFlow flow expectedVersion).map (flow, ·))
  | .getAdmissionReceipt completionKey, _, world => (world.receipts.find? completionKey, world)
  | .admitPrincipal _ _ _, choice, world => (choice.principal, world)
  | .commitAdmission flow expectedFlowVersion receipt, choice, world =>
    world.write choice (world.commitAdmission flow expectedFlowVersion receipt)
  | .recover completionKey session, _, world =>
    (world.receipts.find? completionKey,
      if (world.receipts.find? completionKey).isSome then world
      else { world with givenUp := session :: world.givenUp })
  | .revokeSession session _, choice, world =>
    world.write choice (.ok ((), { world with revoked := session :: world.revoked }))
  | .sessionState _, choice, world => (choice.state, world)
  | .recordOrphan orphan, _, world => ((), world.recordOrphan orphan)
  | .listPendingOrphans limit, _, world => (world.listPendingOrphans limit, world)
  | .resolveOrphan orphanId expectedVersion state resolvedAt, choice, world =>
    world.write choice (world.resolveOrphan orphanId expectedVersion state resolvedAt)
  | .orphaned session, _, world => ((), { world with ended := session :: world.ended })

def server : Server Identity World Choice := ⟨World.answer⟩

inductive Operation where
  | complete (input : Admission)
  | transition (input : Transition)
  | cancel (flowId : String) (binding : Binding)
  | reconcileOrphans (limit : Int)

def Operation.body (runtime : Runtime) : Operation → IdentityProgram Unit
  | .complete input => do let _ ← Admission.complete runtime input
  | .transition input => do let _ ← Admission.transition runtime input
  | .cancel flowId binding => do let _ ← Admission.cancel runtime flowId binding
  | .reconcileOrphans limit => do let _ ← Admission.reconcileOrphans runtime limit

abbrev System := Crowd Identity World Failure Unit Operation
abbrev Event := CrowdEvent Operation Choice

def next (runtime : Runtime) : System → Event → System := Crowd.advance server (Operation.body runtime)

/-- Flows as the runtime issues them, and nothing has happened yet. -/
structure World.Issued (runtime : Runtime) (world : World) : Prop where
  flows : ∀ id flow, world.flows id = some flow →
    flow.id = id ∧ flow.state = .active ∧ flow.provider ∈ runtime.providers
  empty : world = { flows := world.flows }

end Applik8s.Admission
