import Applik8s.Platform
import Applik8s.Lib.Crowd

/-! The consent decisions of `oauth-runtime.ts`: a flow that is stored under compare-and-swap on its
version, and a provider that is asked between two such writes. -/
namespace Applik8s.Identity
open Lib

inductive FlowState where
  | active | approving | denying | approved | denied | cancelled
  deriving DecidableEq

/-- `ApplicationOAuthAuthorizationFlowRecord`, as far as a decision reads it. -/
structure OAuthFlow where
  id : String
  provider : String
  providerAuthorizationRequestId : String
  resourceOwner : String
  resourceOwnerPrincipalId : String
  sessionId : String
  authorityRevision : String
  browserBindingDigest : String
  csrfBindingDigest : String
  state : FlowState
  expiresAt : String
  decidedAt : Option String := none
  providerDecisionId : Option String := none
  version : Nat
  deriving DecidableEq

/-- `ApplicationPrincipal`, as far as a resource owner is checked. -/
structure Principal where
  id : String
  kind : String
  identityKind : String
  identityId : String
  sessionId : Option String
  authorityRevision : String
  expiresAt : Option String

/-- `ApplicationIdentityFlowBinding`. -/
structure Binding where
  browserBinding : String
  csrfToken : String

inductive Decision where
  | approve | deny
  deriving DecidableEq

def Decision.text : Decision → String
  | .approve => "approve"
  | .deny => "deny"

def Decision.pending : Decision → FlowState
  | .approve => .approving
  | .deny => .denying

def Decision.terminal : Decision → FlowState
  | .approve => .approved
  | .deny => .denied

/-- `ApplicationOAuthProviderDecision`; its evidence is passed on unread. -/
structure ProviderDecision where
  id : String
  providerAuthorizationRequestId : String
  accepted : Bool
  continuationUri : String
  deriving DecidableEq

inductive Failure where
  | flow (code message : String)
  | other (message : String)
  deriving DecidableEq

/-- What `new URL` makes of a text. -/
structure Url where
  protocol : String
  hostname : String
  username : String
  password : String
  text : String

structure Runtime where
  dates : Dates
  sha256 : String → String
  /-- `createHmac('sha256', bindingSecret)`, of a kind and a value. -/
  hmac : String → String → String
  url : String → Option Url
  /-- The names of the provider adapters. -/
  providers : List String

section
variable (runtime : Runtime)

def requiredString (value field : String) : Except Failure String :=
  if blank value then .error (.other s!"{field} must not be empty.") else .ok value

def oauthFlowError {α : Type} (code message : String) : Except Failure α := .error (.flow code message)
def timingSafeTextEqual (left right : String) : Bool := runtime.sha256 left = runtime.sha256 right

def digest (kind value : String) : Except Failure String := do
  return runtime.hmac kind (← requiredString value s!"{kind} binding")

def assertResourceOwner (principal : Principal) (now : Int) : Except Failure Unit :=
  if principal.kind ≠ "human" || principal.identityKind ≠ "human" || !truthy principal.sessionId ||
      isExpired runtime.dates principal.expiresAt now then
    oauthFlowError "OAUTH_RESOURCE_OWNER_INVALID" "OAuth consent requires an authenticated human resource owner."
  else .ok ()

/-- The checks of `#boundFlow` on the flow that was read. -/
def boundFlow (binding : Binding) (principal : Principal) (allowed : List FlowState) (now : Int)
    (read : Option OAuthFlow) : Except Failure OAuthFlow := do
  let unavailable := oauthFlowError "OAUTH_FLOW_UNAVAILABLE" "OAuth authorization flow is unavailable."
  match read with
  | none => unavailable
  | some flow =>
    if flow.state ∉ allowed || isExpired runtime.dates (some flow.expiresAt) now then unavailable
    else
      let invalid := oauthFlowError "OAUTH_FLOW_BINDING_INVALID"
        s!"OAuth authorization flow {flow.id} binding is invalid."
      if !timingSafeTextEqual runtime flow.browserBindingDigest
          (← digest runtime "browser" binding.browserBinding) then invalid
      else if !timingSafeTextEqual runtime flow.csrfBindingDigest
          (← digest runtime "csrf" binding.csrfToken) then invalid
      else if principal.id ≠ flow.resourceOwnerPrincipalId || principal.identityId ≠ flow.resourceOwner ||
          principal.sessionId ≠ some flow.sessionId ||
          principal.authorityRevision ≠ flow.authorityRevision then
        oauthFlowError "OAUTH_RESOURCE_OWNER_INVALID" s!"OAuth authorization flow {flow.id} resource owner changed."
      else return flow

def normalizedProviderContinuation (value : String) : Except Failure String := do
  match runtime.url (← requiredString value "provider continuation URI") with
  | none => .error (.other "Invalid URL")
  | some url =>
    if url.protocol ≠ "https:" &&
        !(url.protocol = "http:" && (url.hostname = "localhost" || url.hostname = "127.0.0.1")) then
      oauthFlowError "OAUTH_PROVIDER_DECISION_INVALID" "OAuth provider continuation must use HTTPS outside loopback."
    else if url.username ≠ "" || url.password ≠ "" then
      oauthFlowError "OAUTH_PROVIDER_DECISION_INVALID" "OAuth provider continuation must not contain credentials."
    else return url.text

def assertProviderDecision (flow : OAuthFlow) (decision : Decision) (provider : ProviderDecision) :
    Except Failure Unit := do
  let invalid := oauthFlowError "OAUTH_PROVIDER_DECISION_INVALID"
    s!"OAuth provider decision for flow {flow.id} changed its bound request."
  if blank provider.id || provider.providerAuthorizationRequestId ≠ flow.providerAuthorizationRequestId ||
      provider.accepted ≠ decide (decision = .approve) then invalid
  else if (← normalizedProviderContinuation runtime provider.continuationUri) = "" then invalid
  else return ()

end

section
/-- `ApplicationOAuthConsentDecision`. -/
structure ConsentDecision where
  flowId : String
  decision : Decision
  binding : Binding
  principal : Principal

/-- What the runtime asks: the clock, the store and the provider. The last call is the answer that the
caller of `decide` receives. -/
inductive Request where
  | clock
  | get (flowId : String)
  | replace (flow : OAuthFlow) (expectedVersion : Nat)
  | decide (flow : OAuthFlow) (decision : Decision) (idempotencyKey : String)
  | receive (decision : Decision) (flow : OAuthFlow) (provider : ProviderDecision)

@[reducible] def Request.Reply : Request → Type
  | .clock => Int
  | .get _ => Except Failure (Option OAuthFlow)
  | .replace _ _ => Except Failure OAuthFlow
  | .decide _ _ _ => Except Failure ProviderDecision
  | .receive _ _ _ => Unit

def Consent : Interface where
  Call := Request
  Reply := Request.Reply

abbrev ConsentProgram (α : Type) := Program Consent Failure α

def ask (request : Request) : ConsentProgram request.Reply := .call request .done

def await {α : Type} (outcome : ConsentProgram (Except Failure α)) : ConsentProgram α := do
  Program.check (← outcome)

variable (runtime : Runtime) (flowId : String) (decision : Decision) (binding : Binding) (principal : Principal)

/-- `#boundFlow`. -/
def readBoundFlow (allowed : List FlowState) : ConsentProgram OAuthFlow := do
  let now ← ask .clock
  Program.check (assertResourceOwner runtime principal now)
  let flowId ← Program.check (requiredString flowId "flowId")
  let read ← await (ask (.get flowId))
  Program.check (boundFlow runtime binding principal allowed now read)

def consentKey : String :=
  "oauth_consent_" ++ runtime.sha256 (flowId ++ "\x00" ++ decision.text)

/-- The rest of `decide`, once the flow says that it is decided so. -/
def decideHeld (flow : OAuthFlow) : ConsentProgram (OAuthFlow × ProviderDecision) := do
  if flow.provider ∉ runtime.providers then
    .throw (.other s!"OAuth provider {flow.provider} is unavailable.")
  else
    let provider ← await (ask (.decide flow decision (consentKey runtime flow.id decision)))
    Program.check (assertProviderDecision runtime flow decision provider)
    if flow.state = decision.terminal then return (flow, provider)
    else
      let decidedAt ← ask .clock
      let next ← await (ask (.replace { flow with
        state := decision.terminal
        decidedAt := some (runtime.dates.toISOString decidedAt)
        providerDecisionId := some provider.id
        version := flow.version + 1 } flow.version))
      return (next, provider)

def decide (input : ConsentDecision) : ConsentProgram (OAuthFlow × ProviderDecision) := do
  let decision := input.decision
  let flow ← readBoundFlow runtime input.flowId input.binding input.principal
    [.active, decision.pending, decision.terminal]
  if flow.state = .active then
    let flow ← await (ask (.replace { flow with state := decision.pending, version := flow.version + 1 }
      flow.version))
    decideHeld runtime decision flow
  else decideHeld runtime decision flow

def cancel : ConsentProgram OAuthFlow := do
  let flow ← readBoundFlow runtime flowId binding principal [.active]
  let decidedAt ← ask .clock
  await (ask (.replace { flow with
    state := .cancelled
    decidedAt := some (runtime.dates.toISOString decidedAt)
    version := flow.version + 1 } flow.version))

end

structure Ask where
  flowId : String
  decision : Decision
  deriving DecidableEq

/-- The store, what the provider remembers of each idempotency key, and what has been: the decisions it
was asked for and the answers that callers have received. -/
structure World where
  flows : String → Option OAuthFlow
  remembered : String → Option ProviderDecision
  asked : List Ask
  received : List (Decision × OAuthFlow × ProviderDecision)

/-- How a call is answered: the time, whether it takes effect, whether its answer comes, and what the
provider would decide on a new key. -/
structure Choice where
  now : Int
  takes : Bool
  answers : Bool
  provider : ProviderDecision

def lost {α : Type} : Except Failure α := .error (.other "connection lost")

/-- `replace` of the store. -/
def World.replace (flow : OAuthFlow) (expectedVersion : Nat) (world : World) : Except Failure World :=
  match world.flows flow.id with
  | none => .error (.other
      s!"OAuth authorization flow {flow.id} expected version {expectedVersion}, observed missing.")
  | some current =>
    if current.version ≠ expectedVersion then
      .error (.other <| s!"OAuth authorization flow {flow.id} expected version {expectedVersion}, " ++
        s!"observed {current.version}.")
    else if flow.version ≠ expectedVersion + 1 then
      .error (.other s!"OAuth authorization flow {flow.id} replacement must advance exactly one version.")
    else .ok { world with flows := Function.update world.flows flow.id (some flow) }

def World.decide (flow : OAuthFlow) (decision : Decision) (key : String) (choice : Choice)
    (world : World) : ProviderDecision × World :=
  let provider := (world.remembered key).getD choice.provider
  (provider, { world with
    remembered := Function.update world.remembered key (some provider)
    asked := world.asked ++ [⟨flow.id, decision⟩] })

def World.answer : (request : Request) → Choice → World → request.Reply × World
  | .clock, choice, world => (choice.now, world)
  | .get flowId, choice, world => (if choice.answers then .ok (world.flows flowId) else lost, world)
  | .replace flow expectedVersion, choice, world =>
    if choice.takes then
      match world.replace flow expectedVersion with
      | .error failure => (.error failure, world)
      | .ok after => (if choice.answers then .ok flow else lost, after)
    else (lost, world)
  | .decide flow decision key, choice, world =>
    if choice.takes then
      let (provider, after) := world.decide flow decision key choice
      (if choice.answers then .ok provider else lost, after)
    else (lost, { world with asked := world.asked ++ [⟨flow.id, decision⟩] })
  | .receive decision flow provider, _, world =>
    ((), { world with received := world.received ++ [(decision, flow, provider)] })

def server : Server Consent World Choice := ⟨World.answer⟩

inductive Operation where
  | decide (input : ConsentDecision)
  | cancel (flowId : String) (binding : Binding) (principal : Principal)

def Operation.body (runtime : Runtime) : Operation → ConsentProgram Unit
  | .decide input => do
    let (flow, provider) ← Identity.decide runtime input
    ask (.receive input.decision flow provider)
  | .cancel flowId binding principal => do
    let _ ← Identity.cancel runtime flowId binding principal

abbrev System := Crowd Consent World Failure Unit Operation
abbrev Event := CrowdEvent Operation Choice

def next (runtime : Runtime) : System → Event → System := Crowd.advance server (Operation.body runtime)

/-- Flows as they are issued, and nothing has happened yet. -/
structure World.Issued (world : World) : Prop where
  active : ∀ id flow, world.flows id = some flow → flow.id = id ∧ flow.state = .active
  asked : world.asked = []
  received : world.received = []

end Applik8s.Identity
