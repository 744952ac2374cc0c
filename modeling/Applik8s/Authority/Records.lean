import Applik8s.Lib.Table
import Applik8s.Authority.Scope

/-! The authority records of `application-operation-authority.ts`, the operation
catalog as far as authority reads it, and the errors of `authority.ts`. Constant
`apiVersion` fields are left out. Timestamps are the texts the source stores; a JSON
object that is only ever compared is kept as its canonical text. -/
namespace Applik8s.Authority
open Lib (Keyed)

abbrev OperationId := String

/-! ### The operation catalog -/

inductive AuthorizationBoundary where
  | admission | enqueue | execution | protectedStep | preCommit | resultRead | subscriptionResume
  deriving DecidableEq

instance : ToString AuthorizationBoundary where
  toString
    | .admission => "admission" | .enqueue => "enqueue" | .execution => "execution"
    | .protectedStep => "protected-step" | .preCommit => "pre-commit"
    | .resultRead => "result-read" | .subscriptionResume => "subscription-resume"

inductive Classification where
  | unclassified | isPublic | assigned | runtimeGrantable | applicationPolicy
  deriving DecidableEq

inductive OperationKind where
  | modelCreate | modelRead | modelQuery | modelUpdate | modelDelete | modelOperation
  | resourceCreate | resourceRead | resourceUpdate | resourceDelete | resourceStatus
  | resourceOperation | query | search | subscription | workflowStart | workflowSignal
  | workflowCancel | workflowResult | signalIssue | signalIssuanceRead | signalAction | task
  | httpRoute | httpRaw | mcpTool
  deriving DecidableEq

structure OperationReplacement where
  operationId : OperationId
  compatible : Bool
  migration : Option String := none
  deriving DecidableEq

structure OperationAuthorityDescriptor where
  classification : Classification
  grantable : Bool
  delegable : Bool
  checks : List AuthorizationBoundary
  defaultScope : ScopeExpression
  audiences : Option (List String) := none
  transports : Option (List OperationTransport) := none
  deriving DecidableEq

/-- Of the schemas of an operation only the digests are read. -/
structure OperationDescriptor where
  id : OperationId
  name : String := ""
  version : String
  kind : OperationKind
  inputDigest : String
  outputDigest : String
  targetIdentityDigest : Option String := none
  authority : OperationAuthorityDescriptor
  replaces : Option OperationReplacement := none
  deriving DecidableEq

inductive CatalogState where
  | proposed | staged | active | draining | retired
  deriving DecidableEq

instance : ToString CatalogState where
  toString
    | .proposed => "proposed" | .staged => "staged" | .active => "active"
    | .draining => "draining" | .retired => "retired"

structure OperationCatalog where
  application : String
  revision : String
  state : CatalogState
  operations : List OperationDescriptor
  deriving DecidableEq

/-! ### Identities and principals -/

inductive IdentityKind where
  | human | preAuthenticationFlow | oauthAuthorizationFlow | service | workload | execution
  | oauthClient | mcpClient | external
  deriving DecidableEq

structure IdentityReference where
  id : String
  kind : IdentityKind
  issuer : String
  subject : String
  deriving DecidableEq

structure Principal where
  id : String
  identity : IdentityReference
  audience : List String
  roles : Option (List String) := none
  trustedContextDigest : String
  catalogRevision : String
  authorityRevision : String
  expiresAt : Option String := none
  deriving DecidableEq

inductive AuthorityOrigin where
  | application | runtime
  deriving DecidableEq

instance : ToString AuthorityOrigin where
  toString
    | .application => "application" | .runtime => "runtime"

structure PermissionRecord where
  id : String
  name : String
  origin : AuthorityOrigin
  manifestRevision : Option String := none
  catalogRevision : String
  operationIds : List OperationId
  scope : ScopeExpression
  transports : Option (List OperationTransport) := none
  audiences : Option (List String) := none
  grantable : Bool
  lifecycleOwner : Option String := none
  createdAt : String
  retiredAt : Option String := none
  deriving DecidableEq

structure RoleRecord where
  id : String
  name : String
  origin : AuthorityOrigin
  permissionIds : List String
  lifecycleOwner : Option String := none
  createdAt : String
  retiredAt : Option String := none
  deriving DecidableEq

structure DelegationRecord where
  id : String
  grantor : IdentityReference
  operationIds : List OperationId
  scope : ScopeExpression
  maximumValiditySeconds : Option Nat := none
  maximumUses : Option Nat := none
  audiences : Option (List String) := none
  transports : Option (List OperationTransport) := none
  createdAt : String
  expiresAt : Option String := none
  revokedAt : Option String := none
  deriving DecidableEq

structure GrantRecord where
  id : String
  origin : AuthorityOrigin
  identity : IdentityReference
  permissionId : Option String := none
  operationIds : List OperationId
  scope : ScopeExpression
  audiences : Option (List String) := none
  transports : Option (List OperationTransport) := none
  issuedBy : IdentityReference
  canGrant : Option Bool := none
  delegationId : Option String := none
  lifecycleOwner : Option String := none
  reason : Option String := none
  maximumUses : Option Nat := none
  expiresAt : Option String := none
  outcomeId : Option String := none
  catalogRevision : String
  authorityRevision : String
  createdAt : String
  revokedAt : Option String := none
  deriving DecidableEq

inductive RequestState where
  | pending | approved | rejected | cancelled | expired
  deriving DecidableEq

instance : ToString RequestState where
  toString
    | .pending => "pending" | .approved => "approved" | .rejected => "rejected"
    | .cancelled => "cancelled" | .expired => "expired"

structure GrantRequestRecord where
  id : String
  requester : IdentityReference
  operationIds : List OperationId
  scope : ScopeExpression
  audiences : Option (List String) := none
  transports : Option (List OperationTransport) := none
  reason : String
  evidence : Option String := none
  requestedExpiresAt : Option String := none
  requestedMaximumUses : Option Nat := none
  requiredOutcomeId : Option String := none
  approvalPolicyId : String
  state : RequestState
  createdAt : String
  decidedAt : Option String := none
  deriving DecidableEq

inductive ApprovalDecision where
  | approve | reject
  deriving DecidableEq

structure ApprovalRecord where
  id : String
  requestId : String
  approver : IdentityReference
  decision : ApprovalDecision
  reason : Option String := none
  evidence : Option String := none
  decidedAt : String
  deriving DecidableEq

inductive OutcomeFailure where
  | escalate | revoke | denyRetry
  deriving DecidableEq

structure OutcomeDefinition where
  id : String
  name : String
  subjectModel : String
  verifier : IdentityReference
  observationOperationId : OperationId
  predicate : ScopeExpression
  timeoutSeconds : Nat
  failure : OutcomeFailure
  deriving DecidableEq

inductive ReservationState where
  | reserved | consumed | outcomePending | outcomeVerified | outcomeFailed | released | expired
  deriving DecidableEq

instance : ToString ReservationState where
  toString
    | .reserved => "reserved" | .consumed => "consumed" | .outcomePending => "outcome-pending"
    | .outcomeVerified => "outcome-verified" | .outcomeFailed => "outcome-failed"
    | .released => "released" | .expired => "expired"

structure GrantReservation where
  id : String
  grantId : String
  idempotencyKey : String
  commandId : String
  operationId : OperationId
  targetDigest : String
  authorityRevision : String
  state : ReservationState
  reservedAt : String
  updatedAt : String
  uncertainEffect : Bool
  deriving DecidableEq

structure AuthorizationReceipt where
  id : String
  application : String
  operationId : OperationId
  operationVersion : String
  catalogRevision : String
  authorityRevision : String
  principal : Principal
  trustedContextDigest : String
  matchedPermissionIds : List String
  matchedGrantIds : List String
  inputDigest : String
  target : ScopeExpression
  scopeEvidence : List ScopeExpression
  audience : String
  transport : OperationTransport
  admittedAt : String
  expiresAt : Option String := none
  reservationId : Option String := none
  deriving DecidableEq

inductive ObligationKind where
  | revoke | leaseExpiry | credentialRotation | routeDetachment | denyAll
  deriving DecidableEq

inductive ObligationState where
  | pending | neutralized | expiryGuaranteed | failed
  deriving DecidableEq

instance : ToString ObligationState where
  toString
    | .pending => "pending" | .neutralized => "neutralized"
    | .expiryGuaranteed => "expiry-guaranteed" | .failed => "failed"

structure RevocationObligation where
  projection : String
  kind : ObligationKind
  state : ObligationState
  providerRevision : Option String := none
  observedAt : Option String := none
  guaranteedExpiryAt : Option String := none
  diagnostic : Option String := none
  deriving DecidableEq

structure RevocationTombstone where
  id : String
  application : String
  authorityRevision : String
  identityIds : List String
  operationIds : List OperationId
  scope : ScopeExpression
  obligations : List RevocationObligation
  createdAt : String
  provenAt : Option String := none
  transferredByBreakGlassAt : Option String := none
  auditProvenance : List String
  deriving DecidableEq

inductive AuditKind where
  | roleCreated | grantRequested | grantApproved | grantRejected | grantAssigned | grantMigrated
  | grantReserved | grantRevoked | grantExpired | authorizationAllowed | authorizationDenied
  | revocationObligationNeutralized | revocationProven | breakGlass
  deriving DecidableEq

inductive AuditDetail where
  | text (value : String)
  | texts (values : List String)
  deriving DecidableEq

structure AuditEvent where
  id : String
  kind : AuditKind
  occurredAt : String
  principal : Option IdentityReference := none
  operationId : Option OperationId := none
  targetDigest : Option String := none
  authorityRevision : String
  details : List (String × AuditDetail)
  deriving DecidableEq

inductive ReferenceKind where
  | grant | envelope | workflow | session
  deriving DecidableEq

/-- A durable reference to a catalog revision. The in-memory repository keeps only which
references exist; the PostgreSQL repository keeps the operation ids beside them. -/
structure CatalogReference where
  revision : String
  kind : ReferenceKind
  referenceId : String
  operationIds : List OperationId
  deriving DecidableEq

instance : Keyed PermissionRecord String := ⟨PermissionRecord.id⟩
instance : Keyed RoleRecord String := ⟨RoleRecord.id⟩
instance : Keyed GrantRecord String := ⟨GrantRecord.id⟩
instance : Keyed DelegationRecord String := ⟨DelegationRecord.id⟩
instance : Keyed GrantRequestRecord String := ⟨GrantRequestRecord.id⟩
instance : Keyed ApprovalRecord String := ⟨ApprovalRecord.id⟩
instance : Keyed OutcomeDefinition String := ⟨OutcomeDefinition.id⟩
instance : Keyed GrantReservation String := ⟨GrantReservation.id⟩
instance : Keyed RevocationTombstone String := ⟨RevocationTombstone.id⟩
instance : Keyed CatalogReference (String × ReferenceKind × String) :=
  ⟨fun reference => (reference.revision, reference.kind, reference.referenceId)⟩

structure AuthoritySnapshot where
  revision : String
  permissions : List PermissionRecord
  roles : List RoleRecord
  grants : List GrantRecord
  delegations : List DelegationRecord
  requests : List GrantRequestRecord
  approvals : List ApprovalRecord
  outcomes : List OutcomeDefinition
  reservations : List GrantReservation
  tombstones : List RevocationTombstone

/-! ### The static manifest -/

structure StaticPermissionDefinition where
  id : String
  name : String
  operationIds : List OperationId
  scope : ScopeExpression
  transports : Option (List OperationTransport) := none
  audiences : Option (List String) := none
  grantable : Bool
  lifecycleOwner : Option String := none

structure StaticRoleDefinition where
  id : String
  name : String
  permissionIds : List String
  lifecycleOwner : Option String := none

structure StaticGrantDefinition where
  id : String
  identity : IdentityReference
  permissionId : Option String := none
  operationIds : List OperationId
  scope : ScopeExpression
  audiences : Option (List String) := none
  transports : Option (List OperationTransport) := none
  issuedBy : IdentityReference
  canGrant : Option Bool := none
  lifecycleOwner : Option String := none
  reason : Option String := none
  maximumUses : Option Nat := none
  expiresAt : Option String := none
  outcomeId : Option String := none

structure StaticRoleBootstrapDefinition where
  id : String
  roleId : String
  identity : IdentityReference
  issuedBy : IdentityReference
  reason : String

structure StaticAuthorityManifest where
  application : String
  revision : String
  identities : List IdentityReference
  permissions : List StaticPermissionDefinition
  roles : List StaticRoleDefinition
  grants : List StaticGrantDefinition
  outcomes : List OutcomeDefinition

inductive AuthorityErrorCode where
  | manifestRevisionMismatch | manifestIdentityConflict | originConflict | grantConflict
  | catalogMigrationInvalid | permissionUnavailable | permissionNotGrantable | outcomeConflict
  | outcomeUnavailable | outcomeSelfVerification | delegationUnavailable | delegationBroadening
  | selfGrant | selfApproval | grantUnavailable | requestConflict | requestUnavailable
  | requestInvalidState | reservationRequired | reservationNotFound
  | invalidReservationTransition | revocationConflict | revocationUnavailable
  | revocationInvalidState | revocationPending | breakGlassAcknowledgementRequired | invalidScope
  deriving DecidableEq

structure AuthorityError where
  code : AuthorityErrorCode
  message : String
  deriving DecidableEq

/-- `if (condition) throw new ApplicationAuthorityError(code, message)`. -/
def refuseIf (condition : Prop) [Decidable condition] (code : AuthorityErrorCode) (message : String) :
    Except AuthorityError Unit :=
  if condition then .error ⟨code, message⟩ else .ok ()

@[simp] theorem refuseIf_ok [Decidable condition] : refuseIf condition code msg = .ok value ↔ ¬ condition := by
  unfold refuseIf
  split <;> simp_all

def found {α : Type} (lookup : Option α) (code : AuthorityErrorCode) (message : String) :
    Except AuthorityError α :=
  match lookup with
  | some record => .ok record
  | none => .error ⟨code, message⟩

@[simp] theorem found_ok {α : Type} {lookup : Option α} {code : AuthorityErrorCode} {msg : String}
    {record : α} : found lookup code msg = .ok record ↔ lookup = some record := by
  cases lookup <;> simp [found]

@[simp] theorem checks_ok {α β : Type} {first : Except AuthorityError α} {rest : α → Except AuthorityError β}
    {value : β} : (first >>= rest) = .ok value ↔ ∃ middle, first = .ok middle ∧ rest middle = .ok value := by
  cases first <;> simp [bind, Except.bind]

def checkEach {α : Type} (items : List α) (assertion : α → Except AuthorityError Unit) :
    Except AuthorityError Unit :=
  match items with
  | [] => .ok ()
  | item :: rest => assertion item >>= fun _ => checkEach rest assertion

@[simp] theorem checkEach_ok {α : Type} {items : List α} {assertion : α → Except AuthorityError Unit}
    {value : Unit} : checkEach items assertion = .ok value ↔ ∀ item ∈ items, assertion item = .ok () := by
  induction items with
  | nil => simp [checkEach]
  | cons item rest ih =>
    simp only [checkEach, checks_ok, ih, List.forall_mem_cons]
    exact ⟨fun ⟨_, first, later⟩ => ⟨first, later⟩, fun ⟨first, later⟩ => ⟨(), first, later⟩⟩

/-- `items.map(convert)` where `convert` may throw. -/
def convertEach {α β : Type} (items : List α) (convert : α → Except AuthorityError β) :
    Except AuthorityError (List β) :=
  match items with
  | [] => .ok []
  | item :: rest => do
    let converted ← convert item
    let others ← convertEach rest convert
    .ok (converted :: others)

theorem convertEach_ok {α β : Type} {items : List α} {convert : α → Except AuthorityError β}
    {results : List β} : convertEach items convert = .ok results ↔
      List.Forall₂ (fun item res => convert item = .ok res) items results := by
  induction items generalizing results with
  | nil =>
    constructor
    · intro converted
      cases converted
      exact .nil
    · intro converted
      cases converted
      rfl
  | cons item rest ih =>
    simp only [convertEach, checks_ok]
    constructor
    · rintro ⟨converted, first, _, later, ended⟩
      cases ended
      exact .cons first (ih.mp later)
    · intro converted
      cases converted with
      | cons first later => exact ⟨_, first, _, ih.mpr later, rfl⟩

end Applik8s.Authority
