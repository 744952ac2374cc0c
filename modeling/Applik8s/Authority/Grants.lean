import Applik8s.Authority.Repository

/-! Grants in `authority.ts`: their validation, the writers that store them, requests
and approvals, role bootstraps and break-glass roles, revocation and delegation.

An operation here is the work its method hands to `transaction`; `Service` says which
checks a method makes before it opens one. An operation sees one instant `now`. -/
namespace Applik8s.Authority
open Lib (Program)
open Lib.Program (check collect)

def validateScopeOrThrow (scope : ScopeExpression) (path : String) : Except AuthorityError Unit :=
  let diagnostics := validateApplicationScope scope path
  refuseIf (diagnostics ≠ []) .invalidScope (join " " (diagnostics.map AuthorityDiagnostic.message))

def assertAuthorityRecordOrigin (actual expected : AuthorityOrigin) (id : String) :
    Except AuthorityError Unit :=
  refuseIf (actual ≠ expected) .originConflict s!"Authority record {id} must have {expected} origin; received {actual}."

def assertAuthorityCatalogRevision (revision id : String) : Except AuthorityError Unit :=
  refuseIf (blank revision) .catalogMigrationInvalid s!"Authority record {id} must pin a catalog revision."

def assertSubset {τ : Type} [DecidableEq τ] [ToString τ] (requested maximum : List τ)
    (kind id : String) : Except AuthorityError Unit :=
  let extra := requested.filter fun candidate => candidate ∉ maximum
  let values := join ", " (extra.map toString)
  refuseIf (extra ≠ []) .delegationBroadening s!"Authority {id} broadens {kind} values: {values}."

def assertScopeNotBroader (candidate maximum : ScopeExpression) (id : String) :
    Except AuthorityError Unit :=
  refuseIf (¬ isProvableScopeSubset (normalizeApplicationScope candidate)
      (normalizeApplicationScope maximum)) .delegationBroadening
    s!"Authority {id} scope is not a provable subset of its maximum."

@[simp] theorem assertSubset_ok {τ : Type} [DecidableEq τ] [ToString τ] {requested maximum : List τ}
    {kind id : String} {value : Unit} :
    assertSubset requested maximum kind id = .ok value ↔ ∀ item ∈ requested, item ∈ maximum := by
  simp [assertSubset]

@[simp] theorem assertScopeNotBroader_ok {id : String} : assertScopeNotBroader cand maximum id = .ok value ↔
      isProvableScopeSubset (normalizeApplicationScope cand) (normalizeApplicationScope maximum) = true := by
  simp [assertScopeNotBroader]

@[simp] theorem validateScopeOrThrow_ok :
    validateScopeOrThrow scope path = .ok value ↔ validateApplicationScope scope path = [] := by
  simp [validateScopeOrThrow]

def sameIdentity (left right : IdentityReference) : Bool :=
  left.id = right.id && left.kind = right.kind && left.issuer = right.issuer &&
    left.subject = right.subject

@[simp] theorem sameIdentity_iff :
    sameIdentity left right = true ↔ left = right := by
  cases left
  cases right
  simp [sameIdentity, and_assoc]

def applicationRoleBootstrapOwner (roleId : String) : String := s!"application-role-bootstrap:{roleId}"
def startsWith (text pattern : String) : Bool := pattern.toList.isPrefixOf text.toList

def isFrameworkManagedRoleLease (lifecycleOwner : Option String) : Bool :=
  match lifecycleOwner with
  | some owner => startsWith owner "application-role-bootstrap:" || startsWith owner "application-role-break-glass:"
  | none => false

def assertBootstrapIdentity (identity : IdentityReference) (label : String) :
    Except AuthorityError Unit :=
  refuseIf (blank identity.id ∨ blank identity.issuer ∨ blank identity.subject ∨
      identity.kind = .execution ∨ identity.kind = .preAuthenticationFlow ∨
      identity.kind = .oauthAuthorizationFlow) .grantConflict
    s!"Application {label} must be one exact provider-verified non-framework identity."

/-! ### Validation of a grant -/

def permissionNamed (permissionId : Option String) (state : AuthoritySnapshot) : Option PermissionRecord :=
  if truthy permissionId then
    state.permissions.find? fun candidate => some candidate.id = permissionId ∧ ¬ truthy candidate.retiredAt
  else none

variable (dates : Dates) (now : Int) (request : BreakGlassRoleRequest) (record : GrantRecord)
  (permission : Option PermissionRecord)

/-- The check against the permission a grant derives from, when it names one. -/
def validateAgainstPermission (requireGrantablePermission : Bool) : Except AuthorityError Unit :=
  match permission with
  | none => .ok ()
  | some permission => do
    refuseIf (permission.catalogRevision ≠ record.catalogRevision) .catalogMigrationInvalid
      s!"Grant {record.id} and permission {permission.id} must pin the same catalog revision."
    assertSubset record.operationIds permission.operationIds "operation" record.id
    assertScopeNotBroader record.scope permission.scope record.id
    assertSubset (record.audiences.getD []) ((permission.audiences <|> record.audiences).getD []) "audience" record.id
    assertSubset (record.transports.getD [])
      ((permission.transports <|> record.transports).getD []) "transport" record.id
    refuseIf (requireGrantablePermission ∧ ¬ permission.grantable) .permissionNotGrantable
      s!"Permission {permission.id} cannot be assigned at runtime."

/-- The issuer's live `canGrant` grant for the permission. -/
def issuerGrantFor (permission : PermissionRecord)
    (state : AuthoritySnapshot) : Option GrantRecord :=
  state.grants.find? fun candidate =>
    candidate.identity.id = record.issuedBy.id ∧ candidate.canGrant = some true ∧
      ¬ truthy candidate.revokedAt ∧ ¬ isExpired dates candidate.expiresAt now ∧
      candidate.catalogRevision = record.catalogRevision ∧
      candidate.permissionId = some permission.id

/-- `record.expiresAt && limit && record.expiresAt > limit`. -/
def outlives (expiresAt limit : Option String) : Bool :=
  truthy expiresAt && truthy limit && stringLess (limit.getD "") (expiresAt.getD "")

variable (state : AuthoritySnapshot)

/-- A runtime grant must derive from a grantable permission through its issuer's own
authority to grant it. -/
def validateIssuer : Except AuthorityError Unit := do
  let permission ← found permission .permissionUnavailable
    s!"Runtime grant {record.id} must derive from one grantable permission."
  let issuerGrant ← found (issuerGrantFor dates now record permission state) .permissionNotGrantable
    s!"Identity {record.issuedBy.id} has no active canGrant authority for permission {permission.id}."
  assertSubset record.operationIds issuerGrant.operationIds "operation" record.id
  assertScopeNotBroader record.scope issuerGrant.scope record.id
  assertSubset (record.audiences.getD []) ((issuerGrant.audiences <|> record.audiences).getD []) "audience" record.id
  assertSubset (record.transports.getD [])
    ((issuerGrant.transports <|> record.transports).getD []) "transport" record.id
  refuseIf (outlives record.expiresAt issuerGrant.expiresAt) .grantConflict
    s!"Runtime grant {record.id} cannot outlive issuer grant {issuerGrant.id}."

/-- `left > right` on two counts, each of which may be missing. -/
def exceeds (left right : Option Nat) : Bool :=
  match left, right with
  | some left, some right => left > right
  | _, _ => false

def validateDelegation :
    Except AuthorityError Unit :=
  if truthy record.delegationId then do
    let delegationId := record.delegationId.getD ""
    let delegation ← found (state.delegations.find? fun candidate => candidate.id = delegationId)
      .delegationUnavailable s!"Delegation {delegationId} is unavailable."
    refuseIf (truthy delegation.revokedAt ∨ isExpired dates delegation.expiresAt now)
      .delegationUnavailable s!"Delegation {delegationId} is unavailable."
    assertSubset record.operationIds delegation.operationIds "operation" record.id
    assertSubset (record.audiences.getD []) ((delegation.audiences <|> record.audiences).getD []) "audience" record.id
    assertSubset (record.transports.getD [])
      ((delegation.transports <|> record.transports).getD []) "transport" record.id
    refuseIf (exceeds record.maximumUses delegation.maximumUses) .delegationBroadening
      s!"Grant {record.id} exceeds delegation {delegation.id} maximum uses."
    refuseIf (outlives record.expiresAt delegation.expiresAt) .delegationBroadening
      s!"Grant {record.id} outlives delegation {delegation.id}."
    assertScopeNotBroader record.scope delegation.scope record.id
  else .ok ()

def validateOutcome : Except AuthorityError Unit :=
  if truthy record.outcomeId then do
    let outcomeId := record.outcomeId.getD ""
    let outcome ← found (state.outcomes.find? fun candidate => candidate.id = outcomeId)
      .outcomeUnavailable s!"Grant {record.id} references unavailable outcome {outcomeId}."
    refuseIf (outcome.verifier.id = record.identity.id ∨
        outcome.observationOperationId ∈ record.operationIds) .outcomeSelfVerification
      s!"Grant {record.id} cannot verify its own required outcome."
  else .ok ()

/-- `#validateGrant`. -/
def validateGrant (requireGrantablePermission : Bool) : Except AuthorityError Unit := do
  validateScopeOrThrow record.scope s!"grants.{record.id}.scope"
  refuseIf (record.identity.id = record.issuedBy.id ∧ record.origin = .runtime) .selfGrant
    s!"Runtime principal {record.identity.id} cannot grant authority to itself."
  refuseIf (record.operationIds = []) .grantConflict s!"Grant {record.id} must contain at least one operation."
  refuseIf (blank record.catalogRevision ∨ blank record.authorityRevision) .grantConflict
    s!"Grant {record.id} must pin catalog and authority revisions."
  let permission := permissionNamed record.permissionId state
  let named := record.permissionId.getD ""
  refuseIf (truthy record.permissionId ∧ permission = none) .permissionUnavailable
    s!"Grant {record.id} references unavailable permission {named}."
  validateAgainstPermission record permission requireGrantablePermission
  if requireGrantablePermission then validateIssuer dates now record permission state else .ok ()
  validateDelegation dates now record state
  validateOutcome record state

/-! ### Storing a grant -/

/-- A grant that moves to another catalog revision gives up its old reference. -/
def dropMovedReference (previous : Option GrantRecord) (record : GrantRecord) : AuthorityProgram Unit :=
  match previous with
  | some previous =>
    if previous.catalogRevision ≠ record.catalogRevision then
      Calls.removeCatalogReference previous.catalogRevision .grant previous.id
    else pure ()
  | none => pure ()

/-- A live grant references its catalog revision, a dead one does not. -/
def settleReference : AuthorityProgram Unit :=
  if truthy record.revokedAt || isExpired dates record.expiresAt now then
    Calls.removeCatalogReference record.catalogRevision .grant record.id
  else Calls.putCatalogReference record.catalogRevision .grant record.id record.operationIds

/-- `#putGrant`. -/
def putGrant : AuthorityProgram Unit := do
  let state ← Calls.snapshot
  let previous := state.grants.find? fun candidate => candidate.id = record.id
  Calls.putGrant record
  dropMovedReference previous record
  settleReference dates now record

def assignGrant : AuthorityProgram GrantRecord := do
  let state ← Calls.snapshot
  match state.grants.find? fun candidate => candidate.id = record.id with
  | some existing => do
    check (refuseIf (existing ≠ record) .grantConflict
      s!"Grant {record.id} already exists with different immutable authority.")
    pure existing
  | none => do
    check (validateGrant dates now record state (record.origin = .runtime))
    putGrant dates now record
    audit dates now .grantAssigned record.authorityRevision
      { principal := some record.issuedBy
        details := [("grantId", .text record.id), ("identityId", .text record.identity.id)] }
    pure record

/-- `#revokeGrant`. -/
def revokeGrant (grantId reason : String) : AuthorityProgram GrantRecord := do
  let state ← Calls.snapshot
  let grant ← check (found (state.grants.find? fun candidate => candidate.id = grantId)
    .grantUnavailable s!"Grant {grantId} does not exist.")
  if truthy grant.revokedAt then pure grant
  else do
    let revoked := { grant with
      revokedAt := some (dates.toISOString now), reason := grant.reason <|> some reason }
    putGrant dates now revoked
    audit dates now .grantRevoked grant.authorityRevision
      { principal := some grant.issuedBy
        details := [("grantId", .text grantId), ("reason", .text reason)] }
    pure revoked

/-! ### Requests and approvals -/

def requestGrant (record : GrantRequestRecord) :
    AuthorityProgram GrantRequestRecord := do
  check (refuseIf (record.state ≠ .pending) .requestInvalidState s!"New grant request {record.id} must be pending.")
  check (validateScopeOrThrow record.scope s!"grantRequests.{record.id}.scope")
  let state ← Calls.snapshot
  match state.requests.find? fun candidate => candidate.id = record.id with
  | some existing => do
    check (refuseIf (existing ≠ record) .requestConflict
      s!"Grant request {record.id} already exists with different terms.")
    pure existing
  | none => do
    Calls.putRequest record
    audit dates now .grantRequested state.revision
      { principal := some record.requester
        details := [("requestId", .text record.id), ("operationIds", .texts record.operationIds)] }
    pure record

structure GrantDecision where
  approval : ApprovalRecord
  grant : Option GrantRecord := none

/-- The checks a decision's grant passes before `#validateGrant`. -/
def validateDecidedGrant (request : GrantRequestRecord) (grant : GrantRecord)
    (state : AuthoritySnapshot) : Except AuthorityError Unit := do
  refuseIf (grant.identity.id ≠ request.requester.id) .requestConflict
    s!"Grant {grant.id} must target request principal {request.requester.id}."
  assertSubset grant.operationIds request.operationIds "operation" grant.id
  assertScopeNotBroader grant.scope request.scope grant.id
  refuseIf (request.requestedMaximumUses.isSome ∧
      (grant.maximumUses = none ∨ exceeds grant.maximumUses request.requestedMaximumUses))
    .delegationBroadening s!"Grant {grant.id} exceeds request {request.id} maximum uses."
  refuseIf (truthy request.requestedExpiresAt ∧
      (¬ truthy grant.expiresAt ∨ outlives grant.expiresAt request.requestedExpiresAt))
    .delegationBroadening s!"Grant {grant.id} exceeds request {request.id} expiry."
  refuseIf (request.requiredOutcomeId ≠ grant.outcomeId) .requestConflict
    s!"Grant {grant.id} must preserve request {request.id} outcome requirement."
  validateOutcome grant state

def storeDecidedGrant (request : GrantRequestRecord)
    (grant : Option GrantRecord) (state : AuthoritySnapshot) : AuthorityProgram Unit :=
  match grant with
  | none => pure ()
  | some grant => do
    check (validateDecidedGrant request grant state)
    check (validateGrant dates now grant state true)
    putGrant dates now grant

def decideGrantRequest (requestId : String) (decision : GrantDecision) :
    AuthorityProgram GrantRequestRecord := do
  let state ← Calls.snapshot
  let request ← check (found (state.requests.find? fun candidate => candidate.id = requestId)
    .requestUnavailable s!"Grant request {requestId} does not exist.")
  if request.state ≠ .pending then do
    let existingApproval := state.approvals.find? fun candidate => candidate.id = decision.approval.id
    check (refuseIf (existingApproval ≠ some decision.approval) .requestInvalidState
      s!"Grant request {requestId} is already {request.state}.")
    pure request
  else do
    let approval := decision.approval
    let approved := approval.decision = .approve
    check (refuseIf (approval.requestId ≠ request.id) .requestConflict
      s!"Approval {approval.id} does not belong to request {request.id}.")
    check (refuseIf (approval.approver.id = request.requester.id) .selfApproval
      s!"Requester {request.requester.id} cannot approve its own grant request.")
    check (refuseIf (approved ∧ decision.grant = none) .requestConflict
      s!"Approved request {request.id} requires a materialized grant.")
    check (refuseIf (¬ approved ∧ decision.grant.isSome) .requestConflict
      s!"Rejected request {request.id} cannot create a grant.")
    storeDecidedGrant dates now request decision.grant state
    let decided := { request with
      state := if approved then .approved else .rejected
      decidedAt := some approval.decidedAt }
    Calls.putApproval approval
    Calls.putRequest decided
    audit dates now (if approved then .grantApproved else .grantRejected) state.revision
      { principal := some approval.approver
        details := [("requestId", .text requestId), ("approvalId", .text approval.id)] ++
          (decision.grant.map fun grant => ("grantId", AuditDetail.text grant.id)).toList }
    pure decided

/-! ### Role bootstraps and break-glass roles -/

/-- The grant that a bootstrap or a break-glass request makes of one permission of a role. -/
def roleGrant (permission : PermissionRecord) (id : String) (identity issuedBy : IdentityReference)
    (lifecycleOwner reason : String) (expiresAt : Option String) (authorityRevision createdAt : String) :
    GrantRecord where
  id := id
  origin := .runtime
  identity := identity
  permissionId := some permission.id
  operationIds := permission.operationIds
  scope := permission.scope
  audiences := permission.audiences
  transports := permission.transports
  issuedBy := issuedBy
  lifecycleOwner := some lifecycleOwner
  reason := some reason
  expiresAt := expiresAt
  catalogRevision := permission.catalogRevision
  authorityRevision := authorityRevision
  createdAt := createdAt

def livePermission (permissionId : String) (state : AuthoritySnapshot) : Option PermissionRecord :=
  state.permissions.find? fun candidate => candidate.id = permissionId ∧ ¬ truthy candidate.retiredAt

/-- One iteration of the loop that materializes a bootstrap. -/
def bootstrapPermission (bootstrap : StaticRoleBootstrapDefinition)
    (admittedIdentity : IdentityReference) (role : RoleRecord) (state : AuthoritySnapshot)
    (permissionId : String) : AuthorityProgram GrantRecord := do
  let permission ← check (found (livePermission permissionId state) .permissionUnavailable
    s!"Role bootstrap {bootstrap.id} references unavailable permission {permissionId}.")
  let grant := roleGrant permission s!"{bootstrap.id}:{permission.id}" admittedIdentity
    bootstrap.issuedBy (applicationRoleBootstrapOwner bootstrap.roleId) bootstrap.reason none
    state.revision (dates.toISOString now)
  check (validateGrant dates now grant state false)
  putGrant dates now grant
  audit dates now .grantAssigned grant.authorityRevision
    { principal := some bootstrap.issuedBy
      details := [("grantId", .text grant.id), ("identityId", .text admittedIdentity.id),
        ("bootstrapId", .text bootstrap.id), ("roleId", .text role.id)] }
  pure grant

/-- Materializes a role bootstrap for the admitted identity. Any grant ever stored for
the role's bootstrap closes it: later calls return what is left of it or nothing. -/
def bootstrapDeclaredRole (bootstrap : StaticRoleBootstrapDefinition)
    (admittedIdentity : IdentityReference) : AuthorityProgram (List GrantRecord) :=
  if ¬ sameIdentity bootstrap.identity admittedIdentity then pure []
  else do
    let state ← Calls.snapshot
    let role ← check (found (state.roles.find? fun candidate =>
        candidate.id = bootstrap.roleId ∧ ¬ truthy candidate.retiredAt) .permissionUnavailable
      s!"Role bootstrap {bootstrap.id} references unavailable role {bootstrap.roleId}.")
    check (refuseIf (role.permissionIds = []) .permissionUnavailable
      s!"Role bootstrap {bootstrap.id} cannot assign role {role.name} before it has permissions.")
    let historicalRoleGrants := state.grants.filter fun grant =>
      grant.lifecycleOwner = some (applicationRoleBootstrapOwner bootstrap.roleId)
    if historicalRoleGrants ≠ [] then
      if historicalRoleGrants.all fun grant => sameIdentity grant.identity admittedIdentity then
        pure (historicalRoleGrants.filter fun grant =>
          ¬ truthy grant.revokedAt ∧ ¬ isExpired dates grant.expiresAt now)
      else pure []
    else collect role.permissionIds (bootstrapPermission dates now bootstrap admittedIdentity role state)

structure RoleBootstrapRequest where
  id : String
  roleId : String
  identity : IdentityReference
  issuedBy : IdentityReference
  reason : String

/-- The checks `bootstrapRole` makes before it turns to `bootstrapDeclaredRole`. -/
def validateRoleBootstrap (request : RoleBootstrapRequest) : Except AuthorityError Unit := do
  refuseIf (blank request.reason) .grantConflict "Application role bootstrap requires a non-empty audited reason."
  assertBootstrapIdentity request.identity "bootstrap identity"
  assertBootstrapIdentity request.issuedBy "bootstrap issuer"

def RoleBootstrapRequest.definition (request : RoleBootstrapRequest) : StaticRoleBootstrapDefinition where
  id := request.id
  roleId := request.roleId
  identity := request.identity
  issuedBy := request.issuedBy
  reason := request.reason

structure BreakGlassRoleRequest extends RoleBootstrapRequest where
  expiresAt : String
  acknowledgement : String

/-- The checks `assignBreakGlassRole` makes before its transaction. -/
def validateBreakGlass : Except AuthorityError Unit := do
  assertBootstrapIdentity request.identity "break-glass identity"
  assertBootstrapIdentity request.issuedBy "break-glass issuer"
  refuseIf (blank request.reason ∨ blank request.acknowledgement) .grantConflict
    "Break-glass authority requires an explicit acknowledgement and audited reason."

/-- The expiry of a break-glass request: in the future, at most a day ahead. -/
def breakGlassExpiry (expiresAt : String) : Except AuthorityError String :=
  match dates.parse expiresAt with
  | some instant =>
    if instant ≤ now ∨ instant > now + 86400000 then
      .error ⟨.breakGlassAcknowledgementRequired,
        "Break-glass expiry must be in the future and no more than 24 hours from issuance."⟩
    else .ok (dates.toISOString instant)
  | none => .error ⟨.breakGlassAcknowledgementRequired,
      "Break-glass expiry must be in the future and no more than 24 hours from issuance."⟩

def breakGlassOwner : String :=
  s!"application-role-break-glass:{request.roleId}:{request.id}"

/-- One iteration of the loop that materializes a break-glass role. -/
def breakGlassPermission (expiresAt : String) (role : RoleRecord) (state : AuthoritySnapshot) (permissionId : String) :
    AuthorityProgram GrantRecord := do
  let permission ← check (found (livePermission permissionId state) .permissionUnavailable
    s!"Break-glass role {role.id} references unavailable permission {permissionId}.")
  let owner := breakGlassOwner request
  let grant := roleGrant permission s!"{owner}:{permission.id}" request.identity request.issuedBy
    owner request.reason (some expiresAt) state.revision (dates.toISOString now)
  check (validateGrant dates now grant state false)
  putGrant dates now grant
  pure grant

def assignBreakGlassRole :
    AuthorityProgram (List GrantRecord) := do
  let state ← Calls.snapshot
  let expiresAt ← check (breakGlassExpiry dates now request.expiresAt)
  let unavailable :=
    s!"Break-glass request {request.id} references unavailable or empty role {request.roleId}."
  let role ← check (found (state.roles.find? fun candidate =>
    candidate.id = request.roleId ∧ ¬ truthy candidate.retiredAt) .permissionUnavailable unavailable)
  check (refuseIf (role.permissionIds = []) .permissionUnavailable unavailable)
  let existing := state.grants.filter fun grant => grant.lifecycleOwner = some (breakGlassOwner request)
  if existing ≠ [] then do
    let sameTerms := existing.all fun grant =>
      sameIdentity grant.identity request.identity && grant.expiresAt = some expiresAt
    check (refuseIf (¬ sameTerms) .grantConflict
      s!"Break-glass request {request.id} already exists with different terms.")
    pure existing
  else do
    let grants ← collect role.permissionIds
      (breakGlassPermission dates now request expiresAt role state)
    audit dates now .breakGlass state.revision
      { principal := some request.issuedBy
        details := [("requestId", .text request.id), ("roleId", .text role.id),
          ("identityId", .text request.identity.id), ("expiresAt", .text expiresAt),
          ("acknowledgement", .text request.acknowledgement),
          ("grantIds", .texts (grants.map GrantRecord.id))] }
    pure grants

/-! ### Revocation by role, granted roles, delegation -/

def revokeRoleForIdentity (roleId : String) (identity : IdentityReference)
    (reason : String) : AuthorityProgram (List GrantRecord) := do
  let state ← Calls.snapshot
  let role ← check (found (state.roles.find? fun candidate => candidate.id = roleId)
    .permissionUnavailable s!"Cannot revoke unavailable role {roleId}.")
  let grants := state.grants.filter fun grant =>
    ¬ truthy grant.revokedAt ∧ sameIdentity grant.identity identity ∧
      truthy grant.permissionId ∧ grant.permissionId.getD "" ∈ role.permissionIds
  collect grants fun grant => revokeGrant dates now grant.id reason

def grantedRolesForIdentity (identity : IdentityReference) :
    AuthorityProgram (List String) := do
  let state ← Calls.snapshot
  let permissionIds := (state.grants.filter fun grant =>
    sameIdentity grant.identity identity ∧ ¬ truthy grant.revokedAt ∧
      ¬ isExpired dates grant.expiresAt now).flatMap fun grant => (whenTruthy grant.permissionId).toList
  let roles := state.roles.filter fun role =>
    ¬ truthy role.retiredAt ∧ role.permissionIds ≠ [] ∧ ∀ id ∈ role.permissionIds, id ∈ permissionIds
  pure (sortStrings (roles.map RoleRecord.name))

def delegate (record : DelegationRecord) (parentGrant : GrantRecord) :
    AuthorityProgram DelegationRecord := do
  check (refuseIf (truthy parentGrant.revokedAt ∨ isExpired dates parentGrant.expiresAt now)
    .grantUnavailable s!"Grant {parentGrant.id} cannot be delegated because it is inactive.")
  check (assertSubset record.operationIds parentGrant.operationIds "operation" record.id)
  check (assertSubset (record.audiences.getD [])
    ((parentGrant.audiences <|> record.audiences).getD []) "audience" record.id)
  check (assertSubset (record.transports.getD [])
    ((parentGrant.transports <|> record.transports).getD []) "transport" record.id)
  check (assertScopeNotBroader record.scope parentGrant.scope record.id)
  check (refuseIf (outlives record.expiresAt parentGrant.expiresAt) .delegationBroadening
    s!"Delegation {record.id} outlives grant {parentGrant.id}.")
  Calls.putDelegation record
  pure record

end Applik8s.Authority
