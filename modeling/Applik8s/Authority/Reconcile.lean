import Applik8s.Authority.Grants

/-! Reconciliation of application-authored authority, and the runtime records that
live beside it. A manifest is written over the stored records first; the application
records it no longer declares are retired or revoked afterwards. -/
namespace Applik8s.Authority
open Lib.Program (check forEach)

def createRuntimePermission (record : PermissionRecord) : AuthorityProgram PermissionRecord := do
  check (assertAuthorityRecordOrigin record.origin .runtime record.id)
  check (assertAuthorityCatalogRevision record.catalogRevision record.id)
  check (validateScopeOrThrow record.scope s!"permissions.{record.id}.scope")
  let state ← Calls.snapshot
  check (refuseIf ((state.permissions.find? fun candidate => candidate.id = record.id).isSome)
    .originConflict s!"Permission {record.id} already exists and cannot be overwritten.")
  Calls.putPermission record
  pure record

/-- The permissions of a role that are missing or retired. -/
def missingPermissions (permissionIds : List String) (state : AuthoritySnapshot) : List String :=
  permissionIds.filter fun permissionId => livePermission permissionId state = none

variable (dates : Dates) (now : Int) (manifest : StaticAuthorityManifest) (desiredPermissionIds : List String)
  (permission : PermissionRecord) (current : AuthoritySnapshot)

def createRuntimeRole (record : RoleRecord) : AuthorityProgram RoleRecord := do
  check (assertAuthorityRecordOrigin record.origin .runtime record.id)
  let state ← Calls.snapshot
  check (refuseIf (state.roles.any fun candidate => candidate.id = record.id) .originConflict
    s!"Role {record.id} already exists and cannot be overwritten.")
  let missing := missingPermissions record.permissionIds state
  let listed := join ", " missing
  check (refuseIf (missing ≠ []) .permissionUnavailable
    s!"Role {record.id} references unavailable permissions: {listed}.")
  Calls.putRole record
  audit dates now .roleCreated state.revision
    { details := [("roleId", .text record.id), ("permissionIds", .texts record.permissionIds)] }
  pure record

def putNewOutcome (existing : Option OutcomeDefinition) (record : OutcomeDefinition) :
    AuthorityProgram OutcomeDefinition :=
  match existing with
  | some existing => pure existing
  | none => do
    Calls.putOutcome record
    pure record

/-- `#registerOutcome`. -/
def registerOutcome (record : OutcomeDefinition) : AuthorityProgram OutcomeDefinition := do
  let state ← Calls.snapshot
  let existing := state.outcomes.find? fun candidate => candidate.id = record.id
  check (refuseIf (existing.isSome ∧ existing ≠ some record) .outcomeConflict
    s!"Outcome {record.id} already exists with different semantics.")
  check (validateScopeOrThrow record.predicate s!"outcomes.{record.id}.predicate")
  putNewOutcome existing record

variable (revision : String)

def assertManifestRevision :
    Except AuthorityError Unit :=
  refuseIf (permission.manifestRevision ≠ some revision) .manifestRevisionMismatch
    s!"Permission {permission.id} does not carry manifest revision {revision}."

def assertNotRuntimePermission :
    Except AuthorityError Unit :=
  refuseIf (current.permissions.any fun candidate =>
      candidate.id = permission.id && candidate.origin = .runtime) .originConflict
    s!"Application permission {permission.id} cannot shadow a runtime permission."

/-- A stored application permission that is no longer declared is retired. -/
def retirePermission : AuthorityProgram Unit :=
  if permission.origin = .application ∧ ¬ truthy permission.retiredAt ∧ permission.id ∉ desiredPermissionIds then
    Calls.putPermission { permission with retiredAt := some (dates.toISOString now) }
  else pure ()

variable (manifestRevision : String) (current : AuthoritySnapshot) (permission : PermissionRecord)

/-- One iteration of the loop over the desired permissions. -/
def reconcileDesiredPermission : AuthorityProgram Unit := do
  check (assertAuthorityRecordOrigin permission.origin .application permission.id)
  check (assertAuthorityCatalogRevision permission.catalogRevision permission.id)
  check (assertManifestRevision permission manifestRevision)
  check (assertNotRuntimePermission permission current)
  check (validateScopeOrThrow permission.scope s!"permissions.{permission.id}.scope")
  Calls.putPermission permission

def reconcileApplicationPermissions (desired : List PermissionRecord) : AuthorityProgram (List PermissionRecord) := do
  let current ← Calls.snapshot
  forEach desired (reconcileDesiredPermission manifestRevision current)
  forEach current.permissions (retirePermission dates now (desired.map PermissionRecord.id))
  let reconciled ← Calls.snapshot
  pure (reconciled.permissions.filter fun permission => permission.origin = .application)

/-! ### A whole manifest -/

structure AuthorityManifest where
  revision : String
  permissions : List PermissionRecord
  roles : List RoleRecord
  grants : List GrantRecord

def validateManifestPermission : Except AuthorityError Unit := do
  assertAuthorityRecordOrigin permission.origin .application permission.id
  assertAuthorityCatalogRevision permission.catalogRevision permission.id
  assertManifestRevision permission revision
  validateScopeOrThrow permission.scope s!"permissions.{permission.id}.scope"
  assertNotRuntimePermission permission current

/-- A declared permission is written when it differs from the stored one. -/
def reconcilePermission : AuthorityProgram Unit := do
  check (validateManifestPermission revision current permission)
  if (current.permissions.find? fun candidate => candidate.id = permission.id) ≠ some permission then
    Calls.putPermission permission
  else pure ()

/-- The permissions a declared role names that are neither declared nor stored unretired. -/
def unavailablePermissions (role : RoleRecord) : List String :=
  role.permissionIds.filter fun permissionId =>
    permissionId ∉ desiredPermissionIds ∧ livePermission permissionId current = none

def validateManifestRole (role : RoleRecord) : Except AuthorityError Unit := do
  assertAuthorityRecordOrigin role.origin .application role.id
  refuseIf (current.roles.any fun candidate => candidate.id = role.id && candidate.origin = .runtime)
    .originConflict s!"Application role {role.id} cannot shadow a runtime role."
  let unavailable := unavailablePermissions desiredPermissionIds current role
  let listed := join ", " unavailable
  refuseIf (unavailable ≠ []) .permissionUnavailable s!"Role {role.id} references unavailable permissions: {listed}."

def reconcileRole (role : RoleRecord) :
    AuthorityProgram Unit := do
  check (validateManifestRole desiredPermissionIds current role)
  if (current.roles.find? fun candidate => candidate.id = role.id) ≠ some role then
    Calls.putRole role
  else pure ()

/-- The checks of a declared grant, in the state its iteration finds. -/
def validateManifestGrant (grant : GrantRecord) (state : AuthoritySnapshot) :
    Except AuthorityError Unit := do
  refuseIf (state.grants.any fun candidate => candidate.id = grant.id && candidate.origin = .runtime)
    .originConflict s!"Application grant {grant.id} cannot shadow a runtime grant."
  validateGrant dates now grant state false

def reconcileGrant (grant : GrantRecord) : AuthorityProgram Unit := do
  check (assertAuthorityRecordOrigin grant.origin .application grant.id)
  let grantState ← Calls.snapshot
  check (validateManifestGrant dates now grant grantState)
  if (grantState.grants.find? fun candidate => candidate.id = grant.id) ≠ some grant then
    putGrant dates now grant
  else pure ()

def retireRole (desiredRoleIds : List String) (role : RoleRecord) :
    AuthorityProgram Unit :=
  if role.origin = .application ∧ ¬ truthy role.retiredAt ∧ role.id ∉ desiredRoleIds then
    Calls.putRole { role with retiredAt := some (dates.toISOString now) }
  else pure ()

def retireGrant (desiredGrantIds : List String) (grant : GrantRecord) :
    AuthorityProgram Unit :=
  if grant.origin = .application ∧ ¬ truthy grant.revokedAt ∧ grant.id ∉ desiredGrantIds then
    putGrant dates now { grant with revokedAt := some (dates.toISOString now) }
  else pure ()

/-- `#reconcileApplicationAuthority`. -/
def reconcileApplicationAuthority (manifest : AuthorityManifest) :
    AuthorityProgram AuthoritySnapshot := do
  let current ← Calls.snapshot
  let desiredPermissionIds := manifest.permissions.map PermissionRecord.id
  forEach manifest.permissions (reconcilePermission manifest.revision current)
  forEach manifest.roles (reconcileRole desiredPermissionIds current)
  forEach manifest.grants (reconcileGrant dates now)
  forEach current.permissions (retirePermission dates now desiredPermissionIds)
  forEach current.roles (retireRole dates now (manifest.roles.map RoleRecord.id))
  forEach current.grants (retireGrant dates now (manifest.grants.map GrantRecord.id))
  Calls.snapshot

/-! ### The static manifest -/

def StaticPermissionDefinition.record (definition : StaticPermissionDefinition)
    (revision catalogRevision now : String) (current : AuthoritySnapshot) : PermissionRecord where
  id := definition.id
  name := definition.name
  origin := .application
  manifestRevision := some revision
  catalogRevision := catalogRevision
  operationIds := definition.operationIds
  scope := definition.scope
  transports := definition.transports
  audiences := definition.audiences
  grantable := definition.grantable
  lifecycleOwner := whenTruthy definition.lifecycleOwner
  createdAt := ((current.permissions.find? fun candidate => candidate.id = definition.id).map
    PermissionRecord.createdAt).getD now

def StaticRoleDefinition.record (definition : StaticRoleDefinition) (now : String)
    (current : AuthoritySnapshot) : RoleRecord where
  id := definition.id
  name := definition.name
  origin := .application
  permissionIds := definition.permissionIds
  lifecycleOwner := whenTruthy definition.lifecycleOwner
  createdAt := ((current.roles.find? fun candidate => candidate.id = definition.id).map RoleRecord.createdAt).getD now

def StaticGrantDefinition.record (definition : StaticGrantDefinition) (catalogRevision now : String)
    (current : AuthoritySnapshot) : GrantRecord where
  id := definition.id
  origin := .application
  identity := definition.identity
  permissionId := whenTruthy definition.permissionId
  operationIds := definition.operationIds
  scope := definition.scope
  audiences := definition.audiences
  transports := definition.transports
  issuedBy := definition.issuedBy
  canGrant := if definition.canGrant = some true then some true else none
  lifecycleOwner := whenTruthy definition.lifecycleOwner
  reason := whenTruthy definition.reason
  maximumUses := definition.maximumUses
  expiresAt := whenTruthy definition.expiresAt
  outcomeId := whenTruthy definition.outcomeId
  catalogRevision := catalogRevision
  authorityRevision := ((current.grants.find? fun candidate => candidate.id = definition.id).map
    GrantRecord.authorityRevision).getD current.revision
  createdAt := ((current.grants.find? fun candidate => candidate.id = definition.id).map GrantRecord.createdAt).getD now

def assertDistinctIdentities : Except AuthorityError Unit :=
  let ids := manifest.identities.map IdentityReference.id
  refuseIf ((distinctValues ids).length ≠ ids.length) .manifestIdentityConflict
    s!"Static authority manifest {manifest.revision} contains duplicate identity references."

def assertDeclaredIdentities (definition : StaticGrantDefinition) :
    Except AuthorityError Unit :=
  let ids := manifest.identities.map IdentityReference.id
  refuseIf (definition.identity.id ∉ ids ∨ definition.issuedBy.id ∉ ids) .manifestIdentityConflict
    s!"Static grant {definition.id} references an identity not declared by manifest {manifest.revision}."

/-- The records a static manifest declares over the current state. -/
def StaticAuthorityManifest.records (catalogRevision now : String)
    (current : AuthoritySnapshot) : AuthorityManifest where
  revision := manifest.revision
  permissions := manifest.permissions.map fun definition =>
    definition.record manifest.revision catalogRevision now current
  roles := manifest.roles.map fun definition => definition.record now current
  grants := manifest.grants.map fun definition => definition.record catalogRevision now current

def registerManifestOutcome (outcome : OutcomeDefinition) : AuthorityProgram Unit := do
  let _ ← registerOutcome outcome
  pure ()

def reconcileStaticAuthorityManifest (catalogRevision : String) : AuthorityProgram AuthoritySnapshot := do
  let current ← Calls.snapshot
  check (assertDistinctIdentities manifest)
  forEach manifest.grants fun definition => check (assertDeclaredIdentities manifest definition)
  forEach manifest.outcomes registerManifestOutcome
  reconcileApplicationAuthority dates now (manifest.records catalogRevision (dates.toISOString now) current)

end Applik8s.Authority
