import Applik8s.Authority.Catalog
import Applik8s.Authority.Grants

/-! Migration of pinned authority between two catalogs of an application. Everything a
migration decides, it decides on the snapshot it starts from: `planMigration` is that
decision with every check, and the writes follow the plan. -/
namespace Applik8s.Authority
open Lib (Table)
open Lib.Program (check forEach)
variable (report : CompatibilityReport)

/-- What becomes of one operation id that a record holds. -/
def migrateOperationId (owner : String) (operationId : OperationId) :
    Except AuthorityError OperationId :=
  let required := s!"{owner} operation {operationId} requires an explicit compatible replacement migration before activation."
  match report.changes.find? fun candidate => candidate.operationId = operationId with
  | none => .error ⟨.catalogMigrationInvalid, s!"{owner} operation {operationId} has no catalog migration result."⟩
  | some change =>
    if change.kind = .compatible then .ok operationId
    else
      match change.kind, change.replacement with
      | .replaced, some replacement =>
        if replacement.compatible && truthy replacement.migration then .ok replacement.operationId
        else .error ⟨.catalogMigrationInvalid, required⟩
      | _, _ => .error ⟨.catalogMigrationInvalid, required⟩

/-- The migrated ids of a record: without repetition and sorted. -/
def migrateOperationIds (operationIds : List OperationId) (owner : String) :
    Except AuthorityError (List OperationId) := do
  let migrated ← convertEach operationIds (migrateOperationId report owner)
  .ok (sortStrings (distinctValues migrated))

def migratePermission (toRevision : String) (permission : PermissionRecord) :
    Except AuthorityError PermissionRecord := do
  let operationIds ← migrateOperationIds report permission.operationIds s!"Permission {permission.id}"
  .ok { permission with operationIds, catalogRevision := toRevision }

def migrateGrant (toRevision nextAuthorityRevision : String)
    (grant : GrantRecord) : Except AuthorityError GrantRecord := do
  let operationIds ← migrateOperationIds report grant.operationIds s!"Grant {grant.id}"
  .ok { grant with
    operationIds, catalogRevision := toRevision, authorityRevision := nextAuthorityRevision }

structure MigrationPlan where
  permissions : List PermissionRecord
  grants : List GrantRecord
  /-- The unrevoked grants of the old revision that have expired; they are not migrated. -/
  expired : List GrantRecord

def pinnedPermissions (revision : String) (state : AuthoritySnapshot) : List PermissionRecord :=
  state.permissions.filter fun permission => ¬ truthy permission.retiredAt ∧ permission.catalogRevision = revision

variable (dates : Dates) (now : Int)

def pinnedGrants (revision : String) (state : AuthoritySnapshot) :
    List GrantRecord :=
  state.grants.filter fun grant =>
    ¬ truthy grant.revokedAt ∧ ¬ isExpired dates grant.expiresAt now ∧ grant.catalogRevision = revision

def expiredGrants (revision : String) (state : AuthoritySnapshot) :
    List GrantRecord :=
  state.grants.filter fun grant =>
    grant.catalogRevision = revision ∧ ¬ truthy grant.revokedAt ∧ isExpired dates grant.expiresAt now

/-- Framework-managed leases may hold permissions that are not grantable. -/
def requiresGrantable (grant : GrantRecord) : Bool :=
  grant.origin = .runtime && !isFrameworkManagedRoleLease grant.lifecycleOwner

/-- The state a migrated grant is validated against: permissions and grants migrated together. -/
def MigrationPlan.validationState (plan : MigrationPlan) (state : AuthoritySnapshot) : AuthoritySnapshot :=
  { state with
    permissions := Table.replaced plan.permissions state.permissions
    grants := Table.replaced plan.grants state.grants }

variable (fromRevision toRevision nextAuthorityRevision : String) (older newer : OperationCatalog)

def assertMigrationCatalogs : Except AuthorityError Unit :=
  refuseIf (older.application ≠ newer.application ∨ (older.state ≠ .active ∧ older.state ≠ .draining) ∨
      (newer.state ≠ .staged ∧ newer.state ≠ .active)) .catalogMigrationInvalid
    "Authority catalog migration must move from one active/draining revision to one staged/active revision of the same application."

def planMigration (nextAuthorityRevision : String) (state : AuthoritySnapshot) : Except AuthorityError MigrationPlan := do
  assertMigrationCatalogs older newer
  let report := compareApplicationOperationCatalogs older newer
  let permissions ← convertEach (pinnedPermissions older.revision state)
    (migratePermission report newer.revision)
  let grants ← convertEach (pinnedGrants dates now older.revision state)
    (migrateGrant report newer.revision nextAuthorityRevision)
  let plan : MigrationPlan :=
    { permissions, grants, expired := expiredGrants dates now older.revision state }
  checkEach grants fun grant => validateGrant dates now grant (plan.validationState state) (requiresGrantable grant)
  .ok plan

/-- The write of one migrated grant and of its catalog references. -/
def repinGrant (fromRevision toRevision : String) (grant : GrantRecord) : AuthorityProgram Unit := do
  Calls.putGrant grant
  Calls.removeCatalogReference fromRevision .grant grant.id
  Calls.putCatalogReference toRevision .grant grant.id grant.operationIds

def dropExpiredReference (fromRevision nextAuthorityRevision : String)
    (grant : GrantRecord) : AuthorityProgram Unit := do
  Calls.removeCatalogReference fromRevision .grant grant.id
  audit dates now .grantExpired nextAuthorityRevision
    { principal := some grant.issuedBy
      details := [("grantId", .text grant.id), ("fromRevision", .text fromRevision)] }

def auditMigratedGrant (grant : GrantRecord) : AuthorityProgram Unit :=
  audit dates now .grantMigrated nextAuthorityRevision
    { principal := some grant.issuedBy
      details := [("grantId", .text grant.id), ("fromRevision", .text fromRevision),
        ("toRevision", .text toRevision), ("operationIds", .texts grant.operationIds)] }

def applyMigration (plan : MigrationPlan) : AuthorityProgram AuthoritySnapshot := do
  forEach plan.permissions Calls.putPermission
  forEach plan.grants (repinGrant fromRevision toRevision)
  forEach plan.expired (dropExpiredReference dates now fromRevision nextAuthorityRevision)
  forEach plan.grants (auditMigratedGrant dates now fromRevision toRevision nextAuthorityRevision)
  Calls.snapshot

def migrateCatalogAuthority (nextAuthorityRevision : String) : AuthorityProgram AuthoritySnapshot := do
  let state ← Calls.snapshot
  let plan ← check (planMigration dates now older newer nextAuthorityRevision state)
  applyMigration dates now older.revision newer.revision nextAuthorityRevision plan

end Applik8s.Authority
