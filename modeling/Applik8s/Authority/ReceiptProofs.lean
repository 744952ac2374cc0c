import Applik8s.Authority.AuthorizeProofs
import Applik8s.Authority.CatalogMigration
import Applik8s.Authority.DefinitionWriters

/-! What a receipt that passes revalidation still rests on. Revalidation looks up every
grant of the receipt; it never looks at the permissions the receipt names, nor at the
role a permission came from. These stand over a run only as long as no manifest and no
migration withdraws them. -/
namespace Applik8s.Authority
open List Option
open Lib (Table runFrom EachStep invariant_of_steps)
open Lib.Program (exec_pure)
variable {dates : Dates} {now : Int} {receipt : AuthorizationReceipt} {catalog : OperationCatalog}
  {boundary : AuthorizationBoundary} {trustedContextDigest : String} {world : World}

/-- The result of `revalidateReceipt`. -/
def revalidation (dates : Dates) (now : Int) (world : World) (receipt : AuthorizationReceipt)
    (catalog : OperationCatalog) (boundary : AuthorizationBoundary) (trustedContextDigest : String) :
    Option AuthorizationResult :=
  match (serve dates world ⟨now, .revalidateReceipt receipt catalog boundary trustedContextDigest⟩).1 with
  | .ok (.authorization result) => some result
  | _ => none

/-- Every grant of the receipt is stored, unrevoked and unexpired. -/
def GrantsStand (dates : Dates) (now : Int) (receipt : AuthorizationReceipt) (state : AuthoritySnapshot) : Prop :=
  ∀ grantId ∈ receipt.matchedGrantIds, ∃ grant ∈ state.grants, grant.id = grantId ∧
    truthy grant.revokedAt = false ∧ isExpired dates grant.expiresAt now = false

/-- The permission is unretired and lists the receipt's operation. -/
def Backs (receipt : AuthorizationReceipt) (permission : PermissionRecord) : Prop :=
  truthy permission.retiredAt = false ∧ receipt.operationId ∈ permission.operationIds

/-- Every permission of the receipt is stored, unretired and lists the receipt's operation. -/
def PermissionsStand (receipt : AuthorizationReceipt) (permissions : List PermissionRecord) : Prop :=
  ∀ permissionId ∈ receipt.matchedPermissionIds, ∃ permission ∈ permissions,
    permission.id = permissionId ∧ Backs receipt permission

/-- The role is an unretired role of the receipt's principal that contains the permission. -/
def Confers (receipt : AuthorizationReceipt) (permissionId : String) (role : RoleRecord) : Prop :=
  truthy role.retiredAt = false ∧ role.name ∈ receipt.principal.roles.getD [] ∧ permissionId ∈ role.permissionIds

/-- An unretired role of the receipt's principal contains the permission the receipt
took from a role. -/
def RoleStands (receipt : AuthorizationReceipt) (rolePermission : Option PermissionRecord)
    (roles : List RoleRecord) : Prop :=
  ∀ permission, rolePermission = some permission → ∃ role ∈ roles, Confers receipt permission.id role

/-! ### What revalidation checks -/

theorem revalidateGrant_ok : revalidateGrant dates now receipt boundary world.repository.snapshot grantId = .ok value ↔
      ∃ grant ∈ world.repository.grants.rows, grant.id = grantId ∧
        truthy grant.revokedAt = false ∧ isExpired dates grant.expiresAt now = false := by
  simp only [revalidateGrant, denials_ok, Repository.snapshot_grants]
  constructor
  · rintro ⟨_, available, unexpired⟩
    cases lookup : world.repository.grants.rows.find? fun cand => cand.id = grantId with
    | none => simp [lookup] at available
    | some grant =>
      refine ⟨grant, mem_of_find?_eq_some lookup, by simpa using find?_some lookup, ?_, ?_⟩
      · simpa [lookup] using available
      · simpa [lookup] using unexpired
  · rintro ⟨grant, member, rfl, unrevoked, unexpired⟩
    have lookup : world.repository.grants.rows.find? (fun cand => cand.id = grant.id) =
        some grant := Table.find?_eq_some.mpr ⟨member, rfl⟩
    exact ⟨(), by simp [lookup, unrevoked], by simp [lookup, unexpired]⟩

theorem revalidateGrants_ok :
    revalidateGrants dates now receipt boundary world.repository.snapshot grantIds = .ok value ↔
      ∀ grantId ∈ grantIds, ∃ grant ∈ world.repository.grants.rows, grant.id = grantId ∧
        truthy grant.revokedAt = false ∧ isExpired dates grant.expiresAt now = false := by
  induction grantIds with
  | nil => simp [revalidateGrants]
  | cons _ _ ih =>
    simp only [revalidateGrants, denials_ok, ih, revalidateGrant_ok, forall_mem_cons]
    constructor
    · rintro ⟨_, first, later⟩
      exact ⟨first, later⟩
    · rintro ⟨first, later⟩
      exact ⟨(), first, later⟩

theorem revalidateBoundary_ok :
    revalidateBoundary dates now receipt boundary trustedContextDigest world.repository.snapshot = .ok value ↔
      (receipt.trustedContextDigest = trustedContextDigest ∧
        receipt.principal.trustedContextDigest = trustedContextDigest) ∧
      isExpired dates (receipt.expiresAt <|> receipt.principal.expiresAt) now = false ∧
      GrantsStand dates now receipt world.repository.snapshot := by
  simp only [revalidateBoundary, denials_ok, denyIf_ok, revalidateGrants_ok, not_or, not_not, Bool.not_eq_true]
  constructor
  · rintro ⟨_, ctx, _, unexpired, grants⟩
    exact ⟨ctx, unexpired, grants⟩
  · rintro ⟨ctx, unexpired, grants⟩
    exact ⟨(), ctx, (), unexpired, grants⟩

theorem revalidation_allowed_iff (resolved : receiptOperation receipt catalog = .ok op)
    (listed : boundary ∈ op.authority.checks) :
    (revalidation dates now world receipt catalog boundary trustedContextDigest).any
        AuthorizationResult.isAllowed = true ↔
      revalidateBoundary dates now receipt boundary trustedContextDigest world.repository.snapshot = .ok () := by
  have decided : ∃ res, execute (revalidateReceipt dates now receipt catalog boundary trustedContextDigest)
      world = (.ok res, world) ∧ (res.isAllowed = true ↔
        revalidateBoundary dates now receipt boundary trustedContextDigest world.repository.snapshot = .ok ()) := by
    simp only [revalidateReceipt, resolved, listed, not_true_eq_false, if_false, execute_snapshot_bind]
    cases revalidateBoundary dates now receipt boundary trustedContextDigest world.repository.snapshot with
    | error denial => exact ⟨_, rfl, by simp [AuthorizationResult.isAllowed]⟩
    | ok _ => exact ⟨_, rfl, by simp [AuthorizationResult.isAllowed]⟩
  obtain ⟨res, ran, meaning⟩ := decided
  have served : serve dates world ⟨now, .revalidateReceipt receipt catalog boundary trustedContextDigest⟩ =
      (.ok (.authorization res), world) := serial_transaction_ok.mpr ⟨res, ran, rfl⟩
  simp [revalidation, served, meaning]

/-! ### What withdraws a permission or a role -/

/-- Of declared permissions: each permission of the receipt is stored as a runtime
permission, or declared, and every declaration of it backs the receipt. -/
def PermissionsUpheld (receipt : AuthorizationReceipt) (declared : List PermissionRecord)
    (stored : Table PermissionRecord) : Prop :=
  ∀ permissionId ∈ receipt.matchedPermissionIds,
    (∃ permission ∈ stored.rows, permission.id = permissionId ∧ permission.origin = .runtime) ∨
    (permissionId ∈ declared.map PermissionRecord.id ∧
      ∀ permission ∈ declared, permission.id = permissionId → Backs receipt permission)

/-- Of declared roles: a runtime role confers the receipt's role permission, or a
declared one does in every declaration of it. -/
def RolesUpheld (receipt : AuthorizationReceipt) (rolePermission : Option PermissionRecord)
    (declared : List RoleRecord) (stored : Table RoleRecord) : Prop :=
  ∀ permission, rolePermission = some permission →
    (∃ role ∈ stored.rows, role.origin = .runtime ∧ Confers receipt permission.id role) ∨
    ∃ role ∈ declared, ∀ other ∈ declared, other.id = role.id → Confers receipt permission.id other

/-- Of a migration: where it moves a permission of the receipt, it carries an operation
of the permission to the receipt's. -/
def MigrationUpholds (receipt : AuthorizationReceipt) (older newer : OperationCatalog)
    (stored : Table PermissionRecord) : Prop :=
  ∀ permission ∈ stored.rows, permission.id ∈ receipt.matchedPermissionIds →
    truthy permission.retiredAt = false → permission.catalogRevision = older.revision →
    ∃ operationId ∈ permission.operationIds, Carries older newer operationId receipt.operationId

/-- The submission leaves the receipt its permissions and its role. -/
def Upholds (dates : Dates) (receipt : AuthorizationReceipt) (rolePermission : Option PermissionRecord)
    (world : World) (submission : Submission) : Prop :=
  match submission.operation with
  | .reconcileApplicationPermissions _ desired => PermissionsUpheld receipt desired world.repository.permissions
  | .reconcileApplicationAuthority manifest =>
    PermissionsUpheld receipt manifest.permissions world.repository.permissions ∧
      RolesUpheld receipt rolePermission manifest.roles world.repository.roles
  | .reconcileStaticAuthorityManifest manifest catalogRevision =>
    let declared := manifest.records catalogRevision (dates.toISOString submission.now) world.repository.snapshot
    PermissionsUpheld receipt declared.permissions world.repository.permissions ∧
      RolesUpheld receipt rolePermission declared.roles world.repository.roles
  | .migrateCatalogAuthority older newer _ => MigrationUpholds receipt older newer world.repository.permissions
  | .migrateGrantCatalog _ older newer _ => MigrationUpholds receipt older newer world.repository.permissions
  | _ => True

section
variable {after : Table PermissionRecord}

private theorem permissionsStand_reconciled (reconciled : PermissionsReconciled time declared before after)
    (upheld : PermissionsUpheld receipt declared before) (stand : PermissionsStand receipt before.rows) :
    PermissionsStand receipt after.rows := by
  intro permissionId matched
  rcases upheld permissionId matched with ⟨perm, present, rfl, runtime⟩ | ⟨listed, declarations⟩
  · obtain ⟨standing, held, same, backs⟩ := stand perm.id matched
    have whole : standing = perm := Table.eq_of_key_eq held present same
    subst whole
    refine ⟨standing, reconciled.superseded.spares held ?_ (by simp [obsoletePermission, runtime]), rfl, backs⟩
    intro shadowed
    obtain ⟨other, declares, named⟩ := mem_map.mp shadowed
    exact reconciled.unshadowed other declares standing held named.symm runtime
  · obtain ⟨decl, declares, rfl⟩ := mem_map.mp listed
    obtain ⟨perm, held, same⟩ := reconciled.superseded.stored decl declares
    have declared := reconciled.superseded.under_declared held (same ▸ mem_map_of_mem declares)
    exact ⟨perm, held, same, declarations perm declared same⟩

private theorem roleStands_reconciled {after : Table RoleRecord}
    (reconciled : RolesReconciled time declared before after)
    (upheld : RolesUpheld receipt rolePermission declared before) : RoleStands receipt rolePermission after.rows := by
  intro perm taken
  rcases upheld perm taken with ⟨role, held, runtime, confers⟩ | ⟨role, declares, declarations⟩
  · refine ⟨role, reconciled.superseded.spares held ?_ (by simp [obsoleteRole, runtime]), confers⟩
    intro shadowed
    obtain ⟨other, declares, named⟩ := mem_map.mp shadowed
    exact reconciled.unshadowed other declares role held named.symm runtime
  · obtain ⟨other, held, same⟩ := reconciled.superseded.stored role declares
    have declared := reconciled.superseded.under_declared held (same ▸ mem_map_of_mem declares)
    exact ⟨other, held, declarations other declared same⟩

private theorem carries_unique (toFirst : Carries older newer opId first)
    (toSecond : Carries older newer opId second) : first = second := by
  have one : migrateOperationId (compareApplicationOperationCatalogs older newer) "" opId = .ok first :=
    migrateOperationId_ok.mpr toFirst
  rw [migrateOperationId_ok.mpr toSecond] at one
  exact (Except.ok.inj one).symm

private theorem permissionsStand_migrated
    (migrated : List.Forall₂ (PermissionMigrated older newer) before.rows after.rows)
    (upheld : MigrationUpholds receipt older newer before) (stand : PermissionsStand receipt before.rows) :
    PermissionsStand receipt after.rows := by
  intro permissionId matched
  obtain ⟨perm, held, rfl, unretired, lists⟩ := stand permissionId matched
  obtain ⟨_, present, became⟩ := Table.exists_of_converted migrated.flip held
  by_cases pinned : perm.catalogRevision = older.revision
  · obtain ⟨_, moved, rfl⟩ := migratePermission_ok.mp (became.moved unretired pinned)
    obtain ⟨opId, listed, carries⟩ := upheld perm held matched unretired pinned
    obtain ⟨_, carried, toNext⟩ := (migrateOperationIds_ok moved).onto opId listed
    rw [carries_unique toNext carries] at carried
    exact ⟨_, present, rfl, unretired, carried⟩
  · rw [became.kept fun moves => pinned moves.2] at present
    exact ⟨perm, present, rfl, unretired, lists⟩

private theorem stands_step
    (stand : PermissionsStand receipt before.repository.permissions.rows ∧ RoleStands receipt rolePermission before.repository.roles.rows)
    (upholds : Upholds dates receipt rolePermission before submission) :
    PermissionsStand receipt (advance dates before submission).repository.permissions.rows ∧
      RoleStands receipt rolePermission (advance dates before submission).repository.roles.rows := by
  have redefined := advance_redefined dates before submission
  generalize (advance dates before submission).repository = after at redefined
  cases redefined with
  | untouched perms roles =>
    rw [perms, roles]
    exact stand
  | permissionCreated fresh perms roles =>
    rw [perms, roles]
    refine ⟨fun permissionId matched => ?_, stand.2⟩
    obtain ⟨perm, held, named, backs⟩ := stand.1 permissionId matched
    exact ⟨perm, Table.mem_put.mpr (Or.inr ⟨held, fresh perm held⟩), named, backs⟩
  | roleCreated fresh roles perms =>
    rw [perms, roles]
    refine ⟨stand.1, fun perm taken => ?_⟩
    obtain ⟨role, held, confers⟩ := stand.2 perm taken
    exact ⟨role, Table.mem_put.mpr (Or.inr ⟨held, fresh role held⟩), confers⟩
  | permissionsReconciled perms roles =>
    rw [roles]
    exact ⟨permissionsStand_reconciled perms upholds stand.1, stand.2⟩
  | manifestReconciled perms roles =>
    exact ⟨permissionsStand_reconciled perms upholds.1 stand.1, roleStands_reconciled roles upholds.2⟩
  | staticManifestReconciled perms roles =>
    exact ⟨permissionsStand_reconciled perms upholds.1 stand.1, roleStands_reconciled roles upholds.2⟩
  | migrated perms roles =>
    rw [roles]
    exact ⟨permissionsStand_migrated perms upholds stand.1, stand.2⟩
  | grantMigrated perms roles =>
    rw [roles]
    exact ⟨permissionsStand_migrated perms upholds stand.1, stand.2⟩

end

/-! ### Receipts over runs -/

/-- The permission that the matched grant names, if it names one, backs the receipt. -/
def GrantBacked (receipt : AuthorizationReceipt) (matched : MatchedAuthority)
    (permissions : List PermissionRecord) : Prop :=
  ∀ permissionId, whenTruthy (matched.grant.bind GrantRecord.permissionId) = some permissionId →
    ∃ permission ∈ permissions, permission.id = permissionId ∧ Backs receipt permission

section
variable {instant : Int} {issued : World} {req : AuthorizationRequest}
  {resv : Option GrantReservation}
  (granted : authorization dates instant issued req = some (.allowed receipt resv))
include granted

private theorem issued_receipt : ∃ receiptId, PassesGates dates instant req issued.repository.snapshot ∧
    receipt = authorizationReceipt dates instant req
      (selectAuthority dates instant req issued.repository.snapshot) resv receiptId := by
  rcases authorize_ok (authorization_eq_some.mp granted) with
    ⟨_, denied, _⟩ | ⟨_, _, receiptId, gates, _, _, same⟩
  · cases denied
  · cases same
    exact ⟨receiptId, gates, rfl⟩

private theorem rolePermission_at_issue
    (selected : (selectAuthority dates instant req issued.repository.snapshot).rolePermission = some perm) :
    (perm ∈ issued.repository.permissions.rows ∧ Backs receipt perm) ∧
      ∃ role ∈ issued.repository.roles.rows, Confers receipt perm.id role := by
  obtain ⟨_, _, rfl⟩ := issued_receipt granted
  have listed := mem_of_find?_eq_some selected
  unfold rolePermissions at listed
  split at listed
  · obtain ⟨stored, matching⟩ := mem_filter.mp listed
    simp only [matchesPermission, decide_eq_true_eq] at matching
    obtain ⟨fromRole, unretired, _, op, _⟩ := matching
    obtain ⟨role, held, contains⟩ := mem_flatMap.mp fromRole
    obtain ⟨present, admitted⟩ := mem_filter.mp held
    simp only [decide_eq_true_eq] at admitted
    refine ⟨⟨stored, by simpa using unretired, op⟩, role, present, ?_, admitted.2, contains⟩
    simpa using admitted.1
  · cases listed

private theorem stands_at_issue
    (backed : GrantBacked receipt (selectAuthority dates instant req issued.repository.snapshot)
      issued.repository.permissions.rows) : PermissionsStand receipt issued.repository.permissions.rows ∧
      RoleStands receipt (selectAuthority dates instant req issued.repository.snapshot).rolePermission
        issued.repository.roles.rows := by
  refine ⟨fun permissionId matched => ?_, fun perm selected => (rolePermission_at_issue granted selected).2⟩
  have sources : whenTruthy ((selectAuthority dates instant req
      issued.repository.snapshot).grant.bind GrantRecord.permissionId) = some permissionId ∨
      (selectAuthority dates instant req issued.repository.snapshot).rolePermission.map
        PermissionRecord.id = some permissionId := by
    obtain ⟨_, _, rfl⟩ := issued_receipt granted
    simpa only [authorizationReceipt, mem_distinctValues, mem_append, mem_toList, mem_def] using matched
  rcases sources with named | taken
  · exact backed permissionId named
  obtain ⟨perm, selected, rfl⟩ := map_eq_some_iff.mp taken
  obtain ⟨⟨stored, backs⟩, _⟩ := rolePermission_at_issue granted selected
  exact ⟨perm, stored, rfl, backs⟩

end

/-- Over every run from the authorization on whose steps leave the receipt its
permissions and its role: if revalidation under the same context and at a boundary the
operation lists allows the receipt, then its grants, its permissions and the role behind
it all stand. -/
theorem receipts_stand_over_runs (dates : Dates) (instant : Int) (issued : World)
    (request : AuthorizationRequest) (receipt : AuthorizationReceipt) (reservation : Option GrantReservation)
    (granted : authorization dates instant issued request = some (.allowed receipt reservation))
    (backed : GrantBacked receipt (selectAuthority dates instant request issued.repository.snapshot)
      issued.repository.permissions.rows) (labels : List Submission)
    (upheld : EachStep (advance dates) (Upholds dates receipt
        (selectAuthority dates instant request issued.repository.snapshot).rolePermission)
      issued (⟨instant, .authorize request⟩ :: labels))
    (now : Int) (catalog : OperationCatalog) (boundary : AuthorizationBoundary)
    (operation : OperationDescriptor) (resolved : receiptOperation receipt catalog = .ok operation)
    (listed : boundary ∈ operation.authority.checks) (allowed : (revalidation dates now
        (runFrom (advance dates) issued (⟨instant, .authorize request⟩ :: labels)) receipt catalog boundary
        receipt.trustedContextDigest).any AuthorizationResult.isAllowed = true) : GrantsStand dates now receipt
        (runFrom (advance dates) issued (⟨instant, .authorize request⟩ :: labels)).repository.snapshot ∧
      PermissionsStand receipt
        (runFrom (advance dates) issued (⟨instant, .authorize request⟩ :: labels)).repository.permissions.rows ∧
      RoleStands receipt (selectAuthority dates instant request issued.repository.snapshot).rolePermission
        (runFrom (advance dates) issued (⟨instant, .authorize request⟩ :: labels)).repository.roles.rows := by
  rw [revalidation_allowed_iff resolved listed, revalidateBoundary_ok] at allowed
  refine ⟨allowed.2.2, ?_⟩
  exact invariant_of_steps (fun world => PermissionsStand receipt world.repository.permissions.rows ∧
      RoleStands receipt (selectAuthority dates instant request issued.repository.snapshot).rolePermission
        world.repository.roles.rows)
    (fun _ _ stand upholds => stands_step stand upholds) (stands_at_issue granted backed) upheld

def roleRequest : AuthorizationRequest :=
  { sampleRequest with principal := { samplePrincipal with roles := some ["clerk"] } }

def roleWorld : World := sampleWorld (sampleRepository [samplePermission] [sampleRole] [])

def roleReceipt : AuthorizationReceipt :=
  authorizationReceipt utcDates sampleInstant roleRequest
    (selectAuthority utcDates sampleInstant roleRequest roleWorld.repository.snapshot) none "id-0"

def nextPermission : PermissionRecord := { samplePermission with manifestRevision := some "m2" }

/-- The run in which the role's receipt is issued and the permission is declared again. -/
def redeclaredRun : List Submission :=
  [⟨sampleInstant, .authorize roleRequest⟩, ⟨sampleInstant, .reconcileApplicationPermissions "m2" [nextPermission]⟩]

theorem redeclared_permission_stands : GrantsStand utcDates sampleInstant roleReceipt
        (runFrom (advance utcDates) roleWorld redeclaredRun).repository.snapshot ∧ PermissionsStand roleReceipt
        (runFrom (advance utcDates) roleWorld redeclaredRun).repository.permissions.rows ∧
      RoleStands roleReceipt (selectAuthority utcDates sampleInstant roleRequest
          roleWorld.repository.snapshot).rolePermission
        (runFrom (advance utcDates) roleWorld redeclaredRun).repository.roles.rows := by
  have matched : roleReceipt.matchedPermissionIds = ["orders"] := by decide +kernel
  have unnamed : (selectAuthority utcDates sampleInstant roleRequest roleWorld.repository.snapshot).grant =
      none := by decide +kernel
  refine receipts_stand_over_runs utcDates sampleInstant roleWorld roleRequest roleReceipt none
    (by decide +kernel) (fun permissionId named => ?_)
    [⟨sampleInstant, .reconcileApplicationPermissions "m2" [nextPermission]⟩] ⟨trivial, ?_, trivial⟩
    sampleInstant sampleCatalog .preCommit sampleOperation (by decide +kernel) (by decide) (by decide +kernel)
  · rw [unnamed] at named
    cases named
  intro permissionId member
  rw [matched, mem_singleton] at member
  subst member
  refine Or.inr ⟨mem_cons_self, fun permission declared _ => ?_⟩
  rw [mem_singleton.mp declared]
  exact ⟨rfl, mem_cons_self⟩

/-- After the permission behind a role's receipt is retired, the receipt still passes its
pre-commit check. -/
theorem retired_permission_passes_revalidation :
    ¬ ∀ (dates : Dates) (instant : Int) (issued : World) (request : AuthorizationRequest)
      (receipt : AuthorizationReceipt) (reservation : Option GrantReservation) (labels : List Submission)
      (now : Int) (catalog : OperationCatalog) (boundary : AuthorizationBoundary) (operation : OperationDescriptor),
      authorization dates instant issued request = some (.allowed receipt reservation) →
      receiptOperation receipt catalog = .ok operation → boundary ∈ operation.authority.checks →
      (revalidation dates now (runFrom (advance dates) issued (⟨instant, .authorize request⟩ :: labels))
        receipt catalog boundary receipt.trustedContextDigest).any AuthorizationResult.isAllowed = true →
      GrantsStand dates now receipt
          (runFrom (advance dates) issued (⟨instant, .authorize request⟩ :: labels)).repository.snapshot ∧
        PermissionsStand receipt
          (runFrom (advance dates) issued (⟨instant, .authorize request⟩ :: labels)).repository.permissions.rows ∧
        RoleStands receipt (selectAuthority dates instant request issued.repository.snapshot).rolePermission
          (runFrom (advance dates) issued (⟨instant, .authorize request⟩ :: labels)).repository.roles.rows := by
  intro claimed
  obtain ⟨_, permissions, _⟩ := claimed utcDates sampleInstant roleWorld roleRequest roleReceipt none
    [⟨sampleInstant, .reconcileApplicationPermissions "m2" []⟩] sampleInstant sampleCatalog .preCommit
    sampleOperation (by decide +kernel) (by decide +kernel) (by decide) (by decide +kernel)
  obtain ⟨permission, member, _, unretired, _⟩ := permissions "orders" (by decide +kernel)
  have retired : (runFrom (advance utcDates) roleWorld [⟨sampleInstant, .authorize roleRequest⟩,
      ⟨sampleInstant, .reconcileApplicationPermissions "m2" []⟩]).repository.permissions.rows.all
        (fun permission => truthy permission.retiredAt) = true := by decide +kernel
  have dead := all_eq_true.mp retired permission member
  rw [unretired] at dead
  cases dead

end Applik8s.Authority
