import Applik8s.Authority.MigrationProofs
import Applik8s.Authority.ReconcileProofs

/-! What an operation does to the permissions and the roles. `Redefined` says it for
every operation: manifests supersede the application's definitions, migrations move
permissions to another catalog, runtime definitions come under fresh ids, and nothing
else touches either table. What holds of definitions over a run is argued from
`Redefined` alone. -/
namespace Applik8s.Authority
open Lib (Table)
open Lib.Table (Superseded)
open Lib.Program (forEach exec_bind_ok exec_check_bind_ok exec_forEach_bind_ok exec_relates)
variable {dates : Dates} {now : Int} {before after : World} {submission : Submission}

private theorem answer_spares_definitions (spares : req.area ≠ .definitions) (world : World)
    : (answer req world).2.repository.permissions = world.repository.permissions ∧
      (answer req world).2.repository.roles = world.repository.roles := by
  cases req with
  | putPermission record => exact absurd rfl spares
  | putRole record => exact absurd rfl spares
  | _ => exact ⟨rfl, rfl⟩

/-- Declared permissions supersede the stored ones, and shadow no runtime permission. -/
structure PermissionsReconciled (time : String) (declared : List PermissionRecord)
    (before after : Table PermissionRecord) : Prop where
  superseded : Superseded declared (obsoletePermission (declared.map PermissionRecord.id))
    (PermissionRecord.retired time) before after
  unshadowed : ∀ permission ∈ declared, ∀ stored ∈ before.rows, stored.id = permission.id → stored.origin ≠ .runtime

structure RolesReconciled (time : String) (declared : List RoleRecord) (before after : Table RoleRecord) :
    Prop where
  superseded : Superseded declared (obsoleteRole (declared.map RoleRecord.id)) (RoleRecord.retired time) before after
  unshadowed : ∀ role ∈ declared, ∀ stored ∈ before.rows, stored.id = role.id → stored.origin ≠ .runtime

private theorem not_runtime_of_assertion {repo : Repository}
    (passed : assertNotRuntimePermission perm repo.snapshot = .ok ()) (present : stored ∈ repo.permissions.rows)
    (same : stored.id = perm.id) : stored.origin ≠ .runtime := by
  intro runtime
  rw [assertNotRuntimePermission, refuseIf_ok] at passed
  exact passed (List.any_eq_true.mpr ⟨stored, present, by simp [same, runtime]⟩)

theorem ManifestApplied.permissionsReconciled {manifest : AuthorityManifest} {first second : Repository}
    (applied : ManifestApplied dates now manifest first second) :
    PermissionsReconciled (dates.toISOString now) manifest.permissions first.permissions second.permissions where
  superseded := applied.permissions
  unshadowed perm listed stored present same := by
    have valid := applied.permissionsValid perm listed
    simp only [validateManifestPermission, checks_ok] at valid
    obtain ⟨_, _, _, _, _, _, _, _, passed⟩ := valid
    exact not_runtime_of_assertion passed present same

theorem ManifestApplied.rolesReconciled {manifest : AuthorityManifest} {first second : Repository}
    (applied : ManifestApplied dates now manifest first second) :
    RolesReconciled (dates.toISOString now) manifest.roles first.roles second.roles where
  superseded := applied.roles
  unshadowed role listed stored present same := by
    intro runtime
    have valid := applied.rolesValid role listed
    simp only [validateManifestRole, checks_ok, refuseIf_ok] at valid
    obtain ⟨_, _, _, passed, _⟩ := valid
    exact passed (List.any_eq_true.mpr ⟨stored, present, by simp [same, runtime]⟩)

private theorem createRuntimePermission_ok (ran : execute (createRuntimePermission record) before = (.ok res, after)) :
    (∀ stored ∈ before.repository.permissions.rows, stored.id ≠ record.id) ∧
      after.repository.permissions = before.repository.permissions.put record ∧
      after.repository.roles = before.repository.roles := by
  unfold execute createRuntimePermission at ran
  simp only [exec_check_bind_ok] at ran
  obtain ⟨_, _, _, _, _, _, ran⟩ := ran
  change execute (Calls.snapshot >>= _) before = _ at ran
  rw [execute_snapshot_bind] at ran
  rw [exec_check_bind_ok] at ran
  obtain ⟨_, fresh, ran⟩ := ran
  cases ran
  refine ⟨fun stored present same => ?_, rfl, rfl⟩
  rw [refuseIf_ok, List.find?_isSome] at fresh
  exact fresh ⟨stored, present, by simp [same]⟩

private theorem createRuntimeRole_ok (ran : execute (createRuntimeRole dates now record) before = (.ok res, after)) :
    (∀ stored ∈ before.repository.roles.rows, stored.id ≠ record.id) ∧
      after.repository.roles = before.repository.roles.put record ∧
      after.repository.permissions = before.repository.permissions := by
  unfold execute createRuntimeRole at ran
  rw [exec_check_bind_ok] at ran
  obtain ⟨_, _, ran⟩ := ran
  change execute (Calls.snapshot >>= _) before = _ at ran
  rw [execute_snapshot_bind] at ran
  simp only [exec_check_bind_ok] at ran
  obtain ⟨_, fresh, _, _, ran⟩ := ran
  cases ran
  refine ⟨fun stored present same => ?_, rfl, rfl⟩
  rw [refuseIf_ok] at fresh
  exact fresh (List.any_eq_true.mpr ⟨stored, present, by simp [same]⟩)

/-- What a submission may have done to the permissions and roles. -/
inductive Redefined (dates : Dates) (before after : Repository) : Submission → Prop where
  | untouched {submission : Submission} (permissions : after.permissions = before.permissions)
      (roles : after.roles = before.roles) : Redefined dates before after submission
  | permissionCreated {now : Int} {record : PermissionRecord}
      (fresh : ∀ stored ∈ before.permissions.rows, stored.id ≠ record.id)
      (permissions : after.permissions = before.permissions.put record) (roles : after.roles = before.roles) :
      Redefined dates before after ⟨now, .createRuntimePermission record⟩
  | roleCreated {now : Int} {record : RoleRecord} (fresh : ∀ stored ∈ before.roles.rows, stored.id ≠ record.id)
      (roles : after.roles = before.roles.put record) (permissions : after.permissions = before.permissions) :
      Redefined dates before after ⟨now, .createRuntimeRole record⟩
  | permissionsReconciled {now : Int} {revision : String} {desired : List PermissionRecord}
      (permissions : PermissionsReconciled (dates.toISOString now) desired before.permissions after.permissions)
      (roles : after.roles = before.roles) :
      Redefined dates before after ⟨now, .reconcileApplicationPermissions revision desired⟩
  | manifestReconciled {now : Int} {manifest : AuthorityManifest}
      (permissions : PermissionsReconciled (dates.toISOString now) manifest.permissions before.permissions
        after.permissions)
      (roles : RolesReconciled (dates.toISOString now) manifest.roles before.roles after.roles) :
      Redefined dates before after ⟨now, .reconcileApplicationAuthority manifest⟩
  | staticManifestReconciled {now : Int} {manifest : StaticAuthorityManifest} {catalogRevision : String}
      (permissions : PermissionsReconciled (dates.toISOString now)
        (manifest.records catalogRevision (dates.toISOString now) before.snapshot).permissions
        before.permissions after.permissions)
      (roles : RolesReconciled (dates.toISOString now)
        (manifest.records catalogRevision (dates.toISOString now) before.snapshot).roles
        before.roles after.roles) :
      Redefined dates before after ⟨now, .reconcileStaticAuthorityManifest manifest catalogRevision⟩
  | migrated {now : Int} {older newer : OperationCatalog} {nextAuthorityRevision : String}
      (permissions : List.Forall₂ (PermissionMigrated older newer) before.permissions.rows after.permissions.rows)
      (roles : after.roles = before.roles) :
      Redefined dates before after ⟨now, .migrateCatalogAuthority older newer nextAuthorityRevision⟩
  | grantMigrated {now : Int} {grantId : String} {older newer : OperationCatalog}
      {nextAuthorityRevision : String}
      (permissions : List.Forall₂ (PermissionMigrated older newer) before.permissions.rows after.permissions.rows)
      (roles : after.roles = before.roles) :
      Redefined dates before after ⟨now, .migrateGrantCatalog grantId older newer nextAuthorityRevision⟩

private theorem redefined_transaction {α : Type} {work : AuthorityProgram α} {respond : α → Response}
    (succeeds : ∀ value after, execute work before = (.ok value, after) →
      Redefined dates before.repository after.repository submission) :
    Redefined dates before.repository ((transaction work respond).serial memory before).2.repository submission := by
  generalize ended : (transaction work respond).serial memory before = out
  obtain ⟨_ | _, after⟩ := out
  · have restored := (serial_transaction_error ended).1
    exact .untouched (congrArg Repository.permissions restored) (congrArg Repository.roles restored)
  · obtain ⟨value, ran, _⟩ := serial_transaction_ok.mp ended
    exact succeeds value after ran

private theorem redefined_confined (confined : Confined areas process) (spares : Area.definitions ∉ areas) :
    Redefined dates before.repository (process.serial memory before).2.repository submission := by
  have kept := confined.keeps
    (fun first second => second.permissions = first.permissions ∧ second.roles = first.roles) spares nofun
    (fun _ => ⟨rfl, rfl⟩) (fun earlier later => ⟨later.1.trans earlier.1, later.2.trans earlier.2⟩)
    (fun _ world outside => answer_spares_definitions outside world) before
  exact .untouched kept.1 kept.2

private theorem redefined_guarded
    (redefined : Redefined dates before.repository (process.serial memory before).2.repository submission) :
    Redefined dates before.repository ((guarded checks process).serial memory before).2.repository submission := by
  cases checks with
  | error error => exact .untouched rfl rfl
  | ok value => exact redefined

private theorem permissionsMigrated
    (ran : execute (migrateCatalogAuthority dates now older newer nextRev) before = (.ok res, after))
    : List.Forall₂ (PermissionMigrated older newer) before.repository.permissions.rows
        after.repository.permissions.rows ∧ after.repository.roles = before.repository.roles := by
  obtain ⟨_, _, planned, _, left, _⟩ := migrateCatalogAuthority_ok ran
  rw [planMigration_ok] at planned
  rw [left]
  exact ⟨planned.permissions_rows, rfl⟩

theorem advance_redefined (dates : Dates) (before : World) (submission : Submission) :
    Redefined dates before.repository (advance dates before submission).repository submission := by
  obtain ⟨now, op⟩ := submission
  cases op with
  | reconcileApplicationPermissions =>
    refine redefined_transaction fun value after ran => ?_
    obtain ⟨superseded, roles, passed⟩ := reconcileApplicationPermissions_ok ran
    exact .permissionsReconciled
      ⟨superseded, fun perm listed stored present => not_runtime_of_assertion (passed perm listed) present⟩
      roles
  | createRuntimePermission record =>
    refine redefined_transaction fun value after ran => ?_
    obtain ⟨fresh, perms, roles⟩ := createRuntimePermission_ok ran
    exact .permissionCreated fresh perms roles
  | createRuntimeRole record =>
    refine redefined_transaction fun value after ran => ?_
    obtain ⟨fresh, roles, perms⟩ := createRuntimeRole_ok ran
    exact .roleCreated fresh roles perms
  | reconcileApplicationAuthority =>
    refine redefined_transaction fun value after ran => ?_
    have applied := reconcileApplicationAuthority_ok ran
    exact .manifestReconciled applied.permissionsReconciled applied.rolesReconciled
  | reconcileStaticAuthorityManifest =>
    refine redefined_transaction fun value after ran => ?_
    obtain ⟨_, perms, roles, _, applied⟩ := (reconcileStaticAuthorityManifest_ok ran).records
    have reconciled := And.intro applied.permissionsReconciled applied.rolesReconciled
    rw [perms, roles] at reconciled
    exact .staticManifestReconciled reconciled.1 reconciled.2
  | migrateCatalogAuthority =>
    refine redefined_transaction fun value after ran => ?_
    obtain ⟨perms, roles⟩ := permissionsMigrated ran
    exact .migrated perms roles
  | migrateGrantCatalog grantId older newer nextRev =>
    have redefined : Redefined dates before.repository
        ((transaction (migrateCatalogAuthority dates now older newer nextRev)
          .snapshot).serial memory before).2.repository
        ⟨now, .migrateGrantCatalog grantId older newer nextRev⟩ := by
      refine redefined_transaction fun value after ran => ?_
      obtain ⟨perms, roles⟩ := permissionsMigrated ran
      exact .grantMigrated perms roles
    exact redefined_guarded redefined
  | _ => exact redefined_confined (confined_process dates now id) (by simp [Operation.writes])

end Applik8s.Authority
