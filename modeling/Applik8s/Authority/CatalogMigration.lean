import Applik8s.Authority.GrantWriters

/-! What a catalog migration preserves, in any state a run can reach: live authority is
carried over to the newer catalog, everything else stays, and the catalog references
follow. Whether it succeeds depends on more than the catalogs, since every grant it
carries over is validated again, against its permission, its issuer, its delegation and
its outcome as they are now. -/
namespace Applik8s.Authority
open List Option Except
open Lib (Keyed Table runFrom EachStep invariant_of_steps)
variable {dates : Dates} {now : Int} {older newer : OperationCatalog} {nextRev : String}
  {before after : World} {plan : MigrationPlan}

/-- What the newer catalog makes of an operation of the older one: the operation itself
where it is still compatible, or its declared compatible replacement with a migration. -/
def Carries (older newer : OperationCatalog) (operationId next : OperationId) : Prop :=
  ∃ operation, older.operations.find? (fun candidate => candidate.id = operationId) = some operation ∧
    match newer.operations.reverse.find? fun candidate => candidate.id = operationId with
    | some successor => (compareOperation operation successor).1 = .compatible ∧ next = operationId
    | none => ∃ successor replacement, replacementFor newer operationId = some successor ∧
        successor.replaces = some replacement ∧ replacement.compatible = true ∧
        truthy replacement.migration = true ∧ next = successor.id

/-- The ids of a record after a migration are what its ids are carried to. -/
structure OperationsCarried (older newer : OperationCatalog) (held migrated : List OperationId) : Prop where
  onto : ∀ operationId ∈ held, ∃ next ∈ migrated, Carries older newer operationId next
  only : ∀ next ∈ migrated, ∃ operationId ∈ held, Carries older newer operationId next

def reportsCompatible (report : CompatibilityReport) (operationId : OperationId) : Bool :=
  (report.changes.find? fun candidate => candidate.operationId = operationId).any fun change =>
    change.kind = .compatible

private theorem find_operationChange {ops : List OperationDescriptor} :
    ((ops.map (operationChange newer)).find? fun cand => cand.operationId = opId) =
      (ops.find? fun cand => cand.id = opId).map (operationChange newer) := by
  have named : ∀ op, (operationChange newer op).operationId = op.id := by
    intro op
    unfold operationChange dropOperation
    split
    · split
      · rfl
      · split <;> rfl
    · rfl
  rw [find?_map]
  congr 2
  funext op
  simp [named]

private theorem migrateDropped_ok {op : OperationDescriptor} {required : String} {next : OperationId} :
    (if (dropOperation op newer).kind = .compatible then .ok op.id
      else match (dropOperation op newer).kind, (dropOperation op newer).replacement with
        | .replaced, some replacement =>
          if replacement.compatible && truthy replacement.migration then .ok replacement.operationId
          else .error ⟨.catalogMigrationInvalid, required⟩
        | _, _ => .error ⟨.catalogMigrationInvalid, required⟩ : Except AuthorityError OperationId) = .ok next ↔
      ∃ successor replacement, replacementFor newer op.id = some successor ∧
        successor.replaces = some replacement ∧ replacement.compatible = true ∧
        truthy replacement.migration = true ∧ next = successor.id := by
  unfold dropOperation
  cases replacementFor newer op.id with
  | none => simp
  | some successor =>
    cases replaces : successor.replaces with
    | none => simp [replaces]
    | some replacement =>
      cases compatible : replacement.compatible with
      | false => simp [replaces, compatible]
      | true =>
        by_cases migration : truthy replacement.migration = true
        · simp [replaces, compatible, migration, @eq_comm _ next]
        · simp [replaces, compatible, migration]

variable {owner : String}

theorem migrateOperationId_ok :
    migrateOperationId (compareApplicationOperationCatalogs older newer) owner opId = .ok into ↔
      Carries older newer opId into := by
  have lookup : (compareApplicationOperationCatalogs older newer).changes.find? (fun cand => cand.operationId = opId) =
      ((older.operations.find? fun cand => cand.id = opId).map (operationChange newer)).or
        ((addedChanges older newer).find? fun cand => cand.operationId = opId) := by
    rw [← find_operationChange]
    exact find?_append
  unfold migrateOperationId Carries
  rw [lookup]
  cases held : older.operations.find? fun cand => cand.id = opId with
  | none =>
    -- an operation that was only added carries nothing
    cases added : (addedChanges older newer).find? fun cand => cand.operationId = opId with
    | none => simp
    | some change =>
      have kind : change.kind = .added := by
        obtain ⟨_, _, rfl⟩ := mem_map.mp (mem_of_find?_eq_some added)
        rfl
      simp [kind]
  | some op =>
    have named : op.id = opId := by simpa using find?_some held
    subst named
    simp only [map_some, some_or, some.injEq, exists_eq_left']
    unfold operationChange
    cases newer.operations.reverse.find? fun cand => cand.id = op.id with
    | none => exact migrateDropped_ok
    | some successor =>
      by_cases compatible : (compareOperation op successor).1 = .compatible
      · simpa [compatible] using eq_comm
      · simp [compatible]

theorem migrateOperationIds_ok
    (moved : migrateOperationIds (compareApplicationOperationCatalogs older newer) held owner = .ok migrated) :
    OperationsCarried older newer held migrated := by
  simp only [migrateOperationIds, checks_ok, convertEach_ok, migrateOperationId_ok, ok.injEq] at moved
  obtain ⟨_, each, rfl⟩ := moved
  constructor
  · intro opId member
    obtain ⟨next, listed, carries⟩ := Table.exists_of_converted each.flip member
    exact ⟨next, mem_sortStrings.mpr (mem_distinctValues.mpr listed), carries⟩
  · intro next member
    exact Table.exists_of_converted each (mem_distinctValues.mp (mem_sortStrings.mp member))

/-- A grant after a migration: if it was live and pinned to the older catalog, it is
pinned to the newer one with its operations carried over; otherwise it is unchanged. -/
structure GrantCarried (dates : Dates) (now : Int) (older newer : OperationCatalog)
    (nextAuthorityRevision : String) (grant result : GrantRecord) : Prop where
  moved : isLive dates now grant = true → grant.catalogRevision = older.revision →
    OperationsCarried older newer grant.operationIds result.operationIds ∧
      result = { grant with
        operationIds := result.operationIds
        catalogRevision := newer.revision
        authorityRevision := nextAuthorityRevision }
  kept : ¬ (isLive dates now grant = true ∧ grant.catalogRevision = older.revision) → result = grant

structure PermissionCarried (older newer : OperationCatalog) (permission result : PermissionRecord) : Prop where
  moved : truthy permission.retiredAt = false → permission.catalogRevision = older.revision →
    OperationsCarried older newer permission.operationIds result.operationIds ∧
      result = { permission with operationIds := result.operationIds, catalogRevision := newer.revision }
  kept : ¬ (truthy permission.retiredAt = false ∧ permission.catalogRevision = older.revision) → result = permission

variable {grant result : GrantRecord}

private theorem GrantMigrated.carried (migrated : GrantMigrated dates now older newer nextRev grant res) :
    GrantCarried dates now older newer nextRev grant res := by
  refine ⟨fun live pins => ?_, migrated.kept⟩
  obtain ⟨_, moved, rfl⟩ := migrateGrant_ok.mp (migrated.moved live pins)
  exact ⟨migrateOperationIds_ok moved, rfl⟩

private theorem PermissionMigrated.carried {res : PermissionRecord}
    (migrated : PermissionMigrated older newer perm res) : PermissionCarried older newer perm res := by
  refine ⟨fun live pins => ?_, migrated.kept⟩
  obtain ⟨_, moved, rfl⟩ := migratePermission_ok.mp (migrated.moved live pins)
  exact ⟨migrateOperationIds_ok moved, rfl⟩

private theorem GrantCarried.id
    (carried : GrantCarried dates now older newer nextRev grant res) : res.id = grant.id := by
  by_cases pinned : isLive dates now grant = true ∧ grant.catalogRevision = older.revision
  · rw [(carried.moved pinned.1 pinned.2).2]
  · rw [carried.kept pinned]

structure AuthorityCarried (dates : Dates) (now : Int) (older newer : OperationCatalog)
    (nextAuthorityRevision : String) (before after : Repository) : Prop where
  permissions : List.Forall₂ (PermissionCarried older newer) before.permissions.rows after.permissions.rows
  grants : List.Forall₂ (GrantCarried dates now older newer nextAuthorityRevision) before.grants.rows after.grants.rows
  roles : after.roles = before.roles
  delegations : after.delegations = before.delegations
  requests : after.requests = before.requests
  approvals : after.approvals = before.approvals
  outcomes : after.outcomes = before.outcomes
  reservations : after.reservations = before.reservations
  tombstones : after.tombstones = before.tombstones
  otherReferences : ∀ reference, reference.kind ≠ .grant →
    (reference ∈ after.catalogReferences.rows ↔ reference ∈ before.catalogReferences.rows)
  olderReferences : older.revision ≠ newer.revision → ∀ reference ∈ after.catalogReferences.rows,
    reference.kind = .grant → reference.revision = older.revision →
      ∀ grant ∈ after.grants.rows, grant.id = reference.referenceId → isLive dates now grant = false
  newerReferences : ∀ grant ∈ before.grants.rows, isLive dates now grant = true →
    grant.catalogRevision = older.revision →
      ∃ result ∈ after.grants.rows, result.id = grant.id ∧ ∃ reference ∈ after.catalogReferences.rows,
        reference.revision = newer.revision ∧ reference.kind = .grant ∧ reference.referenceId = grant.id ∧
        ∀ operationId, operationId ∈ reference.operationIds ↔ operationId ∈ result.operationIds

section
variable {repo : Repository}

section
variable (planned : Planned dates now older newer nextRev repo.snapshot plan)
include planned

private theorem planned_ids_distinct :
    (plan.grants.map GrantRecord.id).Nodup := by
  have same : plan.grants.map Keyed.key = (pinnedGrants dates now older.revision repo.snapshot).map
      Keyed.key := by
    refine Table.keys_of_converted (fun grant res moved => ?_) planned.grants
    obtain ⟨_, _, rfl⟩ := migrateGrant_ok.mp moved
    rfl
  change (plan.grants.map Keyed.key).Nodup
  rw [same]
  exact repo.grants.distinct.sublist (filter_sublist.map _)

private theorem exists_planned (stored : grant ∈ repo.grants.rows) (live : isLive dates now grant = true)
    (pins : grant.catalogRevision = older.revision) : ∃ res ∈ plan.grants, res.id = grant.id := by
  have listed : grant ∈ pinnedGrants dates now older.revision repo.snapshot :=
    mem_filter.mpr ⟨stored, by simpa [isLive, pins] using live⟩
  obtain ⟨_, member, moved⟩ := Table.exists_of_converted planned.grants.flip listed
  obtain ⟨_, _, rfl⟩ := migrateGrant_ok.mp moved
  exact ⟨_, member, rfl⟩

private theorem planned_ne_expired (moved : grant ∈ plan.grants) (expired : dropped ∈ plan.expired)
    : grant.id ≠ dropped.id := by
  intro same
  obtain ⟨source, listed, became⟩ := Table.exists_of_converted planned.grants moved
  obtain ⟨_, _, rfl⟩ := migrateGrant_ok.mp became
  rw [planned.expired] at expired
  obtain ⟨stored, _⟩ := mem_filter.mp listed
  obtain ⟨present, _⟩ := mem_filter.mp expired
  have whole : source = dropped := Table.eq_of_key_eq stored present same
  simp_all

private theorem carried_otherReferences (other : ref.kind ≠ .grant) :
    ref ∈ (migratedReferences older.revision newer.revision plan repo.catalogReferences).rows ↔
      ref ∈ repo.catalogReferences.rows := by
  have apart : ∀ rev id, Keyed.key ref ≠ (rev, ReferenceKind.grant, id) := by
    intro rev id same
    exact other (congrArg (fun key => key.2.1) same)
  rw [mem_migratedReferences (planned_ids_distinct planned)]
  constructor
  · rintro ⟨⟨grant, _, rfl⟩ | ⟨held, _⟩, _⟩
    · exact absurd rfl other
    · exact held
  · intro held
    exact ⟨Or.inr ⟨held, fun grant _ => ⟨apart _ _, apart _ _⟩⟩, fun grant _ => apart _ _⟩

end

private theorem carried_olderReferences (pinned : ReferencesPinned repo)
    (planned : Planned dates now older newer nextRev repo.snapshot plan) (apart : older.revision ≠ newer.revision)
    (member : ref ∈ (migratedReferences older.revision newer.revision plan repo.catalogReferences).rows)
    (granted : ref.kind = .grant) (behind : ref.revision = older.revision)
    (stored : grant ∈ (repo.grants.putAll plan.grants).rows) (named : grant.id = ref.referenceId) :
    isLive dates now grant = false := by
  rw [mem_migratedReferences (planned_ids_distinct planned)] at member
  obtain ⟨⟨_, _, rfl⟩ | ⟨held, spared⟩, _⟩ := member
  · exact absurd behind.symm apart
  obtain ⟨owner, present, same, rev⟩ := pinned ref held granted
  have dead : isLive dates now owner = false := by
    by_contra alive
    obtain ⟨res, listed, sameId⟩ := exists_planned planned present (Bool.not_eq_false _ ▸ alive) (rev.trans behind)
    refine (spared res listed).1 (Prod.ext behind (Prod.ext granted ?_))
    exact (sameId.trans same).symm
  -- the row under the reference's id is the owner's, which the migration left alone
  obtain ⟨source, origin, became⟩ := Table.exists_of_converted planned.grants_rows stored
  have whole : source = owner := Table.eq_of_key_eq origin present
    (became.carried.id.symm.trans (named.trans same.symm))
  subst whole
  rw [became.kept fun live => by simp [dead] at live]
  exact dead

private theorem carried_newerReferences (planned : Planned dates now older newer nextRev repo.snapshot plan)
    (stored : grant ∈ repo.grants.rows) (live : isLive dates now grant = true)
    (pins : grant.catalogRevision = older.revision) :
    ∃ res ∈ (repo.grants.putAll plan.grants).rows, res.id = grant.id ∧
      ∃ ref ∈ (migratedReferences older.revision newer.revision plan repo.catalogReferences).rows,
        ref.revision = newer.revision ∧ ref.kind = .grant ∧ ref.referenceId = grant.id ∧
        ∀ opId, opId ∈ ref.operationIds ↔ opId ∈ res.operationIds := by
  obtain ⟨res, present, became⟩ := Table.exists_of_converted planned.grants_rows.flip stored
  have listed : grant ∈ pinnedGrants dates now older.revision repo.snapshot :=
    mem_filter.mpr ⟨stored, by simpa [isLive, pins] using live⟩
  obtain ⟨migrated, member, moved⟩ := Table.exists_of_converted planned.grants.flip listed
  have same : migrated = res := ok.inj (moved.symm.trans (became.moved live pins))
  subst same
  have sameId : migrated.id = grant.id := became.carried.id
  refine ⟨migrated, present, sameId, migratedReference newer.revision migrated, ?_, rfl, rfl, sameId, ?_⟩
  · rw [mem_migratedReferences (planned_ids_distinct planned)]
    refine ⟨Or.inl ⟨migrated, member, rfl⟩, fun dropped expired clash => ?_⟩
    exact planned_ne_expired planned member expired (congrArg (fun key => key.2.2) clash)
  · intro opId
    exact mem_sortStrings.trans mem_distinctValues

theorem carried_of_planned {entries : List AuditEvent} (pinned : ReferencesPinned repo)
    (planned : Planned dates now older newer nextRev repo.snapshot plan) :
    AuthorityCarried dates now older newer nextRev repo (repo.migrated older.revision newer.revision plan entries) where
  permissions := planned.permissions_rows.imp fun _ _ migrated => migrated.carried
  grants := planned.grants_rows.imp fun _ _ migrated => migrated.carried
  roles := rfl
  delegations := rfl
  requests := rfl
  approvals := rfl
  outcomes := rfl
  reservations := rfl
  tombstones := rfl
  otherReferences := fun _ other => carried_otherReferences planned other
  olderReferences := fun apart _ member granted behind _ stored named =>
    carried_olderReferences pinned planned apart member granted behind stored named
  newerReferences := fun _ stored live pins => carried_newerReferences planned stored live pins

end

/-- A permission pinned to the newer catalog with the operations it has. -/
def PermissionRecord.pinnedTo (newer : OperationCatalog) (permission : PermissionRecord) : PermissionRecord :=
  { permission with
    operationIds := sortStrings (distinctValues permission.operationIds)
    catalogRevision := newer.revision }

/-- A grant pinned to the newer catalog with the operations it has. -/
def GrantRecord.pinnedTo (newer : OperationCatalog) (nextAuthorityRevision : String) (grant : GrantRecord) :
    GrantRecord :=
  { grant with
    operationIds := sortStrings (distinctValues grant.operationIds)
    catalogRevision := newer.revision
    authorityRevision := nextAuthorityRevision }

/-- The state with all live authority of the older catalog pinned to the newer one. -/
def jointlyPinned (dates : Dates) (now : Int) (older newer : OperationCatalog) (nextAuthorityRevision : String)
    (state : AuthoritySnapshot) : AuthoritySnapshot :=
  { state with
    permissions := state.permissions.map fun permission =>
      if ¬ truthy permission.retiredAt ∧ permission.catalogRevision = older.revision then
        permission.pinnedTo newer
      else permission
    grants := state.grants.map fun grant =>
      if ¬ truthy grant.revokedAt ∧ ¬ isExpired dates grant.expiresAt now ∧
          grant.catalogRevision = older.revision then grant.pinnedTo newer nextAuthorityRevision
      else grant }

/-- Every operation held by live authority of the older catalog is reported compatible. -/
def HeldCompatible (dates : Dates) (now : Int) (older newer : OperationCatalog) (state : AuthoritySnapshot) : Prop :=
  (∀ permission ∈ pinnedPermissions older.revision state, ∀ operationId ∈ permission.operationIds,
    reportsCompatible (compareApplicationOperationCatalogs older newer) operationId = true) ∧
  ∀ grant ∈ pinnedGrants dates now older.revision state, ∀ operationId ∈ grant.operationIds,
    reportsCompatible (compareApplicationOperationCatalogs older newer) operationId = true

private theorem migrateOperationIds_of_compatible (compatible : ∀ opId ∈ held, reportsCompatible report opId = true) :
    migrateOperationIds report held owner = .ok (sortStrings (distinctValues held)) := by
  have unchanged : convertEach held (migrateOperationId report owner) = .ok held := by
    rw [convertEach_ok]
    refine forall₂_same.mpr fun opId member => ?_
    have listed := compatible opId member
    unfold reportsCompatible at listed
    unfold migrateOperationId
    cases found : report.changes.find? fun cand => cand.operationId = opId with
    | none => simp [found] at listed
    | some change =>
      have kind : change.kind = .compatible := by simpa [found] using listed
      simp [kind]
  rw [migrateOperationIds, unchanged]
  rfl

/-- When every operation held is compatible, a migration succeeds exactly when every
live grant of the older catalog, pinned to the newer one, passes the validation of
grants in the jointly pinned state. -/
theorem planMigration_of_compatible {repo : Repository} (catalogs : assertMigrationCatalogs older newer = .ok ())
    (compatible : HeldCompatible dates now older newer repo.snapshot) :
    (∃ plan, planMigration dates now older newer nextRev repo.snapshot = .ok plan) ↔
      ∀ grant ∈ pinnedGrants dates now older.revision repo.snapshot,
        validateGrant dates now (grant.pinnedTo newer nextRev)
          (jointlyPinned dates now older newer nextRev repo.snapshot)
          (requiresGrantable grant) = .ok () := by
  have perms : convertEach (pinnedPermissions older.revision repo.snapshot)
      (migratePermission (compareApplicationOperationCatalogs older newer) newer.revision) =
      .ok ((pinnedPermissions older.revision repo.snapshot).map (PermissionRecord.pinnedTo newer)) := by
    rw [convertEach_ok]
    refine forall₂_map_right_iff.mpr (forall₂_same.mpr fun perm member => ?_)
    exact migratePermission_ok.mpr ⟨_, migrateOperationIds_of_compatible (compatible.1 perm member), rfl⟩
  have grants : convertEach (pinnedGrants dates now older.revision repo.snapshot)
      (migrateGrant (compareApplicationOperationCatalogs older newer) newer.revision nextRev) =
      .ok ((pinnedGrants dates now older.revision repo.snapshot).map
        (GrantRecord.pinnedTo newer nextRev)) := by
    rw [convertEach_ok]
    refine forall₂_map_right_iff.mpr (forall₂_same.mpr fun grant member => ?_)
    exact migrateGrant_ok.mpr ⟨_, migrateOperationIds_of_compatible (compatible.2 grant member), rfl⟩
  -- the state a plan is validated against is the jointly pinned one
  have joint : ∀ expired, (MigrationPlan.mk
      ((pinnedPermissions older.revision repo.snapshot).map (PermissionRecord.pinnedTo newer))
      ((pinnedGrants dates now older.revision repo.snapshot).map
        (GrantRecord.pinnedTo newer nextRev)) expired).validationState repo.snapshot =
      jointlyPinned dates now older newer nextRev repo.snapshot := by
    intro expired
    unfold MigrationPlan.validationState jointlyPinned pinnedPermissions pinnedGrants
    have permissionRows : Table.replaced ((repo.permissions.rows.filter fun perm =>
        ¬ truthy perm.retiredAt ∧ perm.catalogRevision = older.revision).map
          (PermissionRecord.pinnedTo newer)) repo.permissions.rows = _ :=
      Table.replaced_map fun _ => rfl
    have grantRows : Table.replaced ((repo.grants.rows.filter fun grant =>
        ¬ truthy grant.revokedAt ∧ ¬ isExpired dates grant.expiresAt now ∧ grant.catalogRevision = older.revision).map
          (GrantRecord.pinnedTo newer nextRev)) repo.grants.rows = _ :=
      Table.replaced_map fun _ => rfl
    simp only [Repository.snapshot_permissions, Repository.snapshot_grants, permissionRows, grantRows,
      decide_eq_true_eq]
  simp only [planMigration, checks_ok, checkEach_ok, catalogs, perms, grants, ok.injEq]
  constructor
  · rintro ⟨_, _, _, _, rfl, _, rfl, _, valid, rfl⟩ grant member
    rw [joint] at valid
    exact valid _ (mem_map_of_mem member)
  intro valid
  refine ⟨_, (), trivial, _, rfl, _, rfl, (), ?_, rfl⟩
  rw [joint]
  intro grant member
  obtain ⟨source, listed, rfl⟩ := mem_map.mp member
  exact valid source listed

theorem referencesPinned_over_runs (pinned : ReferencesPinned start.repository) :
    ReferencesPinned (runFrom (advance dates) start labels).repository := by
  have anything : EachStep (advance dates) (fun _ _ => True) start labels :=
    Lib.eachStep_of_forall fun _ _ => trivial
  exact invariant_of_steps (fun world : World => ReferencesPinned world.repository)
    (fun world submission held _ => (advance_stored dates world submission).pinned held) pinned anything

private theorem serve_migration_isOk :
    (serve dates before ⟨now, .migrateCatalogAuthority older newer nextRev⟩).1.isOk = true ↔
      ∃ plan, planMigration dates now older newer nextRev before.repository.snapshot = .ok plan := by
  refine serial_transaction_isOk.trans ⟨?_, ?_⟩
  · rintro ⟨_, _, ran⟩
    obtain ⟨plan, _, planned, _⟩ := migrateCatalogAuthority_ok ran
    exact ⟨plan, planned⟩
  · rintro ⟨_, planned⟩
    obtain ⟨_, _, _, ran⟩ := migrateCatalogAuthority_of_plan planned
    exact ⟨_, _, ran⟩

private theorem carried_of_served (pinned : ReferencesPinned before.repository) (accepted : (serve dates before
      ⟨now, .migrateCatalogAuthority older newer nextRev⟩).1.isOk = true) :
    AuthorityCarried dates now older newer nextRev before.repository
      (advance dates before ⟨now, .migrateCatalogAuthority older newer nextRev⟩).repository := by
  unfold advance
  generalize ended : serve dates before ⟨now, .migrateCatalogAuthority older newer nextRev⟩ = out at accepted ⊢
  obtain ⟨_ | _, _⟩ := out
  · cases accepted
  obtain ⟨_, ran, _⟩ := serial_transaction_ok.mp ended
  obtain ⟨_, _, planned, _, left, _⟩ := migrateCatalogAuthority_ok ran
  rw [left]
  exact carried_of_planned pinned (planMigration_ok.mp planned)

/-- In every reachable state a successful migration carries live authority over and
leaves everything else alone; and where the catalogs are accepted and all operations
held are compatible, it succeeds exactly when every live grant of the older catalog,
pinned to the newer one, is still valid in the jointly pinned state. -/
theorem migration_carries_authority (dates : Dates) (start : World) (pinned : ReferencesPinned start.repository)
    (labels : List Submission) (now : Int) (older newer : OperationCatalog) (nextAuthorityRevision : String) :
    ((serve dates (runFrom (advance dates) start labels)
          ⟨now, .migrateCatalogAuthority older newer nextAuthorityRevision⟩).1.isOk = true →
        AuthorityCarried dates now older newer nextAuthorityRevision (runFrom (advance dates) start labels).repository
          (advance dates (runFrom (advance dates) start labels)
            ⟨now, .migrateCatalogAuthority older newer nextAuthorityRevision⟩).repository) ∧
      (assertMigrationCatalogs older newer = .ok () →
        HeldCompatible dates now older newer (runFrom (advance dates) start labels).repository.snapshot →
        ((serve dates (runFrom (advance dates) start labels)
            ⟨now, .migrateCatalogAuthority older newer nextAuthorityRevision⟩).1.isOk = true ↔
          ∀ grant ∈ pinnedGrants dates now older.revision (runFrom (advance dates) start labels).repository.snapshot,
            validateGrant dates now (grant.pinnedTo newer nextAuthorityRevision)
              (jointlyPinned dates now older newer nextAuthorityRevision
                (runFrom (advance dates) start labels).repository.snapshot) (requiresGrantable grant) = .ok ())) := by
  constructor
  · exact carried_of_served (referencesPinned_over_runs pinned)
  intro catalogs compatible
  rw [serve_migration_isOk]
  exact planMigration_of_compatible catalogs compatible

/-- The owner may grant orders; the clerk has a grant from the owner. -/
def issuedWorld : World :=
  sampleWorld (sampleRepository [samplePermission] [] [ownerGrant, sampleGrant "clerk-orders" "clerk"])

private theorem issuedWorld_pinned : ReferencesPinned issuedWorld.repository := by
  intro ref member
  cases member

theorem issued_grant_is_carried :
    AuthorityCarried utcDates sampleInstant sampleCatalog nextCatalog "2" issuedWorld.repository
      (advance utcDates issuedWorld
        ⟨sampleInstant, .migrateCatalogAuthority sampleCatalog nextCatalog "2"⟩).repository :=
  (migration_carries_authority utcDates issuedWorld issuedWorld_pinned [] sampleInstant sampleCatalog
    nextCatalog "2").1 (by decide +kernel)

/-- After the owner's own grant is revoked, the migration to a catalog with the same
operations is refused, because the clerk's grant has no live issuer. -/
theorem compatible_migration_is_refused : ¬ ∀ (dates : Dates) (start : World) (labels : List Submission) (now : Int)
      (older newer : OperationCatalog) (nextAuthorityRevision : String), ReferencesPinned start.repository →
      assertMigrationCatalogs older newer = .ok () →
      HeldCompatible dates now older newer (runFrom (advance dates) start labels).repository.snapshot →
      (serve dates (runFrom (advance dates) start labels)
        ⟨now, .migrateCatalogAuthority older newer nextAuthorityRevision⟩).1.isOk = true := by
  intro claimed
  have accepted := claimed utcDates issuedWorld [⟨sampleInstant, .revokeGrant "owner-orders" "left"⟩]
    sampleInstant sampleCatalog nextCatalog "2" issuedWorld_pinned (by decide) (by
      constructor
      · decide +kernel
      · decide +kernel)
  exact absurd accepted (by decide +kernel)

end Applik8s.Authority
