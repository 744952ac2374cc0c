import Applik8s.Authority.Effects

/-! What a catalog migration writes, and when it succeeds. -/
namespace Applik8s.Authority
open List Except
open Lib (Keyed Table)
open Lib.Program (exec_bind exec_pure exec_check_bind_ok forEach)
variable {dates : Dates} {now : Int} {older newer : OperationCatalog} {world after : World} {plan : MigrationPlan}

/-- The references after one grant was moved between revisions. -/
def repinned (fromRevision toRevision : String) (references : Table CatalogReference)
    (grant : GrantRecord) : Table CatalogReference :=
  (references.remove (fromRevision, .grant, grant.id)).put
    ⟨toRevision, .grant, grant.id, sortStrings (distinctValues grant.operationIds)⟩

/-- The references after a migration: every migrated grant is moved, every expired one dropped. -/
def migratedReferences (fromRevision toRevision : String) (plan : MigrationPlan)
    (references : Table CatalogReference) : Table CatalogReference :=
  plan.expired.foldl (fun references grant => references.remove (fromRevision, .grant, grant.id))
    (plan.grants.foldl (repinned fromRevision toRevision) references)

/-- The repository after a migration that left these audit entries. -/
def Repository.migrated (fromRevision toRevision : String) (plan : MigrationPlan)
    (entries : List AuditEvent) (repository : Repository) : Repository :=
  { repository with
    permissions := repository.permissions.putAll plan.permissions
    grants := repository.grants.putAll plan.grants
    revision := repository.revision + plan.permissions.length + plan.grants.length
    catalogReferences := migratedReferences fromRevision toRevision plan repository.catalogReferences
    audit := repository.audit ++ entries }

private theorem execute_putPermissions (records : List PermissionRecord) :
    execute (forEach records Calls.putPermission) world =
      (.ok (), world.write fun repo => { repo with
        permissions := repo.permissions.putAll records
        revision := repo.revision + records.length }) := by
  induction records generalizing world with
  | nil => rfl
  | cons record rest ih =>
    rw [execute_forEach_of (execute_putPermission record), ih]
    simp only [answer, World.write, Table.putAll_cons, length_cons]
    congr 3
    omega

private theorem execute_repinGrant (fromRevision toRevision : String) (grant : GrantRecord) :
    execute (repinGrant fromRevision toRevision grant) world =
      (.ok (), world.write fun repo => { repo with
        grants := repo.grants.put grant
        revision := repo.revision + 1
        catalogReferences := repinned fromRevision toRevision repo.catalogReferences grant }) := rfl

private theorem execute_repinGrants (fromRevision toRevision : String) (grants : List GrantRecord) :
    execute (forEach grants (repinGrant fromRevision toRevision)) world =
      (.ok (), world.write fun repo => { repo with
        grants := repo.grants.putAll grants
        revision := repo.revision + grants.length
        catalogReferences := grants.foldl (repinned fromRevision toRevision) repo.catalogReferences }) := by
  induction grants generalizing world with
  | nil => rfl
  | cons grant rest ih =>
    rw [execute_forEach_of (execute_repinGrant fromRevision toRevision grant), ih]
    simp only [World.write, Table.putAll_cons, length_cons, foldl_cons]
    congr 3
    omega

private theorem execute_forEach_audited (body : GrantRecord → AuthorityProgram Unit)
    (change : Table CatalogReference → GrantRecord → Table CatalogReference)
    (each : ∀ grant (world : World), ∃ entry, execute (body grant) world = (.ok (), { world with
      drawn := world.drawn + 1
      repository := { world.repository with
        catalogReferences := change world.repository.catalogReferences grant
        audit := world.repository.audit ++ [entry] } }))
    (grants : List GrantRecord) (world : World) :
    ∃ entries drawn, entries.length = grants.length ∧ execute (forEach grants body) world = (.ok (), { world with
      drawn := drawn
      repository := { world.repository with
        catalogReferences := grants.foldl change world.repository.catalogReferences
        audit := world.repository.audit ++ entries } }) := by
  induction grants generalizing world with
  | nil => exact ⟨[], world.drawn, rfl, by simp [forEach]⟩
  | cons grant rest ih =>
    obtain ⟨entry, first⟩ := each grant world
    obtain ⟨entries, drawn, counted, later⟩ := ih { world with
      drawn := world.drawn + 1
      repository := { world.repository with
        catalogReferences := change world.repository.catalogReferences grant
        audit := world.repository.audit ++ [entry] } }
    refine ⟨entry :: entries, drawn, by simp [counted], ?_⟩
    rw [execute_forEach_of first, later]
    simp

/-- The writes of a plan never fail. They add one audit entry for every expired grant
and one for every migrated grant. -/
theorem execute_applyMigration (dates : Dates) (now : Int) (fromRevision toRevision nextRev : String)
    (plan : MigrationPlan) (world : World) :
    ∃ entries drawn, entries.length = plan.expired.length + plan.grants.length ∧
      execute (applyMigration dates now fromRevision toRevision nextRev plan) world =
        (.ok (world.repository.migrated fromRevision toRevision plan entries).snapshot,
          { world with
            drawn := drawn
            repository := world.repository.migrated fromRevision toRevision plan entries }) := by
  unfold applyMigration
  rw [execute_bind_of (execute_putPermissions plan.permissions),
    execute_bind_of (execute_repinGrants fromRevision toRevision plan.grants)]
  obtain ⟨dropped, _, droppedCount, first⟩ := execute_forEach_audited
    (dropExpiredReference dates now fromRevision nextRev)
    (fun references grant => references.remove (fromRevision, .grant, grant.id)) (fun _ _ => ⟨_, rfl⟩) plan.expired _
  rw [execute_bind_of first]
  obtain ⟨audited, drawn, auditedCount, second⟩ := execute_forEach_audited
    (auditMigratedGrant dates now fromRevision toRevision nextRev) (fun references _ => references)
    (fun _ _ => ⟨_, rfl⟩) plan.grants _
  rw [execute_bind_of second]
  refine ⟨dropped ++ audited, drawn, by simp [droppedCount, auditedCount], ?_⟩
  simp [World.write, Repository.migrated, migratedReferences]

section
variable {toRevision : String} {grants expired : List GrantRecord}

def migratedReference (toRevision : String) (grant : GrantRecord) : CatalogReference :=
  ⟨toRevision, .grant, grant.id, sortStrings (distinctValues grant.operationIds)⟩

private theorem mem_repinned : ref ∈ (repinned fromRevision toRevision references grant).rows ↔
      ref = migratedReference toRevision grant ∨
        (ref ∈ references.rows ∧ Keyed.key ref ≠ (fromRevision, ReferenceKind.grant, grant.id) ∧
          Keyed.key ref ≠ (toRevision, ReferenceKind.grant, grant.id)) := by
  unfold repinned
  rw [Table.mem_put, Table.mem_remove, and_assoc]
  rfl

private theorem mem_repinned_all (distinct : (grants.map GrantRecord.id).Nodup) :
    ref ∈ (grants.foldl (repinned fromRevision toRevision) references).rows ↔
      (∃ grant ∈ grants, ref = migratedReference toRevision grant) ∨ (ref ∈ references.rows ∧ ∀ grant ∈ grants,
          Keyed.key ref ≠ (fromRevision, ReferenceKind.grant, grant.id) ∧
            Keyed.key ref ≠ (toRevision, ReferenceKind.grant, grant.id)) := by
  induction grants generalizing references with
  | nil => simp
  | cons grant rest ih =>
    obtain ⟨fresh, tail⟩ := nodup_cons.mp distinct
    rw [foldl_cons, ih tail, mem_repinned]
    constructor
    · rintro (⟨other, listed, rfl⟩ | ⟨rfl | ⟨held, first⟩, later⟩)
      · exact Or.inl ⟨other, mem_cons_of_mem _ listed, rfl⟩
      · exact Or.inl ⟨grant, mem_cons_self, rfl⟩
      · exact Or.inr ⟨held, forall_mem_cons.mpr ⟨first, later⟩⟩
    rintro (⟨other, listed, rfl⟩ | ⟨held, apart⟩)
    · rcases mem_cons.mp listed with rfl | listed
      · -- the grants that follow have other ids
        refine Or.inr ⟨Or.inl rfl, fun next member => ?_⟩
        have different : other.id ≠ next.id := fun same => fresh (same ▸ mem_map_of_mem member)
        exact ⟨fun clash => different (congrArg (fun key => key.2.2) clash),
          fun clash => different (congrArg (fun key => key.2.2) clash)⟩
      · exact Or.inl ⟨other, listed, rfl⟩
    · obtain ⟨first, later⟩ := forall_mem_cons.mp apart
      exact Or.inr ⟨Or.inr ⟨held, first⟩, later⟩

theorem mem_dropped {references : Table CatalogReference} : ref ∈ (expired.foldl (fun references grant =>
        references.remove (fromRevision, .grant, grant.id)) references).rows ↔
      ref ∈ references.rows ∧ ∀ grant ∈ expired,
        Keyed.key ref ≠ (fromRevision, ReferenceKind.grant, grant.id) := by
  induction expired generalizing references with
  | nil => simp
  | cons grant rest ih => rw [foldl_cons, ih, Table.mem_remove, and_assoc, forall_mem_cons]

theorem mem_migratedReferences (distinct : (plan.grants.map GrantRecord.id).Nodup) :
    ref ∈ (migratedReferences fromRevision toRevision plan references).rows ↔
      ((∃ grant ∈ plan.grants, ref = migratedReference toRevision grant) ∨
        (ref ∈ references.rows ∧ ∀ grant ∈ plan.grants, Keyed.key ref ≠ (fromRevision, ReferenceKind.grant, grant.id) ∧
            Keyed.key ref ≠ (toRevision, ReferenceKind.grant, grant.id))) ∧
      ∀ grant ∈ plan.expired, Keyed.key ref ≠ (fromRevision, ReferenceKind.grant, grant.id) := by
  unfold migratedReferences
  rw [mem_dropped, mem_repinned_all distinct]

end

structure Planned (dates : Dates) (now : Int) (older newer : OperationCatalog) (nextAuthorityRevision : String)
    (state : AuthoritySnapshot) (plan : MigrationPlan) : Prop where
  catalogs : assertMigrationCatalogs older newer = .ok ()
  permissions : List.Forall₂ (fun permission migrated => migratePermission
      (compareApplicationOperationCatalogs older newer) newer.revision permission = .ok migrated)
    (pinnedPermissions older.revision state) plan.permissions
  grants : List.Forall₂ (fun grant migrated => migrateGrant (compareApplicationOperationCatalogs older newer)
      newer.revision nextAuthorityRevision grant = .ok migrated)
    (pinnedGrants dates now older.revision state) plan.grants
  expired : plan.expired = expiredGrants dates now older.revision state
  valid : ∀ grant ∈ plan.grants,
    validateGrant dates now grant (plan.validationState state) (requiresGrantable grant) = .ok ()

theorem planMigration_ok : planMigration dates now older newer nextRev state = .ok plan ↔
      Planned dates now older newer nextRev state plan := by
  simp only [planMigration, checks_ok, checkEach_ok, convertEach_ok, ok.injEq]
  constructor
  · rintro ⟨_, catalogs, perms, movedPermissions, grants, movedGrants, _, valid, rfl⟩
    exact ⟨catalogs, movedPermissions, movedGrants, rfl, valid⟩
  intro planned
  obtain ⟨perms, grants, _⟩ := plan
  obtain ⟨catalogs, movedPermissions, movedGrants, rfl, valid⟩ := planned
  exact ⟨(), catalogs, perms, movedPermissions, grants, movedGrants, (), valid, rfl⟩

theorem migrateGrant_ok : migrateGrant report toRevision nextRev grant = .ok migrated ↔
      ∃ opIds, migrateOperationIds report grant.operationIds s!"Grant {grant.id}" = .ok opIds ∧
        migrated = { grant with
          operationIds := opIds
          catalogRevision := toRevision
          authorityRevision := nextRev } := by
  simp only [migrateGrant, checks_ok, ok.injEq]
  exact exists_congr fun _ => and_congr_right fun _ => eq_comm

theorem migratePermission_ok : migratePermission report toRevision permission = .ok migrated ↔ ∃ operationIds,
        migrateOperationIds report permission.operationIds s!"Permission {permission.id}" = .ok operationIds ∧
        migrated = { permission with operationIds := operationIds, catalogRevision := toRevision } := by
  simp only [migratePermission, checks_ok, ok.injEq]
  exact exists_congr fun _ => and_congr_right fun _ => eq_comm

/-- What a migration makes of a grant: one that is live and pinned to the older revision
is pinned to the newer one, any other stays as it is. -/
structure GrantMigrated (dates : Dates) (now : Int) (older newer : OperationCatalog)
    (nextAuthorityRevision : String) (grant result : GrantRecord) : Prop where
  moved : isLive dates now grant = true → grant.catalogRevision = older.revision →
    migrateGrant (compareApplicationOperationCatalogs older newer) newer.revision nextAuthorityRevision
      grant = .ok result
  kept : ¬ (isLive dates now grant = true ∧ grant.catalogRevision = older.revision) → result = grant

structure PermissionMigrated (older newer : OperationCatalog) (permission result : PermissionRecord) : Prop where
  moved : truthy permission.retiredAt = false → permission.catalogRevision = older.revision →
    migratePermission (compareApplicationOperationCatalogs older newer) newer.revision permission = .ok result
  kept : ¬ (truthy permission.retiredAt = false ∧ permission.catalogRevision = older.revision) → result = permission

theorem Planned.grants_rows {repo : Repository} (planned : Planned dates now older newer nextRev repo.snapshot plan) :
    List.Forall₂ (GrantMigrated dates now older newer nextRev)
      repo.grants.rows (repo.grants.putAll plan.grants).rows := by
  refine List.Forall₂.imp ?_ (Table.putAll_converted_forall ?_ planned.grants)
  · intro grant res became
    split at became
    · rename_i pinned
      exact ⟨fun _ _ => became, fun other => absurd (by simpa [isLive, and_assoc] using pinned) other⟩
    rename_i other
    refine ⟨fun live pins => absurd ?_ other, fun _ => became⟩
    simpa [isLive, pins] using live
  · intro grant res migrated
    obtain ⟨_, _, rfl⟩ := migrateGrant_ok.mp migrated
    rfl

theorem Planned.permissions_rows {repo : Repository}
    (planned : Planned dates now older newer nextRev repo.snapshot plan) :
    List.Forall₂ (PermissionMigrated older newer)
      repo.permissions.rows (repo.permissions.putAll plan.permissions).rows := by
  refine List.Forall₂.imp ?_ (Table.putAll_converted_forall ?_ planned.permissions)
  · intro perm res became
    split at became
    · rename_i pinned
      exact ⟨fun _ _ => became, fun other => absurd (by simpa using pinned) other⟩
    rename_i other
    refine ⟨fun live pins => absurd ?_ other, fun _ => became⟩
    simpa [pins] using live
  · intro perm res migrated
    obtain ⟨_, _, rfl⟩ := migratePermission_ok.mp migrated
    rfl

theorem migrateCatalogAuthority_ok
    (ran : execute (migrateCatalogAuthority dates now older newer nextRev) before = (.ok res, after))
    : ∃ plan entries, planMigration dates now older newer nextRev before.repository.snapshot = .ok plan ∧
      entries.length = plan.expired.length + plan.grants.length ∧
      after.repository = before.repository.migrated older.revision newer.revision plan entries ∧
      res = after.repository.snapshot := by
  simp only [migrateCatalogAuthority, execute_snapshot_bind, exec_check_bind_ok] at ran
  obtain ⟨plan, planned, ran⟩ := ran
  obtain ⟨entries, _, counted, applied⟩ := execute_applyMigration dates now
    older.revision newer.revision nextRev plan before
  have same := applied.symm.trans ran
  cases same
  exact ⟨plan, entries, planned, counted, rfl, rfl⟩

theorem migrateCatalogAuthority_of_plan
    (planned : planMigration dates now older newer nextRev before.repository.snapshot = .ok plan) :
    ∃ entries drawn, entries.length = plan.expired.length + plan.grants.length ∧
      execute (migrateCatalogAuthority dates now older newer nextRev) before =
        (.ok (before.repository.migrated older.revision newer.revision plan entries).snapshot,
          { before with
            drawn := drawn
            repository := before.repository.migrated older.revision newer.revision plan entries }) := by
  obtain ⟨entries, drawn, counted, applied⟩ := execute_applyMigration dates now
    older.revision newer.revision nextRev plan before
  refine ⟨entries, drawn, counted, ?_⟩
  rw [migrateCatalogAuthority, execute_snapshot_bind, planned]
  exact applied

end Applik8s.Authority
