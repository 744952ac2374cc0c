import Applik8s.Authority.ReconcileProofs

/-! Reconciling the same static manifest twice. The second call finds every declared
record as the first one stored it, so it changes nothing as long as its checks pass
again. They pass unless the manifest relies on an application permission that it does
not declare: the first call accepts the reference and then retires the permission. -/
namespace Applik8s.Authority
open List Option
open Lib (Keyed Table)
open Lib.Table (Written)
open Lib.Program (check forEach exec_pure exec_check exec_forEach_stationary)
variable {dates : Dates} {now later : Int} {before after : Repository}

/-! ### What is left after one call -/

section
variable {α κ : Type} [Keyed α κ]

private theorem unshadowed {table : Table α} [DecidableEq κ] (runtime : α → Bool) (stored : row ∈ table.rows)
    (app : runtime row = false) :
    ¬ (table.rows.any fun cand => decide (Keyed.key cand = Keyed.key row) && runtime cand) = true := by
  intro shadowed
  obtain ⟨_, present, both⟩ := any_eq_true.mp shadowed
  simp only [Bool.and_eq_true, decide_eq_true_eq] at both
  obtain ⟨named, shadows⟩ := both
  rw [Table.eq_of_key_eq present stored named, app] at shadows
  cases shadows

end

variable (manifest : StaticAuthorityManifest) (permissions : Table PermissionRecord)

def Available (permissionId : String) : Prop :=
  ∃ permission ∈ permissions.rows, permission.id = permissionId ∧ truthy permission.retiredAt = false

theorem livePermission_isSome :
    livePermission permissionId after.snapshot ≠ none ↔ Available after.permissions permissionId := by
  simp [livePermission, Available]

theorem permissionNamed_eq_some : permissionNamed permissionId after.snapshot = some perm ↔
      truthy permissionId = true ∧ perm ∈ after.permissions.rows ∧
        some perm.id = permissionId ∧ truthy perm.retiredAt = false := by
  unfold permissionNamed
  constructor
  · intro found
    split at found
    · rename_i given
      have passes := find?_some found
      simp only [decide_eq_true_eq, Bool.not_eq_true] at passes
      exact ⟨given, mem_of_find?_eq_some found, passes⟩
    · cases found
  · rintro ⟨given, stored, named, unretired⟩
    rw [if_pos given]
    refine Table.search_eq_some stored (by simp [named, unretired]) fun other passes => ?_
    simp only [decide_eq_true_eq] at passes
    exact some.inj (passes.1.trans named.symm)

/-! ### The permissions a manifest relies on -/

/-- A role or a grant of the manifest names the permission. -/
def StaticAuthorityManifest.Names (permissionId : String) : Prop :=
  (∃ role ∈ manifest.roles, permissionId ∈ role.permissionIds) ∨
    ∃ grant ∈ manifest.grants, whenTruthy grant.permissionId = some permissionId

/-- The manifest declares every unretired application permission that it names. -/
def StaticAuthorityManifest.Covers : Prop :=
  ∀ permission ∈ permissions.rows, permission.origin = .application → truthy permission.retiredAt = false →
    manifest.Names permission.id → permission.id ∈ manifest.permissions.map StaticPermissionDefinition.id

structure StaticAuthorityManifest.Distinct (manifest : StaticAuthorityManifest) : Prop where
  permissions : (manifest.permissions.map StaticPermissionDefinition.id).Nodup
  roles : (manifest.roles.map StaticRoleDefinition.id).Nodup
  grants : (manifest.grants.map StaticGrantDefinition.id).Nodup

/-- No unretired application role and no unrevoked application grant refers to a
permission that is missing or retired. -/
structure ReferencesAvailable (repository : Repository) : Prop where
  roles : ∀ role ∈ repository.roles.rows, role.origin = .application → truthy role.retiredAt = false →
    ∀ permissionId ∈ role.permissionIds, Available repository.permissions permissionId
  grants : ∀ grant ∈ repository.grants.rows, grant.origin = .application → truthy grant.revokedAt = false →
    ∀ permissionId, grant.permissionId = some permissionId → Available repository.permissions permissionId

section
variable {manifest : StaticAuthorityManifest} {catRev time : String} {start : AuthoritySnapshot}
  {permission : PermissionRecord}

theorem mem_records_permissions :
    perm ∈ (manifest.records catRev time start).permissions ↔ ∃ defn ∈ manifest.permissions,
        defn.record manifest.revision catRev time start = perm :=
  mem_map

variable {role : RoleRecord}

theorem mem_records_roles : role ∈ (manifest.records catRev time start).roles ↔
      ∃ defn ∈ manifest.roles, defn.record time start = role :=
  mem_map

variable {grant : GrantRecord}

theorem mem_records_grants : grant ∈ (manifest.records catRev time start).grants ↔
      ∃ defn ∈ manifest.grants, defn.record catRev time start = grant :=
  mem_map

private theorem current_permission (covers : manifest.Covers before.permissions) (named : manifest.Names perm.id)
    (unretired : truthy perm.retiredAt = false) (present : perm ∈ before.permissions.rows)
    (undeclared : perm.id ∉ manifest.permissions.map StaticPermissionDefinition.id) :
    obsoletePermission desired perm = false := by
  have runtime : perm.origin ≠ .application := fun app =>
    undeclared (covers perm present app unretired named)
  simp [obsoletePermission, runtime]

private theorem validateGrant_congr (undelegated : grant.delegationId = none)
    (outcomes : first.outcomes = second.outcomes)
    (named : permissionNamed grant.permissionId first = permissionNamed grant.permissionId second) :
    validateGrant dates now grant first false = validateGrant dates later grant second false := by
  simp only [validateGrant, validateDelegation, validateOutcome, undelegated, outcomes, named, truthy_none]
  rfl

private theorem available_of_validGrant (valid : validateGrant dates now grant state false = .ok ())
    (given : truthy grant.permissionId = true) : ∃ perm, permissionNamed grant.permissionId state = some perm := by
  simp only [validateGrant, checks_ok, refuseIf_ok] at valid
  obtain ⟨_, _, _, _, _, _, _, _, _, available, _⟩ := valid
  refine ne_none_iff_exists'.mp fun missing => ?_
  exact available ⟨given, missing⟩

private theorem registerManifestOutcome_still (valid : outcome.Valid)
    (stored : outcome ∈ world.repository.outcomes.rows) :
    execute (registerManifestOutcome outcome) world = (.ok (), world) := by
  have lookup : (world.repository.snapshot.outcomes.find? fun cand => cand.id = outcome.id) =
      some outcome := Table.find?_eq_some.mpr ⟨stored, rfl⟩
  have passes : validateScopeOrThrow outcome.predicate s!"outcomes.{outcome.id}.predicate" = .ok () :=
    validateScopeOrThrow_ok.mpr valid
  have registered : execute (registerOutcome outcome) world = (.ok outcome, world) := by
    rw [registerOutcome, execute_snapshot_bind, lookup, passes]
    simp [refuseIf, putNewOutcome]
    rfl
  exact execute_bind_of registered

private theorem reconcilePermission_still
    (valid : validateManifestPermission rev world.repository.snapshot perm = .ok ())
    (stored : perm ∈ world.repository.permissions.rows) :
    execute (reconcilePermission rev world.repository.snapshot perm) world = (.ok (), world) := by
  have lookup : (world.repository.snapshot.permissions.find? fun cand => cand.id = perm.id) =
      some perm := Table.find?_eq_some.mpr ⟨stored, rfl⟩
  rw [reconcilePermission, valid, lookup, if_neg (not_not.mpr rfl)]
  rfl

private theorem reconcileRole_still (valid : validateManifestRole desired world.repository.snapshot role = .ok ())
    (stored : role ∈ world.repository.roles.rows) :
    execute (reconcileRole desired world.repository.snapshot role) world = (.ok (), world) := by
  have lookup : (world.repository.snapshot.roles.find? fun cand => cand.id = role.id) = some role :=
    Table.find?_eq_some.mpr ⟨stored, rfl⟩
  rw [reconcileRole, valid, lookup, if_neg (not_not.mpr rfl)]
  rfl

private theorem reconcileGrant_still (app : grant.origin = .application)
    (valid : validateManifestGrant dates now grant world.repository.snapshot = .ok ())
    (stored : grant ∈ world.repository.grants.rows) :
    execute (reconcileGrant dates now grant) world = (.ok (), world) := by
  have lookup : (world.repository.snapshot.grants.find? fun cand => cand.id = grant.id) = some grant :=
    Table.find?_eq_some.mpr ⟨stored, rfl⟩
  have origin : assertAuthorityRecordOrigin grant.origin .application grant.id = .ok () := by
    simp [assertAuthorityRecordOrigin, app]
  rw [reconcileGrant, origin]
  change execute (Calls.snapshot >>= _) world = _
  rw [execute_snapshot_bind, valid, lookup, if_neg (not_not.mpr rfl)]
  rfl

/-- A repository that holds what a manifest declares and nothing obsolete, and in which
the manifest passes its checks. -/
private structure ManifestSettled (dates : Dates) (now : Int) (declared : AuthorityManifest)
    (repository : Repository) : Prop where
  permissions : ∀ permission ∈ declared.permissions, permission ∈ repository.permissions.rows ∧
    validateManifestPermission declared.revision repository.snapshot permission = .ok ()
  roles : ∀ role ∈ declared.roles, role ∈ repository.roles.rows ∧
    validateManifestRole (declared.permissions.map PermissionRecord.id) repository.snapshot role = .ok ()
  grants : ∀ grant ∈ declared.grants, grant ∈ repository.grants.rows ∧ grant.origin = .application ∧
    validateManifestGrant dates now grant repository.snapshot = .ok ()
  currentPermissions : ∀ permission ∈ repository.permissions.rows,
    obsoletePermission (declared.permissions.map PermissionRecord.id) permission = false
  currentRoles : ∀ role ∈ repository.roles.rows, obsoleteRole (declared.roles.map RoleRecord.id) role = false
  currentGrants : ∀ grant ∈ repository.grants.rows, obsoleteGrant (declared.grants.map GrantRecord.id) grant = false

private theorem reconcileApplicationAuthority_still {world : World} {declared : AuthorityManifest}
    (settled : ManifestSettled dates now declared world.repository) :
    execute (reconcileApplicationAuthority dates now declared) world = (.ok world.repository.snapshot, world) := by
  have perms : execute (forEach declared.permissions
      (reconcilePermission declared.revision world.repository.snapshot)) world = (.ok (), world) := by
    refine exec_forEach_stationary fun perm listed => ?_
    obtain ⟨stored, valid⟩ := settled.permissions perm listed
    exact reconcilePermission_still valid stored
  have roles : execute (forEach declared.roles (reconcileRole (declared.permissions.map PermissionRecord.id)
      world.repository.snapshot)) world = (.ok (), world) := by
    refine exec_forEach_stationary fun role listed => ?_
    obtain ⟨stored, valid⟩ := settled.roles role listed
    exact reconcileRole_still valid stored
  have grants : execute (forEach declared.grants (reconcileGrant dates now)) world = (.ok (), world) := by
    refine exec_forEach_stationary fun grant listed => ?_
    obtain ⟨stored, app, valid⟩ := settled.grants grant listed
    exact reconcileGrant_still app valid stored
  have permissionsLeft : execute (forEach world.repository.snapshot.permissions
      (retirePermission dates now (declared.permissions.map PermissionRecord.id))) world = (.ok (), world) := by
    refine exec_forEach_stationary fun perm stored => ?_
    rw [retirePermission, if_neg (of_decide_eq_false (settled.currentPermissions perm stored)), exec_pure]
  have rolesLeft : execute (forEach world.repository.snapshot.roles
      (retireRole dates now (declared.roles.map RoleRecord.id))) world = (.ok (), world) := by
    refine exec_forEach_stationary fun role stored => ?_
    rw [retireRole, if_neg (of_decide_eq_false (settled.currentRoles role stored)), exec_pure]
  have grantsLeft : execute (forEach world.repository.snapshot.grants
      (retireGrant dates now (declared.grants.map GrantRecord.id))) world = (.ok (), world) := by
    refine exec_forEach_stationary fun grant stored => ?_
    rw [retireGrant, if_neg (of_decide_eq_false (settled.currentGrants grant stored)), exec_pure]
  rw [reconcileApplicationAuthority, execute_snapshot_bind]
  rw [execute_bind_of perms, execute_bind_of roles, execute_bind_of grants,
    execute_bind_of permissionsLeft, execute_bind_of rolesLeft, execute_bind_of grantsLeft, execute_snapshot]

section
variable (applied : ManifestApplied dates now (manifest.records catRev time start) before after)
  (distinct : manifest.Distinct)
include applied distinct

private theorem stored_permission (listed : perm ∈ (manifest.records catRev time start).permissions) :
    perm ∈ after.permissions.rows := by
  refine applied.permissions.declares ?_ listed
  change ((manifest.records catRev time start).permissions.map PermissionRecord.id).Nodup
  rw [records_permissionIds]
  exact distinct.permissions

private theorem stored_role (listed : role ∈ (manifest.records catRev time start).roles) : role ∈ after.roles.rows := by
  refine applied.roles.declares ?_ listed
  change ((manifest.records catRev time start).roles.map RoleRecord.id).Nodup
  rw [records_roleIds]
  exact distinct.roles

private theorem stored_grant (listed : grant ∈ (manifest.records catRev time start).grants)
    : grant ∈ after.grants.rows := by
  refine applied.grants.declares ?_ listed
  change ((manifest.records catRev time start).grants.map GrantRecord.id).Nodup
  rw [records_grantIds]
  exact distinct.grants

/-! ### The checks, made again -/

private theorem validPermission_again (listed : perm ∈ (manifest.records catRev time start).permissions) :
    validateManifestPermission manifest.revision after.snapshot perm = .ok () := by
  have valid := applied.permissionsValid perm listed
  have stored := stored_permission applied distinct listed
  simp only [validateManifestPermission, assertNotRuntimePermission, checks_ok, refuseIf_ok] at valid ⊢
  obtain ⟨_, origin, _, pinned, _, rev, _, scope, _⟩ := valid
  have app : perm.origin = .application := by
    obtain ⟨_, _, rfl⟩ := mem_records_permissions.mp listed
    rfl
  refine ⟨(), origin, (), pinned, (), rev, (), scope, ?_⟩
  exact unshadowed (fun cand => decide (cand.origin = .runtime)) stored (by simp [app])

private theorem records_again (otherTime : String) :
    manifest.records catRev otherTime after.snapshot = manifest.records catRev time start := by
  have perms : ∀ defn ∈ manifest.permissions, defn.record manifest.revision catRev otherTime after.snapshot =
        defn.record manifest.revision catRev time start := by
    intro defn member
    have stored := stored_permission applied distinct (mem_records_permissions.mpr ⟨defn, member, rfl⟩)
    have lookup : (after.snapshot.permissions.find? fun cand => cand.id = defn.id) = some _ :=
      Table.find?_eq_some.mpr ⟨stored, rfl⟩
    conv_lhs => rw [StaticPermissionDefinition.record, lookup]
    rfl
  have roles : ∀ defn ∈ manifest.roles,
      defn.record otherTime after.snapshot = defn.record time start := by
    intro defn member
    have stored := stored_role applied distinct (mem_records_roles.mpr ⟨defn, member, rfl⟩)
    have lookup : (after.snapshot.roles.find? fun cand => cand.id = defn.id) = some _ :=
      Table.find?_eq_some.mpr ⟨stored, rfl⟩
    conv_lhs => rw [StaticRoleDefinition.record, lookup]
    rfl
  have grants : ∀ defn ∈ manifest.grants,
      defn.record catRev otherTime after.snapshot = defn.record catRev time start := by
    intro defn member
    have stored := stored_grant applied distinct (mem_records_grants.mpr ⟨defn, member, rfl⟩)
    have lookup : (after.snapshot.grants.find? fun cand => cand.id = defn.id) = some _ :=
      Table.find?_eq_some.mpr ⟨stored, rfl⟩
    conv_lhs => rw [StaticGrantDefinition.record, lookup]
    rfl
  unfold StaticAuthorityManifest.records
  rw [map_congr_left perms, map_congr_left roles, map_congr_left grants]

private theorem covers_of_referencesAvailable (available : ReferencesAvailable after) : manifest.Covers before.permissions := by
  intro perm stored app unretired named
  by_contra undeclared
  have obsolete : obsoletePermission ((manifest.records catRev time start).permissions.map
      PermissionRecord.id) perm = true := by
    rw [records_permissionIds]
    simp [obsoletePermission, app, unretired, undeclared]
  have retired := applied.permissions.retires stored obsolete
  have gone : ¬ Available after.permissions perm.id := by
    rintro ⟨_, present, same, live⟩
    rw [Table.eq_of_key_eq present retired same] at live
    exact absurd (dates.truthy_toISOString now) (live ▸ Bool.false_ne_true)
  apply gone
  rcases named with ⟨defn, member, inside⟩ | ⟨defn, member, given⟩
  · have present := stored_role applied distinct (mem_records_roles.mpr ⟨defn, member, rfl⟩)
    exact available.roles _ present rfl rfl perm.id inside
  · have present := stored_grant applied distinct (mem_records_grants.mpr ⟨defn, member, rfl⟩)
    exact available.grants _ present rfl rfl perm.id given

variable (covers : manifest.Covers before.permissions)
include covers

private theorem kept_permission
    (written : Written (manifest.records catRev time start).permissions before.permissions state)
    (named : manifest.Names perm.id) (unretired : truthy perm.retiredAt = false)
    (stored : perm ∈ state.rows) : perm ∈ after.permissions.rows := by
  rcases written.rows perm stored with listed | ⟨present, apart⟩
  · exact stored_permission applied distinct listed
  refine applied.permissions.spares present apart (current_permission covers named unretired present ?_)
  rw [← records_permissionIds]
  exact apart

private theorem available_named (named : manifest.Names permissionId)
    (known : permissionId ∈ manifest.permissions.map StaticPermissionDefinition.id ∨ Available before.permissions permissionId)
    : Available after.permissions permissionId := by
  by_cases listed : permissionId ∈ manifest.permissions.map StaticPermissionDefinition.id
  · obtain ⟨defn, member, rfl⟩ := mem_map.mp listed
    have stored := stored_permission applied distinct (mem_records_permissions.mpr ⟨defn, member, rfl⟩)
    exact ⟨_, stored, rfl, rfl⟩
  obtain ⟨perm, present, rfl, unretired⟩ := known.resolve_left listed
  refine ⟨perm, applied.permissions.spares present ?_
    (current_permission covers named unretired present listed), rfl, unretired⟩
  change perm.id ∉ (manifest.records catRev time start).permissions.map PermissionRecord.id
  rwa [records_permissionIds]

private theorem validRole_again (listed : role ∈ (manifest.records catRev time start).roles) :
    validateManifestRole ((manifest.records catRev time start).permissions.map PermissionRecord.id)
        after.snapshot role = .ok () ∧
      ∀ permissionId ∈ role.permissionIds, Available after.permissions permissionId := by
  have valid := applied.rolesValid role listed
  have stored := stored_role applied distinct listed
  simp only [records_permissionIds, validateManifestRole, checks_ok, refuseIf_ok, not_not] at valid ⊢
  obtain ⟨_, origin, _, _, known⟩ := valid
  obtain ⟨defn, member, rfl⟩ := mem_records_roles.mp listed
  have available : ∀ permissionId ∈ defn.permissionIds, Available after.permissions permissionId := by
    intro permissionId named
    refine available_named applied distinct covers (Or.inl ⟨defn, member, named⟩) ?_
    have passed := filter_eq_nil_iff.mp known permissionId named
    rw [← livePermission_isSome]
    by_contra neither
    simp only [not_or, not_not] at neither
    simp [neither] at passed
  refine ⟨⟨(), origin, (), ?_, ?_⟩, available⟩
  · exact unshadowed (fun cand => decide (cand.origin = .runtime)) stored (by rfl)
  refine filter_eq_nil_iff.mpr fun permissionId named => ?_
  have live := livePermission_isSome.mpr (available permissionId named)
  simp [live]

private theorem validGrant_again (later : Int) (listed : grant ∈ (manifest.records catRev time start).grants) :
    validateManifestGrant dates later grant after.snapshot = .ok () ∧
      ∀ permissionId, grant.permissionId = some permissionId → Available after.permissions permissionId := by
  obtain ⟨origin, state, written, outcomes, valid⟩ := applied.grantsValid grant listed
  have stored := stored_grant applied distinct listed
  simp only [validateManifestGrant, checks_ok, refuseIf_ok] at valid ⊢
  obtain ⟨_, _, valid⟩ := valid
  obtain ⟨defn, member, rfl⟩ := mem_records_grants.mp listed
  -- the permission found at first is found again, where it was
  have kept : ∀ perm, permissionNamed (whenTruthy defn.permissionId) state.snapshot = some perm →
      permissionNamed (whenTruthy defn.permissionId) after.snapshot = some perm := by
    intro perm found
    obtain ⟨given, present, named, unretired⟩ := permissionNamed_eq_some.mp found
    have stays := kept_permission applied distinct covers written (Or.inr ⟨defn, member, named.symm⟩) unretired present
    exact permissionNamed_eq_some.mpr ⟨given, stays, named, unretired⟩
  have same : permissionNamed (whenTruthy defn.permissionId) state.snapshot =
      permissionNamed (whenTruthy defn.permissionId) after.snapshot := by
    by_cases given : truthy (whenTruthy defn.permissionId) = true
    · obtain ⟨perm, found⟩ := available_of_validGrant valid given
      exact found.trans (kept perm found).symm
    · simp [permissionNamed, given]
  constructor
  · refine ⟨(), ?_, ?_⟩
    · exact unshadowed (fun cand => decide (cand.origin = .runtime)) stored (by rfl)
    · rw [← valid]
      refine (validateGrant_congr rfl ?_ same).symm
      rw [Repository.snapshot_outcomes, Repository.snapshot_outcomes, applied.outcomes, outcomes]
  · intro permissionId named
    obtain ⟨perm, found⟩ := available_of_validGrant valid (truthy_of_whenTruthy named)
    obtain ⟨_, stays, identified, unretired⟩ := permissionNamed_eq_some.mp (kept perm found)
    exact ⟨perm, stays, some.inj (identified.trans named), unretired⟩

/-! ### The second call -/

private theorem manifestSettled_of_applied :
    ManifestSettled dates later (manifest.records catRev time start) after := by
  have retired : truthy (some (dates.toISOString now)) = true := dates.truthy_toISOString now
  exact {
    permissions := fun perm listed =>
      ⟨stored_permission applied distinct listed, validPermission_again applied distinct listed⟩
    roles := fun role listed =>
      ⟨stored_role applied distinct listed, (validRole_again applied distinct covers listed).1⟩
    grants := fun grant listed => ⟨stored_grant applied distinct listed, (applied.grantsValid grant listed).1,
      (validGrant_again applied distinct covers later listed).1⟩
    currentPermissions := fun perm stored => applied.permissions.settled
      (fun _ listed => decide_eq_false fun obsolete => obsolete.2.2 (mem_map_of_mem listed))
      (fun _ => decide_eq_false fun obsolete => obsolete.2.1 retired) stored
    currentRoles := fun role stored => applied.roles.settled
      (fun _ listed => decide_eq_false fun obsolete => obsolete.2.2 (mem_map_of_mem listed))
      (fun _ => decide_eq_false fun obsolete => obsolete.2.1 retired) stored
    currentGrants := fun grant stored => applied.grants.settled
      (fun _ listed => decide_eq_false fun obsolete => obsolete.2.2 (mem_map_of_mem listed))
      (fun _ => decide_eq_false fun obsolete => obsolete.2.1 retired) stored }

private theorem referencesAvailable_of_covers : ReferencesAvailable after := by
  constructor
  · intro role stored app unretired
    rcases applied.roles.rows role stored with listed | ⟨_, apart, cur⟩ | ⟨old, _, _, rfl⟩
    · exact (validRole_again applied distinct covers listed).2
    · refine absurd ⟨app, ?_, apart⟩ (of_decide_eq_false cur)
      rw [unretired]
      exact Bool.false_ne_true
    · exact absurd (dates.truthy_toISOString now) (unretired ▸ Bool.false_ne_true)
  · intro grant stored app unrevoked
    rcases applied.grants.rows grant stored with listed | ⟨_, apart, cur⟩ | ⟨_, _, _, rfl⟩
    · exact (validGrant_again applied distinct covers now listed).2
    · refine absurd ⟨app, ?_, apart⟩ (of_decide_eq_false cur)
      rw [unrevoked]
      exact Bool.false_ne_true
    · exact absurd (dates.truthy_toISOString now) (unrevoked ▸ Bool.false_ne_true)

end

private theorem reconcileStaticAuthorityManifest_still
    (applied : StaticManifestApplied dates now manifest catRev before world.repository) (distinct : manifest.Distinct)
    (covers : manifest.Covers before.permissions) :
    execute (reconcileStaticAuthorityManifest dates later manifest catRev) world =
      (.ok world.repository.snapshot, world) := by
  obtain ⟨_, perms, _, _, records⟩ := applied.records
  have identities : execute (forEach manifest.grants fun defn =>
      check (assertDeclaredIdentities manifest defn)) world = (.ok (), world) := by
    refine exec_forEach_stationary fun defn member => ?_
    rw [exec_check, applied.declared defn member]
  have outcomes : execute (forEach manifest.outcomes registerManifestOutcome) world = (.ok (), world) :=
    exec_forEach_stationary fun out member =>
      registerManifestOutcome_still (applied.outcomesValid out member) (applied.outcomes out member)
  have distinctIdentities : execute (check (assertDistinctIdentities manifest)) world = (.ok (), world) := by
    unfold execute
    rw [exec_check, applied.identities]
  rw [reconcileStaticAuthorityManifest, execute_snapshot_bind, execute_bind_of distinctIdentities,
    execute_bind_of identities, execute_bind_of outcomes, records_again records distinct]
  rw [← perms] at covers
  exact reconcileApplicationAuthority_still (manifestSettled_of_applied records distinct covers)

end

def StaticAuthorityManifest.submitted (manifest : StaticAuthorityManifest) (catalogRevision : String)
    (now : Int) : Submission :=
  ⟨now, .reconcileStaticAuthorityManifest manifest catalogRevision⟩

/-- Submitting an accepted manifest again succeeds and changes nothing, and no live
application record refers to an unavailable permission, exactly when the manifest
declares every application permission that it names. -/
theorem reconciliation_is_idempotent_iff (dates : Dates) (now : Int) (manifest : StaticAuthorityManifest)
    (catalogRevision : String) (start : World) (distinct : manifest.Distinct)
    (accepted : (serve dates start (manifest.submitted catalogRevision now)).1.isOk = true) :
    ((∀ later, now ≤ later → ∃ response, serve dates (advance dates start (manifest.submitted catalogRevision now))
            (manifest.submitted catalogRevision later) =
          (.ok response, advance dates start (manifest.submitted catalogRevision now))) ∧
      ReferencesAvailable (advance dates start (manifest.submitted catalogRevision now)).repository) ↔
      manifest.Covers start.repository.permissions := by
  obtain ⟨result, reached, ran⟩ := serial_transaction_isOk.mp accepted
  have moved : advance dates start (manifest.submitted catalogRevision now) = reached :=
    congrArg Prod.snd (serial_transaction_ok.mpr ⟨result, ran, rfl⟩)
  have applied := reconcileStaticAuthorityManifest_ok ran
  obtain ⟨_, permissions, _, _, records⟩ := applied.records
  rw [moved]
  constructor
  · rintro ⟨_, available⟩
    rw [← permissions]
    exact covers_of_referencesAvailable records distinct available
  intro covers
  refine ⟨fun later _ => ⟨.snapshot reached.repository.snapshot, ?_⟩, ?_⟩
  · exact serial_transaction_ok.mpr ⟨_, reconcileStaticAuthorityManifest_still applied distinct covers, rfl⟩
  · rw [← permissions] at covers
    exact referencesAvailable_of_covers records distinct covers

/-- A manifest of the clerk's role and the owner's grant, with the permissions given. -/
def ordersManifest (permissions : List StaticPermissionDefinition) : StaticAuthorityManifest where
  application := "shop"
  revision := "m2"
  identities := [sampleIdentity "owner", sampleIdentity "platform"]
  permissions := permissions
  roles := [{ id := "clerk", name := "clerk", permissionIds := ["orders"] }]
  grants :=
    [{ id := "owner-orders", identity := sampleIdentity "owner", permissionId := some "orders"
       operationIds := ["orders.update"], scope := .all, issuedBy := sampleIdentity "platform"
       canGrant := some true }]
  outcomes := []

def ordersDefinition : StaticPermissionDefinition where
  id := "orders"
  name := "orders"
  operationIds := ["orders.update"]
  scope := .all
  grantable := true

def ordersWorld : World := sampleWorld (sampleRepository [samplePermission] [] [])

theorem covering_manifest_is_idempotent : (∀ later, sampleInstant ≤ later → ∃ response, serve utcDates
            (advance utcDates ordersWorld ((ordersManifest [ordersDefinition]).submitted "c1" sampleInstant))
            ((ordersManifest [ordersDefinition]).submitted "c1" later) = (.ok response,
            advance utcDates ordersWorld ((ordersManifest [ordersDefinition]).submitted "c1" sampleInstant))) ∧
      ReferencesAvailable (advance utcDates ordersWorld
          ((ordersManifest [ordersDefinition]).submitted "c1" sampleInstant)).repository := by
  have distinct : (ordersManifest [ordersDefinition]).Distinct :=
    ⟨by decide, by decide, by decide⟩
  refine (reconciliation_is_idempotent_iff utcDates sampleInstant (ordersManifest [ordersDefinition]) "c1"
    ordersWorld distinct (by decide +kernel)).mpr fun permission stored _ _ _ => ?_
  have declared : ∀ permission ∈ ordersWorld.repository.permissions.rows,
      permission.id ∈ (ordersManifest [ordersDefinition]).permissions.map StaticPermissionDefinition.id := by
    decide +kernel
  exact declared permission stored

/-- A manifest that keeps the role and the grant but drops their permission is accepted
once; it retires the permission, and the second call is refused. -/
theorem dropped_permission_breaks_idempotence :
    ¬ ∀ (dates : Dates) (now : Int) (manifest : StaticAuthorityManifest) (catalogRevision : String)
      (start : World), manifest.Distinct →
      (serve dates start (manifest.submitted catalogRevision now)).1.isOk = true → (∀ later, now ≤ later → ∃ response,
        serve dates (advance dates start (manifest.submitted catalogRevision now))
            (manifest.submitted catalogRevision later) =
          (.ok response, advance dates start (manifest.submitted catalogRevision now))) ∧
      ReferencesAvailable (advance dates start (manifest.submitted catalogRevision now)).repository := by
  intro claimed
  obtain ⟨again, _⟩ := claimed utcDates sampleInstant (ordersManifest []) "c1" ordersWorld
    ⟨by decide, by decide, by decide⟩ (by decide +kernel)
  obtain ⟨_, served⟩ := again sampleInstant le_rfl
  have refused : (serve utcDates (advance utcDates ordersWorld ((ordersManifest []).submitted "c1" sampleInstant))
      ((ordersManifest []).submitted "c1" sampleInstant)).1.isOk = false := by
    decide +kernel
  rw [served] at refused
  cases refused

end Applik8s.Authority
