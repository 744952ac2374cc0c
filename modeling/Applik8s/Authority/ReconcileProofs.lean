import Applik8s.Authority.Footprints

/-! What reconciling a manifest leaves behind: the declared records, the records it does
not concern, and the obsolete application records, retired. The declared roles and
grants are validated while the obsolete permissions are still unretired. -/
namespace Applik8s.Authority
open List
open Lib (Keyed Table)
open Lib.Table (Written Superseded)
open Lib.Program (check forEach exec_bind_ok exec_check exec_check_bind_ok exec_forEach_cons
  exec_forEach_bind_ok forEach_keeps forEach_ok_each forEach_ok_all forEach_ok_keeps forEach_stationary_ok
  forEach_filter check_bind_keeps)

variable {dates : Dates} {now : Int} {world here there before after : World}

/-! ### Loops that write one table -/

section
variable {α κ τ : Type} [Keyed α κ] [DecidableEq κ] (field : Repository → Table α)

theorem putAll_of_loop {body : τ → AuthorityProgram Unit} (target : τ → α)
    (step : ∀ item here there, execute (body item) here = (.ok (), there) → field there.repository = (field here.repository).put (target item))
    (ran : execute (forEach items body) before = (.ok (), after)) :
    field after.repository = (field before.repository).putAll (items.map target) := by
  induction items generalizing before with
  | nil =>
    cases ran
    rfl
  | cons item rest ih =>
    unfold execute at ran
    rw [exec_forEach_cons, exec_bind_ok] at ran
    obtain ⟨_, middle, first, later⟩ := ran
    rw [ih later, step item before middle first]
    rfl

theorem written_of_loop {body : α → AuthorityProgram Unit}
    (step : ∀ record here there, execute (body record) here = (.ok (), there) → field there.repository = (field here.repository).put record ∨ (field there.repository = field here.repository ∧ record ∈ start.rows))
    (written : Written done start (field before.repository))
    (ran : execute (forEach records body) before = (.ok (), after)) :
    Written (done ++ records) start (field after.repository) := by
  -- `done` are the records of the iterations behind
  induction records generalizing before done with
  | nil =>
    cases ran
    rwa [append_nil]
  | cons record rest ih =>
    unfold execute at ran
    rw [exec_forEach_cons, exec_bind_ok] at ran
    obtain ⟨_, middle, first, later⟩ := ran
    have further : Written (done ++ [record]) start (field middle.repository) := by
      rcases step record before middle first with put | ⟨same, stored⟩
      · rw [put]
        exact written.put
      · rw [same]
        exact written.skip stored
    have whole := ih further later
    rwa [append_assoc] at whole

end

section
variable {cur : AuthoritySnapshot}

private theorem mem_of_found {α : Type} {rows : List α} {test : α → Bool} {row : α}
    (found : ¬ rows.find? test ≠ some row) : row ∈ rows :=
  mem_of_find?_eq_some (not_not.mp found)

private theorem reconcilePermission_ok (ran : execute (reconcilePermission rev cur permission) here = (.ok (), there)) :
    validateManifestPermission rev cur permission = .ok () ∧
      (there.repository.permissions = here.repository.permissions.put permission ∨
        (there = here ∧ permission ∈ cur.permissions)) := by
  unfold execute reconcilePermission at ran
  rw [exec_check_bind_ok] at ran
  obtain ⟨_, valid, ran⟩ := ran
  refine ⟨valid, ?_⟩
  split at ran
  · cases ran
    exact Or.inl rfl
  rename_i unchanged
  cases ran
  exact Or.inr ⟨rfl, mem_of_found unchanged⟩

private theorem reconcileRole_ok (ran : execute (reconcileRole desired cur role) here = (.ok (), there)) :
    validateManifestRole desired cur role = .ok () ∧
      (there.repository.roles = here.repository.roles.put role ∨ (there = here ∧ role ∈ cur.roles)) := by
  unfold execute reconcileRole at ran
  rw [exec_check_bind_ok] at ran
  obtain ⟨_, valid, ran⟩ := ran
  refine ⟨valid, ?_⟩
  split at ran
  · cases ran
    exact Or.inl rfl
  rename_i unchanged
  cases ran
  exact Or.inr ⟨rfl, mem_of_found unchanged⟩

private theorem reconcileGrant_ok (ran : execute (reconcileGrant dates now grant) here = (.ok (), there)) :
    grant.origin = .application ∧ validateManifestGrant dates now grant here.repository.snapshot = .ok () ∧
      there.repository.grants = here.repository.grants.put grant := by
  unfold execute reconcileGrant at ran
  rw [exec_check_bind_ok] at ran
  obtain ⟨_, origin, ran⟩ := ran
  change execute (Calls.snapshot >>= _) here = _ at ran
  rw [execute_snapshot_bind] at ran
  rw [exec_check_bind_ok] at ran
  obtain ⟨_, valid, ran⟩ := ran
  refine ⟨by simpa [assertAuthorityRecordOrigin] using origin, valid, ?_⟩
  split at ran
  · have same := (execute_storeGrant grant).symm.trans ran
    cases same
    rfl
  · rename_i unchanged
    cases ran
    exact (Table.put_of_mem (mem_of_found unchanged)).symm

/-! ### What a loop leaves alone -/

private def Shows {ν : Type} (view : Repository → ν) (seen : ν) (world : World) : Prop :=
  view world.repository = seen

private def besidePermissions (repository : Repository) :=
  (repository.roles, repository.grants, repository.outcomes)

private def besideRoles (repository : Repository) :=
  (repository.permissions, repository.grants, repository.outcomes)

private def besideGrants (repository : Repository) :=
  (repository.permissions, repository.roles, repository.outcomes)

private theorem shows_of_loop {τ ν : Type} {view : Repository → ν} {items : List τ} {body : τ → AuthorityProgram Unit}
    (each : ∀ item seen here, Shows view seen here → Shows view seen (execute (body item) here).2)
    (ran : execute (forEach items body) before = (.ok (), after)) :
    view after.repository = view before.repository := by
  have start : Shows view (view before.repository) before := rfl
  have kept : Shows view (view before.repository) (execute (forEach items body) before).2 :=
    forEach_keeps (fun item _ here held => each item _ here held) start
  rwa [ran] at kept

private theorem shows_reconcilePermission {rev : String} {permission : PermissionRecord} (seen) (here : World)
    (held : Shows besidePermissions seen here) :
    Shows besidePermissions seen (execute (reconcilePermission rev cur permission) here).2 := by
  refine check_bind_keeps held fun _ _ => ?_
  split <;> exact held

private theorem shows_reconcileRole {desired : List String} {role : RoleRecord} (seen) (here : World)
    (held : Shows besideRoles seen here) :
    Shows besideRoles seen (execute (reconcileRole desired cur role) here).2 := by
  refine check_bind_keeps held fun _ _ => ?_
  split <;> exact held

private theorem shows_reconcileGrant {grant : GrantRecord} (seen) (here : World) (held : Shows besideGrants seen here) :
    Shows besideGrants seen (execute (reconcileGrant dates now grant) here).2 := by
  refine check_bind_keeps held fun _ _ => ?_
  change Shows besideGrants seen (execute (Calls.snapshot >>= _) here).2
  rw [execute_snapshot_bind]
  refine check_bind_keeps held fun _ _ => ?_
  split
  · change Shows besideGrants seen (execute (putGrant dates now grant) here).2
    rw [execute_storeGrant]
    exact held
  · exact held

end

variable (desired : List String) (time : String) (permission : PermissionRecord)

/-- The manifest no longer declares the application permission. -/
def obsoletePermission : Bool :=
  permission.origin = .application ∧ ¬ truthy permission.retiredAt ∧ permission.id ∉ desired

def obsoleteRole (role : RoleRecord) : Bool :=
  role.origin = .application ∧ ¬ truthy role.retiredAt ∧ role.id ∉ desired

variable (grant : GrantRecord)

def obsoleteGrant : Bool :=
  grant.origin = .application ∧ ¬ truthy grant.revokedAt ∧ grant.id ∉ desired

def PermissionRecord.retired : PermissionRecord :=
  { permission with retiredAt := some time }

def RoleRecord.retired (role : RoleRecord) : RoleRecord := { role with retiredAt := some time }

def GrantRecord.revoked : GrantRecord :=
  { grant with revokedAt := some time }

section
variable {desired : List String}

private theorem retirePermission_loop : forEach perms (retirePermission dates now desired) =
      forEach (perms.filter (obsoletePermission desired)) fun permission =>
        Calls.putPermission (permission.retired (dates.toISOString now)) := by
  rw [← forEach_filter]
  congr 1
  funext permission
  simp only [retirePermission, obsoletePermission, decide_eq_true_eq]
  rfl

private theorem retireRole_loop : forEach roles (retireRole dates now desired) =
      forEach (roles.filter (obsoleteRole desired)) fun role =>
        Calls.putRole (role.retired (dates.toISOString now)) := by
  rw [← forEach_filter]
  congr 1
  funext role
  simp only [retireRole, obsoleteRole, decide_eq_true_eq]
  rfl

private theorem retireGrant_loop : forEach grants (retireGrant dates now desired) =
      forEach (grants.filter (obsoleteGrant desired)) fun grant =>
        putGrant dates now (grant.revoked (dates.toISOString now)) := by
  rw [← forEach_filter]
  congr 1
  funext grant
  simp only [retireGrant, obsoleteGrant, decide_eq_true_eq]
  rfl

end

/-! ### The whole manifest -/

/-- What a manifest that was reconciled left, and the checks it passed: the permissions
and roles in the state before, each grant after the permissions were written. -/
structure ManifestApplied (dates : Dates) (now : Int) (manifest : AuthorityManifest)
    (before after : Repository) : Prop where
  permissions : Superseded manifest.permissions (obsoletePermission (manifest.permissions.map PermissionRecord.id))
    (PermissionRecord.retired (dates.toISOString now)) before.permissions after.permissions
  roles : Superseded manifest.roles (obsoleteRole (manifest.roles.map RoleRecord.id))
    (RoleRecord.retired (dates.toISOString now)) before.roles after.roles
  grants : Superseded manifest.grants (obsoleteGrant (manifest.grants.map GrantRecord.id))
    (GrantRecord.revoked (dates.toISOString now)) before.grants after.grants
  outcomes : after.outcomes = before.outcomes
  permissionsValid : ∀ permission ∈ manifest.permissions,
    validateManifestPermission manifest.revision before.snapshot permission = .ok ()
  rolesValid : ∀ role ∈ manifest.roles,
    validateManifestRole (manifest.permissions.map PermissionRecord.id) before.snapshot role = .ok ()
  grantsValid : ∀ grant ∈ manifest.grants, grant.origin = .application ∧
    ∃ state : Repository, Written manifest.permissions before.permissions state.permissions ∧
      state.outcomes = before.outcomes ∧ validateManifestGrant dates now grant state.snapshot = .ok ()

section
variable {manifest : AuthorityManifest}

private theorem declared_permissions (ran : execute (forEach manifest.permissions (reconcilePermission manifest.revision
      before.repository.snapshot)) before = (.ok (), after)) :
    Written manifest.permissions before.repository.permissions after.repository.permissions ∧
      besidePermissions after.repository = besidePermissions before.repository ∧ ∀ permission ∈ manifest.permissions,
        validateManifestPermission manifest.revision before.repository.snapshot permission = .ok () := by
  refine ⟨?_, shows_of_loop (fun _ => shows_reconcilePermission) ran, ?_⟩
  · refine written_of_loop Repository.permissions ?_ (.refl _) ran
    intro permission here there iteration
    rcases (reconcilePermission_ok iteration).2 with written | ⟨same, stored⟩
    · exact Or.inl written
    · exact Or.inr ⟨by rw [same], stored⟩
  · intro permission member
    have start : Shows besidePermissions (besidePermissions before.repository) before := rfl
    obtain ⟨_, _, _, iteration⟩ := forEach_ok_each
      (fun _ _ here held => shows_reconcilePermission _ here held) start ran permission member
    exact (reconcilePermission_ok iteration).1

variable {desired : List String}

private theorem declared_roles {cur : AuthoritySnapshot} (same : cur.roles = before.repository.roles.rows)
    (ran : execute (forEach manifest.roles (reconcileRole desired cur)) before = (.ok (), after)) :
    Written manifest.roles before.repository.roles after.repository.roles ∧
      besideRoles after.repository = besideRoles before.repository ∧
      ∀ role ∈ manifest.roles, validateManifestRole desired cur role = .ok () := by
  refine ⟨?_, shows_of_loop (fun _ => shows_reconcileRole) ran, ?_⟩
  · refine written_of_loop Repository.roles ?_ (.refl _) ran
    intro role here there iteration
    rcases (reconcileRole_ok iteration).2 with written | ⟨unchanged, stored⟩
    · exact Or.inl written
    · exact Or.inr ⟨by rw [unchanged], same ▸ stored⟩
  · intro role member
    have start : Shows besideRoles (besideRoles before.repository) before := rfl
    obtain ⟨_, _, _, iteration⟩ := forEach_ok_each
      (fun _ _ here held => shows_reconcileRole _ here held) start ran role member
    exact (reconcileRole_ok iteration).1

private theorem declared_grants
    (ran : execute (forEach manifest.grants (reconcileGrant dates now)) before = (.ok (), after)) :
    Written manifest.grants before.repository.grants after.repository.grants ∧
      besideGrants after.repository = besideGrants before.repository ∧
      ∀ grant ∈ manifest.grants, grant.origin = .application ∧ ∃ state : Repository,
        besideGrants state = besideGrants before.repository ∧
          validateManifestGrant dates now grant state.snapshot = .ok () := by
  refine ⟨?_, shows_of_loop (fun _ => shows_reconcileGrant) ran, ?_⟩
  · exact written_of_loop Repository.grants (fun grant here there iteration =>
      Or.inl (reconcileGrant_ok iteration).2.2) (.refl _) ran
  intro grant member
  have start : Shows besideGrants (besideGrants before.repository) before := rfl
  obtain ⟨here, _, held, iteration⟩ := forEach_ok_each
    (fun _ _ here held => shows_reconcileGrant _ here held) start ran grant member
  obtain ⟨origin, valid, _⟩ := reconcileGrant_ok iteration
  exact ⟨origin, here.repository, held, valid⟩

private theorem retired_permissions {perms : List PermissionRecord}
    (ran : execute (forEach perms (retirePermission dates now desired)) before = (.ok (), after)) :
    after.repository.permissions = before.repository.permissions.putAll
        ((perms.filter (obsoletePermission desired)).map (PermissionRecord.retired (dates.toISOString now))) ∧
      besidePermissions after.repository = besidePermissions before.repository := by
  rw [retirePermission_loop] at ran
  constructor
  · refine putAll_of_loop Repository.permissions _ ?_ ran
    intro permission here there iteration
    cases iteration
    rfl
  · refine shows_of_loop (fun permission seen here held => ?_) ran
    exact held

private theorem retired_roles {roles : List RoleRecord}
    (ran : execute (forEach roles (retireRole dates now desired)) before = (.ok (), after)) :
    after.repository.roles = before.repository.roles.putAll
        ((roles.filter (obsoleteRole desired)).map (RoleRecord.retired (dates.toISOString now))) ∧
      besideRoles after.repository = besideRoles before.repository := by
  rw [retireRole_loop] at ran
  constructor
  · refine putAll_of_loop Repository.roles _ ?_ ran
    intro role here there iteration
    cases iteration
    rfl
  · refine shows_of_loop (fun role seen here held => ?_) ran
    exact held

private theorem retired_grants {grants : List GrantRecord}
    (ran : execute (forEach grants (retireGrant dates now desired)) before = (.ok (), after)) :
    after.repository.grants = before.repository.grants.putAll
        ((grants.filter (obsoleteGrant desired)).map (GrantRecord.revoked (dates.toISOString now))) ∧
      besideGrants after.repository = besideGrants before.repository := by
  rw [retireGrant_loop] at ran
  constructor
  · refine putAll_of_loop Repository.grants _ ?_ ran
    intro grant here there iteration
    rw [execute_storeGrant] at iteration
    cases iteration
    rfl
  · refine shows_of_loop (fun grant seen here held => ?_) ran
    rw [execute_storeGrant]
    exact held

theorem reconcileApplicationAuthority_ok
    (ran : execute (reconcileApplicationAuthority dates now manifest) before = (.ok res, after)) :
    ManifestApplied dates now manifest before.repository after.repository := by
  rw [reconcileApplicationAuthority, execute_snapshot_bind] at ran
  simp only [exec_forEach_bind_ok] at ran
  obtain ⟨_, putPermissions, _, putRoles, _, putGrants, _, dropPermissions, _,
    dropRoles, sixth, dropGrants, ended⟩ := ran
  have same : sixth = after := (Prod.mk.inj ended).2
  subst same
  obtain ⟨perms, besideFirst, permissionsValid⟩ := declared_permissions putPermissions
  simp only [besidePermissions, Prod.mk.injEq] at besideFirst
  obtain ⟨rolesFirst, grantsFirst, outcomesFirst⟩ := besideFirst
  obtain ⟨roles, besideSecond, rolesValid⟩ := declared_roles (by rw [rolesFirst]; rfl) putRoles
  simp only [besideRoles, Prod.mk.injEq] at besideSecond
  obtain ⟨permissionsSecond, grantsSecond, outcomesSecond⟩ := besideSecond
  obtain ⟨grants, besideThird, grantsValid⟩ := declared_grants putGrants
  simp only [besideGrants, Prod.mk.injEq] at besideThird grantsValid
  obtain ⟨permissionsThird, rolesThird, outcomesThird⟩ := besideThird
  obtain ⟨permissionsRetired, besideFourth⟩ := retired_permissions dropPermissions
  simp only [besidePermissions, Prod.mk.injEq] at besideFourth
  obtain ⟨rolesFourth, grantsFourth, outcomesFourth⟩ := besideFourth
  obtain ⟨rolesRetired, besideFifth⟩ := retired_roles dropRoles
  simp only [besideRoles, Prod.mk.injEq] at besideFifth
  obtain ⟨permissionsFifth, grantsFifth, outcomesFifth⟩ := besideFifth
  obtain ⟨grantsRetired, besideSixth⟩ := retired_grants dropGrants
  simp only [besideGrants, Prod.mk.injEq] at besideSixth
  obtain ⟨permissionsSixth, rolesSixth, outcomesSixth⟩ := besideSixth
  rw [rolesFirst] at roles
  rw [grantsSecond, grantsFirst] at grants
  exact {
    permissions := by
      rw [permissionsSixth, permissionsFifth, permissionsRetired, permissionsThird, permissionsSecond]
      exact perms.superseded (fun _ => rfl) (fun permission obsolete => (of_decide_eq_true obsolete).2.2)
    roles := by
      rw [rolesSixth, rolesRetired, rolesFourth, rolesThird]
      exact roles.superseded (fun _ => rfl) (fun role obsolete => (of_decide_eq_true obsolete).2.2)
    grants := by
      rw [grantsRetired, grantsFifth, grantsFourth]
      exact grants.superseded (fun _ => rfl) (fun grant obsolete => (of_decide_eq_true obsolete).2.2)
    outcomes := by
      rw [outcomesSixth, outcomesFifth, outcomesFourth, outcomesThird, outcomesSecond, outcomesFirst]
    permissionsValid
    rolesValid
    grantsValid := by
      intro grant member
      obtain ⟨origin, state, ⟨statePermissions, _, stateOutcomes⟩, valid⟩ := grantsValid grant member
      refine ⟨origin, state, ?_, ?_, valid⟩
      · rwa [statePermissions, permissionsSecond]
      · rw [stateOutcomes, outcomesSecond, outcomesFirst] }

end

section
variable {permission : PermissionRecord}

private theorem reconcileDesiredPermission_ok
    (ran : execute (reconcileDesiredPermission rev cur permission) here = (.ok (), there)) :
    assertNotRuntimePermission permission cur = .ok () ∧
      there.repository.permissions = here.repository.permissions.put permission := by
  unfold execute reconcileDesiredPermission at ran
  simp only [exec_check_bind_ok] at ran
  obtain ⟨_, _, _, _, _, _, _, unshadowed, _, _, ran⟩ := ran
  cases ran
  exact ⟨unshadowed, rfl⟩

private theorem shows_reconcileDesiredPermission {rev : String} {cur : AuthoritySnapshot} (seen) (here : World)
    (held : Shows besidePermissions seen here) :
    Shows besidePermissions seen (execute (reconcileDesiredPermission rev cur permission) here).2 :=
  check_bind_keeps held fun _ _ => check_bind_keeps held fun _ _ => check_bind_keeps held fun _ _ =>
    check_bind_keeps held fun _ _ => check_bind_keeps held fun _ _ => held

theorem reconcileApplicationPermissions_ok {desired : List PermissionRecord}
    (ran : execute (reconcileApplicationPermissions dates now rev desired) before = (.ok res, after)) :
    Superseded desired (obsoletePermission (desired.map PermissionRecord.id))
        (PermissionRecord.retired (dates.toISOString now)) before.repository.permissions
        after.repository.permissions ∧ after.repository.roles = before.repository.roles ∧
      ∀ permission ∈ desired, assertNotRuntimePermission permission before.repository.snapshot = .ok () := by
  rw [reconcileApplicationPermissions, execute_snapshot_bind] at ran
  simp only [exec_forEach_bind_ok] at ran
  obtain ⟨middle, puts, reached, drops, ended⟩ := ran
  have same : reached = after := (Prod.mk.inj ended).2
  subst same
  have written : Written desired before.repository.permissions middle.repository.permissions :=
    written_of_loop Repository.permissions (fun permission here there iteration =>
      Or.inl (reconcileDesiredPermission_ok iteration).2) (.refl _) puts
  have start : Shows besidePermissions (besidePermissions before.repository) before := rfl
  have besideFirst : besidePermissions middle.repository = besidePermissions before.repository :=
    shows_of_loop (fun _ => shows_reconcileDesiredPermission) puts
  obtain ⟨retired, besideSecond⟩ := retired_permissions drops
  simp only [besidePermissions, Prod.mk.injEq] at besideFirst besideSecond
  refine ⟨?_, besideSecond.1.trans besideFirst.1, fun permission member => ?_⟩
  · rw [retired]
    exact written.superseded (fun _ => rfl) (fun permission obsolete => (of_decide_eq_true obsolete).2.2)
  obtain ⟨_, _, _, iteration⟩ := forEach_ok_each
    (fun _ _ here held => shows_reconcileDesiredPermission _ here held) start puts permission member
  exact (reconcileDesiredPermission_ok iteration).1

end

/-! ### The static manifest -/

private def besideOutcomes (repository : Repository) :=
  (repository.permissions, repository.roles, repository.grants)

def OutcomeDefinition.Valid (outcome : OutcomeDefinition) : Prop :=
  validateApplicationScope outcome.predicate s!"outcomes.{outcome.id}.predicate" = []

/-- What registering an outcome leaves: the outcome itself, beside those there were. -/
private structure OutcomeRegistered (outcome : OutcomeDefinition) (before after : World) : Prop where
  valid : outcome.Valid
  stored : outcome ∈ after.repository.outcomes.rows
  kept : ∀ other ∈ before.repository.outcomes.rows, other ∈ after.repository.outcomes.rows
  beside : besideOutcomes after.repository = besideOutcomes before.repository

private theorem registerManifestOutcome_ok {out : OutcomeDefinition}
    (ran : execute (registerManifestOutcome out) here = (.ok (), there)) : OutcomeRegistered out here there := by
  unfold execute registerManifestOutcome at ran
  rw [exec_bind_ok] at ran
  obtain ⟨_, _, ran, ended⟩ := ran
  cases ended
  change execute (Calls.snapshot >>= _) here = _ at ran
  rw [execute_snapshot_bind] at ran
  simp only [exec_check_bind_ok, refuseIf_ok, validateScopeOrThrow_ok] at ran
  obtain ⟨_, agrees, _, valid, ran⟩ := ran
  cases lookup : here.repository.snapshot.outcomes.find? fun cand => cand.id = out.id with
  | some existing =>
    rw [lookup] at agrees ran
    have same : existing = out := by simpa using agrees
    subst same
    cases ran
    exact ⟨valid, mem_of_find?_eq_some lookup, fun _ stored => stored, rfl⟩
  | none =>
    rw [lookup] at ran
    cases ran
    refine ⟨valid, Table.mem_put.mpr (Or.inl rfl), fun other stored => ?_, rfl⟩
    have apart : other.id ≠ out.id := by simpa using find?_eq_none.mp lookup other stored
    exact Table.mem_put.mpr (Or.inr ⟨stored, apart⟩)

/-- What a static manifest that was reconciled left, and the checks it passed. -/
structure StaticManifestApplied (dates : Dates) (now : Int) (manifest : StaticAuthorityManifest)
    (catalogRevision : String) (before after : Repository) : Prop where
  identities : assertDistinctIdentities manifest = .ok ()
  declared : ∀ definition ∈ manifest.grants, assertDeclaredIdentities manifest definition = .ok ()
  outcomesValid : ∀ outcome ∈ manifest.outcomes, outcome.Valid
  outcomes : ∀ outcome ∈ manifest.outcomes, outcome ∈ after.outcomes.rows
  records : ∃ registered : Repository, registered.permissions = before.permissions ∧
    registered.roles = before.roles ∧ registered.grants = before.grants ∧
    ManifestApplied dates now (manifest.records catalogRevision (dates.toISOString now) before.snapshot)
      registered after

section
variable {manifest : StaticAuthorityManifest} (time : String) (cur : AuthoritySnapshot)

@[simp] theorem records_permissionIds :
    (manifest.records catRev time cur).permissions.map PermissionRecord.id =
      manifest.permissions.map StaticPermissionDefinition.id :=
  map_map

@[simp] theorem records_roleIds :
    (manifest.records catRev time cur).roles.map RoleRecord.id = manifest.roles.map StaticRoleDefinition.id :=
  map_map

@[simp] theorem records_grantIds :
    (manifest.records catRev time cur).grants.map GrantRecord.id = manifest.grants.map StaticGrantDefinition.id :=
  map_map

private theorem declaredIdentities_ok (ran : execute (forEach manifest.grants fun defn =>
      check (assertDeclaredIdentities manifest defn)) before = (.ok (), after)) :
    after = before ∧ ∀ defn ∈ manifest.grants, assertDeclaredIdentities manifest defn = .ok () := by
  obtain ⟨same, passed⟩ := forEach_stationary_ok (fun defn _ => by rw [exec_check]) ran
  refine ⟨same, fun defn member => ?_⟩
  have each := passed defn member
  rw [exec_check] at each
  exact (Prod.mk.inj each).1

theorem reconcileStaticAuthorityManifest_ok
    (ran : execute (reconcileStaticAuthorityManifest dates now manifest catRev) before = (.ok res, after)) :
    StaticManifestApplied dates now manifest catRev before.repository after.repository := by
  rw [reconcileStaticAuthorityManifest, execute_snapshot_bind] at ran
  rw [exec_check_bind_ok] at ran
  obtain ⟨_, identities, ran⟩ := ran
  simp only [exec_forEach_bind_ok] at ran
  obtain ⟨checked, ranIdentities, registered, ranOutcomes, ran⟩ := ran
  obtain ⟨rfl, declared⟩ := declaredIdentities_ok ranIdentities
  have beside : besideOutcomes registered.repository = besideOutcomes checked.repository :=
    forEach_ok_keeps (Shows besideOutcomes (besideOutcomes checked.repository))
      (fun _ _ _ _ iteration held => (registerManifestOutcome_ok iteration).beside.trans held) rfl ranOutcomes
  have outcomes : ∀ out ∈ manifest.outcomes, out.Valid ∧ out ∈ registered.repository.outcomes.rows :=
    forEach_ok_all (fun (out : OutcomeDefinition) (world : World) =>
        out.Valid ∧ out ∈ world.repository.outcomes.rows)
      (fun out _ _ iteration =>
        ⟨(registerManifestOutcome_ok iteration).valid, (registerManifestOutcome_ok iteration).stored⟩)
      (fun other _ _ _ iteration held =>
        ⟨held.1, (registerManifestOutcome_ok iteration).kept other held.2⟩) ranOutcomes
  have applied := reconcileApplicationAuthority_ok ran
  simp only [besideOutcomes, Prod.mk.injEq] at beside
  obtain ⟨perms, roles, grants⟩ := beside
  exact {
    identities
    declared
    outcomesValid := fun out member => (outcomes out member).1
    outcomes := by
      rw [applied.outcomes]
      exact fun out member => (outcomes out member).2
    records := ⟨registered.repository, perms, roles, grants, applied⟩ }

end
end Applik8s.Authority
