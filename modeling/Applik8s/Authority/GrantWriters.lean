import Applik8s.Authority.Footprints
import Applik8s.Authority.MigrationProofs

/-! Which grants an operation can store. `MayStore` says it for every operation, and
`advance_stored` that serving a submission does nothing else to the grants: what holds
of the grants over a run is argued from `MayStore` alone. Beside the grants the module
follows their catalog references, which always are to a revision a stored grant pins. -/
namespace Applik8s.Authority
open List
open Lib (Table)
open Lib.Program (MakesOnly check collect forEach bind_keeps check_bind_keeps forEach_keeps collect_keeps
  exec_relates makesOnly_bind makesOnly_check makesOnly_forEach makesOnly_imp)

variable {dates : Dates} {now : Int} {world before : World} {start middle after : Repository}

/-- Every catalog reference of a grant is to the revision that the stored grant pins. -/
def ReferencesPinned (repository : Repository) : Prop :=
  ∀ reference ∈ repository.catalogReferences.rows, reference.kind = .grant → ∃ grant ∈ repository.grants.rows,
      grant.id = reference.referenceId ∧ grant.catalogRevision = reference.revision

/-- What `start` becomes by writes that concern no grant and by storing, one after the
other, grants that `may` be stored over the grants found there. -/
inductive Stored (may : Table GrantRecord → GrantRecord → Prop) (start : Repository) : Repository → Prop where
  | start : Stored may start start
  | spared {middle after : Repository} (earlier : Stored may start middle)
      (same : after.grants = middle.grants) (pinned : ReferencesPinned middle → ReferencesPinned after) :
      Stored may start after
  | stored {middle after : Repository} {grant : GrantRecord} (earlier : Stored may start middle)
      (allowed : may middle.grants grant) (put : after.grants = middle.grants.put grant)
      (pinned : ReferencesPinned middle → ReferencesPinned after) : Stored may start after

section
variable {may : Table GrantRecord → GrantRecord → Prop}

theorem Stored.keeps (writes : Stored may start after) (kept : Table GrantRecord → Prop)
    (each : ∀ grants grant, may grants grant → kept grants → kept (grants.put grant))
    (holds : kept start.grants) : kept after.grants := by
  induction writes with
  | start => exact holds
  | spared _ same _ ih =>
    rw [same]
    exact ih
  | stored _ allowed put _ ih =>
    rw [put]
    exact each _ _ allowed ih

theorem Stored.pinned (writes : Stored may start after) (holds : ReferencesPinned start) :
    ReferencesPinned after := by
  induction writes with
  | start => exact holds
  | spared _ _ pinned ih => exact pinned ih
  | stored _ _ _ pinned ih => exact pinned ih

theorem pinned_of_subset (same : after.grants = middle.grants)
    (fewer : ∀ ref ∈ after.catalogReferences.rows, ref.kind = .grant →
      ref ∈ middle.catalogReferences.rows) (holds : ReferencesPinned middle) : ReferencesPinned after := by
  intro ref member granted
  rw [same]
  exact holds ref (fewer ref member granted) granted

private theorem answer_spares (spares : req.area ≠ .grants) (world : World) :
    (answer req world).2.repository.grants = world.repository.grants ∧
      (ReferencesPinned world.repository → ReferencesPinned (answer req world).2.repository) := by
  cases req with
  | putGrant record => exact absurd rfl spares
  | putCatalogReference =>
    refine ⟨rfl, pinned_of_subset rfl fun ref member granted => ?_⟩
    rcases Table.mem_put.mp member with rfl | ⟨kept, _⟩
    · exact absurd (if_pos granted) spares
    · exact kept
  | removeCatalogReference =>
    exact ⟨rfl, pinned_of_subset rfl fun ref member _ => (Table.mem_remove.mp member).1⟩
  | _ => exact ⟨rfl, id⟩

/-- A world whose repository came from `start` by permitted writes. -/
def Permitted (may : Table GrantRecord → GrantRecord → Prop) (start : Repository) (world : World) : Prop :=
  Stored may start world.repository

theorem permitted_of_within {areas : List Area} {α : Type} {prog : AuthorityProgram α}
    (spares : Area.grants ∉ areas) (only : prog.MakesOnly (Within areas)) (holds : Permitted may start world) : Permitted may start (execute prog world).2 :=
  exec_relates (fun first second => Permitted may start first → Permitted may start second) (fun _ => id)
    (fun earlier later held => later (earlier held))
    (fun _ within state held => .spared held (answer_spares (within.ne spares nofun) state).1
      (answer_spares (within.ne spares nofun) state).2)
    only world holds

theorem grants_of_within {areas : List Area} {α : Type} {prog : AuthorityProgram α} {res : Except AuthorityError α}
    {after : World} (spares : Area.grants ∉ areas) (only : prog.MakesOnly (Within areas))
    (ran : execute prog world = (res, after)) : after.repository.grants = world.repository.grants := by
  have same : (execute prog world).2.repository.grants = world.repository.grants := by
    refine exec_relates (fun first second => second.repository.grants = first.repository.grants)
      (fun _ => rfl) ?_ ?_ only world
    · intro first second third earlier later
      exact later.trans earlier
    · intro req within state
      exact (answer_spares (within.ne spares nofun) state).1
  rwa [ran] at same

private theorem storeGrant_pinned (record : GrantRecord) (holds : ReferencesPinned middle) :
    ReferencesPinned (middle.storeGrant dates now record) := by
  have moved : ∀ ref ∈ (movedReferences (middle.grants.rows.find? fun cand => cand.id = record.id)
      record middle.catalogReferences).rows, ref.kind = .grant →
      ∃ grant ∈ (middle.grants.put record).rows,
        grant.id = ref.referenceId ∧ grant.catalogRevision = ref.revision := by
    intro ref member granted
    unfold movedReferences at member
    split at member
    · rename_i prev lookup
      have stored := mem_of_find?_eq_some lookup
      have named : prev.id = record.id := by simpa using find?_some lookup
      split at member
      · obtain ⟨held, apart⟩ := Table.mem_remove.mp member
        obtain ⟨grant, present, same, rev⟩ := holds ref held granted
        refine ⟨grant, Table.mem_put.mpr (Or.inr ⟨present, ?_⟩), same, rev⟩
        intro clash
        -- the grant that moves is the one whose reference was just removed
        have whole : grant = prev := Table.eq_of_key_eq present stored (clash.trans named.symm)
        refine apart ?_
        subst whole
        exact Prod.ext rev.symm (Prod.ext granted same.symm)
      · rename_i unmoved
        obtain ⟨grant, present, same, rev⟩ := holds ref member granted
        by_cases clash : grant.id = record.id
        · have whole : grant = prev := Table.eq_of_key_eq present stored (clash.trans named.symm)
          subst whole
          exact ⟨record, Table.mem_put.mpr (Or.inl rfl), named.symm.trans same, (not_not.mp unmoved).symm.trans rev⟩
        · exact ⟨grant, Table.mem_put.mpr (Or.inr ⟨present, clash⟩), same, rev⟩
    · rename_i lookup
      obtain ⟨grant, present, same, rev⟩ := holds ref member granted
      have fresh : grant.id ≠ record.id := by simpa using find?_eq_none.mp lookup grant present
      exact ⟨grant, Table.mem_put.mpr (Or.inr ⟨present, fresh⟩), same, rev⟩
  intro ref member granted
  change ref ∈ (settledReferences dates now record _).rows at member
  unfold settledReferences at member
  split at member
  · exact moved ref (Table.mem_remove.mp member).1 granted
  rcases Table.mem_put.mp member with rfl | ⟨held, _⟩
  · exact ⟨record, Table.mem_put.mpr (Or.inl rfl), rfl, rfl⟩
  · exact moved ref held granted

theorem permitted_putGrant (allowed : may world.repository.grants record) (holds : Permitted may start world)
    : Permitted may start (execute (putGrant dates now record) world).2 := by
  rw [execute_storeGrant]
  exact .stored holds allowed rfl (storeGrant_pinned record)

theorem permitted_audit (holds : Permitted may start world) :
    Permitted may start (execute (audit dates now kind authRev fields) world).2 :=
  permitted_of_within not_mem_nil audit_within holds

end

/-! ### The grants an operation may store -/

def RolePermission (repository : Repository) (roleId : String) (permission : PermissionRecord) : Prop :=
  ∃ role ∈ repository.roles.rows, role.id = roleId ∧ truthy role.retiredAt = false ∧
    permission.id ∈ role.permissionIds ∧ permission ∈ repository.permissions.rows ∧ truthy permission.retiredAt = false

def StaticRoleBootstrapDefinition.grant (bootstrap : StaticRoleBootstrapDefinition)
    (permission : PermissionRecord) (authorityRevision createdAt : String) : GrantRecord :=
  roleGrant permission s!"{bootstrap.id}:{permission.id}" bootstrap.identity bootstrap.issuedBy
    (applicationRoleBootstrapOwner bootstrap.roleId) bootstrap.reason none authorityRevision createdAt

/-- The grant a break-glass request makes of one permission. -/
def BreakGlassRoleRequest.grant (request : BreakGlassRoleRequest) (permission : PermissionRecord)
    (expiresAt authorityRevision createdAt : String) : GrantRecord :=
  roleGrant permission s!"{breakGlassOwner request}:{permission.id}" request.identity request.issuedBy
    (breakGlassOwner request) request.reason (some expiresAt) authorityRevision createdAt

/-- The validated grant of a decision on a pending request. -/
def Decides (dates : Dates) (now : Int) (before : Repository) (requestId : String) (decision : GrantDecision)
    (grant : GrantRecord) : Prop :=
  decision.grant = some grant ∧ ∃ request ∈ before.requests.rows, request.id = requestId ∧ request.state = .pending ∧
      validateDecidedGrant request grant before.snapshot = .ok () ∧
      validateGrant dates now grant before.snapshot true = .ok ()

def Bootstraps (dates : Dates) (now : Int) (before : Repository) (bootstrap : StaticRoleBootstrapDefinition)
    (grant : GrantRecord) : Prop :=
  (∀ stored ∈ before.grants.rows, stored.lifecycleOwner ≠ some (applicationRoleBootstrapOwner bootstrap.roleId)) ∧
    ∃ permission, RolePermission before bootstrap.roleId permission ∧
      grant = bootstrap.grant permission before.snapshot.revision (dates.toISOString now)

/-- A grant of a break-glass request that was not served before. -/
def BreaksGlass (dates : Dates) (now : Int) (before : Repository) (request : BreakGlassRoleRequest)
    (grant : GrantRecord) : Prop :=
  (∀ stored ∈ before.grants.rows, stored.lifecycleOwner ≠ some (breakGlassOwner request)) ∧
    ∃ permission expiresAt, RolePermission before request.roleId permission ∧
      grant = request.grant permission expiresAt before.snapshot.revision (dates.toISOString now)

def Revokes (dates : Dates) (now : Int) (grants : Table GrantRecord) (grant : GrantRecord) : Prop :=
  ∃ stored ∈ grants.rows, truthy stored.revokedAt = false ∧
    ∃ reason, grant = { stored with revokedAt := some (dates.toISOString now), reason := reason }

/-- A declared application grant that shadows no runtime grant, or the revocation of an
application grant that is no longer declared. -/
def Reconciles (dates : Dates) (now : Int) (before : Repository) (declared : List GrantRecord)
    (grants : Table GrantRecord) (grant : GrantRecord) : Prop :=
  (grant ∈ declared ∧ grant.origin = .application ∧
      ∀ stored ∈ grants.rows, stored.id = grant.id → stored.origin = .application) ∨
    ∃ stored ∈ before.grants.rows, stored.origin = .application ∧
      stored.id ∉ declared.map GrantRecord.id ∧ truthy stored.revokedAt = false ∧
      grant = { stored with revokedAt := some (dates.toISOString now) }

/-- A live grant of the older catalog, pinned to the newer one. -/
def Migrates (dates : Dates) (now : Int) (older newer : OperationCatalog) (nextAuthorityRevision : String)
    (grants : Table GrantRecord) (grant : GrantRecord) : Prop :=
  ∃ stored ∈ grants.rows, isLive dates now stored = true ∧ stored.catalogRevision = older.revision ∧
    ∃ operationIds, grant = { stored with
      operationIds := operationIds
      catalogRevision := newer.revision
      authorityRevision := nextAuthorityRevision }

/-- The grants a submission may store over the grants found when it does. -/
def MayStore (dates : Dates) (before : Repository) (submission : Submission) (grants : Table GrantRecord)
    (grant : GrantRecord) : Prop :=
  match submission.operation with
  | .assignGrant record => grant = record ∧ ∀ stored ∈ before.grants.rows, stored.id ≠ record.id
  | .decideGrantRequest requestId decision => Decides dates submission.now before requestId decision grant
  | .bootstrapDeclaredRole bootstrap _ => Bootstraps dates submission.now before bootstrap grant
  | .bootstrapRole request => Bootstraps dates submission.now before request.definition grant
  | .assignBreakGlassRole request => BreaksGlass dates submission.now before request grant
  | .revokeGrant .. => Revokes dates submission.now grants grant
  | .revokeRoleForIdentity .. => Revokes dates submission.now grants grant
  | .reconcileApplicationAuthority manifest => Reconciles dates submission.now before manifest.grants grants grant
  | .reconcileStaticAuthorityManifest manifest catalogRevision =>
    Reconciles dates submission.now before
      (manifest.records catalogRevision (dates.toISOString submission.now) before.snapshot).grants grants grant
  | .migrateCatalogAuthority older newer nextAuthorityRevision =>
    Migrates dates submission.now older newer nextAuthorityRevision grants grant
  | .migrateGrantCatalog _ older newer nextAuthorityRevision =>
    Migrates dates submission.now older newer nextAuthorityRevision grants grant
  | _ => False

/-! ### Operation by operation -/

private theorem permitted_assignGrant (dates : Dates) (now : Int) (record : GrantRecord) (before : World) :
    Permitted (fun _ grant => grant = record ∧
        ∀ stored ∈ before.repository.grants.rows, stored.id ≠ record.id) before.repository
      (execute (assignGrant dates now record) before).2 := by
  rw [assignGrant, execute_snapshot_bind]
  split
  · exact check_bind_keeps .start fun _ _ => .start
  rename_i lookup
  have fresh : ∀ stored ∈ before.repository.grants.rows, stored.id ≠ record.id := by
    simpa using find?_eq_none.mp lookup
  refine check_bind_keeps .start fun _ _ => bind_keeps (permitted_putGrant ⟨rfl, fresh⟩ .start) ?_
  intro _ middle _ written
  exact bind_keeps (permitted_audit written) fun _ _ _ ended => ended

private theorem permitted_decideGrantRequest (dates : Dates) (now : Int) (requestId : String)
    (decision : GrantDecision) (before : World) :
    Permitted (fun _ grant => Decides dates now before.repository requestId decision grant) before.repository
      (execute (decideGrantRequest dates now requestId decision) before).2 := by
  rw [decideGrantRequest, execute_snapshot_bind]
  refine check_bind_keeps .start fun req lookup => ?_
  rw [found_ok] at lookup
  have listed : req ∈ before.repository.requests.rows := mem_of_find?_eq_some lookup
  have named : req.id = requestId := by simpa using find?_some lookup
  split
  · exact check_bind_keeps .start fun _ _ => .start
  rename_i pending
  refine check_bind_keeps .start fun _ _ => check_bind_keeps .start fun _ _ =>
    check_bind_keeps .start fun _ _ => check_bind_keeps .start fun _ _ => bind_keeps ?_ ?_
  · cases decided : decision.grant with
    | none => exact .start
    | some grant =>
      refine check_bind_keeps .start fun _ conforms => check_bind_keeps .start fun _ valid => ?_
      exact permitted_putGrant ⟨decided, req, listed, named, not_not.mp pending, conforms, valid⟩ .start
  intro _ middle _ written
  have untouched : Area.grants ∉ [Area.requests] := by decide
  refine permitted_of_within untouched ?_ written
  exact makesOnly_bind (makesOnly_call (Or.inl rfl)) fun _ =>
    makesOnly_bind (makesOnly_call (Or.inr mem_cons_self)) fun _ =>
      makesOnly_bind audit_within fun _ => trivial

private theorem permitted_revokeGrant (allowed : ∀ grants grant, Revokes dates now grants grant → may grants grant)
    (holds : Permitted may start world) :
    Permitted may start (execute (revokeGrant dates now grantId reason) world).2 := by
  rw [revokeGrant, execute_snapshot_bind]
  refine check_bind_keeps holds fun grant lookup => ?_
  rw [found_ok] at lookup
  split
  · exact holds
  rename_i live
  have revokes : Revokes dates now world.repository.grants { grant with
      revokedAt := some (dates.toISOString now), reason := grant.reason <|> some reason } :=
    ⟨grant, mem_of_find?_eq_some lookup, by simpa using live, _, rfl⟩
  refine bind_keeps (permitted_putGrant (allowed _ _ revokes) holds) fun _ _ _ written => ?_
  exact bind_keeps (permitted_audit written) fun _ _ _ ended => ended

private theorem permitted_revokeRoleForIdentity (dates : Dates) (now : Int) (roleId reason : String)
    (identity : IdentityReference) (before : World) : Permitted (Revokes dates now) before.repository
      (execute (revokeRoleForIdentity dates now roleId identity reason) before).2 := by
  rw [revokeRoleForIdentity, execute_snapshot_bind]
  refine check_bind_keeps .start fun role _ => ?_
  exact collect_keeps (fun _ _ _ held => permitted_revokeGrant (fun _ _ => id) held) .start

private theorem rolePermission_of_lookups
    (roleFound : repo.snapshot.roles.find? (fun cand => cand.id = roleId ∧ ¬ truthy cand.retiredAt) = some role)
    (listed : permissionId ∈ role.permissionIds)
    (permissionFound : livePermission permissionId repo.snapshot = some perm) : RolePermission repo roleId perm := by
  obtain ⟨named, unretired⟩ : role.id = roleId ∧ truthy role.retiredAt = false := by
    simpa using find?_some roleFound
  obtain ⟨same, live⟩ : perm.id = permissionId ∧ truthy perm.retiredAt = false := by
    simpa using find?_some permissionFound
  exact ⟨role, mem_of_find?_eq_some roleFound, named, unretired, same ▸ listed,
    mem_of_find?_eq_some permissionFound, live⟩

private theorem permitted_bootstrapDeclaredRole (dates : Dates) (now : Int)
    (bootstrap : StaticRoleBootstrapDefinition) (admittedIdentity : IdentityReference) (before : World) :
    Permitted (fun _ grant => Bootstraps dates now before.repository bootstrap grant) before.repository
      (execute (bootstrapDeclaredRole dates now bootstrap admittedIdentity) before).2 := by
  unfold bootstrapDeclaredRole
  split
  · exact .start
  rename_i same
  have admitted : bootstrap.identity = admittedIdentity := by simpa using same
  subst admitted
  rw [execute_snapshot_bind]
  refine check_bind_keeps .start fun role roleFound => check_bind_keeps .start fun _ _ => ?_
  rw [found_ok] at roleFound
  dsimp only
  split
  · split <;> exact .start
  rename_i closed
  have unused : ∀ stored ∈ before.repository.grants.rows,
      stored.lifecycleOwner ≠ some (applicationRoleBootstrapOwner bootstrap.roleId) := by
    simpa using closed
  refine collect_keeps (fun permissionId listed middle held => ?_) .start
  refine check_bind_keeps held fun perm permissionFound => check_bind_keeps held fun _ _ => ?_
  rw [found_ok] at permissionFound
  have bootstraps : Bootstraps dates now before.repository bootstrap (bootstrap.grant perm
      before.repository.snapshot.revision (dates.toISOString now)) :=
    ⟨unused, perm, rolePermission_of_lookups roleFound listed permissionFound, rfl⟩
  refine bind_keeps (permitted_putGrant bootstraps held) fun _ _ _ written => ?_
  exact bind_keeps (permitted_audit written) fun _ _ _ ended => ended

private theorem permitted_assignBreakGlassRole (dates : Dates) (now : Int) (req : BreakGlassRoleRequest)
    (before : World) : Permitted (fun _ grant => BreaksGlass dates now before.repository req grant) before.repository
      (execute (assignBreakGlassRole dates now req) before).2 := by
  rw [assignBreakGlassRole, execute_snapshot_bind]
  refine check_bind_keeps .start fun expiresAt _ => check_bind_keeps .start fun role roleFound =>
    check_bind_keeps .start fun _ _ => ?_
  rw [found_ok] at roleFound
  dsimp only
  split
  · exact check_bind_keeps .start fun _ _ => .start
  rename_i closed
  have unused : ∀ stored ∈ before.repository.grants.rows,
      stored.lifecycleOwner ≠ some (breakGlassOwner req) := by
    simpa using closed
  refine bind_keeps (collect_keeps (fun permissionId listed middle held => ?_) .start)
    fun _ _ _ written => bind_keeps (permitted_audit written) fun _ _ _ ended => ended
  refine check_bind_keeps held fun perm permissionFound => check_bind_keeps held fun _ _ => ?_
  rw [found_ok] at permissionFound
  have breaks : BreaksGlass dates now before.repository req (req.grant perm expiresAt
      before.repository.snapshot.revision (dates.toISOString now)) :=
    ⟨unused, perm, expiresAt, rolePermission_of_lookups roleFound listed permissionFound, rfl⟩
  exact bind_keeps (permitted_putGrant breaks held) fun _ _ _ ended => ended

private theorem permitted_reconcileGrant
    (allowed : ∀ grants : Table GrantRecord, grant.origin = .application → (∀ stored ∈ grants.rows, stored.id = grant.id → stored.origin = .application) → may grants grant)
    (holds : Permitted may start world) : Permitted may start (execute (reconcileGrant dates now grant) world).2 := by
  refine check_bind_keeps holds fun _ origin => ?_
  have declared : grant.origin = .application := by simpa [assertAuthorityRecordOrigin] using origin
  change Permitted may start (execute (Calls.snapshot >>= _) world).2
  rw [execute_snapshot_bind]
  refine check_bind_keeps holds fun _ valid => ?_
  split
  · refine permitted_putGrant (allowed _ declared fun stored member same => ?_) holds
    simp only [validateManifestGrant, checks_ok, refuseIf_ok] at valid
    obtain ⟨_, shadows, _⟩ := valid
    have clear : stored.origin ≠ .runtime := fun runtime => shadows
      (any_eq_true.mpr ⟨stored, member, by simp [same, runtime]⟩)
    cases kind : stored.origin with
    | application => rfl
    | runtime => exact absurd kind clear
  · exact holds

private theorem permitted_reconcileApplicationAuthority
    (allowed : ∀ grants grant, Reconciles dates now world.repository manifest.grants grants grant → may grants grant)
    (holds : Permitted may start world) :
    Permitted may start (execute (reconcileApplicationAuthority dates now manifest) world).2 := by
  have defines : Area.definitions ∈ [Area.definitions] := mem_cons_self
  have untouched : Area.grants ∉ [Area.definitions] := by decide
  rw [reconcileApplicationAuthority, execute_snapshot_bind]
  refine bind_keeps (permitted_of_within untouched (makesOnly_forEach fun _ => reconcilePermission_within defines) holds)
    fun _ _ _ written => ?_
  refine bind_keeps (permitted_of_within untouched (makesOnly_forEach fun _ => reconcileRole_within defines) written)
    fun _ _ _ written => ?_
  refine bind_keeps (forEach_keeps (fun grant declared _ held => ?_) written) fun _ _ _ written => ?_
  · exact permitted_reconcileGrant
      (fun grants origin shadows => allowed grants grant (Or.inl ⟨declared, origin, shadows⟩)) held
  refine bind_keeps (permitted_of_within untouched (makesOnly_forEach fun _ => retirePermission_within defines) written)
    fun _ _ _ written => ?_
  refine bind_keeps (permitted_of_within untouched (makesOnly_forEach fun _ => retireRole_within defines) written)
    fun _ _ _ written => ?_
  refine bind_keeps (forEach_keeps (fun grant stored _ held => ?_) written) fun _ _ _ written =>
    permitted_of_within untouched snapshot_within written
  unfold retireGrant
  split
  · rename_i undeclared
    obtain ⟨origin, live, absent⟩ := undeclared
    exact permitted_putGrant (allowed _ _ (Or.inr ⟨grant, stored, origin, absent, by simpa using live, rfl⟩)) held
  · exact held

private theorem permitted_reconcileStaticAuthorityManifest (dates : Dates) (now : Int)
    (manifest : StaticAuthorityManifest) (catRev : String) (before : World) :
    Permitted (Reconciles dates now before.repository (manifest.records catRev
        (dates.toISOString now) before.repository.snapshot).grants) before.repository
      (execute (reconcileStaticAuthorityManifest dates now manifest catRev) before).2 := by
  rw [reconcileStaticAuthorityManifest, execute_snapshot_bind]
  refine check_bind_keeps .start fun _ _ => ?_
  refine bind_keeps (permitted_of_within not_mem_nil (makesOnly_forEach fun _ => makesOnly_check _) .start)
    fun _ checked ranChecks written => ?_
  refine bind_keeps (permitted_of_within not_mem_nil (makesOnly_forEach fun _ => registerManifestOutcome_within) written)
    fun _ registered ranOutcomes written => ?_
  -- nothing has touched the grants yet, so the obsolete ones are those of the start
  have same : registered.repository.grants = before.repository.grants := by
    have checks := grants_of_within not_mem_nil (makesOnly_forEach fun _ => makesOnly_check _) ranChecks
    have outcomes := grants_of_within not_mem_nil
      (makesOnly_forEach fun _ => registerManifestOutcome_within) ranOutcomes
    exact outcomes.trans checks
  refine permitted_reconcileApplicationAuthority (fun grants grant reconciles => ?_) written
  unfold Reconciles at reconciles ⊢
  rwa [same] at reconciles

private theorem repinned_pinned (stored : grant ∈ middle.grants.rows) (same : migrated.id = grant.id)
    (pins : grant.catalogRevision = fromRevision) (holds : ReferencesPinned middle) : ReferencesPinned { middle with
      grants := middle.grants.put migrated
      catalogReferences := repinned fromRevision migrated.catalogRevision middle.catalogReferences migrated } := by
  intro ref member granted
  rcases Table.mem_put.mp member with rfl | ⟨kept, _⟩
  · exact ⟨migrated, Table.mem_put.mpr (Or.inl rfl), rfl, rfl⟩
  obtain ⟨held, apart⟩ := Table.mem_remove.mp kept
  obtain ⟨owner, present, named, rev⟩ := holds ref held granted
  refine ⟨owner, Table.mem_put.mpr (Or.inr ⟨present, ?_⟩), named, rev⟩
  intro clash
  have whole : owner = grant := Table.eq_of_key_eq present stored (clash.trans same)
  subst whole
  exact apart (Prod.ext (rev.symm.trans pins) (Prod.ext granted (named.symm.trans same.symm)))

private theorem stored_repinned {older newer : OperationCatalog} {nextRev : String}
    {originals records : List GrantRecord}
    (migrated : List.Forall₂ (fun grant record => ∃ opIds, record = { grant with
      operationIds := opIds
      catalogRevision := newer.revision
      authorityRevision := nextRev }) originals records)
    (distinct : (originals.map GrantRecord.id).Nodup)
    (present : ∀ grant ∈ originals, grant ∈ middle.grants.rows ∧ isLive dates now grant = true ∧
      grant.catalogRevision = older.revision)
    (earlier : Stored (Migrates dates now older newer nextRev) start middle) :
    Stored (Migrates dates now older newer nextRev) start { middle with
      grants := middle.grants.putAll records
      catalogReferences := records.foldl (repinned older.revision newer.revision) middle.catalogReferences } := by
  induction migrated generalizing middle with
  | nil => exact earlier
  | @cons grant record _ _ first _ ih =>
    obtain ⟨opIds, shape⟩ := first
    obtain ⟨fresh, tail⟩ := nodup_cons.mp distinct
    obtain ⟨stored, live, pins⟩ := present grant mem_cons_self
    have same : record.id = grant.id := by rw [shape]
    have target : record.catalogRevision = newer.revision := by rw [shape]
    have moved : Stored (Migrates dates now older newer nextRev) start { middle with
        grants := middle.grants.put record
        catalogReferences := repinned older.revision newer.revision middle.catalogReferences record } := by
      refine .stored earlier ⟨grant, stored, live, pins, opIds, shape⟩ rfl fun holds => ?_
      rw [← target]
      exact repinned_pinned stored same pins holds
    refine ih tail ?_ moved
    intro other member
    obtain ⟨held, alive, pinned⟩ := present other (mem_cons_of_mem _ member)
    refine ⟨Table.mem_put.mpr (Or.inr ⟨held, ?_⟩), alive, pinned⟩
    intro clash
    exact fresh (mem_map.mpr ⟨other, member, clash.trans same⟩)

private theorem permitted_migrateCatalogAuthority (dates : Dates) (now : Int) (older newer : OperationCatalog)
    (nextRev : String) (before : World) : Permitted (Migrates dates now older newer nextRev) before.repository
      (execute (migrateCatalogAuthority dates now older newer nextRev) before).2 := by
  generalize ended : execute (migrateCatalogAuthority dates now older newer nextRev) before = out
  obtain ⟨error | _, _⟩ := out
  · -- a migration only fails before its first write
    rw [migrateCatalogAuthority, execute_snapshot_bind] at ended
    cases planned : planMigration dates now older newer nextRev before.repository.snapshot with
    | error reason =>
      rw [planned] at ended
      cases ended
      exact .start
    | ok plan =>
      obtain ⟨_, _, _, applied⟩ := migrateCatalogAuthority_of_plan planned
      rw [migrateCatalogAuthority, execute_snapshot_bind] at applied
      have clash := ended.symm.trans applied
      cases clash
  · obtain ⟨_, _, planned, _, left, _⟩ := migrateCatalogAuthority_ok ended
    rw [planMigration_ok] at planned
    have repinned := stored_repinned
      (planned.grants.imp fun grant record moved => (migrateGrant_ok.mp moved).imp fun _ parts => parts.2)
      ((before.repository.grants.distinct).sublist (filter_sublist.map _))
      (fun grant member => by
        have pinned := mem_filter.mp member
        simpa [isLive, and_assoc] using pinned) .start
    unfold Permitted
    rw [left]
    refine .spared repinned rfl (pinned_of_subset rfl fun ref member _ => ?_)
    exact (mem_dropped.mp member).1

private theorem permitted_transaction {may : Table GrantRecord → GrantRecord → Prop} {α : Type}
    {work : AuthorityProgram α} {respond : α → Response}
    (writes : Permitted may before.repository (execute work before).2) :
    Permitted may before.repository ((transaction work respond).serial memory before).2 := by
  generalize ended : (transaction work respond).serial memory before = out
  obtain ⟨_ | _, _⟩ := out
  · have restored := (serial_transaction_error ended).1
    unfold Permitted
    rw [restored]
    exact .start
  · obtain ⟨_, ran, _⟩ := serial_transaction_ok.mp ended
    rw [ran] at writes
    exact writes

private theorem permitted_guarded (writes : Permitted may before.repository (process.serial memory before).2) :
    Permitted may before.repository ((guarded checks process).serial memory before).2 := by
  cases checks with
  | error error => exact .start
  | ok value => exact writes

private theorem permitted_confined (confined : Confined areas process) (spares : Area.grants ∉ areas)
    : Permitted may before.repository (process.serial memory before).2 :=
  confined.keeps (fun first second => Stored may before.repository first → Stored may before.repository second)
    spares nofun (fun _ => id) (fun earlier later held => later (earlier held))
    (fun _ world outside held => .spared held (answer_spares outside world).1 (answer_spares outside world).2) before .start

theorem advance_stored (dates : Dates) (before : World) (submission : Submission) :
    Stored (MayStore dates before.repository submission) before.repository
      (advance dates before submission).repository := by
  obtain ⟨now, op⟩ := submission
  cases op with
  | reconcileApplicationAuthority =>
    exact permitted_transaction (permitted_reconcileApplicationAuthority (fun _ _ => id) .start)
  | reconcileStaticAuthorityManifest manifest catRev =>
    exact permitted_transaction (permitted_reconcileStaticAuthorityManifest dates now manifest catRev before)
  | decideGrantRequest requestId decision =>
    exact permitted_transaction (permitted_decideGrantRequest dates now requestId decision before)
  | assignGrant record => exact permitted_transaction (permitted_assignGrant dates now record before)
  | bootstrapDeclaredRole bootstrap admittedIdentity =>
    exact permitted_transaction (permitted_bootstrapDeclaredRole dates now bootstrap admittedIdentity before)
  | bootstrapRole req =>
    exact permitted_guarded (permitted_transaction
      (permitted_bootstrapDeclaredRole dates now req.definition req.identity before))
  | assignBreakGlassRole req =>
    exact permitted_guarded (permitted_transaction (permitted_assignBreakGlassRole dates now req before))
  | revokeRoleForIdentity roleId identity reason =>
    exact permitted_guarded (permitted_transaction
      (permitted_revokeRoleForIdentity dates now roleId reason identity before))
  | migrateCatalogAuthority older newer nextRev =>
    exact permitted_transaction (permitted_migrateCatalogAuthority dates now older newer nextRev before)
  | migrateGrantCatalog grantId older newer nextRev =>
    -- what the migrated state is good for is judged after the migration was committed
    have migrated : Permitted (Migrates dates now older newer nextRev) before.repository
        ((transaction (migrateCatalogAuthority dates now older newer nextRev) .snapshot).serial memory before).2 :=
      permitted_transaction (permitted_migrateCatalogAuthority dates now older newer nextRev before)
    exact permitted_guarded migrated
  | revokeGrant => exact permitted_transaction (permitted_revokeGrant (fun _ _ => id) .start)
  | _ => exact permitted_confined (confined_process dates now id) (by simp [Operation.writes])

end Applik8s.Authority
