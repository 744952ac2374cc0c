import Applik8s.Authority.GrantWriters

/-! Role bootstraps. A role's bootstrap is closed by the existence of a grant that its
lifecycle owner names, its lease. The ids of the grants of bootstraps and break-glass
roles are concatenations, and two of them may meet in one id; as long as no such id
meets that of a stored lease, a role is bootstrapped for one identity and never again. -/
namespace Applik8s.Authority
open List
open Lib (Table runFrom EachStep eachStep_append runFrom_append invariant_of_steps relates_of_steps)
variable {dates : Dates} {now : Int} {before : World} {earlier middle later : Table GrantRecord}
  {grant record : GrantRecord} {roleId : String}

def IsLeaseOf (roleId : String) (grant : GrantRecord) : Prop :=
  grant.lifecycleOwner = some (applicationRoleBootstrapOwner roleId)

/-- The leases of a role have one holder, and leases are runtime records. -/
structure Leased (grants : Table GrantRecord) : Prop where
  holder : ∀ roleId, ∀ first ∈ grants.rows, ∀ second ∈ grants.rows,
    IsLeaseOf roleId first → IsLeaseOf roleId second → first.identity = second.identity
  runtime : ∀ roleId, ∀ grant ∈ grants.rows, IsLeaseOf roleId grant → grant.origin = .runtime

/-- Every lease is still there, with its owner and its holder. -/
def LeasesKept (earlier later : Table GrantRecord) : Prop :=
  ∀ roleId, ∀ grant ∈ earlier.rows, IsLeaseOf roleId grant →
    ∃ record ∈ later.rows, record.id = grant.id ∧ IsLeaseOf roleId record ∧ record.identity = grant.identity

/-- The operations of a run in which only bootstraps issue leases: no grant is assigned or
decided upon, and no manifest declares a lease. -/
def OnlyBootstrapsLease : Operation → Prop
  | .assignGrant _ => False
  | .decideGrantRequest .. => False
  | .reconcileApplicationAuthority manifest => ∀ grant ∈ manifest.grants, ∀ roleId, ¬ IsLeaseOf roleId grant
  | .reconcileStaticAuthorityManifest manifest _ => ∀ definition ∈ manifest.grants, ∀ roleId,
      definition.lifecycleOwner ≠ some (applicationRoleBootstrapOwner roleId)
  | _ => True

variable (grants : Table GrantRecord) (id roleId holder : String)

def ApartFromLeases (grant : GrantRecord) : Prop :=
  ∀ roleId, ∀ stored ∈ grants.rows, IsLeaseOf roleId stored → stored.id ≠ grant.id

/-- The ids a bootstrap or a break-glass role would write under are not those of leases. -/
def SparesLeases (dates : Dates) (before : World) (submission : Submission) : Prop :=
  match submission.operation with
  | .bootstrapDeclaredRole bootstrap _ => ∀ grant, Bootstraps dates submission.now before.repository bootstrap grant →
        ApartFromLeases before.repository.grants grant
  | .bootstrapRole request => ∀ grant, Bootstraps dates submission.now before.repository request.definition grant →
        ApartFromLeases before.repository.grants grant
  | .assignBreakGlassRole request => ∀ grant, BreaksGlass dates submission.now before.repository request grant →
        ApartFromLeases before.repository.grants grant
  | _ => True

/-! ### Storing beside leases -/

theorem LeasesKept.refl : LeasesKept grants grants :=
  fun _ grant member leased => ⟨grant, member, rfl, leased, rfl⟩

theorem LeasesKept.trans (first : LeasesKept earlier middle) (second : LeasesKept middle later) :
    LeasesKept earlier later := by
  intro roleId grant member leased
  obtain ⟨record, stored, same, still, holder⟩ := first roleId grant member leased
  obtain ⟨last, present, sameLast, lasting, holderLast⟩ := second roleId record stored still
  exact ⟨last, present, sameLast.trans same, lasting, holderLast.trans holder⟩

structure LeaseState (start current : Table GrantRecord) : Prop where
  leased : Leased current
  kept : LeasesKept start current

theorem Leased.put (leased : Leased middle) (runtime : ∀ roleId, IsLeaseOf roleId record → record.origin = .runtime)
    (holder : ∀ roleId, IsLeaseOf roleId record → ∀ stored ∈ middle.rows, IsLeaseOf roleId stored →
      stored.identity = record.identity) : Leased (middle.put record) where
  holder := by
    intro roleId first firstMember second secondMember firstLease secondLease
    rcases Table.mem_put.mp firstMember with rfl | ⟨firstStored, _⟩
    · rcases Table.mem_put.mp secondMember with rfl | ⟨secondStored, _⟩
      · rfl
      · exact (holder roleId firstLease second secondStored secondLease).symm
    · rcases Table.mem_put.mp secondMember with rfl | ⟨secondStored, _⟩
      · exact holder roleId secondLease first firstStored firstLease
      · exact leased.holder roleId first firstStored second secondStored firstLease secondLease
  runtime := by
    intro roleId grant member lease
    rcases Table.mem_put.mp member with rfl | ⟨stored, _⟩
    · exact runtime roleId lease
    · exact leased.runtime roleId grant stored lease

theorem LeaseState.put_apart (state : LeaseState earlier middle) (apart : ApartFromLeases earlier record)
    (leased : Leased (middle.put record)) : LeaseState earlier (middle.put record) where
  leased := leased
  kept := by
    intro roleId grant member lease
    obtain ⟨cur, stored, same, still, holder⟩ := state.kept roleId grant member lease
    have other : cur.id ≠ record.id := fun clash => apart roleId grant member lease (same.symm.trans clash)
    exact ⟨cur, Table.mem_put.mpr (Or.inr ⟨stored, other⟩), same, still, holder⟩

theorem LeaseState.put_ordinary (state : LeaseState earlier middle) (apart : ApartFromLeases earlier record)
    (ordinary : ∀ roleId, ¬ IsLeaseOf roleId record) : LeaseState earlier (middle.put record) :=
  state.put_apart apart (state.leased.put (fun roleId lease => absurd lease (ordinary roleId))
    fun roleId lease => absurd lease (ordinary roleId))

theorem LeaseState.put_same (state : LeaseState earlier middle) (stored : grant ∈ middle.rows)
    (id : record.id = grant.id) (owner : record.lifecycleOwner = grant.lifecycleOwner)
    (identity : record.identity = grant.identity) (origin : record.origin = grant.origin) :
    LeaseState earlier (middle.put record) where
  leased := by
    have leaseOf : ∀ roleId, IsLeaseOf roleId record → IsLeaseOf roleId grant := by
      intro roleId lease
      unfold IsLeaseOf at lease ⊢
      rwa [← owner]
    refine state.leased.put ?_ ?_
    · intro roleId lease
      exact origin.trans (state.leased.runtime roleId grant stored (leaseOf roleId lease))
    intro roleId lease other member otherLease
    rw [identity]
    exact state.leased.holder roleId other member grant stored otherLease (leaseOf roleId lease)
  kept := by
    intro roleId first member lease
    obtain ⟨cur, present, same, still, holder⟩ := state.kept roleId first member lease
    by_cases clash : cur.id = record.id
    · have whole : cur = grant := Table.eq_of_key_eq present stored (clash.trans id)
      subst whole
      refine ⟨record, Table.mem_put.mpr (Or.inl rfl), id.trans same, ?_, identity.trans holder⟩
      unfold IsLeaseOf at still ⊢
      rw [owner, still]
    · exact ⟨cur, Table.mem_put.mpr (Or.inr ⟨present, clash⟩), same, still, holder⟩

theorem grants_of_closed_bootstrap {after : Repository}
    (writes : Stored (fun _ grant => Bootstraps dates now before.repository bootstrap grant) before.repository after)
    (closed : ∃ stored ∈ before.repository.grants.rows, IsLeaseOf bootstrap.roleId stored) :
    after.grants = before.repository.grants := by
  obtain ⟨stored, member, lease⟩ := closed
  have refused : ∀ grants grant, Bootstraps dates now before.repository bootstrap grant →
      grants = before.repository.grants → grants.put grant = before.repository.grants := by
    intro grants grant bootstraps _
    exact absurd lease (bootstraps.1 stored member)
  exact writes.keeps (fun grants => grants = before.repository.grants) refused rfl

private theorem leaseState_bootstrap {after : Repository}
    (writes : Stored (fun _ grant => Bootstraps dates now before.repository bootstrap grant) before.repository after)
    (spares : ∀ grant, Bootstraps dates now before.repository bootstrap grant → ApartFromLeases before.repository.grants grant)
    (leased : Leased before.repository.grants) : LeaseState before.repository.grants after.grants := by
  by_cases closed : ∃ stored ∈ before.repository.grants.rows, IsLeaseOf bootstrap.roleId stored
  · rw [grants_of_closed_bootstrap writes closed]
    exact ⟨leased, LeasesKept.refl _⟩
  -- while it is open, the only leases of the role are those this bootstrap has just stored
  have stepwise : ∀ grants grant, Bootstraps dates now before.repository bootstrap grant →
      (LeaseState before.repository.grants grants ∧
        ∀ stored ∈ grants.rows, IsLeaseOf bootstrap.roleId stored → stored.identity = bootstrap.identity) →
      LeaseState before.repository.grants (grants.put grant) ∧
        ∀ stored ∈ (grants.put grant).rows, IsLeaseOf bootstrap.roleId stored →
          stored.identity = bootstrap.identity := by
    rintro _ grant bootstraps ⟨state, holders⟩
    have apart := spares grant bootstraps
    obtain ⟨_, _, _, rfl⟩ := bootstraps
    refine ⟨state.put_apart apart (state.leased.put (fun _ _ => rfl) ?_), ?_⟩
    · intro roleId lease stored member storedLease
      refine holders stored member ?_
      unfold IsLeaseOf at lease storedLease ⊢
      rw [storedLease, ← lease]
      rfl
    · intro stored member lease
      rcases Table.mem_put.mp member with rfl | ⟨present, _⟩
      · rfl
      · exact holders stored present lease
  refine (writes.keeps _ stepwise ⟨⟨leased, LeasesKept.refl _⟩, ?_⟩).1
  intro stored member lease
  exact absurd ⟨stored, member, lease⟩ closed

private theorem breakGlassOwner_ne (req : BreakGlassRoleRequest) (roleId : String) :
    breakGlassOwner req ≠ applicationRoleBootstrapOwner roleId := by
  intro same
  unfold breakGlassOwner applicationRoleBootstrapOwner at same
  -- `break-glass` and `bootstrap` part at their second letter
  have letters := congrArg (fun text => text.toList[18]?) same
  simp only [toString, String.toList_append, append_assoc] at letters
  rw [getElem?_append_left (by decide), getElem?_append_left (by decide)] at letters
  exact absurd letters (by decide)

private theorem leaseState_reconciles (leased : Leased before.repository.grants)
    (ordinary : ∀ grant ∈ declared, ∀ roleId, ¬ IsLeaseOf roleId grant)
    (state : LeaseState before.repository.grants middle)
    (reconciles : Reconciles dates now before.repository declared middle record) :
    LeaseState before.repository.grants (middle.put record) := by
  rcases reconciles with ⟨listed, _, shadows⟩ | ⟨stored, member, app, _, _, rfl⟩
  · refine state.put_ordinary ?_ (ordinary record listed)
    intro roleId first member lease same
    obtain ⟨cur, present, since, still, _⟩ := state.kept roleId first member lease
    have runtime := state.leased.runtime roleId cur present still
    rw [shadows cur present (since.trans same)] at runtime
    cases runtime
  -- an obsolete application grant is no lease, since leases are runtime records
  have none_stored : ∀ roleId, ¬ IsLeaseOf roleId stored := by
    intro roleId lease
    have runtime := leased.runtime roleId stored member lease
    rw [app] at runtime
    cases runtime
  refine state.put_ordinary ?_ none_stored
  intro roleId first present lease same
  have whole : first = stored := Table.eq_of_key_eq present member same
  subst whole
  exact none_stored roleId lease

private theorem leaseState_put (leased : Leased before.repository.grants)
    (only : OnlyBootstrapsLease submission.operation) (spares : SparesLeases dates before submission)
    (notDeclared : ∀ bootstrap identity, submission.operation ≠ .bootstrapDeclaredRole bootstrap identity)
    (notRequested : ∀ req, submission.operation ≠ .bootstrapRole req)
    (state : LeaseState before.repository.grants middle)
    (allowed : MayStore dates before.repository submission middle record) :
    LeaseState before.repository.grants (middle.put record) := by
  obtain ⟨_, op⟩ := submission
  cases op with
  | assignGrant => exact only.elim
  | decideGrantRequest => exact only.elim
  | bootstrapDeclaredRole bootstrap admittedIdentity => exact absurd rfl (notDeclared bootstrap admittedIdentity)
  | bootstrapRole req => exact absurd rfl (notRequested req)
  | assignBreakGlassRole req =>
    have apart := spares record allowed
    obtain ⟨_, _, _, _, rfl⟩ := allowed
    refine state.put_ordinary apart fun roleId lease => ?_
    exact breakGlassOwner_ne req roleId (Option.some.inj lease)
  | reconcileApplicationAuthority => exact leaseState_reconciles leased only state allowed
  | reconcileStaticAuthorityManifest =>
    refine leaseState_reconciles leased ?_ state allowed
    intro grant member roleId lease
    obtain ⟨defn, listed, rfl⟩ := mem_map.mp member
    refine only defn listed roleId ?_
    unfold IsLeaseOf StaticGrantDefinition.record whenTruthy at lease
    dsimp only at lease
    split at lease
    · exact lease
    · cases lease
  | revokeGrant =>
    obtain ⟨stored, member, _, _, rfl⟩ := allowed
    exact state.put_same member rfl rfl rfl rfl
  | revokeRoleForIdentity =>
    obtain ⟨stored, member, _, _, rfl⟩ := allowed
    exact state.put_same member rfl rfl rfl rfl
  | migrateCatalogAuthority =>
    obtain ⟨stored, member, _, _, _, rfl⟩ := allowed
    exact state.put_same member rfl rfl rfl rfl
  | migrateGrantCatalog =>
    obtain ⟨_, member, _, _, _, rfl⟩ := allowed
    exact state.put_same member rfl rfl rfl rfl
  | _ => exact allowed.elim

theorem leaseState_step (submission : Submission) (leased : Leased before.repository.grants)
    (only : OnlyBootstrapsLease submission.operation) (spares : SparesLeases dates before submission) :
    LeaseState before.repository.grants (advance dates before submission).repository.grants := by
  have writes := advance_stored dates before submission
  obtain ⟨_, op⟩ := submission
  by_cases bootstraps : (∃ bootstrap identity, op = .bootstrapDeclaredRole bootstrap identity) ∨
      ∃ req, op = .bootstrapRole req
  · rcases bootstraps with ⟨bootstrap, identity, rfl⟩ | ⟨req, rfl⟩
    · exact leaseState_bootstrap writes spares leased
    · exact leaseState_bootstrap writes spares leased
  simp only [not_or, not_exists] at bootstraps
  exact writes.keeps _ (fun grants grant allowed state => leaseState_put leased only spares
    (fun bootstrap identity same => bootstraps.1 bootstrap identity same)
    (fun req same => bootstraps.2 req same) state allowed) ⟨leased, LeasesKept.refl _⟩

/-- In every run in which only bootstraps issue leases and no id they write meets a stored
lease's, all leases of a role ever stored have one holder, and once there is one no
bootstrap of the role stores anything. -/
theorem role_bootstrap_is_one_shot (dates : Dates) (start : World) (leased : Leased start.repository.grants)
    (earlier later : List Submission)
    (only : ∀ submission ∈ earlier ++ later, OnlyBootstrapsLease submission.operation)
    (spares : EachStep (advance dates) (SparesLeases dates) start (earlier ++ later)) (roleId : String)
    (lease : GrantRecord) (stored : lease ∈ (runFrom (advance dates) start earlier).repository.grants.rows)
    (issued : IsLeaseOf roleId lease) :
    (∀ other ∈ (runFrom (advance dates) start (earlier ++ later)).repository.grants.rows,
        IsLeaseOf roleId other → other.identity = lease.identity) ∧
      (∀ now bootstrap admittedIdentity, bootstrap.roleId = roleId →
        (advance dates (runFrom (advance dates) start (earlier ++ later))
            ⟨now, .bootstrapDeclaredRole bootstrap admittedIdentity⟩).repository.grants =
          (runFrom (advance dates) start (earlier ++ later)).repository.grants) ∧
      ∀ now request, request.roleId = roleId → (advance dates (runFrom (advance dates) start (earlier ++ later))
            ⟨now, .bootstrapRole request⟩).repository.grants =
          (runFrom (advance dates) start (earlier ++ later)).repository.grants := by
  have both : EachStep (advance dates) (fun before submission =>
      OnlyBootstrapsLease submission.operation ∧ SparesLeases dates before submission) start (earlier ++ later) :=
    (Lib.eachStep_of_forall only).and spares
  obtain ⟨bothEarlier, bothLater⟩ := eachStep_append.mp both
  -- the leases are in order in every state the run passes, and no step loses one
  have leasedThere : Leased (runFrom (advance dates) start earlier).repository.grants :=
    invariant_of_steps (fun world : World => Leased world.repository.grants)
      (fun before submission held met => (leaseState_step submission held met.1 met.2).leased) leased bothEarlier
  have ended : LeaseState (runFrom (advance dates) start earlier).repository.grants
      (runFrom (advance dates) start (earlier ++ later)).repository.grants := by
    rw [runFrom_append]
    exact invariant_of_steps (fun world : World => LeaseState
        (runFrom (advance dates) start earlier).repository.grants world.repository.grants)
      (fun before submission held met =>
        have next := leaseState_step submission held.leased met.1 met.2
        ⟨next.leased, held.kept.trans next.kept⟩) ⟨leasedThere, LeasesKept.refl _⟩ bothLater
  obtain ⟨record, present, _, still, holder⟩ := ended.kept roleId lease stored issued
  refine ⟨?_, ?_, ?_⟩
  · intro other member otherLease
    rw [← holder]
    exact ended.leased.holder roleId other member record present otherLease still
  · intro now bootstrap admittedIdentity named
    subst named
    have writes := advance_stored dates (runFrom (advance dates) start (earlier ++ later))
      ⟨now, .bootstrapDeclaredRole bootstrap admittedIdentity⟩
    exact grants_of_closed_bootstrap writes ⟨record, present, still⟩
  · intro now request named
    subst named
    have writes := advance_stored dates (runFrom (advance dates) start (earlier ++ later)) ⟨now, .bootstrapRole request⟩
    exact grants_of_closed_bootstrap writes ⟨record, present, still⟩

def rolesWorld : World :=
  sampleWorld (sampleRepository [{ samplePermission with id := "y:z" }, { samplePermission with id := "z" }]
    [{ sampleRole with id := "a", permissionIds := ["y:z"] }, { sampleRole with id := "b", permissionIds := ["z"] }]
    [])

def sampleBootstrap : StaticRoleBootstrapDefinition :=
  { id, roleId, identity := sampleIdentity holder, issuedBy := sampleIdentity "platform", reason := "first operator" }

def bootstrapStep : Submission :=
  ⟨sampleInstant, .bootstrapDeclaredRole (sampleBootstrap id roleId holder) (sampleIdentity holder)⟩

/-- The lease that the first bootstrap of role `a` leaves. -/
def firstLease : GrantRecord :=
  (sampleBootstrap "x" "a" "anna").grant { samplePermission with id := "y:z" } "0" (utcDates.toISOString sampleInstant)

private theorem rolesWorld_leased : Leased rolesWorld.repository.grants := by
  constructor
  · intro roleId first member
    cases member
  · intro roleId grant member
    cases member

theorem second_bootstrap_is_closed :
    (advance utcDates (runFrom (advance utcDates) rolesWorld [bootstrapStep "x" "a" "anna"])
        (bootstrapStep "w" "a" "ben")).repository.grants =
      (runFrom (advance utcDates) rolesWorld [bootstrapStep "x" "a" "anna"]).repository.grants :=
  (role_bootstrap_is_one_shot utcDates rolesWorld rolesWorld_leased [bootstrapStep "x" "a" "anna"] [] (by
      intro submission member
      cases mem_singleton.mp member
      trivial)
    ⟨fun _ _ _ stored member => (not_mem_nil member).elim, trivial⟩ "a" firstLease (by decide +kernel) rfl).2.1
      sampleInstant (sampleBootstrap "w" "a" "ben") (sampleIdentity "ben") rfl

/-- The bootstrap of another role overwrites the only lease of role `a` under the id both
concatenate to, and role `a` is bootstrapped again for someone else. -/
theorem overwritten_lease_reopens_bootstrap :
    ¬ ∀ (dates : Dates) (start : World) (earlier later : List Submission), Leased start.repository.grants →
      (∀ submission ∈ earlier ++ later, OnlyBootstrapsLease submission.operation) →
      ∀ roleId, ∀ lease ∈ (runFrom (advance dates) start earlier).repository.grants.rows, IsLeaseOf roleId lease →
        ∀ other ∈ (runFrom (advance dates) start (earlier ++ later)).repository.grants.rows,
          IsLeaseOf roleId other → other.identity = lease.identity := by
  intro claimed
  have same := claimed utcDates rolesWorld [bootstrapStep "x" "a" "anna"]
    [bootstrapStep "x:y" "b" "ben", bootstrapStep "x" "a" "ben"] rolesWorld_leased
    (by
      intro submission member
      simp only [cons_append, nil_append, mem_cons, not_mem_nil, or_false] at member
      rcases member with rfl | rfl | rfl <;> trivial)
    "a" firstLease (by decide +kernel) rfl
    ((sampleBootstrap "x" "a" "ben").grant { samplePermission with id := "y:z" } "2"
      (utcDates.toISOString sampleInstant)) (by decide +kernel) rfl
  exact absurd same (by decide)

end Applik8s.Authority
