import Applik8s.Authority.AuthorizeProofs

/-! How `authorize` selects among the authority that matches a request, against the rule
that any one usable grant or role permission suffices.

The code settles on the first live candidate in the order of the snapshot, and only
checks that one's scope and remaining uses. Whether an intersection is empty is decided
for each scope on its own, so the role permission it is also intersected with never
makes a difference. -/
namespace Applik8s.Authority
open List Option
variable {dates : Dates} {now : Int} {state : AuthoritySnapshot}

/-- A grant that authorizes the request by itself: it matches, is live, leaves the
request a scope, and has a use left. -/
structure UsableGrant (dates : Dates) (now : Int) (request : AuthorizationRequest)
    (state : AuthoritySnapshot) (grant : GrantRecord) : Prop where
  matching : matchesGrant request grant = true
  live : isLive dates now grant = true
  scope : (intersectApplicationScopes (requestScopes request ++ [grant.scope])).isNone = false
  use : UseLeft request state grant

/-- A role permission that authorizes the request by itself. -/
structure UsablePermission (request : AuthorizationRequest) (state : AuthoritySnapshot)
    (permission : PermissionRecord) : Prop where
  matching : matchesPermission request state permission = true
  scope : (intersectApplicationScopes (requestScopes request ++ [permission.scope])).isNone = false

/-- Some stored grant or role permission authorizes the request by itself. -/
def AuthorizedByRule (dates : Dates) (now : Int) (request : AuthorizationRequest)
    (state : AuthoritySnapshot) : Prop :=
  (∃ grant ∈ state.grants, UsableGrant dates now request state grant) ∨
    ∃ permission ∈ state.permissions, UsablePermission request state permission

/-- The first live candidate, if there is one, is usable, or nothing is. -/
def FirstDecides (dates : Dates) (now : Int) (request : AuthorizationRequest)
    (state : AuthoritySnapshot) : Prop :=
  ∀ grant, (candidates request state).find? (isLive dates now) = some grant →
    UsableGrant dates now request state grant ∨ ¬ AuthorizedByRule dates now request state

private theorem mem_candidates (consults : consultsGrants req = true) :
    grant ∈ candidates req state ↔ grant ∈ state.grants ∧ matchesGrant req grant = true := by
  simp [candidates, consults]

private theorem mem_rolePermissions (consults : consultsGrants req = true) : perm ∈ rolePermissions req state ↔
      perm ∈ state.permissions ∧ matchesPermission req state perm = true := by
  simp [rolePermissions, consults]

private theorem isNone_requestScopes_append :
    (intersectApplicationScopes (requestScopes req ++ [scope])).isNone = false ↔
      (∀ part ∈ requestScopes req, (normalizeApplicationScope part).isNone = false) ∧
        (normalizeApplicationScope scope).isNone = false := by
  rw [← Bool.not_eq_true, isNone_intersect]
  simp only [mem_append, mem_singleton, not_exists, not_and, Bool.not_eq_true]
  constructor
  · intro each
    exact ⟨fun part member => each part (Or.inl member), each scope (Or.inr rfl)⟩
  rintro ⟨each, last⟩ part (member | rfl)
  · exact each part member
  · exact last

private theorem rolePermission_selected (consults : consultsGrants req = true) :
    (∃ perm, (selectAuthority dates now req state).rolePermission = some perm) ↔
      ∃ perm ∈ state.permissions, UsablePermission req state perm := by
  constructor
  · rintro ⟨perm, selected⟩
    have member := (mem_rolePermissions consults).mp (mem_of_find?_eq_some selected)
    exact ⟨perm, member.1, member.2, by simpa using find?_some selected⟩
  rintro ⟨perm, member, usable⟩
  cases selected : (selectAuthority dates now req state).rolePermission with
  | some other => exact ⟨other, rfl⟩
  | none =>
    have missed := find?_eq_none.mp selected perm ((mem_rolePermissions consults).mpr ⟨member, usable.matching⟩)
    simp [usable.scope] at missed

private theorem passesGates_iff {req : AuthorizationRequest} (consults : consultsGrants req = true)
    (admitted : admission req = .ok ()) : PassesGates dates now req state ↔
      match (candidates req state).find? (isLive dates now) with
      | some grant => UsableGrant dates now req state grant
      | none => ∃ perm ∈ state.permissions, UsablePermission req state perm := by
  have roleScope : ∀ perm, (selectAuthority dates now req state).rolePermission = some perm →
      (normalizeApplicationScope perm.scope).isNone = false := fun perm selected =>
    (isNone_requestScopes_append.mp (by simpa using find?_some selected)).2
  cases first : (candidates req state).find? (isLive dates now) with
  | some grant =>
    have selected : (selectAuthority dates now req state).grant = some grant := first
    have member := (mem_candidates consults).mp (mem_of_find?_eq_some first)
    constructor
    · intro gates
      refine ⟨member.2, find?_some first, isNone_requestScopes_append.mpr ⟨fun part inside => ?_, ?_⟩,
        gates.use grant selected⟩
      · exact gates.scopes part (mem_append_left _ inside)
      · exact gates.scopes grant.scope (by simp [contributedScopes, MatchedAuthority.scopes, selected])
    intro usable
    obtain ⟨own, last⟩ := isNone_requestScopes_append.mp usable.scope
    refine ⟨admitted, fun _ => Or.inl (by simp [selected]), fun scope inside => ?_, fun other same => ?_⟩
    · simp only [contributedScopes, MatchedAuthority.scopes, selected, mem_append, map_some,
        toList_some, mem_singleton, mem_toList, map_eq_some_iff] at inside
      rcases inside with inside | rfl | ⟨perm, chosen, rfl⟩
      · exact own scope inside
      · exact last
      · exact roleScope perm chosen
    · rw [selected] at same
      cases same
      exact usable.use
  | none =>
    have unselected : (selectAuthority dates now req state).grant = none := first
    rw [← rolePermission_selected consults]
    constructor
    · intro gates
      rcases gates.matched consults with found | found
      · exact absurd unselected found
      · exact ne_none_iff_exists'.mp found
    rintro ⟨perm, chosen⟩
    have own := (isNone_requestScopes_append.mp (by simpa using find?_some chosen)).1
    refine ⟨admitted, fun _ => Or.inr (by simp [chosen]), fun scope inside => ?_, fun other same => ?_⟩
    · simp only [contributedScopes, MatchedAuthority.scopes, unselected, chosen, mem_append,
        map_none, toList_none, not_mem_nil, false_or, map_some,
        toList_some, mem_singleton] at inside
      rcases inside with inside | rfl
      · exact own scope inside
      · exact roleScope perm chosen
    · rw [unselected] at same
      cases same

private theorem passesGates_iff_rule (consults : consultsGrants req = true) (admitted : admission req = .ok ()) :
    (PassesGates dates now req state ↔ AuthorizedByRule dates now req state) ↔
      FirstDecides dates now req state := by
  rw [passesGates_iff consults admitted]
  cases first : (candidates req state).find? (isLive dates now) with
  | some grant =>
    have member := (mem_candidates consults).mp (mem_of_find?_eq_some first)
    have ruled : UsableGrant dates now req state grant → AuthorizedByRule dates now req state :=
      fun usable => Or.inl ⟨grant, member.1, usable⟩
    constructor
    · intro agree other same
      rw [first] at same
      cases same
      by_cases usable : UsableGrant dates now req state grant
      · exact Or.inl usable
      · exact Or.inr fun rule => usable (agree.mpr rule)
    · intro decides
      refine ⟨ruled, fun rule => ?_⟩
      rcases decides grant first with usable | nothing
      · exact usable
      · exact absurd rule nothing
  | none =>
    -- without a live candidate no grant is usable, and the role permissions decide
    have unusable : ¬ ∃ grant ∈ state.grants, UsableGrant dates now req state grant := by
      rintro ⟨grant, member, usable⟩
      exact find?_eq_none.mp first grant ((mem_candidates consults).mpr ⟨member, usable.matching⟩) usable.live
    constructor
    · intro _ other same
      rw [first] at same
      cases same
    · intro _
      exact ⟨Or.inr, fun rule => rule.resolve_left unusable⟩

/-! ### Reordered and extended snapshots -/

private theorem rule_mono (grants : ∀ grant ∈ state.grants, grant ∈ other.grants)
    (perms : ∀ perm ∈ state.permissions, perm ∈ other.permissions) (roles : ∀ role ∈ state.roles, role ∈ other.roles)
    (reservations : other.reservations = state.reservations) (rule : AuthorizedByRule dates now req state)
    : AuthorizedByRule dates now req other := by
  rcases rule with ⟨grant, member, usable⟩ | ⟨perm, member, usable⟩
  · refine Or.inl ⟨grant, grants grant member, usable.matching, usable.live, usable.scope, ?_⟩
    have use := usable.use
    unfold UseLeft sameRetry at use ⊢
    rwa [reservations]
  refine Or.inr ⟨perm, perms perm member, ?_, usable.scope⟩
  have matching := usable.matching
  simp only [matchesPermission, decide_eq_true_eq] at matching ⊢
  refine ⟨?_, matching.2⟩
  simp only [rolePermissionIds, mem_flatMap, mem_filter] at matching ⊢
  obtain ⟨⟨role, ⟨inside, named⟩, listed⟩, _⟩ := matching
  exact ⟨role, ⟨roles role inside, named⟩, listed⟩

/-- For a request that is admitted and consults stored authority, `authorize` follows
the rule exactly when the first live candidate is usable or nothing is. Between
snapshots of which this holds, the decision depends neither on the order of grants,
roles and permissions, nor can a further grant turn it into a denial. -/
theorem authorize_follows_rule_iff (dates : Dates) (now : Int) (world : World)
    (request : AuthorizationRequest) (consults : consultsGrants request = true)
    (admitted : admission request = .ok ()) : ((allows dates now world request = true ↔
        AuthorizedByRule dates now request world.repository.snapshot) ↔
      FirstDecides dates now request world.repository.snapshot) ∧
    (∀ other : World, FirstDecides dates now request world.repository.snapshot →
      FirstDecides dates now request other.repository.snapshot →
      other.repository.grants.rows.Perm world.repository.grants.rows →
      other.repository.roles.rows.Perm world.repository.roles.rows →
      other.repository.permissions.rows.Perm world.repository.permissions.rows →
      other.repository.reservations = world.repository.reservations →
      allows dates now other request = allows dates now world request) ∧
    (∀ (other : World) (further : GrantRecord), FirstDecides dates now request world.repository.snapshot →
      FirstDecides dates now request other.repository.snapshot →
      other.repository.grants.rows.Perm (further :: world.repository.grants.rows) →
      other.repository.roles = world.repository.roles → other.repository.permissions = world.repository.permissions →
      other.repository.reservations = world.repository.reservations →
      allows dates now world request = true → allows dates now other request = true) := by
  have follows : ∀ place : World, FirstDecides dates now request place.repository.snapshot →
      (allows dates now place request = true ↔
        AuthorizedByRule dates now request place.repository.snapshot) := fun place decides => by
    rw [allows_iff]
    exact (passesGates_iff_rule consults admitted).mpr decides
  refine ⟨?_, ?_, ?_⟩
  · rw [allows_iff]
    exact passesGates_iff_rule consults admitted
  · intro other here there grants roles permissions reservations
    rw [Bool.eq_iff_iff, follows other there, follows world here]
    constructor
    · exact rule_mono (fun _ member => grants.mem_iff.mp member)
        (fun _ member => permissions.mem_iff.mp member) (fun _ member => roles.mem_iff.mp member)
        (by simp [reservations])
    · exact rule_mono (fun _ member => grants.mem_iff.mpr member)
        (fun _ member => permissions.mem_iff.mpr member) (fun _ member => roles.mem_iff.mpr member)
        (by simp [reservations])
  · intro other further here there grants roles permissions reservations allowed
    rw [follows other there]
    exact rule_mono (fun _ member => grants.mem_iff.mpr (mem_cons_of_mem _ member))
      (by simp [permissions]) (by simp [roles]) (by simp [reservations])
      ((follows world here).mp allowed)

/-! ### Two grants in either order -/

def emptyGrant : GrantRecord := { sampleGrant "a" "clerk" with scope := .none "suspended" }

theorem authorize_follows_rule_for_one_grant : (allows utcDates sampleInstant
        (sampleWorld (sampleRepository [samplePermission] [] [sampleGrant "b" "clerk"])) sampleRequest = true ↔
      AuthorizedByRule utcDates sampleInstant sampleRequest
        (sampleRepository [samplePermission] [] [sampleGrant "b" "clerk"]).snapshot) ↔
      FirstDecides utcDates sampleInstant sampleRequest
        (sampleRepository [samplePermission] [] [sampleGrant "b" "clerk"]).snapshot :=
  (authorize_follows_rule_iff utcDates sampleInstant
    (sampleWorld (sampleRepository [samplePermission] [] [sampleGrant "b" "clerk"])) sampleRequest
    (by decide) (by decide)).1

/-- With an empty grant stored before a usable one the request is denied. -/
theorem authorize_misses_a_usable_grant :
    ¬ ∀ (dates : Dates) (now : Int) (world : World) (request : AuthorizationRequest),
      consultsGrants request = true → admission request = .ok () → (allows dates now world request = true ↔
        AuthorizedByRule dates now request world.repository.snapshot) := by
  intro claimed
  have rule : AuthorizedByRule utcDates sampleInstant sampleRequest
      (sampleRepository [samplePermission] [] [emptyGrant, sampleGrant "b" "clerk"]).snapshot := by
    refine Or.inl ⟨sampleGrant "b" "clerk", by decide, by decide, by decide, by decide +kernel, ?_⟩
    intro maximumUses bounded
    cases bounded
  have allowed := (claimed utcDates sampleInstant
    (sampleWorld (sampleRepository [samplePermission] [] [emptyGrant, sampleGrant "b" "clerk"]))
    sampleRequest (by decide) (by decide)).mpr rule
  have denied : allows utcDates sampleInstant
      (sampleWorld (sampleRepository [samplePermission] [] [emptyGrant, sampleGrant "b" "clerk"]))
      sampleRequest = false := by decide +kernel
  rw [denied] at allowed
  cases allowed

end Applik8s.Authority
