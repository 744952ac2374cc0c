import Applik8s.Authority.Effects
import Applik8s.Authority.ScopeProofs

/-! When a request is authorized, as gates that can be read off the request and the
snapshot, and what authorizing it writes. -/
namespace Applik8s.Authority
open List Nat
open Lib.Program (exec_bind exec_pure exec_check_bind_ok)
variable {dates : Dates} {now : Int} {state : AuthoritySnapshot} {world before after : World}

/-- The scopes an authorization intersects: the request's own, the matched grant's and
the matched role permission's. -/
def contributedScopes (dates : Dates) (now : Int) (request : AuthorizationRequest)
    (state : AuthoritySnapshot) : List ScopeExpression :=
  requestScopes request ++ (selectAuthority dates now request state).scopes

/-- A use of a bounded grant is left for the request: one it already has a reservation
for, or one that no reservation holds. -/
def UseLeft (request : AuthorizationRequest) (state : AuthoritySnapshot) (grant : GrantRecord) : Prop :=
  ∀ maximumUses, grant.maximumUses = some maximumUses →
    namesUse request = true ∧ ((sameRetry request grant state).isSome = true ∨
      (heldReservations grant.id state.reservations).length < maximumUses)

/-- Everything that stands between a request and its receipt. -/
structure PassesGates (dates : Dates) (now : Int) (request : AuthorizationRequest)
    (state : AuthoritySnapshot) : Prop where
  admitted : admission request = .ok ()
  matched : consultsGrants request = true → (selectAuthority dates now request state).grant ≠ none ∨
    (selectAuthority dates now request state).rolePermission ≠ none
  scopes : ∀ scope ∈ contributedScopes dates now request state, (normalizeApplicationScope scope).isNone = false
  use : ∀ grant, (selectAuthority dates now request state).grant = some grant → UseLeft request state grant

/-- The result of `authorize`, when it does not throw. -/
def authorization (dates : Dates) (now : Int) (world : World) (request : AuthorizationRequest) :
    Option AuthorizationResult :=
  match (serve dates world ⟨now, .authorize request⟩).1 with
  | .ok (.authorization result) => some result
  | _ => none

/-- The decision of `authorize`. -/
def allows (dates : Dates) (now : Int) (world : World) (request : AuthorizationRequest) : Bool :=
  (authorization dates now world request).any AuthorizationResult.isAllowed

private theorem candidates_dead (none_live : (candidates req state).find? (isLive dates now) = none)
    (unrevoked : ¬ (candidates req state).any (fun cand => truthy cand.revokedAt) = true)
    (unexpired : ¬ (candidates req state).any (fun cand => isExpired dates cand.expiresAt now) = true) :
    candidates req state = [] := by
  cases listed : candidates req state with
  | nil => rfl
  | cons first rest =>
    rw [listed] at none_live unrevoked unexpired
    have dead := find?_eq_none.mp none_live first mem_cons_self
    simp only [any_cons, Bool.or_eq_true, not_or, Bool.not_eq_true] at unrevoked unexpired
    simp [isLive, unrevoked.1, unexpired.1] at dead

private theorem isNone_contributed :
    (intersectApplicationScopes (requestScopes req ++ (selectAuthority dates now req state).scopes)).isNone
      = true ↔ ∃ scope ∈ contributedScopes dates now req state, (normalizeApplicationScope scope).isNone = true :=
  isNone_intersect

/-- The matching succeeds with the selected authority, and exactly when something was
selected for an operation that needs it and no contributed scope is empty. -/
theorem matchAuthority_ok : matchAuthority dates now req state = .ok matched ↔
      matched = selectAuthority dates now req state ∧
      (consultsGrants req = true → (selectAuthority dates now req state).grant ≠ none ∨
        (selectAuthority dates now req state).rolePermission ≠ none) ∧
      ∀ scope ∈ contributedScopes dates now req state, (normalizeApplicationScope scope).isNone = false := by
  simp only [matchAuthority, denials_ok, denyIf_ok, isNone_contributed]
  constructor
  · rintro ⟨_, someRecord, _, notEmpty, _, notRevoked, _, notExpired, _, nonempty, same⟩
    cases same
    refine ⟨rfl, fun consults => ?_, fun scope member => ?_⟩
    · by_contra unmatched
      simp only [not_or, not_not] at unmatched
      -- nothing was selected: then there are no candidates, hence no role permissions either
      have noCandidates : candidates req state = [] :=
        candidates_dead unmatched.1 (fun revoked => notRevoked ⟨unmatched, revoked⟩)
          (fun expired => notExpired ⟨unmatched, expired⟩)
      have noPermissions : rolePermissions req state = [] := by
        by_contra some_left
        exact notEmpty ⟨unmatched, noCandidates, some_left⟩
      exact someRecord ⟨consults, noCandidates, noPermissions⟩
    · by_contra empty
      exact nonempty ⟨scope, member, by simpa using empty⟩
  · rintro ⟨rfl, selected, nonempty⟩
    have matchedWhenConsulted : ¬ ((selectAuthority dates now req state).grant = none ∧
        (selectAuthority dates now req state).rolePermission = none) ∨
        consultsGrants req = false := by
      cases consults : consultsGrants req with
      | false => exact Or.inr rfl
      | true =>
        refine Or.inl fun unmatched => ?_
        rcases selected consults with grant | permission
        · exact grant unmatched.1
        · exact permission unmatched.2
    -- an operation that consults nothing has neither candidates nor role permissions
    have idle : consultsGrants req = false →
        candidates req state = [] ∧ rolePermissions req state = [] := fun idle => by
      simp [candidates, rolePermissions, idle]
    refine ⟨(), ?_, (), ?_, (), ?_, (), ?_, (), ?_, rfl⟩
    · rintro ⟨consults, noCandidates, noPermissions⟩
      rcases selected consults with grant | permission
      · exact grant (by simp [selectAuthority, noCandidates])
      · exact permission (by simp [selectAuthority, noPermissions])
    · rintro ⟨unmatched, _, some_left⟩
      rcases matchedWhenConsulted with found | quiet
      · exact found unmatched
      · exact some_left (idle quiet).2
    · rintro ⟨unmatched, revoked⟩
      rcases matchedWhenConsulted with found | quiet
      · exact found unmatched
      · simp [(idle quiet).1] at revoked
    · rintro ⟨unmatched, expired⟩
      rcases matchedWhenConsulted with found | quiet
      · exact found unmatched
      · simp [(idle quiet).1] at expired
    · rintro ⟨scope, member, empty⟩
      simp [nonempty scope member] at empty

theorem planUse_allows : (∃ plan, planUse req matched state = .ok plan ∧ ∀ grant, plan ≠ .exhausted grant) ↔
      ∀ grant, matched.grant = some grant → UseLeft req state grant := by
  unfold planUse UseLeft
  cases matched.grant with
  | none => simp
  | some grant =>
    cases bound : grant.maximumUses with
    | none => simp [bound]
    | some maximumUses =>
      cases retry : sameRetry req grant state with
      | some => simp [bound, retry]
      | none =>
        by_cases left : (heldReservations grant.id state.reservations).length < maximumUses
        · simp [bound, retry, left, not_le.mpr left]
        · simp [bound, retry, left, not_lt.mp left]

def World.drew (world : World) : World := { world with drawn := world.drawn + 1 }

/-- The repository with the reference of an admitted command. -/
def Repository.enveloped (request : AuthorizationRequest) (repository : Repository) : Repository :=
  if truthy request.commandId then
    { repository with
      catalogReferences := repository.catalogReferences.put
        ⟨request.catalog.revision, .envelope, request.commandId.getD "",
          sortStrings (distinctValues [request.operation.id])⟩ }
  else repository

open Repository (enveloped)

private theorem execute_referenceEnvelope :
    execute (referenceEnvelope req) world = (.ok (), world.write (enveloped req)) := by
  unfold referenceEnvelope
  by_cases named : truthy req.commandId
  · have same : enveloped req world.repository = { world.repository with
        catalogReferences := world.repository.catalogReferences.put
          ⟨req.catalog.revision, .envelope, req.commandId.getD "",
            sortStrings (distinctValues [req.operation.id])⟩ } := by
      simp [enveloped, named]
    rw [if_pos named, World.write, same]
    rfl
  · have same : enveloped req world.repository = world.repository := by
      simp [enveloped, named]
    rw [if_neg named, World.write, same]
    rfl

/-- A receipt changes nothing but the audit, the ids drawn and the envelope's reference. -/
structure Receipted (before after : World) : Prop where
  permissions : after.repository.permissions = before.repository.permissions
  roles : after.repository.roles = before.repository.roles
  grants : after.repository.grants = before.repository.grants
  reservations : after.repository.reservations = before.repository.reservations
  ids : after.ids = before.ids
  drawn : before.drawn ≤ after.drawn

private theorem execute_drawId : execute Calls.id world = (.ok (world.ids world.drawn), world.drew) := rfl

private theorem execute_issueReceipt (matched : MatchedAuthority) (resv : Option GrantReservation) :
    ∃ after, execute (issueReceipt dates now req matched resv) before =
      (.ok (.allowed (authorizationReceipt dates now req matched resv
        (before.ids before.drawn)) resv), after) ∧ Receipted before after := by
  simp only [issueReceipt, exec_bind, execute_drawId, execute_referenceEnvelope, execute_audit, exec_pure]
  refine ⟨_, rfl, ?_⟩
  by_cases named : truthy req.commandId <;>
    exact ⟨by simp [World.drew, enveloped, named],
      by simp [World.drew, enveloped, named], by simp [World.drew, enveloped, named],
      by simp [World.drew, enveloped, named], rfl, by simp [World.audited, World.drew]; omega⟩

theorem issueReceipt_ok (ran : execute (issueReceipt dates now req matched resv) before = (.ok res, after)) :
    res = .allowed (authorizationReceipt dates now req matched resv
      (before.ids before.drawn)) resv ∧ Receipted before after := by
  obtain ⟨_, issued, kept⟩ : ∃ after, _ ∧ Receipted before after := execute_issueReceipt matched resv
  rw [issued] at ran
  cases ran
  exact ⟨rfl, kept⟩

theorem denyAuthorization_ok (ran : execute (denyAuthorization dates now req denial) before = (.ok res, after)) :
    res = .denied denial ∧ Receipted before after := by
  obtain ⟨rfl, rfl⟩ := ran
  exact ⟨rfl, rfl, rfl, rfl, rfl, rfl, le_succ _⟩

/-- What authorizing does to the reservations, by the plan it followed. -/
inductive UseSettled (dates : Dates) (now : Int) (request : AuthorizationRequest) (before after : World) :
    UsePlan → Option GrantReservation → Prop where
  | unbounded (kept : Receipted before after) : UseSettled dates now request before after .unbounded none
  | retry {reservation : GrantReservation} (kept : Receipted before after) :
      UseSettled dates now request before after (.retry reservation) (some reservation)
  | fresh {grant : GrantRecord} {reservation : GrantReservation}
      (named : reservation = newReservation dates now request grant (before.ids before.drawn))
      (permissions : after.repository.permissions = before.repository.permissions)
      (roles : after.repository.roles = before.repository.roles)
      (grants : after.repository.grants = before.repository.grants)
      (reservations : after.repository.reservations = before.repository.reservations.put reservation)
      (ids : after.ids = before.ids) (drawn : before.drawn < after.drawn) :
      UseSettled dates now request before after (.fresh grant) (some reservation)

private theorem reserve_ok (ran : execute (reserve dates now req grant) before = (.ok resv, after)) :
    resv = newReservation dates now req grant (before.ids before.drawn) ∧
      Receipted { before with
        drawn := before.drawn + 1
        repository := { before.repository with
          reservations := before.repository.reservations.put resv } } after := by
  simp only [reserve, exec_bind, execute_drawId, execute_putReservation, execute_audit, exec_pure,
    Prod.mk.injEq, Except.ok.injEq] at ran
  obtain ⟨rfl, rfl⟩ := ran
  exact ⟨rfl, rfl, rfl, rfl, rfl, rfl, le_succ _⟩

theorem settleUse_ok (ran : execute (settleUse dates now req matched plan) before = (.ok res, after)) :
    (∃ grant denial, plan = .exhausted grant ∧ res = .denied denial ∧ Receipted before after) ∨
      ∃ resv receiptId, UseSettled dates now req before after plan resv ∧
        res = .allowed (authorizationReceipt dates now req matched resv receiptId) resv := by
  cases plan with
  | unbounded =>
    obtain ⟨rfl, kept⟩ := issueReceipt_ok ran
    exact Or.inr ⟨none, _, .unbounded kept, rfl⟩
  | retry resv =>
    obtain ⟨rfl, kept⟩ := issueReceipt_ok ran
    exact Or.inr ⟨some resv, _, .retry kept, rfl⟩
  | fresh grant =>
    rw [settleUse, Lib.Program.exec_bind_ok] at ran
    obtain ⟨resv, _, reserved, ran⟩ := ran
    obtain ⟨named, stored⟩ := reserve_ok reserved
    obtain ⟨rfl, kept⟩ := issueReceipt_ok ran
    refine Or.inr ⟨some resv, _, .fresh named ?_ ?_ ?_ ?_ ?_ ?_, rfl⟩
    · rw [kept.permissions, stored.permissions]
    · rw [kept.roles, stored.roles]
    · rw [kept.grants, stored.grants]
    · rw [kept.reservations, stored.reservations]
    · rw [kept.ids, stored.ids]
    · exact lt_of_lt_of_le (lt_succ_self _) (le_trans stored.drawn kept.drawn)
  | exhausted grant =>
    obtain ⟨rfl, kept⟩ := denyAuthorization_ok ran
    exact Or.inl ⟨grant, _, rfl, rfl, kept⟩

/-- An execution of `authorize` that does not throw denies and writes only its audit
entry, or follows a plan for the authority it selected. -/
theorem authorize_ok (ran : execute (authorize dates now req) before = (.ok res, after)) :
    (∃ denial, res = .denied denial ∧ Receipted before after ∧
        ¬ PassesGates dates now req before.repository.snapshot) ∨ ∃ plan resv receiptId,
        PassesGates dates now req before.repository.snapshot ∧
        planUse req (selectAuthority dates now req before.repository.snapshot)
          before.repository.snapshot = .ok plan ∧ UseSettled dates now req before after plan resv ∧
        res = .allowed (authorizationReceipt dates now req
          (selectAuthority dates now req before.repository.snapshot) resv receiptId) resv := by
  unfold authorize at ran
  cases admitted : admission req with
  | error denial =>
    rw [admitted] at ran
    obtain ⟨rfl, kept⟩ := denyAuthorization_ok ran
    refine Or.inl ⟨denial, rfl, kept, fun gates => ?_⟩
    have passed := gates.admitted
    rw [admitted] at passed
    cases passed
  | ok _ =>
    simp only [admitted, exec_bind, execute_snapshot] at ran
    cases decided : matchAuthority dates now req before.repository.snapshot with
    | error denial =>
      rw [decided] at ran
      obtain ⟨rfl, kept⟩ := denyAuthorization_ok ran
      refine Or.inl ⟨denial, rfl, kept, fun gates => ?_⟩
      have passed := matchAuthority_ok.mpr ⟨rfl, gates.matched, gates.scopes⟩
      rw [decided] at passed
      cases passed
    | ok =>
      obtain ⟨rfl, selected, nonempty⟩ := matchAuthority_ok.mp decided
      simp only [decided, ↓exec_check_bind_ok] at ran
      obtain ⟨plan, planned, ran⟩ := ran
      rcases settleUse_ok ran with ⟨grant, denial, rfl, rfl, kept⟩ | ⟨resv, receiptId, settled, rfl⟩
      · refine Or.inl ⟨denial, rfl, kept, fun gates => ?_⟩
        obtain ⟨_, same, allowed⟩ := planUse_allows.mpr gates.use
        rw [planned] at same
        cases same
        exact allowed grant rfl
      · refine Or.inr ⟨plan, resv, receiptId, ⟨admitted, selected, nonempty, ?_⟩, planned, settled, rfl⟩
        refine planUse_allows.mp ⟨plan, planned, fun grant exhausted => ?_⟩
        subst exhausted
        cases settled

theorem authorize_of_passesGates (gates : PassesGates dates now req before.repository.snapshot) :
    ∃ receipt resv after, execute (authorize dates now req) before =
      (.ok (.allowed receipt resv), after) := by
  obtain ⟨plan, planned, allowed⟩ := planUse_allows.mpr gates.use
  have decided := matchAuthority_ok.mpr ⟨rfl, gates.matched, gates.scopes⟩
  have settles : execute (authorize dates now req) before = execute (settleUse dates now req
        (selectAuthority dates now req before.repository.snapshot) plan) before := by
    simp [authorize, gates.admitted, exec_bind, decided, planned]
  rw [settles]
  cases plan with
  | unbounded | retry resv =>
    obtain ⟨after, issued, _⟩ := execute_issueReceipt _ _
    exact ⟨_, _, after, issued⟩
  | fresh grant =>
    obtain ⟨after, issued, _⟩ := execute_issueReceipt _ _
    exact ⟨_, _, after, issued⟩
  | exhausted grant => exact absurd rfl (allowed grant)

theorem authorization_eq_some : authorization dates now world req = some res ↔
      execute (authorize dates now req) world = (.ok res, advance dates world ⟨now, .authorize req⟩) := by
  unfold authorization advance
  generalize ended : serve dates world ⟨now, .authorize req⟩ = out
  obtain ⟨_ | _, after⟩ := out
  · constructor
    · intro none_result
      cases none_result
    · intro ran
      have served : serve dates world ⟨now, .authorize req⟩ = (.ok (.authorization res), after) :=
        serial_transaction_ok.mpr ⟨res, ran, rfl⟩
      rw [ended] at served
      cases served
  obtain ⟨_, ran, rfl⟩ := serial_transaction_ok.mp ended
  constructor
  · intro same
    cases same
    exact ran
  intro same
  have agree := ran.symm.trans same
  cases agree
  rfl

theorem allows_iff : allows dates now world req = true ↔
    PassesGates dates now req world.repository.snapshot := by
  unfold allows
  constructor
  · intro allowed
    cases decided : authorization dates now world req with
    | none => simp [decided] at allowed
    | some res =>
      rcases authorize_ok (authorization_eq_some.mp decided) with ⟨_, rfl, _, _⟩ | ⟨_, _, _, gates, _⟩
      · simp [decided, AuthorizationResult.isAllowed] at allowed
      · exact gates
  · intro gates
    obtain ⟨receipt, resv, after, ran⟩ := authorize_of_passesGates gates
    have served : serve dates world ⟨now, .authorize req⟩ = (.ok (.authorization (.allowed receipt resv)), after) :=
      serial_transaction_ok.mpr ⟨_, ran, rfl⟩
    simp [authorization, served, AuthorizationResult.isAllowed]

end Applik8s.Authority
