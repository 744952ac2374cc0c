import Applik8s.Authority.AuthorizeProofs

/-! Bounded grants over whole runs of `authorize` and `transitionReservation`: no grant
ever has more held reservations than uses, and a reservation only moves along its
state machine. What an allowed request carries is a reservation that holds a use,
except that the retry lookup does not read states: a retry of a released or expired
reservation is allowed on a use it no longer holds. -/
namespace Applik8s.Authority
open List Option Nat
open Lib (Keyed Table runFrom EachStep)
open Lib.Program (exec_pure exec_check_bind_ok)
variable {dates : Dates} {now : Int} {request : AuthorizationRequest} {before after world : World}

/-- No bounded grant has more held reservations than uses. -/
def WithinBounds (repository : Repository) : Prop :=
  ∀ grant ∈ repository.grants.rows, ∀ maximumUses, grant.maximumUses = some maximumUses →
    (heldReservations grant.id repository.reservations.rows).length ≤ maximumUses

/-- The generator never repeats an id, and has not yet produced one that names a
reservation. -/
structure FreshIds (world : World) : Prop where
  distinct : Function.Injective world.ids
  unused : ∀ reservation ∈ world.repository.reservations.rows, ∀ drawn, world.drawn ≤ drawn →
    world.ids drawn ≠ reservation.id

/-- The operations that reserve uses and move reservations. -/
def TouchesReservations : Operation → Prop
  | .authorize _ => True
  | .transitionReservation .. => True
  | _ => False

def Moves (current next : ReservationState) : Prop := next ∈ allowedTransitions current

inductive ReservationChange (before after : World) : Prop where
  | kept (same : after.repository.reservations = before.repository.reservations)
  | reserved {grant : GrantRecord} {maximumUses : Nat} {reservation : GrantReservation}
      (stored : grant ∈ before.repository.grants.rows) (bounded : grant.maximumUses = some maximumUses)
      (left : (heldReservations grant.id before.repository.reservations.rows).length < maximumUses)
      (named : reservation.id = before.ids before.drawn) (drawn : before.drawn < after.drawn)
      (held : reservation.grantId = grant.id)
      (put : after.repository.reservations = before.repository.reservations.put reservation)
  | moved {reservation updated : GrantReservation}
      (stored : reservation ∈ before.repository.reservations.rows) (same : updated.id = reservation.id)
      (held : updated.grantId = reservation.grantId)
      (legal : reservation.state = updated.state ∨ Moves reservation.state updated.state)
      (put : after.repository.reservations = before.repository.reservations.put updated)

structure ReservationEffect (before after : World) : Prop where
  grants : after.repository.grants = before.repository.grants
  ids : after.ids = before.ids
  drawn : before.drawn ≤ after.drawn
  change : ReservationChange before after

private theorem Receipted.effect (kept : Receipted before after) : ReservationEffect before after :=
  ⟨kept.grants, kept.ids, kept.drawn, .kept kept.reservations⟩

variable {grant : GrantRecord}

theorem planUse_fresh (planned : planUse req matched state = .ok (.fresh grant)) :
    matched.grant = some grant ∧ sameRetry req grant state = none ∧
      ∃ maximumUses, grant.maximumUses = some maximumUses ∧
        (heldReservations grant.id state.reservations).length < maximumUses := by
  unfold planUse at planned
  split at planned
  · cases planned
  rename_i selected found
  split at planned
  · cases planned
  rename_i maximumUses bounded
  simp only [checks_ok, refuseIf_ok] at planned
  obtain ⟨_, _, planned⟩ := planned
  split at planned
  · cases planned
  rename_i retry
  split at planned
  · cases planned
  rename_i left
  cases planned
  exact ⟨found, retry, maximumUses, bounded, Nat.lt_of_not_le left⟩

theorem planUse_retry (planned : planUse req matched state = .ok (.retry resv)) :
    ∃ grant, matched.grant = some grant ∧ sameRetry req grant state = some resv := by
  unfold planUse at planned
  split at planned
  · cases planned
  rename_i selected found
  split at planned
  · cases planned
  simp only [checks_ok, refuseIf_ok] at planned
  obtain ⟨_, _, planned⟩ := planned
  split at planned
  · rename_i retry
    cases planned
    exact ⟨selected, found, retry⟩
  · split at planned <;> cases planned

theorem planUse_unbounded (planned : planUse req matched state = .ok .unbounded) :
    ∀ grant, matched.grant = some grant → grant.maximumUses = none := by
  intro grant selected
  unfold planUse at planned
  rw [selected] at planned
  cases bound : grant.maximumUses with
  | none => rfl
  | some =>
    simp only [bound, checks_ok, refuseIf_ok] at planned
    obtain ⟨_, _, planned⟩ := planned
    split at planned
    · cases planned
    · split at planned <;> cases planned

theorem mem_of_selected (selected : (selectAuthority dates now request state).grant = some grant)
    : grant ∈ state.grants := by
  have member := mem_of_find?_eq_some selected
  unfold candidates at member
  split at member
  · exact (mem_filter.mp member).1
  · cases member

theorem authorize_effect (ran : execute (authorize dates now req) before = (.ok res, after))
    : ReservationEffect before after := by
  rcases authorize_ok ran with ⟨_, _, kept, _⟩ | ⟨_, _, _, _, planned, settled, _⟩
  · exact kept.effect
  cases settled with
  | unbounded kept => exact kept.effect
  | retry kept => exact kept.effect
  | fresh named _ _ grants reservations ids drawn =>
    obtain ⟨selected, _, _, bounded, left⟩ := planUse_fresh planned
    refine ⟨grants, ids, le_of_lt drawn, .reserved (mem_of_selected selected) bounded left ?_ drawn ?_ reservations⟩
    · simp [named, newReservation]
    · simp [named, newReservation]

theorem assertReservationTransition_ok :
    assertReservationTransition cur new = .ok value ↔ cur = new ∨ Moves cur new := by
  unfold assertReservationTransition Moves
  split
  · simp_all
  · simp_all

theorem transitionReservation_effect
    (ran : execute (transitionReservation dates now reservationId new uncertainEffect) before = (.ok stored, after))
    : ReservationEffect before after := by
  simp only [transitionReservation, execute_snapshot_bind, exec_check_bind_ok, found_ok,
    assertReservationTransition_ok, execute_putReservation_bind, exec_pure, Prod.mk.injEq,
    Except.ok.injEq] at ran
  obtain ⟨_, lookup, _, legal, rfl, rfl⟩ := ran
  refine ⟨rfl, rfl, le_refl _, .moved (mem_of_find?_eq_some lookup) ?_ ?_ ?_ rfl⟩
  · rfl
  · rfl
  · exact legal

theorem reservation_step (submission : Submission) (touches : TouchesReservations submission.operation) :
    ReservationEffect before (advance dates before submission) := by
  obtain ⟨now, op⟩ := submission
  generalize served : serve dates before ⟨now, op⟩ = out
  have unchanged : ∀ {error after}, out = (.error error, after) →
      after.repository = before.repository ∧ after.ids = before.ids ∧ before.drawn ≤ after.drawn →
      ReservationEffect before (advance dates before ⟨now, op⟩) := by
    rintro error after rfl ⟨repo, ids, drawn⟩
    have ended : advance dates before ⟨now, op⟩ = after := by simp [advance, served]
    rw [ended]
    exact ⟨by rw [repo], ids, drawn, .kept (by rw [repo])⟩
  have succeeded : ∀ {resp after}, out = (.ok resp, after) →
      ReservationEffect before after → ReservationEffect before (advance dates before ⟨now, op⟩) := by
    rintro resp after rfl _
    have ended : advance dates before ⟨now, op⟩ = after := by simp [advance, served]
    rwa [ended]
  obtain ⟨_ | _, _⟩ := out
  · cases op with
    | authorize => exact unchanged rfl (serial_transaction_error served)
    | transitionReservation => exact unchanged rfl (serial_transaction_error served)
    | _ => exact touches.elim
  cases op with
  | authorize =>
    obtain ⟨_, ran, _⟩ := serial_transaction_ok.mp served
    exact succeeded rfl (authorize_effect ran)
  | transitionReservation =>
    obtain ⟨_, ran, _⟩ := serial_transaction_ok.mp served
    exact succeeded rfl (transitionReservation_effect ran)
  | _ => exact touches.elim

private theorem heldReservations_length (grantId : String) (reservations : List GrantReservation) :
    (heldReservations grantId reservations).length =
      reservations.countP fun cand => cand.grantId = grantId ∧ ¬ cand.state.isSpent := by
  rw [heldReservations, countP_eq_length_filter]

private theorem not_moves_of_isSpent (spent : cur.isSpent = true) : ¬ Moves cur new := by
  cases cur <;> simp_all [ReservationState.isSpent, Moves, allowedTransitions]

theorem withinBounds_step (effect : ReservationEffect before after) (within : WithinBounds before.repository) :
    WithinBounds after.repository := by
  intro grant member maximumUses bounded
  rw [effect.grants] at member
  have limit := within grant member maximumUses bounded
  rw [heldReservations_length] at limit ⊢
  cases effect.change with
  | kept same => rwa [same]
  | @reserved chosen _ resv stored chosenBounded left _ _ held put =>
    rw [put]
    have counted := Table.countP_writeRow_le (fun cand => cand.grantId = grant.id ∧ ¬ cand.state.isSpent) resv
      before.repository.reservations.rows
    by_cases same : chosen.id = grant.id
    · -- the grant that was reserved: it had a use left
      have identical : chosen = grant := Table.eq_of_key_eq stored member same
      subst identical
      rw [bounded, some.injEq] at chosenBounded
      rw [heldReservations_length] at left
      refine le_trans counted ?_
      split <;> omega
    · have apart : decide (resv.grantId = grant.id ∧ ¬ resv.state.isSpent = true) = false := by
        simp [held, same]
      simp only [apart, Bool.false_eq_true, if_false, Nat.add_zero] at counted
      exact le_trans counted limit
  | @moved _ _ stored same held legal put =>
    rw [put]
    refine le_trans (Table.countP_writeRow_replace _ before.repository.reservations.distinct stored same.symm ?_) limit
    simp only [decide_eq_true_eq]
    rintro ⟨ofGrant, unspent⟩
    refine ⟨held ▸ ofGrant, fun spent => ?_⟩
    rcases legal with unmoved | moves
    · exact unspent (unmoved ▸ spent)
    · exact not_moves_of_isSpent spent moves

/-! ### The state machine -/

theorem freshIds_step (effect : ReservationEffect before after) (fresh : FreshIds before) : FreshIds after := by
  refine ⟨effect.ids ▸ fresh.distinct, fun resv member drawn later => ?_⟩
  rw [effect.ids]
  have older : before.drawn ≤ drawn := le_trans effect.drawn later
  cases effect.change with
  | kept same =>
    rw [same] at member
    exact fresh.unused resv member drawn older
  | reserved _ _ _ named advanced _ put =>
    rw [put, Table.mem_put] at member
    rcases member with rfl | ⟨member, _⟩
    · rw [named]
      intro repeated
      have same := fresh.distinct repeated
      omega
    · exact fresh.unused resv member drawn older
  | moved stored same _ _ put =>
    rw [put, Table.mem_put] at member
    rcases member with rfl | ⟨member, _⟩
    · rw [same]
      exact fresh.unused _ stored drawn older
    · exact fresh.unused resv member drawn older

/-- Every reservation is still there, for the same grant, and its state was reached by
moves of the state machine. -/
def OnlyMoved (before after : World) : Prop :=
  ∀ reservation ∈ before.repository.reservations.rows, ∃ later ∈ after.repository.reservations.rows,
    later.id = reservation.id ∧ later.grantId = reservation.grantId ∧
      Relation.ReflTransGen Moves reservation.state later.state

theorem onlyMoved_step (effect : ReservationEffect before after) (fresh : FreshIds before) :
    OnlyMoved before after := by
  intro resv member
  cases effect.change with
  | kept same => exact ⟨resv, by rwa [same], rfl, rfl, .refl⟩
  | reserved _ _ _ named _ _ put =>
    refine ⟨resv, ?_, rfl, rfl, .refl⟩
    rw [put, Table.mem_put]
    refine Or.inr ⟨member, fun collided => ?_⟩
    exact fresh.unused resv member before.drawn (le_refl _) (named.symm.trans collided.symm)
  | @moved moved updated stored same held legal put =>
    by_cases identical : resv = moved
    · subst identical
      refine ⟨updated, by rw [put, Table.mem_put]; exact Or.inl rfl, same, held, ?_⟩
      rcases legal with unmoved | moves
      · rw [unmoved]
      · exact .single moves
    · refine ⟨resv, ?_, rfl, rfl, .refl⟩
      rw [put, Table.mem_put]
      refine Or.inr ⟨member, fun collided => identical ?_⟩
      exact Table.eq_of_key_eq member stored (collided.trans same)

theorem OnlyMoved.trans (earlier : OnlyMoved first second) (later : OnlyMoved second third)
    : OnlyMoved first third := by
  intro resv member
  obtain ⟨middle, inside, id, grantId, moved⟩ := earlier resv member
  obtain ⟨last, stored, id', grantId', movedOn⟩ := later middle inside
  exact ⟨last, stored, id'.trans id, grantId'.trans grantId, moved.trans movedOn⟩

private theorem carried_is_held_iff
    (ran : execute (authorize dates now req) before = (.ok (.allowed receipt resv), after))
    (stored : grant ∈ before.repository.grants.rows) (listed : grant.id ∈ receipt.matchedGrantIds)
    (bounded : grant.maximumUses = some maximumUses) :
    (∃ held ∈ heldReservations grant.id after.repository.reservations.rows, resv = some held) ↔
      ∀ retry, sameRetry req grant before.repository.snapshot = some retry → retry.state.isSpent = false := by
  rcases authorize_ok ran with ⟨_, denied, _⟩ | ⟨_, _, _, _, planned, settled, issued⟩
  · cases denied
  cases issued
  -- the receipt names the selected grant, which is the stored one
  have selected : (selectAuthority dates now req before.repository.snapshot).grant = some grant := by
    simp only [authorizationReceipt, mem_toList, map_eq_some_iff] at listed
    obtain ⟨chosen, found, sameId⟩ := listed
    rw [found, Table.eq_of_key_eq (mem_of_selected found) stored sameId]
  cases settled with
  | unbounded =>
    have free := planUse_unbounded planned grant selected
    rw [bounded] at free
    cases free
  | @retry resv kept =>
    obtain ⟨chosen, found, lookup⟩ := planUse_retry planned
    rw [selected, some.injEq] at found
    subst found
    have ofGrant : resv.grantId = grant.id := by
      have matching := find?_some lookup
      simp only [decide_eq_true_eq] at matching
      exact matching.1
    have member : resv ∈ before.repository.reservations.rows := mem_of_find?_eq_some lookup
    rw [lookup, kept.reservations]
    simp [heldReservations, member, ofGrant]
  | @fresh chosen resv named _ _ _ reservations _ _ =>
    obtain ⟨found, absent, _⟩ := planUse_fresh planned
    rw [selected, some.injEq] at found
    subst found
    rw [absent, reservations]
    have inside : resv ∈ (before.repository.reservations.put resv).rows :=
      Table.mem_put.mpr (Or.inl rfl)
    have ofGrant : resv.grantId = grant.id := by simp [named, newReservation]
    have unspent : resv.state.isSpent = false := by simp [named, newReservation, ReservationState.isSpent]
    simp [heldReservations, inside, ofGrant, unspent]

def oneUseWorld : World :=
  sampleWorld (sampleRepository [samplePermission] []
    [{ sampleGrant "clerk-orders" "clerk" with maximumUses := some 1 }])

def useRequest (key : String) : AuthorizationRequest :=
  { sampleRequest with idempotencyKey := some key, commandId := some key, targetDigest := some "sha256:order" }

private theorem oneUseWorld_fresh : FreshIds oneUseWorld := by
  refine ⟨sampleIds_injective, ?_⟩
  intro resv member
  cases member

private theorem oneUseWorld_within : WithinBounds oneUseWorld.repository := by
  intro grant _ maximumUses _
  exact zero_le _

end Applik8s.Authority
