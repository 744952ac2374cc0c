import Mathlib.Data.List.MinMax
import Applik8s.Billing.Convergence

/-! `projectSubscriptionEvent`, folded over the deliveries of a subscription's events. The reducer knows a repeated
event only by the last one it applied, and of two events of one time it keeps whichever arrives later, where the
handler of `Billing.Projection` keeps the row it has. -/
namespace Applik8s.Billing
open List Option

section
structure SubscriptionProjectionState where
  providerEventId : String
  providerOccurredAt : String
  principalScope : String
  plan : String
  status : PaymentStatus
  periodStart : String
  periodEnd : String
  deriving DecidableEq

def PaymentProviderEvent.projected (event : PaymentProviderEvent) : SubscriptionProjectionState where
  providerEventId := event.id
  providerOccurredAt := event.occurredAt
  principalScope := event.principalScope
  plan := event.plan
  status := event.status
  periodStart := event.periodStart
  periodEnd := event.periodEnd

variable (runtime : Runtime)

/-- `Date.parse(current) > Date.parse(next)`. -/
def isAfter (current next : String) : Bool :=
  match runtime.dates.parse current, runtime.dates.parse next with
  | some current, some next => next < current
  | _, _ => false

variable (current : Option SubscriptionProjectionState) (events : List PaymentProviderEvent)

def projectSubscriptionEvent (event : PaymentProviderEvent) :
    SubscriptionProjectionState :=
  match current with
  | some state =>
    if state.providerEventId = event.id || isAfter runtime state.providerOccurredAt event.occurredAt then state
    else event.projected
  | none => event.projected

def reduced (deliveries : List PaymentProviderEvent) :
    Option SubscriptionProjectionState :=
  deliveries.foldl (fun current event => some (projectSubscriptionEvent runtime current event)) current

def Redelivers (events deliveries : List PaymentProviderEvent) : Prop :=
  ∃ again, again ⊆ events ∧ deliveries.Perm (events ++ again)

def Greatest (event : PaymentProviderEvent) : Prop :=
  event ∈ events ∧ ∀ other ∈ events, isAfter runtime other.occurredAt event.occurredAt = false

/-- The greatest events project to one state, and no earlier event carries the id of one. -/
def Decided : Prop :=
  ∀ last, Greatest runtime events last → ∀ other ∈ events,
    (Greatest runtime events other → other.projected = last.projected) ∧
      (other.id = last.id → Greatest runtime events other)

end

section
variable {runtime : Runtime} {events deliveries : List PaymentProviderEvent} {event last : PaymentProviderEvent}

theorem reduced_append (cur : Option SubscriptionProjectionState) (first second : List PaymentProviderEvent) :
    reduced runtime cur (first ++ second) = reduced runtime (reduced runtime cur first) second :=
  foldl_append

theorem Redelivers.mem_iff (redelivers : Redelivers events deliveries) : event ∈ deliveries ↔ event ∈ events := by
  obtain ⟨_, within, perm⟩ := redelivers
  rw [perm.mem_iff, mem_append]
  exact ⟨fun among => among.elim id fun repeated => within repeated, .inl⟩

theorem redelivers_refl : Redelivers events events := ⟨[], nil_subset _, by simp⟩

theorem reduced_from (runtime : Runtime) (event : PaymentProviderEvent) (deliveries : List PaymentProviderEvent) :
    ∃ other ∈ event :: deliveries, reduced runtime (some event.projected) deliveries = some other.projected := by
  induction deliveries generalizing event with
  | nil => exact ⟨event, mem_cons_self, rfl⟩
  | cons next rest ih =>
    have step : projectSubscriptionEvent runtime (some event.projected) next = event.projected ∨
        projectSubscriptionEvent runtime (some event.projected) next = next.projected := by
      unfold projectSubscriptionEvent
      dsimp only
      split <;> simp
    rcases step with stays | moves
    · obtain ⟨other, among, is⟩ := ih event
      exact ⟨other, by simp at among ⊢; tauto, by rw [← is, reduced, foldl_cons, stays]; rfl⟩
    · obtain ⟨other, among, is⟩ := ih next
      exact ⟨other, by simp at among ⊢; tauto, by rw [← is, reduced, foldl_cons, moves]; rfl⟩

theorem reduced_stays (held : ∀ next ∈ deliveries, event.id = next.id ∨
    isAfter runtime event.occurredAt next.occurredAt = true) :
    reduced runtime (some event.projected) deliveries = some event.projected := by
  induction deliveries with
  | nil => rfl
  | cons next rest ih =>
    have here := held next mem_cons_self
    have step : projectSubscriptionEvent runtime (some event.projected) next = event.projected :=
      if_pos ((Bool.or_eq_true _ _).mpr (here.imp_left decide_eq_true))
    rw [reduced, foldl_cons, step]
    exact ih fun other among => held other (mem_cons_of_mem _ among)

variable (valid : ∀ event ∈ events, (event.instant runtime).isSome)
include valid

private theorem exists_times : ∃ time : PaymentProviderEvent → Int, ∀ one ∈ events, ∀ other ∈ events,
    (isAfter runtime one.occurredAt other.occurredAt = true ↔ time other < time one) := by
  refine ⟨fun event => (event.instant runtime).getD 0, fun one among other among' => ?_⟩
  obtain ⟨_, is⟩ := isSome_iff_exists.mp (valid one among)
  obtain ⟨_, is'⟩ := isSome_iff_exists.mp (valid other among')
  unfold PaymentProviderEvent.instant at is is' ⊢
  simp [isAfter, is, is']

theorem exists_greatest (some : event ∈ events) : ∃ last, Greatest runtime events last := by
  obtain ⟨time, compares⟩ := exists_times valid
  obtain ⟨last, is⟩ := ne_none_iff_exists'.mp (mt argmax_eq_none.mp (ne_nil_of_mem some) : events.argmax time ≠ none)
  have among := argmax_mem is
  refine ⟨last, among, fun other here => Bool.eq_false_iff.mpr ?_⟩
  rw [ne_eq, compares other here last among, not_lt]
  exact le_of_mem_argmax here is

theorem Greatest.of_notAfter (greatest : Greatest runtime events last) (among : event ∈ events)
    (notAfter : isAfter runtime last.occurredAt event.occurredAt = false) : Greatest runtime events event := by
  obtain ⟨_, compares⟩ := exists_times valid
  refine ⟨among, fun other here => Bool.eq_false_iff.mpr ?_⟩
  have first := Bool.eq_false_iff.mp notAfter
  have second := Bool.eq_false_iff.mp (greatest.2 other here)
  rw [ne_eq, compares _ greatest.1 _ among] at first
  rw [ne_eq, compares _ here _ greatest.1] at second
  rw [ne_eq, compares _ here _ among]
  omega

theorem reduced_greatest (decided : Decided runtime events) (within : deliveries ⊆ events)
    (delivered : event ∈ deliveries) : ∃ last ∈ deliveries, reduced runtime none deliveries = some last.projected ∧
      ∀ greatest ∈ deliveries, Greatest runtime events greatest → Greatest runtime events last := by
  induction deliveries using List.reverseRecOn generalizing event with
  | nil => exact absurd delivered not_mem_nil
  | append_singleton before next ih =>
    have here : next ∈ events := within (by simp)
    rw [reduced_append]
    cases before with
    | nil => exact ⟨next, by simp, rfl, by simp⟩
    | cons =>
      obtain ⟨last, among, is, leads⟩ := ih (fun _ among => within (mem_append_left _ among)) mem_cons_self
      have known : last ∈ events := within (mem_append_left _ among)
      rw [is]
      simp only [reduced, foldl_cons, foldl_nil, projectSubscriptionEvent, some.injEq]
      split
      next stays =>
        refine ⟨last, mem_append_left _ among, rfl, fun greatest there is => ?_⟩
        rcases mem_append.mp there with there | there
        · exact leads greatest there is
        obtain rfl := mem_singleton.mp there
        rcases (Bool.or_eq_true _ _).mp stays with same | later
        · exact (decided greatest is last known).2 (of_decide_eq_true same)
        · exact absurd later (by rw [PaymentProviderEvent.projected]; simp [is.2 last known])
      next moves =>
        simp only [Bool.or_eq_true, not_or, Bool.not_eq_true] at moves
        refine ⟨next, by simp, rfl, fun greatest there is => ?_⟩
        rcases mem_append.mp there with there | there
        · exact (leads greatest there is).of_notAfter valid here moves.2
        · exact mem_singleton.mp there ▸ is

/-- The final state is the same for all orders and redeliveries, and that of an event that occurred last, exactly
where the greatest events project to one state and no earlier event carries the id of one. -/
theorem reducer_order_independent_iff :
    (∀ deliveries, Redelivers events deliveries → reduced runtime none deliveries = reduced runtime none events ∧
      ∀ state, reduced runtime none deliveries = some state →
        ∃ last, Greatest runtime events last ∧ state = last.projected) ↔ Decided runtime events := by
  classical
  constructor
  · intro independent last greatest
    obtain ⟨first, among, final, -⟩ : ∃ first ∈ events, reduced runtime none events = some first.projected ∧ True := by
      cases events with
      | nil => exact absurd greatest.1 not_mem_nil
      | cons event rest =>
        obtain ⟨other, among, is⟩ := reduced_from runtime event rest
        exact ⟨other, among, is, trivial⟩
    obtain ⟨chosen, greatest', same⟩ := (independent events redelivers_refl).2 _ final
    -- a greatest event that is delivered again at the end would replace one of another id
    have ids : ∀ one, Greatest runtime events one → one.id = chosen.id := by
      intro one is
      by_contra other
      have again := (independent (events ++ [one]) ⟨[one], by simpa using is.1, .rfl⟩).1
      rw [reduced_append, final, same] at again
      have moves : reduced runtime (some chosen.projected) [one] = some one.projected := by
        have notAfter := is.2 chosen greatest'.1
        simp [reduced, projectSubscriptionEvent, PaymentProviderEvent.projected, notAfter, Ne.symm other]
      rw [moves] at again
      exact other (congrArg SubscriptionProjectionState.providerEventId (some.inj again))
    have earlier : ∀ one, Greatest runtime events one → ∀ other ∈ events, ¬ Greatest runtime events other →
        isAfter runtime one.occurredAt other.occurredAt = true := fun one is other among lesser =>
      Bool.not_eq_false _ ▸ fun notAfter => lesser (is.of_notAfter valid among notAfter)
    have projects : ∀ one, Greatest runtime events one → one.projected = chosen.projected := by
      intro one is
      have first := (independent (one :: events) ⟨[one], by simpa using is.1, perm_append_singleton one events |>.symm⟩).1
      rw [final, same] at first
      refine some.inj ((reduced_stays fun next among => ?_).symm.trans first)
      by_cases greatest : Greatest runtime events next
      · exact .inl ((ids one is).trans (ids next greatest).symm)
      · exact .inr (earlier one is next among greatest)
    refine fun other here => ⟨fun is => (projects other is).trans (projects last greatest).symm, fun sameId => ?_⟩
    by_contra lesser
    -- delivered first, it hides every greatest event, and none but lesser ones follow
    let hidden := events.filter (Greatest runtime events ·)
    let lessers := events.filter fun event => !decide (Greatest runtime events event)
    have perm : (other :: (hidden ++ lessers)).Perm (events ++ [other]) :=
      ((filter_append_perm _ events).cons other).trans (perm_append_singleton other events).symm
    have hides : reduced runtime (some other.projected) hidden = some other.projected :=
      reduced_stays fun next among => by
        have is := of_decide_eq_true (mem_filter.mp among).2
        exact .inl (sameId.trans ((ids last greatest).trans (ids next is).symm))
    obtain ⟨end_, among', ends⟩ := reduced_from runtime other lessers
    have settles := (independent _ ⟨[other], by simpa using here, perm⟩).1
    rw [reduced, foldl_cons, ← reduced, reduced_append, show some (projectSubscriptionEvent runtime none other) =
      some other.projected from rfl, hides, ends, final, same] at settles
    have lesser' : end_ ∈ events ∧ ¬ Greatest runtime events end_ := by
      rcases mem_cons.mp among' with rfl | among'
      · exact ⟨here, lesser⟩
      · simpa [lessers] using among'
    have late := earlier chosen greatest' end_ lesser'.1 lesser'.2
    have time : end_.occurredAt = chosen.occurredAt :=
      congrArg SubscriptionProjectionState.providerOccurredAt (some.inj settles)
    rw [time, greatest'.2 chosen greatest'.1] at late
    cases late
  · intro decided deliveries redelivers
    have alike : ∀ some, Redelivers events some → ∀ event ∈ events, ∃ last, Greatest runtime events last ∧
        reduced runtime none some = Option.some last.projected := by
      intro some redelivers event among
      obtain ⟨greatest, is⟩ := exists_greatest valid among
      obtain ⟨last, -, final, leads⟩ := reduced_greatest valid decided (fun _ => redelivers.mem_iff.mp)
        (redelivers.mem_iff.mpr among)
      exact ⟨last, leads greatest (redelivers.mem_iff.mpr is.1) is, final⟩
    cases events with
    | nil =>
      obtain rfl := eq_nil_iff_forall_not_mem.mpr fun _ among =>
        absurd (redelivers.mem_iff.mp among) not_mem_nil
      exact ⟨rfl, nofun⟩
    | cons event rest =>
      obtain ⟨last, is, final⟩ := alike _ redelivers event mem_cons_self
      obtain ⟨last', is', final'⟩ := alike _ redelivers_refl event mem_cons_self
      rw [final, final', (decided last' is' last is.1).1 is]
      exact ⟨rfl, fun state held => ⟨last', is', (some.inj held).symm⟩⟩

end

private def lapsed : PaymentProviderEvent := paid "evt_1" .pastDue "2026-07-02T00:00:00Z"
private def quit : PaymentProviderEvent := paid "evt_2" .cancelled "2026-07-02T00:00:00Z"
private def renewed : PaymentProviderEvent := paid "evt_3" .active "2026-07-03T00:00:00Z"

theorem simultaneous_events_race : (∀ event ∈ [lapsed, quit], (event.instant plainRuntime).isSome) ∧
    Redelivers [lapsed, quit] [quit, lapsed] ∧
    reduced plainRuntime none [quit, lapsed] ≠ reduced plainRuntime none [lapsed, quit] :=
  ⟨by decide +kernel, ⟨[], nil_subset _, List.Perm.swap ..⟩, by decide +kernel⟩

theorem successive_events_settle : Redelivers [lapsed, renewed] [renewed, lapsed] ∧
    ∀ deliveries, Redelivers [lapsed, renewed] deliveries →
    reduced plainRuntime none deliveries = reduced plainRuntime none [lapsed, renewed] ∧
      ∀ state, reduced plainRuntime none deliveries = some state →
        ∃ last, Greatest plainRuntime [lapsed, renewed] last ∧ state = last.projected := by
  refine ⟨⟨[], nil_subset _, List.Perm.swap ..⟩, (reducer_order_independent_iff (by decide +kernel)).mpr ?_⟩
  rintro last ⟨among, greatest⟩ _ here
  obtain rfl : last = renewed := by
    rcases mem_pair.mp among with rfl | rfl
    · exact absurd (greatest renewed (by simp)) (by decide +kernel)
    · rfl
  rcases mem_pair.mp here with rfl | rfl
  · exact ⟨fun is => absurd (is.2 renewed (by simp)) (by decide +kernel), fun same => absurd same (by decide +kernel)⟩
  · exact ⟨fun _ => rfl, fun _ => ⟨among, greatest⟩⟩

end Applik8s.Billing
