import Applik8s.Batches.Workers
import Applik8s.Streams.Coverage

/-! Frozen batches keep their identity: what is stored of a group says which events each of its batches has, and the next
group begins behind the checkpoint that the last one has left. -/
namespace Applik8s.Batches
open Lib Streams Processors List Option Nat
variable {consumer : Consumer} {system : System} {group : Group} {batch other : Batch}
  {event : Event}

/-! ### What holds of the store -/

def Group.fresh (group : Group) : Group := { group with completedBatchIds := [] }

/-- No event of the one group stands behind an event of the other. -/
def Group.Before (group later : Group) : Prop :=
  ∀ event ∈ group.events, ∀ other ∈ later.events, event.sequence < other.sequence

/-- A batch that is passed for the first time stands behind those of its partition that were passed. -/
def InOrder (passed : List Batch) : Prop :=
  ∀ earlier batch later, passed = earlier ++ batch :: later → batch ∉ earlier →
    ∀ other ∈ earlier, other.partition = batch.partition → other.lastSequence < batch.firstSequence

/-- A group that is through: its batches are finished, and the checkpoint stands behind its events. -/
def System.Through (system : System) (group : Group) : Prop :=
  (∀ event ∈ group.events, event.sequence ≤ system.checkpoint) ∧ ∀ batch ∈ group.batches, batch ∈ system.finished

structure System.Sound (consumer : Consumer) (system : System) : Prop where
  groups : ∀ group ∈ system.frozen, group.Sound consumer
  apart : system.frozen.Pairwise Group.Before
  stored : ∀ group ∈ system.group, group.fresh ∈ system.frozen ∧
    (∀ event ∈ group.events, system.checkpoint < event.sequence) ∧
    ∀ batch ∈ group.batches, batch.id ∈ group.completedBatchIds → batch ∈ system.finished
  past : ∀ group ∈ system.frozen, (∃ stored ∈ system.group, group = stored.fresh) ∨ system.Through group
  passed : ∀ batch ∈ system.passed, ∃ group ∈ system.frozen, batch ∈ group.batches
  ordered : InOrder system.passed

theorem System.Sound.group_unique (sound : system.Sound consumer) (one : group ∈ system.frozen)
    (two : group' ∈ system.frozen) (here : event ∈ group.events) (there : event' ∈ group'.events)
    (same : event.sequence = event'.sequence) : group = group' := by
  by_contra ne
  rcases pairwise_iff_getElem.mp sound.apart with apart
  obtain ⟨first, bound, rfl⟩ := mem_iff_getElem.mp one
  obtain ⟨second, bound', rfl⟩ := mem_iff_getElem.mp two
  rcases lt_trichotomy first second with less | rfl | less
  · exact absurd (apart first second bound bound' less event here event' there) (by omega)
  · exact ne rfl
  · exact absurd (apart second first bound' bound less event' there event here) (by omega)

theorem mem_events (among : batch ∈ group.batches) (inside : event ∈ batch.events) : event ∈ group.events :=
  mem_flatMap.mpr ⟨batch, among, inside⟩

theorem System.Sound.batch_unique (sound : system.Sound consumer) (one : group ∈ system.frozen)
    (two : group' ∈ system.frozen) (first : batch ∈ group.batches) (second : other ∈ group'.batches)
    (here : event ∈ batch.events) (there : event' ∈ other.events) (same : event.sequence = event'.sequence)
    : batch = other := by
  obtain rfl := sound.group_unique one two (mem_events first here) (mem_events second there) same
  obtain rfl := (sound.groups group one).distinct event (mem_events first here) event' (mem_events second there) same
  exact (sound.groups group one).batch_unique first second here there

section
variable (distinct : Function.Injective consumer.sha256) (sound : system.Sound consumer) (one : group ∈ system.frozen)
include distinct sound one

theorem System.Sound.batch_eq (two : group' ∈ system.frozen) (first : batch ∈ group.batches)
    (second : other ∈ group'.batches) (same : batch.id = other.id) : batch = other := by
  obtain ⟨_, here, _, there, seq⟩ := ((sound.groups group one).batches batch first).shares distinct
    ((sound.groups group' two).batches other second) same
  exact sound.batch_unique one two first second here there seq

theorem System.Sound.group_eq (two : group' ∈ system.frozen) (same : group.id = group'.id) : group = group' := by
  obtain ⟨_, here, _, there, seq⟩ :=
    (sound.groups group one).shares distinct (sound.groups group' two) same
  exact sound.group_unique one two here there seq

end

theorem InOrder.snoc (ordered : InOrder passed)
    (next : batch ∉ passed → ∀ other ∈ passed, other.partition = batch.partition → other.lastSequence < batch.firstSequence)
    : InOrder (passed ++ [batch]) := by
  intro earlier this later is first other among same
  rcases eq_nil_or_concat later with rfl | ⟨rest, _, rfl⟩
  · obtain ⟨begins, ends⟩ := append_inj' is rfl
    obtain rfl := singleton_inj.mp ends
    subst begins
    exact next first other among same
  · rw [concat_eq_append, ← cons_append, ← append_assoc] at is
    obtain ⟨begins, -⟩ := append_inj' is rfl
    exact ordered earlier this rest begins first other among same

/-! ### What steps do to the store -/

theorem System.Sound.finish (sound : system.Sound consumer) (finished : List Batch) :
    ({ system with finished := system.finished ++ finished } : System).Sound consumer where
  groups := sound.groups
  apart := sound.apart
  stored group is := by
    obtain ⟨among, above, complete⟩ := sound.stored group is
    exact ⟨among, above, fun batch inside marked => mem_append_left _ (complete batch inside marked)⟩
  past group among := (sound.past group among).imp_right fun through =>
    ⟨through.1, fun batch inside => mem_append_left _ (through.2 batch inside)⟩
  passed := sound.passed
  ordered := sound.ordered

theorem System.Sound.pass (sound : system.Sound consumer) (among : group ∈ system.frozen) (inside : batch ∈ group.batches)
    (timely : batch ∈ system.passed ∨ ∃ stored ∈ system.group, batch ∈ stored.batches) :
    ({ system with passed := system.passed ++ [batch] } : System).Sound consumer where
  groups := sound.groups
  apart := sound.apart
  stored := sound.stored
  past := sound.past
  passed other present := by
    rcases mem_append.mp present with before | now
    · exact sound.passed other before
    · rw [mem_singleton.mp now]
      exact ⟨group, among, inside⟩
  ordered := by
    refine sound.ordered.snoc fun first other before same => ?_
    obtain ⟨stored, is, held⟩ := timely.resolve_left first
    obtain ⟨fresh, above, -⟩ := sound.stored stored is
    obtain ⟨group', present, contains⟩ := sound.passed other before
    have proper := (sound.groups group' present).batches other contains
    obtain ⟨-, event, here, _⟩ := proper.ends
    obtain ⟨⟨event', there, _⟩, -⟩ := ((sound.groups stored.fresh fresh).batches batch held).ends
    rcases sound.past group' present with ⟨_, is', rfl⟩ | through
    · -- The other batch is of the stored group too, which has one batch for the partition.
      cases some.inj (is'.symm.trans is)
      have one := inj_on_of_nodup_map (sound.groups stored.fresh fresh).apart contains held same
      exact absurd (one ▸ before) first
    · have below := through.1 event (mem_events contains here)
      have beyond := above event' (mem_flatMap.mpr ⟨batch, held, there⟩)
      omega

theorem System.Sound.freeze (sound : system.Sound consumer) (proper : group.Sound consumer)
    (fresh : group.completedBatchIds = []) (above : ∀ event ∈ group.events, behind < event.sequence)
    (timely : system.group = none → behind = system.checkpoint) : (system.freezeBatchGroup group).2.Sound consumer ∧
      (system.freezeBatchGroup group).1.fresh ∈ (system.freezeBatchGroup group).2.frozen := by
  unfold System.freezeBatchGroup
  split
  · next existing is => exact ⟨sound, (sound.stored existing is).1⟩
  next none =>
  obtain rfl := timely none
  have same : group.fresh = group := by rw [Group.fresh, ← fresh]
  have through : ∀ old ∈ system.frozen, system.Through old := fun old among =>
    (sound.past old among).resolve_left (by rw [none]; rintro ⟨_, ⟨⟩, _⟩)
  have last : group ∈ system.frozen ++ [group] := mem_append_right _ (mem_singleton_self _)
  refine ⟨⟨fun old among => ?_, ?_, ?_, fun old among => ?_, fun batch passed => ?_, sound.ordered⟩, same.symm ▸ last⟩
  · rcases mem_append.mp among with among | is
    · exact sound.groups old among
    · rw [mem_singleton.mp is]
      exact proper
  · refine pairwise_append.mpr ⟨sound.apart, pairwise_singleton .., fun old among new is => ?_⟩
    rw [mem_singleton.mp is]
    intro event here other there
    exact lt_of_le_of_lt ((through old among).1 event here) (above other there)
  · rintro _ ⟨⟩
    exact ⟨same.symm ▸ last, above, fun batch _ marked => by rw [fresh] at marked; cases marked⟩
  · rcases mem_append.mp among with among | is
    · exact .inr (through old among)
    · rw [mem_singleton.mp is]
      exact .inl ⟨group, rfl, same.symm⟩
  · obtain ⟨old, among, inside⟩ := sound.passed batch passed
    exact ⟨old, mem_append_left _ among, inside⟩

theorem System.Sound.mark (distinct : Function.Injective consumer.sha256) (sound : system.Sound consumer)
    (among : group ∈ system.frozen) (inside : batch ∈ group.batches) (finished : batch ∈ system.finished)
    (groupId : String) :
    ({ system with group := (markBatchComplete system.group groupId batch.id).2 } : System).Sound consumer := by
  cases is : system.group with
  | none =>
    have same : ({ system with group := (markBatchComplete none groupId batch.id).2 } : System) = system := by
      rw [markBatchComplete, ← is]
    rw [same]
    exact sound
  | some stored =>
    have marked : ∃ ids, (markBatchComplete (some stored) groupId batch.id).2 =
        some { stored with completedBatchIds := stored.completedBatchIds ++ ids } ∧ ∀ id ∈ ids, id = batch.id := by
      unfold markBatchComplete
      dsimp only
      split
      · split
        · exact ⟨[], by simp, nofun⟩
        · exact ⟨[batch.id], rfl, fun id one => mem_singleton.mp one⟩
      · exact ⟨[], by simp, nofun⟩
    obtain ⟨_, after, only⟩ := marked
    obtain ⟨fresh, above, complete⟩ := sound.stored stored is
    rw [after]
    refine ⟨sound.groups, sound.apart, ?_, fun old present => ?_, sound.passed, sound.ordered⟩
    · rintro _ ⟨⟩
      refine ⟨fresh, above, fun other held marked => ?_⟩
      rcases mem_append.mp marked with before | now
      · exact complete other held before
      have one : other = batch :=
        sound.batch_eq distinct fresh among held inside (only _ now)
      rw [one]
      exact finished
    · refine (sound.past old present).imp_left ?_
      rintro ⟨_, is', rfl⟩
      cases some.inj (is'.symm.trans is)
      exact ⟨_, rfl, rfl⟩

theorem System.Sound.complete (distinct : Function.Injective consumer.sha256) (sound : system.Sound consumer)
    (among : group.fresh ∈ system.frozen) :
    (system.completeBatchGroup group.id group.lastSequence).2.Sound consumer := by
  unfold System.completeBatchGroup
  split
  · exact sound
  next stored is =>
  split
  · next whole =>
    obtain ⟨same, -, all⟩ := whole
    obtain ⟨fresh, _, complete⟩ := sound.stored stored is
    have one : stored.fresh = group.fresh := sound.group_eq distinct fresh among same
    have last : group.fresh.lastSequence = stored.fresh.lastSequence := congrArg Group.lastSequence one.symm
    refine ⟨sound.groups, sound.apart, nofun, fun old present => .inr ?_, sound.passed, sound.ordered⟩
    rcases sound.past old present with ⟨_, is', rfl⟩ | through
    · cases some.inj (is'.symm.trans is)
      refine ⟨fun event here => ?_, fun batch inside => complete batch inside ?_⟩
      · have below := (sound.groups stored.fresh fresh).last event here
        change event.sequence ≤ max system.checkpoint group.fresh.lastSequence
        rw [last]
        exact below.trans (le_max_right ..)
      · exact of_decide_eq_true (all_eq_true.mp all batch inside)
    · exact ⟨fun event here => (through.1 event here).trans (le_max_left ..), through.2⟩
  · exact sound

end Applik8s.Batches
