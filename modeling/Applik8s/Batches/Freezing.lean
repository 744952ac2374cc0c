import Mathlib.Data.List.Sort
import Applik8s.Processors.Runs

/-! How a batch processor freezes what it has read: `freezeStreamBatchGroup`. Each partition of the page has one batch;
the events of a group are the first of the page. -/
namespace Applik8s.Batches
open Lib Streams Processors List Option Nat

/-- `RunApplicationStreamBatchProcessorOptions`, beside the processor, its stream and what it calls. -/
structure Options where
  maxAttempts : Nat
  failure : FailurePolicy
  timeoutMs : Nat
  maxInputBytes : Nat
  maxItems : Int
  maxBytes : Int
  concurrency : Int
  maxBatches : Option Int := none

def Options.batches (options : Options) : Int := options.maxBatches.getD 100

def Options.refused (options : Options) : Option String :=
  if options.maxItems < 1 ∨ 1000 < options.maxItems then
    some "Stream batch processor maxItems must be between 1 and 1000."
  else if options.maxBytes < 1 then some "Stream batch processor maxBytes must be a positive safe integer."
  else if options.concurrency < 1 ∨ 64 < options.concurrency then
    some "Stream batch processor concurrency must be between 1 and 64."
  else if options.batches < 1 ∨ 10000 < options.batches then
    some "Stream batch processor maxBatches must be between 1 and 10000."
  else none

/-- `ApplicationFrozenStreamBatch`. -/
structure Batch where
  id : String
  partition : String
  firstSequence : Nat
  lastSequence : Nat
  events : List Event
deriving DecidableEq

/-- `ApplicationFrozenStreamBatchGroup`. -/
structure Group where
  id : String
  firstSequence : Nat
  lastSequence : Nat
  batches : List Batch
  completedBatchIds : List String := []
deriving DecidableEq

/-- A processor of a stream, with how a text is digested and how long the text of an envelope is, which has more in it
than is modelled. -/
structure Consumer where
  processor : String
  streamName : String
  sha256 : List Char → String
  eventBytes : Event → Nat

variable (consumer : Consumer)

def batchBytes (events : List Event) : Nat := (events.map consumer.eventBytes).sum

/-- `partitionOrderedBatches`: the events that are left, behind the batches so far. -/
def partitionOrderedBatches (options : Options) : Record (List Event) → List Event → Record (List Event)
  | batches, [] => batches
  | batches, event :: rest =>
    let held := batches.get (partitionOf event)
    if held.isNone ∧ options.concurrency ≤ batches.length then batches
    else
      let batch := held.getD []
      if options.maxItems ≤ batch.length ∨
          (0 < batch.length ∧ options.maxBytes < (batchBytes consumer batch + consumer.eventBytes event : Nat)) then
        batches
      else partitionOrderedBatches options (push partitionOf batches event) rest

def membership (events : List Event) : Json :=
  .array (events.map fun event => .array [.string (idOf event), .number event.sequence])

/-- What the identity of a group, or of a batch of a partition, digests. -/
def identity (partition : Option String) (events : List Event) : Json :=
  .object ([("processor", .string consumer.processor), ("stream", .string consumer.streamName)] ++
    (partition.map fun name => ("partition", Json.string name)).toList ++ [("membership", membership events)])

/-- `freezeStreamBatch`; of no events there is no batch. -/
def freezeStreamBatch (events : List Event) : Option Batch := do
  let first ← events.head?
  let last ← events.getLast?
  some
    { id := "batch-" ++ consumer.sha256 (JsonText.stringify (identity consumer (some (partitionOf first)) events))
      partition := partitionOf first
      firstSequence := first.sequence
      lastSequence := last.sequence
      events }

def latest (events : List Event) : Option Event :=
  events.foldl (fun latest event =>
    match latest with
    | none => some event
    | some held => if held.sequence < event.sequence then some event else some held) none

def freezeStreamBatchGroup (options : Options) (events : List Event) : Option Group := do
  let partitions := (partitionOrderedBatches consumer options [] events).map Prod.snd
  let included := partitions.flatten
  let first ← included.head?
  let last ← latest included
  let batches ← partitions.mapM (freezeStreamBatch consumer)
  let orderedMembership := included.insertionSort fun left right => left.sequence ≤ right.sequence
  some
    { id := "batch-group-" ++ consumer.sha256 (JsonText.stringify (identity consumer none orderedMembership))
      firstSequence := (orderedMembership.head?.map (·.sequence)).getD first.sequence
      lastSequence := last.sequence
      batches }

/-! ### What a group holds -/

def Group.events (group : Group) : List Event := group.batches.flatMap Batch.events

/-- A batch has the events of one partition, in order, and the identity that they have. -/
structure Batch.Sound (batch : Batch) : Prop where
  nonempty : batch.events ≠ []
  partition : ∀ event ∈ batch.events, partitionOf event = batch.partition
  first : ∀ event ∈ batch.events, batch.firstSequence ≤ event.sequence
  last : ∀ event ∈ batch.events, event.sequence ≤ batch.lastSequence
  ends : (∃ event ∈ batch.events, event.sequence = batch.firstSequence) ∧
    ∃ event ∈ batch.events, event.sequence = batch.lastSequence
  id : batch.id =
    "batch-" ++ consumer.sha256 (JsonText.stringify (identity consumer (some batch.partition) batch.events))

structure Group.Sound (group : Group) : Prop where
  nonempty : group.batches ≠ []
  batches : ∀ batch ∈ group.batches, batch.Sound consumer
  apart : (group.batches.map Batch.partition).Nodup
  distinct : ∀ one ∈ group.events, ∀ two ∈ group.events, one.sequence = two.sequence → one = two
  last : ∀ event ∈ group.events, event.sequence ≤ group.lastSequence
  id : ∃ events : List Event, (∀ event, event ∈ events ↔ event ∈ group.events) ∧
    group.id = "batch-group-" ++ consumer.sha256 (JsonText.stringify (identity consumer none events))

variable {consumer} {group : Group} {batch other : Batch} {event : Event}

theorem partitionOrderedBatches_takes (batches : Record (List Event)) :
    ∃ taken, taken <+: events ∧ partitionOrderedBatches consumer opts batches events = taken.foldl (push partitionOf) batches := by
  induction events generalizing batches with
  | nil => exact ⟨[], prefix_refl _, rfl⟩
  | cons event rest ih =>
    unfold partitionOrderedBatches
    dsimp only
    split
    · exact ⟨[], nil_prefix, rfl⟩
    split
    · exact ⟨[], nil_prefix, rfl⟩
    · obtain ⟨taken, first, is⟩ := ih (push partitionOf batches event)
      exact ⟨event :: taken, cons_prefix_cons.mpr ⟨rfl, first⟩, is⟩

theorem partitionOrderedBatches_eq (consumer : Consumer) (opts : Options) (events : List Event)
    : ∃ taken, taken <+: events ∧
    partitionOrderedBatches consumer opts [] events = groups partitionOf taken := partitionOrderedBatches_takes []

theorem latest_from (events : List Event) (held : Event) : ∃ last, events.foldl (fun latest event =>
    match latest with
    | none => some event
    | some held => if held.sequence < event.sequence then some event else some held) (some held) = some last ∧
      held.sequence ≤ last.sequence ∧ ∀ event ∈ events, event.sequence ≤ last.sequence := by
  induction events generalizing held with
  | nil => exact ⟨held, rfl, le_refl _, nofun⟩
  | cons event rest ih =>
    rw [foldl_cons]
    dsimp only
    split
    · next less =>
      obtain ⟨last, is, reaches, all⟩ := ih event
      exact ⟨last, is, (le_of_lt less).trans reaches, forall_mem_cons.mpr ⟨reaches, all⟩⟩
    · next more =>
      obtain ⟨last, is, reaches, all⟩ := ih held
      exact ⟨last, is, reaches, List.forall_mem_cons.mpr ⟨(Nat.le_of_not_lt more).trans reaches, all⟩⟩

theorem latest_ge (is : latest events = some last) : ∀ event ∈ events, event.sequence ≤ last.sequence := by
  unfold latest at is
  cases events with
  | nil => cases is
  | cons first rest =>
    obtain ⟨_, same, reaches, all⟩ := latest_from rest first
    rw [foldl_cons] at is
    cases same.symm.trans is
    exact forall_mem_cons.mpr ⟨reaches, all⟩

theorem freezeStreamBatch_sound (ascending : events.Pairwise (·.sequence < ·.sequence))
    (same : ∀ one ∈ events, ∀ two ∈ events, partitionOf one = partitionOf two)
    (is : freezeStreamBatch consumer events = some batch) : batch.Sound consumer ∧ batch.events = events := by
  unfold freezeStreamBatch at is
  cases events with
  | nil => cases is
  | cons first rest =>
    obtain ⟨last, ends⟩ : ∃ last, (first :: rest).getLast? = some last := ⟨_, getLast?_eq_some_getLast (by simp)⟩
    rw [ends] at is
    cases is
    have among := mem_of_getLast? ends
    refine ⟨⟨cons_ne_nil _ _, fun event member => same event member first mem_cons_self, ?_, ?_,
      ⟨⟨first, mem_cons_self, rfl⟩, last, among, rfl⟩, rfl⟩, rfl⟩
    · intro event member
      rcases mem_cons.mp member with rfl | later
      · exact le_refl _
      · exact le_of_lt ((pairwise_cons.mp ascending).1 event later)
    · intro event member
      have upTo : Ascending Envelope.sequence (first :: rest) := ascending
      have below := upTo.le_lastNumber member
      rwa [lastNumber, ends] at below

private theorem mapM_sound {entries : Record (List Event)}
    (each : ∀ entry ∈ entries, entry.2.Pairwise (·.sequence < ·.sequence) ∧ ∀ event ∈ entry.2, partitionOf event = entry.1)
    (is : (entries.map Prod.snd).mapM (freezeStreamBatch consumer) = some batches) :
    (∀ batch ∈ batches, batch.Sound consumer) ∧
      batches.map (fun batch => (batch.partition, batch.events)) = entries := by
  induction entries generalizing batches with
  | nil =>
    cases is
    exact ⟨nofun, rfl⟩
  | cons entry rest ih =>
    obtain ⟨name, _⟩ := entry
    obtain ⟨⟨ascending, part⟩, each⟩ := forall_mem_cons.mp each
    rw [map_cons, mapM_cons] at is
    obtain ⟨batch, frozen, is⟩ := bind_eq_some_iff.mp is
    obtain ⟨_, are, is⟩ := bind_eq_some_iff.mp is
    cases is
    obtain ⟨sounds, all⟩ := ih each are
    obtain ⟨sound, same⟩ := freezeStreamBatch_sound ascending
      (fun one first two second => (part one first).trans (part two second).symm) frozen
    obtain ⟨event, among⟩ := exists_mem_of_ne_nil _ sound.nonempty
    refine ⟨forall_mem_cons.mpr ⟨sound, sounds⟩, ?_⟩
    have name : batch.partition = name := (sound.partition event among).symm.trans (part event (same ▸ among))
    rw [map_cons, all, name, same]

theorem freezeStreamBatchGroup_parts (ascending : events.Pairwise (·.sequence < ·.sequence))
    (is : freezeStreamBatchGroup consumer opts events = some group) :
    group.batches.map (fun batch => (batch.partition, batch.events)) =
        partitionOrderedBatches consumer opts [] events ∧ (∀ batch ∈ group.batches, batch.Sound consumer) ∧
      (∃ last, latest group.events = some last ∧ group.lastSequence = last.sequence) ∧
      group.completedBatchIds = [] ∧ ∃ members : List Event, (∀ event, event ∈ members ↔ event ∈ group.events) ∧
        group.id = "batch-group-" ++ consumer.sha256 (JsonText.stringify (identity consumer none members)) := by
  obtain ⟨_, -, is⟩ := bind_eq_some_iff.mp is
  obtain ⟨last, ends, is⟩ := bind_eq_some_iff.mp is
  obtain ⟨batches, frozen, is⟩ := bind_eq_some_iff.mp is
  cases is
  obtain ⟨_, first, parts⟩ := partitionOrderedBatches_eq consumer opts events
  have each : ∀ entry ∈ partitionOrderedBatches consumer opts [] events,
      entry.2.Pairwise (·.sequence < ·.sequence) ∧ ∀ event ∈ entry.2, partitionOf event = entry.1 := by
    rw [parts]
    rintro ⟨_, events⟩ among
    obtain ⟨rfl, -⟩ := mem_groups among
    exact ⟨(ascending.sublist first.sublist).filter _, fun event member => of_decide_eq_true (mem_filter.mp member).2⟩
  obtain ⟨sounds, all⟩ := mapM_sound each frozen
  have held : ((partitionOrderedBatches consumer opts [] events).map Prod.snd).flatten =
      batches.flatMap Batch.events := by
    rw [← all, List.map_map]
    rfl
  rw [held] at ends ⊢
  refine ⟨all, sounds, ⟨last, ends, rfl⟩, rfl, _, fun event => ?_, rfl⟩
  rw [mem_insertionSort]
  rfl

theorem Group.taken {taken : List Event}
    (parts : group.batches.map (fun batch => (batch.partition, batch.events)) = groups partitionOf taken) :
    (∀ batch ∈ group.batches, batch.events = taken.filter (partitionOf · = batch.partition)) ∧
      (group.batches.map Batch.partition).Nodup ∧ ∀ event, event ∈ group.events ↔ event ∈ taken := by
  have each : ∀ batch ∈ group.batches, batch.events = taken.filter (partitionOf · = batch.partition) := by
    intro batch among
    have entry : (batch.partition, batch.events) ∈ groups partitionOf taken := by
      rw [← parts]
      exact mem_map_of_mem among
    exact (mem_groups entry).1
  refine ⟨each, ?_, fun event => ⟨fun among => ?_, fun among => ?_⟩⟩
  · have names := congrArg (List.map Prod.fst) parts
    rw [List.map_map] at names
    exact names ▸ groups_distinct
  · obtain ⟨batch, member, inside⟩ := mem_flatMap.mp among
    rw [each batch member] at inside
    exact (mem_filter.mp inside).1
  have entry : (partitionOf event, taken.filter (partitionOf · = partitionOf event)) ∈ groups partitionOf taken :=
    group_of_mem among
  rw [← parts] at entry
  obtain ⟨batch, member, is⟩ := mem_map.mp entry
  obtain ⟨_, same⟩ := Prod.mk.inj is
  refine mem_flatMap.mpr ⟨batch, member, ?_⟩
  rw [same]
  exact mem_filter.mpr ⟨among, by simp⟩

theorem freezeStreamBatchGroup_sound (ascending : events.Pairwise (·.sequence < ·.sequence))
    (is : freezeStreamBatchGroup consumer opts events = some group) :
    group.Sound consumer ∧ group.completedBatchIds = [] ∧ ∀ event ∈ group.events, event ∈ events := by
  obtain ⟨parts, sounds, ⟨_, ends, same⟩, fresh, identified⟩ := freezeStreamBatchGroup_parts ascending is
  obtain ⟨taken, first, grouped⟩ := partitionOrderedBatches_eq consumer opts events
  obtain ⟨-, distinct, members⟩ := Group.taken (parts.trans grouped)
  have inside : ∀ event ∈ group.events, event ∈ events := fun event among => first.subset ((members event).mp among)
  have sequences : (events.map (·.sequence)).Nodup := pairwise_map.mpr (ascending.imp ne_of_lt)
  refine ⟨⟨?_, sounds, distinct,
    fun one first two second => inj_on_of_nodup_map sequences (inside one first) (inside two second),
    fun event among => same ▸ latest_ge ends event among, identified⟩, fresh, inside⟩
  intro none
  rw [Group.events, none] at ends
  cases ends

private theorem membership_proper (events : List Event) : JsonText.ProperItems
    (events.map fun event => .array [.string (idOf event), .number event.sequence]) := by
  induction events with
  | nil => trivial
  | cons event rest ih => exact ⟨⟨trivial, rfl, trivial⟩, ih⟩

private theorem identity_proper (part : Option String) (events : List Event) :
    JsonText.Proper (identity consumer part events) := by
  cases part with
  | none => exact ⟨by simp, trivial, trivial, membership_proper events, trivial⟩
  | some name => exact ⟨by simp, trivial, trivial, trivial, membership_proper events, trivial⟩

private theorem membership_sequences (same : membership events = membership included) :
    events.map (·.sequence) = included.map (·.sequence) := by
  have items := Json.array.inj same
  induction events generalizing included with
  | nil =>
    cases included with
    | nil => rfl
    | cons => cases items
  | cons event rest ih =>
    cases included with
    | nil => cases items
    | cons other others =>
      rw [map_cons, map_cons, cons.injEq] at items
      obtain ⟨here, there⟩ := items
      rw [Json.array.injEq, cons.injEq, cons.injEq] at here
      have seq : (event.sequence : Rat) = other.sequence := Json.number.inj here.2.1
      rw [map_cons, map_cons, ih (congrArg Json.array there) there, cast_injective seq]

theorem identity_sequences (distinct : Function.Injective consumer.sha256) (lead : String)
    (same : lead ++ consumer.sha256 (JsonText.stringify (identity consumer part events)) = lead ++ consumer.sha256 (JsonText.stringify (identity consumer partition' included)))
    : events.map (·.sequence) = included.map (·.sequence) := by
  have texts := distinct (String.append_right_inj lead |>.mp same)
  have parsed := congrArg JsonText.parse texts
  rw [JsonText.parse_stringify _ (identity_proper part events),
    JsonText.parse_stringify _ (identity_proper partition' included)] at parsed
  have members := Json.object.inj (some.inj parsed)
  refine membership_sequences ?_
  cases part with
  | none =>
    cases partition' with
    | none => simpa using members
    | some name' => simp at members
  | some name =>
    cases partition' with
    | none => simp at members
    | some name' => exact (by simpa using members : name = name' ∧ _).2

theorem Batch.Sound.shares (distinct : Function.Injective consumer.sha256) (one : batch.Sound consumer)
    (two : other.Sound consumer) (same : batch.id = other.id) :
    ∃ event ∈ batch.events, ∃ event' ∈ other.events, event.sequence = event'.sequence := by
  rw [one.id, two.id] at same
  have sequences := identity_sequences distinct "batch-" same
  obtain ⟨event, among⟩ := exists_mem_of_ne_nil _ one.nonempty
  have held : event.sequence ∈ other.events.map (·.sequence) := sequences ▸ mem_map_of_mem among
  obtain ⟨event', there, is⟩ := mem_map.mp held
  exact ⟨event, among, event', there, is.symm⟩

theorem Group.Sound.exists_event (sound : group.Sound consumer) : ∃ event, event ∈ group.events := by
  obtain ⟨batch, among⟩ := exists_mem_of_ne_nil _ sound.nonempty
  obtain ⟨event, inside⟩ := exists_mem_of_ne_nil _ (sound.batches batch among).nonempty
  exact ⟨event, mem_flatMap.mpr ⟨batch, among, inside⟩⟩

theorem Group.Sound.shares {group' : Group} (distinct : Function.Injective consumer.sha256) (one : group.Sound consumer)
    (two : group'.Sound consumer) (same : group.id = group'.id) :
    ∃ event ∈ group.events, ∃ event' ∈ group'.events, event.sequence = event'.sequence := by
  obtain ⟨_, held, is⟩ := one.id
  obtain ⟨events', held', is'⟩ := two.id
  rw [is, is'] at same
  have sequences := identity_sequences distinct "batch-group-" same
  obtain ⟨event, among⟩ := one.exists_event
  have inside : event.sequence ∈ events'.map (·.sequence) :=
    sequences ▸ mem_map_of_mem ((held event).mpr among)
  obtain ⟨event', there, is⟩ := mem_map.mp inside
  exact ⟨event, among, event', (held' event').mp there, is.symm⟩

theorem Group.Sound.batch_unique (sound : group.Sound consumer) (one : batch ∈ group.batches) (two : other ∈ group.batches)
    (here : event ∈ batch.events) (there : event ∈ other.events) : batch = other := by
  refine inj_on_of_nodup_map sound.apart one two ?_
  exact ((sound.batches batch one).partition event here).symm.trans ((sound.batches other two).partition event there)

end Applik8s.Batches
