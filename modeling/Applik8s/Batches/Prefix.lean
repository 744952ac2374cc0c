import Applik8s.Batches.Freezing

/-! What is frozen of a page is its first events: no event behind the one that did not fit is in a batch, whatever
partition it is of, so a checkpoint at the end of a group skips nothing. -/
namespace Applik8s.Batches
open Lib Streams Processors List Option Nat

structure Within (consumer : Consumer) (options : Options) (batches : Record (List Event)) : Prop where
  count : (batches.length : Int) ≤ options.concurrency
  distinct : (batches.map Prod.fst).Nodup
  items : ∀ name events, batches.get name = some events → (events.length : Int) ≤ options.maxItems
  bytes : ∀ name events, batches.get name = some events →
    (batchBytes consumer events : Int) ≤ options.maxBytes ∨ events.length = 1

/-- The group that is frozen of a page, whose first events are `taken`. -/
structure Covers (consumer : Consumer) (options : Options) (page : List Event) (group : Group) (taken : List Event) :
    Prop where
  first : taken <+: page
  nonempty : taken ≠ []
  batches : ∀ batch ∈ group.batches, batch.events ≠ [] ∧ batch.events = taken.filter (partitionOf · = batch.partition)
  apart : (group.batches.map Batch.partition).Nodup
  all : ∀ event, event ∈ group.events ↔ event ∈ taken
  count : (group.batches.length : Int) ≤ options.concurrency
  items : ∀ batch ∈ group.batches, (batch.events.length : Int) ≤ options.maxItems
  bytes : ∀ batch ∈ group.batches, (batchBytes consumer batch.events : Int) ≤ options.maxBytes ∨ batch.events.length = 1
  last : taken.getLast?.map (·.sequence) = some group.lastSequence
  skips : ∀ event ∈ page, event.sequence ≤ group.lastSequence ↔ event ∈ taken

variable {consumer : Consumer} {page : List Event} {event : Event} {group : Group}

theorem Options.admits {opts : Options} (admitted : opts.refused = none) :
    1 ≤ opts.maxItems ∧ 1 ≤ opts.maxBytes ∧ 1 ≤ opts.concurrency := by
  unfold Options.refused at admitted
  split at admitted
  · cases admitted
  next items =>
  split at admitted
  · cases admitted
  next bytes =>
  split at admitted
  · cases admitted
  · omega

private theorem batchBytes_append (events : List Event) (event : Event) :
    batchBytes consumer (events ++ [event]) = batchBytes consumer events + consumer.eventBytes event := by
  simp [batchBytes]

theorem Within.nil (consumer : Consumer) (admitted : opts.refused = none) : Within consumer opts [] := by
  obtain ⟨-, -, _⟩ := Options.admits admitted
  constructor
  · simp only [length_nil, cast_zero]
    omega
  · exact .nil
  · nofun
  · nofun

theorem Within.push (within : Within consumer opts batches)
    (room : ¬ ((batches.get (partitionOf event)).isNone ∧ opts.concurrency ≤ batches.length))
    (fits : ¬ (opts.maxItems ≤ ((batches.get (partitionOf event)).getD []).length ∨ (0 < ((batches.get (partitionOf event)).getD []).length ∧ opts.maxBytes < (batchBytes consumer ((batches.get (partitionOf event)).getD []) + consumer.eventBytes event : Nat))))
    : Within consumer opts (push partitionOf batches event) := by
  obtain ⟨_, _⟩ := not_or.mp fits
  unfold Lib.push
  constructor
  · cases present : batches.get (partitionOf event) with
    | none =>
      rw [present] at room
      rw [Record.set_absent present, length_append, length_singleton]
      have below : (batches.length : Int) < opts.concurrency := by simpa using room
      omega
    | some held =>
      have keys : (batches.set (partitionOf event) (held ++ [event])).map Prod.fst = batches.map Prod.fst :=
        Record.keys_set_present within.distinct (by simp [present])
      have same := congrArg List.length keys
      rw [length_map, length_map] at same
      rw [getD_some, same]
      exact within.count
  · cases present : batches.get (partitionOf event) with
    | none => exact Record.keys_set_absent within.distinct present
    | some held =>
      rw [Record.keys_set_present within.distinct (by simp [present])]
      exact within.distinct
  · intro name events found
    rw [Record.get_set] at found
    split at found
    · cases found
      rw [length_append, length_singleton]
      omega
    · exact within.items name events found
  · intro name events found
    rw [Record.get_set] at found
    split at found
    · cases found
      rw [length_append, length_singleton, batchBytes_append]
      omega
    · exact within.bytes name events found

theorem Within.of_partitionOrderedBatches (within : Within consumer opts batches) (events : List Event) :
    Within consumer opts (partitionOrderedBatches consumer opts batches events) := by
  induction events generalizing batches with
  | nil => exact within
  | cons event rest ih =>
    unfold partitionOrderedBatches
    dsimp only
    split
    · exact within
    next room =>
    split
    · exact within
    · next fits => exact ih (within.push room fits)

theorem partitionOrderedBatches_cons (consumer : Consumer) (event : Event) (events : List Event)
    (admitted : opts.refused = none) : ∃ taken, taken <+: events ∧
    partitionOrderedBatches consumer opts [] (event :: events) = groups partitionOf (event :: taken) := by
  obtain ⟨_, -, _⟩ := Options.admits admitted
  obtain ⟨taken, first, is⟩ : ∃ taken, taken <+: events ∧
      partitionOrderedBatches consumer opts (push partitionOf [] event) events =
        taken.foldl (push partitionOf) (push partitionOf [] event) := partitionOrderedBatches_takes _
  refine ⟨taken, first, ?_⟩
  unfold partitionOrderedBatches
  rw [if_neg, if_neg, is]
  · rfl
  · simp only [Record.get_nil, getD_none, length_nil, cast_zero, lt_irrefl, false_and, or_false]
    omega
  · simp only [length_nil, cast_zero, not_and]
    omega

theorem latest_mem (is : latest events = some last) : last ∈ events := by
  have among : last ∈ events ∨ none = some last := by
    unfold latest at is
    generalize none = held at is ⊢
    induction events generalizing held with
    | nil => exact .inr is
    | cons event rest ih =>
      rw [foldl_cons] at is
      rcases ih _ is with later | here
      · exact .inl (mem_cons_of_mem _ later)
      cases held with
      | none =>
        cases here
        exact .inl mem_cons_self
      | some held =>
        dsimp only at here
        split at here
        · cases here
          exact .inl mem_cons_self
        · exact .inr here
  exact among.resolve_right (by simp)

theorem latest_isSome (among : event ∈ events) : (latest events).isSome := by
  unfold latest
  cases events with
  | nil => cases among
  | cons first rest =>
    obtain ⟨_, is, -⟩ := latest_from rest first
    rw [foldl_cons]
    exact isSome_of_eq_some is

private theorem mapM_isSome (consumer : Consumer) {entries : Record (List Event)}
    (each : ∀ entry ∈ entries, entry.2 ≠ []) : ((entries.map Prod.snd).mapM (freezeStreamBatch consumer)).isSome := by
  induction entries with
  | nil => rfl
  | cons entry rest ih =>
    obtain ⟨nonempty, later⟩ := forall_mem_cons.mp each
    obtain ⟨_, events⟩ := entry
    obtain ⟨_, are⟩ := isSome_iff_exists.mp (ih later)
    obtain ⟨first, starts⟩ : ∃ first, events.head? = some first := ⟨_, head?_eq_some_head nonempty⟩
    obtain ⟨last, ends⟩ : ∃ last, events.getLast? = some last := ⟨_, getLast?_eq_some_getLast nonempty⟩
    rw [map_cons, mapM_cons, are]
    simp [freezeStreamBatch, starts, ends]

theorem freezeStreamBatchGroup_isSome (nonempty : taken ≠ [])
    (parts : partitionOrderedBatches consumer opts [] events = groups partitionOf taken) :
    (freezeStreamBatchGroup consumer opts events).isSome := by
  obtain ⟨event, among⟩ := exists_mem_of_ne_nil _ nonempty
  have inside : event ∈ ((groups partitionOf taken).map Prod.snd).flatten := by
    refine mem_flatten.mpr ⟨_, mem_map_of_mem (group_of_mem among), ?_⟩
    exact mem_filter.mpr ⟨among, by simp⟩
  obtain ⟨first, starts⟩ : ∃ first, (((groups partitionOf taken).map Prod.snd).flatten).head? = some first :=
    ⟨_, head?_eq_some_head (ne_nil_of_mem inside)⟩
  obtain ⟨_, ends⟩ := isSome_iff_exists.mp (latest_isSome inside)
  have each : ∀ entry ∈ groups partitionOf taken, entry.2 ≠ [] := by
    rintro ⟨_, _⟩ member
    exact (mem_groups member).2
  obtain ⟨_, frozen⟩ := isSome_iff_exists.mp (mapM_isSome consumer each)
  unfold freezeStreamBatchGroup
  rw [parts]
  simp [starts, ends, frozen]

private theorem last_of_taken (ascending : page.Pairwise (·.sequence < ·.sequence)) (first : taken <+: page)
    (ends : taken.getLast? = some last) : ∀ event ∈ page, event.sequence ≤ last.sequence ↔ event ∈ taken := by
  obtain ⟨_, rfl⟩ := first
  obtain ⟨own, -, apart⟩ := pairwise_append.mp ascending
  intro event among
  constructor
  · intro below
    rcases mem_append.mp among with here | later
    · exact here
    · have above := apart last (mem_of_getLast? ends) event later
      omega
  · intro here
    have upTo : Ascending Envelope.sequence taken := own
    have reach := upTo.le_lastNumber here
    rwa [lastNumber, ends] at reach

/-- Of a page there is a group, and it covers the first events of the page. -/
theorem batches_cover_first_events (consumer : Consumer) (options : Options) (page : List Event)
    (admitted : options.refused = none) (ascending : page.Pairwise (·.sequence < ·.sequence)) :
    (page = [] ∧ freezeStreamBatchGroup consumer options page = none) ∨
      ∃ group taken, freezeStreamBatchGroup consumer options page = some group ∧
        Covers consumer options page group taken := by
  cases page with
  | nil => exact .inl ⟨rfl, rfl⟩
  | cons event rest =>
    right
    obtain ⟨others, first, parts⟩ := partitionOrderedBatches_cons consumer event rest admitted
    have begins : event :: others <+: event :: rest := cons_prefix_cons.mpr ⟨rfl, first⟩
    obtain ⟨group, is⟩ := isSome_iff_exists.mp (freezeStreamBatchGroup_isSome (cons_ne_nil _ _) parts)
    obtain ⟨held, sounds, ⟨last, ends, _⟩, -⟩ := freezeStreamBatchGroup_parts ascending is
    obtain ⟨each, apart, members⟩ := Group.taken (held.trans parts)
    have within := (Within.nil consumer admitted).of_partitionOrderedBatches (event :: rest)
    have found : ∀ batch ∈ group.batches,
        (partitionOrderedBatches consumer options [] (event :: rest)).get batch.partition = some batch.events := by
      intro batch among
      rw [← held]
      refine Record.get_of_mem ?_ (mem_map.mpr ⟨batch, among, rfl⟩)
      rw [held]
      exact within.distinct
    obtain ⟨final, finishes⟩ : ∃ final, (event :: others).getLast? = some final :=
      ⟨_, getLast?_eq_some_getLast (cons_ne_nil _ _)⟩
    have highest : final.sequence = group.lastSequence := by
      have upTo := latest_ge ends final ((members final).mpr (mem_of_getLast? finishes))
      have down := (last_of_taken ascending begins finishes last
        (begins.subset ((members last).mp (latest_mem ends)))).mpr ((members last).mp (latest_mem ends))
      omega
    refine ⟨group, event :: others, is, begins, cons_ne_nil _ _,
      fun batch among => ⟨(sounds batch among).nonempty, each batch among⟩, apart, members, ?_,
      fun batch among => within.items _ _ (found batch among), fun batch among => within.bytes _ _ (found batch among),
      ?_, ?_⟩
    · have fewer := within.count
      rw [← held, length_map] at fewer
      exact fewer
    · rw [finishes, map_some, highest]
    · intro event among
      rw [← highest]
      exact last_of_taken ascending begins finishes event among

/-! ### A page of two partitions -/

def narrowOptions : Options where
  maxAttempts := 3
  failure := .pause
  timeoutMs := 1000
  maxInputBytes := 1000
  maxItems := 2
  maxBytes := 100
  concurrency := 2

def mixedConsumer : Consumer where
  processor := "totals"
  streamName := "orders"
  sha256 := String.ofList
  eventBytes := fun event => 40 * event.sequence

def eventOf (partition : String) (sequence : Nat) : Event := ⟨sequence, ⟨toString sequence, partition, "", .null⟩⟩

/-- The third event is too heavy for the batch of its partition, so the fourth waits as well. -/
theorem mixed_page_covered : ∃ group taken, freezeStreamBatchGroup mixedConsumer narrowOptions
      [eventOf "a" 1, eventOf "b" 2, eventOf "a" 3, eventOf "b" 4] = some group ∧
    Covers mixedConsumer narrowOptions [eventOf "a" 1, eventOf "b" 2, eventOf "a" 3, eventOf "b" 4] group taken :=
  (batches_cover_first_events mixedConsumer narrowOptions
    [eventOf "a" 1, eventOf "b" 2, eventOf "a" 3, eventOf "b" 4] (by decide) (by simp [eventOf])).resolve_left nofun

end Applik8s.Batches
