import Mathlib.Data.List.Sort
import Applik8s.Lib.Run

/-! `enforcePostgresApplicationStreamRetention` of `packages/applik8s/src/stream-runtime-postgres.ts`, over the history of
one contract: events are recorded, and retention runs in between. The floors that it leaves are sound; but it fails on
every batch with an event that has no context digest, for which the table of the floors has no row. -/
namespace Applik8s.Retention
open Lib List

/-- A row of `applik8s_public_stream_events`. -/
structure Event where
  id : String
  sequence : Nat
  recordedAt : Int
  contextDigest : Option String
  deriving DecidableEq

/-- The rows of one contract. A floor is `coalesce(max(deleted_through), 0)`; that of all events has the empty digest. -/
structure Tables where
  events : List Event
  floors : String → Nat

/-- What retention is asked for, with times in milliseconds. -/
structure Options where
  now : Int
  maxAgeSeconds : Int
  maxMessages : Option Nat
  batchSize : Nat

section
variable (options : Options) (tables : Tables)

/-- `row_number() OVER (ORDER BY sequence DESC)`. -/
def Tables.retainedRank (event : Event) : Nat := (tables.events.filter (event.sequence < ·.sequence)).length + 1

/-- `recorded_at < $3::timestamptz - make_interval(secs => $4)`. -/
def Options.expires (event : Event) : Bool := event.recordedAt < options.now - options.maxAgeSeconds * 1000

/-- `$5::bigint IS NOT NULL AND retained_rank > $5::bigint`. -/
def Options.exceeds (event : Event) : Bool := options.maxMessages.any (· < tables.retainedRank event)

/-- What is deleted: no more than a batch, in the order of `recorded_at ASC, id ASC`. -/
def candidates : List Event :=
  ((tables.events.filter fun event => options.expires event || options.exceeds tables event).insertionSort
    fun left right => left.recordedAt < right.recordedAt ∨ left.recordedAt = right.recordedAt ∧ left.id ≤ right.id).take
      options.batchSize

/-- Whether the floor of a digest is about an event. -/
def concerns (digest : String) (event : Event) : Bool := digest = "" || event.contextDigest = some digest

def enforce : Except String Tables :=
  let deleted := candidates options tables
  if deleted.any (·.contextDigest = none) then
    .error "null value in column context_digest violates not-null constraint"
  else if deleted.any (·.contextDigest = some "") then
    -- the row of the empty digest is written by both insertions of one statement
    .error "ON CONFLICT DO UPDATE command cannot affect row a second time"
  else
    .ok {
      events := tables.events.filter (· ∉ deleted)
      floors := fun digest => ((deleted.filter (concerns digest)).map Event.sequence).foldl max (tables.floors digest) }

end

/-- The tables, and all that was ever deleted. -/
structure System where
  tables : Tables
  deleted : List Event

def System.empty : System := ⟨⟨[], fun _ => 0⟩, []⟩

inductive Step where
  | append (event : Event)
  | retain (options : Options)

def System.next (system : System) : Step → System
  | .append event =>
    if system.tables.events.any (·.id = event.id) then system
    else { system with tables := { system.tables with events := system.tables.events ++ [event] } }
  | .retain options =>
    match enforce options system.tables with
    | .ok tables => ⟨tables, system.deleted ++ candidates options system.tables⟩
    | .error _ => system

/-- The floors are at least what was deleted, and none exceeds that of all events. -/
structure Sound (system : System) : Prop where
  covers : ∀ event ∈ system.deleted, ∀ digest, concerns digest event = true → event.sequence ≤ system.tables.floors digest
  below : ∀ digest, system.tables.floors digest ≤ system.tables.floors ""

/-- What is promised of a step. -/
structure Upholds (system : System) (step : Step) : Prop where
  succeeds : ∀ options, step = .retain options → ∃ tables, enforce options system.tables = .ok tables
  sound : Sound (system.next step)
  grows : ∀ digest, system.tables.floors digest ≤ (system.next step).tables.floors digest
  spares : ∀ options, step = .retain options → ∀ event ∈ system.tables.events, options.expires event = false →
    options.exceeds system.tables event = false → event ∈ (system.next step).tables.events

/-- Whatever the step deletes has a context digest. -/
def Digested (system : System) : Step → Prop
  | .append _ => True
  | .retain options => ∀ event ∈ candidates options system.tables, ∃ digest, event.contextDigest = some digest ∧ digest ≠ ""

variable {after : Tables} {system : System} {step : Step}

theorem foldl_max_le {items : List Nat} :
    items.foldl max least ≤ bound ↔ least ≤ bound ∧ ∀ item ∈ items, item ≤ bound := by
  induction items generalizing least with
  | nil => simp
  | cons item rest ih => simp [ih, and_assoc]

theorem enforce_ok (done : enforce options tables = .ok after) :
    after.events = tables.events.filter (· ∉ candidates options tables) ∧ ∀ digest bound,
      after.floors digest ≤ bound ↔ tables.floors digest ≤ bound ∧
        ∀ event ∈ candidates options tables, concerns digest event = true → event.sequence ≤ bound := by
  unfold enforce at done
  dsimp only at done
  split at done
  · cases done
  split at done
  · cases done
  cases done
  refine ⟨rfl, fun digest bound => foldl_max_le.trans (and_congr_right fun _ => ?_)⟩
  simp only [forall_mem_map, mem_filter, and_imp]

theorem enforce_succeeds : (∃ after, enforce options tables = .ok after) ↔
    ∀ event ∈ candidates options tables, ∃ digest, event.contextDigest = some digest ∧ digest ≠ "" := by
  unfold enforce
  dsimp only
  constructor
  · rintro ⟨_, done⟩ event among
    split at done
    · cases done
    next given =>
    split at done
    · cases done
    next filled =>
    simp only [any_eq_true, decide_eq_true_eq, not_exists, not_and] at given filled
    cases is : event.contextDigest with
    | none => exact absurd is (given event among)
    | some digest => exact ⟨digest, rfl, fun empty => filled event among (empty ▸ is)⟩
  · intro digested
    have given : ∀ value : Option String, value = none ∨ value = some "" →
        (candidates options tables).any (·.contextDigest = value) = false := by
      intro value unfilled
      rw [any_eq_false]
      intro event among
      obtain ⟨_, is, filled⟩ := digested event among
      rcases unfilled with rfl | rfl <;> simp [is, filled]
    rw [given none (.inl rfl), given (some "") (.inr rfl)]
    exact ⟨_, rfl⟩

theorem candidate_due (among : event ∈ candidates options tables) :
    options.expires event = true ∨ options.exceeds tables event = true := by
  have := mem_of_mem_take among
  rw [mem_insertionSort, mem_filter, Bool.or_eq_true] at this
  exact this.2

theorem next_retained (done : enforce options system.tables = .ok after) :
    system.next (.retain options) = ⟨after, system.deleted ++ candidates options system.tables⟩ := by
  simp [System.next, done]

theorem sound_next (sound : Sound system) (step : Step) : Sound (system.next step) ∧
    ∀ digest, system.tables.floors digest ≤ (system.next step).tables.floors digest := by
  cases step with
  | append event =>
    unfold System.next
    dsimp only
    split <;> exact ⟨⟨sound.covers, sound.below⟩, fun _ => le_rfl⟩
  | retain options =>
    cases done : enforce options system.tables with
    | error =>
      simp only [System.next, done]
      exact ⟨sound, fun _ => le_rfl⟩
    | ok after =>
      rw [next_retained done]
      obtain ⟨-, raised⟩ := enforce_ok done
      have grown := fun digest => (raised digest _).mp le_rfl
      refine ⟨⟨fun event among digest about => ?_, fun digest => ?_⟩, fun digest => (grown digest).1⟩
      · rcases mem_append.mp among with before | now
        · exact (sound.covers event before digest about).trans (grown digest).1
        · exact (grown digest).2 event now about
      · exact (raised digest _).mpr ⟨(sound.below digest).trans (grown "").1, fun event now _ => (grown "").2 event now rfl⟩

theorem upholds_iff (sound : Sound system) : Upholds system step ↔ Digested system step := by
  constructor
  · intro upholds
    cases step with
    | append event => trivial
    | retain options => exact enforce_succeeds.mp (upholds.succeeds options rfl)
  intro digested
  obtain ⟨kept, grows⟩ := sound_next sound step
  refine ⟨?_, kept, grows, ?_⟩
  · rintro options rfl
    exact enforce_succeeds.mpr digested
  rintro _ rfl _ among young recent
  obtain ⟨_, done⟩ := enforce_succeeds.mpr digested
  rw [next_retained done, (enforce_ok done).1]
  refine mem_filter.mpr ⟨among, decide_eq_true fun chosen => ?_⟩
  rcases candidate_due chosen with old | far
  · exact absurd (old.symm.trans young) nofun
  · exact absurd (far.symm.trans recent) nofun

/-- Every event is stored, or every floor that is about it has come up to it. -/
def System.AccountsFor (system : System) (events : List Event) : Prop :=
  ∀ event ∈ events, event ∈ system.tables.events ∨
    ∀ digest, concerns digest event = true → event.sequence ≤ system.tables.floors digest

theorem accountsFor_next (sound : Sound system) (accounts : system.AccountsFor events) (step : Step) :
    (system.next step).AccountsFor events := by
  intro event recorded
  rcases accounts event recorded with stored | covered
  · cases step with
    | append other =>
      simp only [System.next]
      split
      · exact .inl stored
      · exact .inl (mem_append_left _ stored)
    | retain options =>
      cases done : enforce options system.tables with
      | error =>
        simp only [System.next, done]
        exact .inl stored
      | ok after =>
        rw [next_retained done]
        obtain ⟨left, raised⟩ := enforce_ok done
        by_cases chosen : event ∈ candidates options system.tables
        · exact .inr fun digest about => ((raised digest _).mp le_rfl).2 event chosen about
        · exact .inl (left ▸ mem_filter.mpr ⟨stored, decide_eq_true chosen⟩)
  · exact .inr fun digest about => (covered digest about).trans ((sound_next sound step).2 digest)

/-- Over every history, whatever of it fails: what was recorded is still stored, or covered by the floors about it. -/
theorem recorded_events_accounted (earlier later : List Step) : (runFrom System.next .empty (earlier ++ later)).AccountsFor
    (runFrom System.next .empty earlier).tables.events := by
  have always : ∀ {system steps}, EachStep System.next (fun _ _ => True) system steps :=
    eachStep_of_always fun _ _ _ => trivial
  have sound : Sound (runFrom System.next .empty earlier) :=
    invariant_of_steps Sound (fun _ step sound _ => (sound_next sound step).1) ⟨nofun, fun _ => le_rfl⟩ always
  rw [runFrom_append]
  exact (invariant_of_steps (fun system => Sound system ∧ system.AccountsFor _)
    (fun _ step kept _ => ⟨(sound_next kept.1 step).1, accountsFor_next kept.1 kept.2 step⟩)
    ⟨sound, fun _ => .inl⟩ always).2

end Applik8s.Retention
