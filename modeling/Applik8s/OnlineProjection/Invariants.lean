import Applik8s.OnlineProjection.Conduct
import Applik8s.Streams.Coverage

/-! What holds of the keys while live runs and rebuild attempts change them, and what each of them knows. An attempt knows
something only as long as no other attempt has acquired the lease. -/
namespace Applik8s.OnlineProjection
open Lib
open Streams (Through PageSound)
variable {Payload Row : Type}

section
variable (options : WriterOptions Row) (rebuild : RebuildOptions Payload Row) (live : ProjectionOptions Payload Row)
  (applied : List Applied) (world : World Payload Row) (generation : String) (event : Write Payload Row)

/-- Each row of the event was applied, or came upon a newer version of its member. -/
def Held : Prop :=
  ∀ row ∈ event.rows, ∃ change, options.changeOf row = .ok change ∧
    ∃ entry ∈ applied, entry.sequence = event.envelope.sequence ∧ entry.change = change

/-- Each item of the snapshot was applied, as an event at its watermark. -/
def SnapshotHeld (snapshot : Snapshot Payload) : Prop :=
  ∀ page ∈ snapshot.pages, ∀ item ∈ page, ∃ partitionBy event rows, rebuild.snapshotPartition = some partitionBy ∧
    snapshotEvent options partitionBy snapshot item = .ok event ∧ rebuild.project event.payload = .ok rows ∧
      Held options applied ⟨event, rows⟩

/-- The event was applied, or is in a snapshot that was applied. -/
def Covered (snapshots : List (Snapshot Payload)) (applied : List Applied) (event : Event Payload) : Prop :=
  (∃ rows, (live.project event.payload = .ok rows ∨ rebuild.project event.payload = .ok rows) ∧
    Held options applied ⟨event, rows⟩) ∨
  ∃ snapshot ∈ snapshots, event.sequence ≤ snapshot.watermark ∧ SnapshotHeld options rebuild applied snapshot

def World.Covers (event : Event Payload) : Prop :=
  Covered options rebuild live world.snapshots (world.applied generation) event

/-- Once these events are held too, everything up to the goal is covered. -/
def Owes (log : Streams.Log (Content Payload)) (snapshots : List (Snapshot Payload)) (applied : List Applied)
    (left : List (Write Payload Row)) (goal : Nat) : Prop :=
  ∀ more, applied ⊆ more → (∀ event ∈ left, Held options more event) →
    Through log (Covered options rebuild live snapshots more) goal

/-- The events stand in the order of their sequences, up to the goal. -/
structure Ordered (left : List (Write Payload Row)) (goal : Nat) : Prop where
  ascending : left.Pairwise (·.envelope.sequence ≤ ·.envelope.sequence)
  bounded : ∀ event ∈ left, event.envelope.sequence ≤ goal

/-- What was loaded makes up for the stream up to its watermark. -/
structure Loads (log : Streams.Log (Content Payload)) (snapshots : List (Snapshot Payload)) (made : Made Payload Row) :
    Prop where
  within : made.watermark ≤ log.last
  ordered : Ordered made.segments.flatten made.watermark
  owes : Owes options rebuild live log snapshots [] made.segments.flatten made.watermark

def Manifest.made (manifest : Manifest Payload Row) : Made Payload Row := ⟨manifest.sourceWatermark, manifest.segments⟩

/-- Up to a sequence everything is covered in the active generation; without one, there is nothing to cover. -/
structure World.Passed (world : World Payload Row) (bound : Nat) : Prop where
  active : ∀ generation, world.active = some generation →
    Through world.log (world.Covers options rebuild live generation) bound
  unset : world.active = none → Through world.log (fun _ => False) bound

structure World.Sound (world : World Payload Row) : Prop where
  contents : ∀ generation partition, (world.generations generation).rows partition =
    replay options.maxItemsPerPartition ((world.applied generation).filter (·.change.partition = partition))
  reserved : ∀ generation, ∀ entry ∈ world.applied generation,
    entry.change.partition ∈ (world.generations generation).partitions
  lease : ∀ number, world.attempt = some number → world.owner = some number
  owner : ∀ number, world.owner = some number → number < world.attempts
  unset : world.active = none → ∀ generation, world.highwater generation = 0
  checkpoint : world.Passed options rebuild live world.checkpointSequence
  highwater : ∀ generation, world.active = some generation →
    Through world.log (world.Covers options rebuild live generation) (world.highwater generation)
  manifest : ∀ manifest, world.manifest = some manifest →
    Loads options rebuild live world.log world.snapshots manifest.made

/-! ### What is known -/

def World.Inactive : Prop := ∃ active, world.active = some active ∧ active ≠ rebuild.generation

def World.Targets : Prop :=
  world.active ≠ none ∧ (generation = rebuild.generation → world.active = some rebuild.generation)

/-- The generation that is rebuilt has just what this attempt applied, in order, up to a sequence. -/
structure World.Fenced (world : World Payload Row) (number bound : Nat) : Prop where
  inactive : world.Inactive rebuild
  own : world.applied rebuild.generation = world.written number
  bounded : ∀ entry ∈ world.applied rebuild.generation, entry.sequence ≤ bound
  ascending : (world.applied rebuild.generation).Pairwise (·.sequence ≤ ·.sequence)
  highwater : world.highwater rebuild.generation ≤ bound

def Remains (due : List Row) : Prop :=
  ∃ done, event.rows = done ++ due ∧ Held options applied ⟨event.envelope, done⟩

def World.Reserves (due : List Row) : Prop :=
  ∀ change, First options due change → change.partition ∈ (world.generations generation).partitions

def World.Owes (left : List (Write Payload Row)) (goal : Nat) : Prop :=
  OnlineProjection.Owes options rebuild live world.log world.snapshots (world.applied rebuild.generation) left goal

def World.Loads (made : Made Payload Row) : Prop :=
  OnlineProjection.Loads options rebuild live world.log world.snapshots made

def AttemptStage.Remembers : AttemptStage Payload Row → Prop
  | .recalled recovered | .begun recovered | .resetting recovered | .deleting recovered _ =>
    ∀ manifest, recovered = some manifest → world.Loads options rebuild live manifest.made
  | .replaying afterSequence segments => world.Loads options rebuild live ⟨afterSequence, segments⟩
  | .writing made left goal => world.Loads options rebuild live made ∧ Ordered left goal
  | .caught made _ _ => world.Loads options rebuild live made
  | .rows made event left goal _ | .reserved made event left goal _ =>
    world.Loads options rebuild live made ∧ Ordered (event :: left) goal
  | .named | .closing => True

/-- What an attempt knows as long as it owns the generation. -/
def AttemptStage.Knows (number : Nat) : AttemptStage Payload Row → Prop
  | .resetting _ => world.Inactive rebuild
  | .deleting _ left => world.Inactive rebuild ∧
      ∀ entry ∈ world.applied rebuild.generation, entry.change.partition ∈ left
  | .replaying _ _ => world.Inactive rebuild ∧ world.applied rebuild.generation = [] ∧
      world.highwater rebuild.generation = 0 ∧ world.written number = []
  | .writing _ left goal => world.Fenced rebuild number (world.highwater rebuild.generation) ∧
      (∀ event ∈ left, world.highwater rebuild.generation ≤ event.envelope.sequence) ∧
      world.highwater rebuild.generation ≤ goal ∧ world.Owes options rebuild live left goal
  | .caught _ goal highwater => world.Fenced rebuild number (world.highwater rebuild.generation) ∧
      world.highwater rebuild.generation = highwater ∧ highwater ≤ goal ∧ world.Owes options rebuild live [] goal
  | .rows _ event left goal due => world.Fenced rebuild number event.envelope.sequence ∧
      world.Owes options rebuild live (event :: left) goal ∧
      Remains options (world.applied rebuild.generation) event due
  | .reserved _ event left goal due => world.Fenced rebuild number event.envelope.sequence ∧
      world.Owes options rebuild live (event :: left) goal ∧
      Remains options (world.applied rebuild.generation) event due ∧ world.Reserves options rebuild.generation due
  | .named | .recalled _ | .begun _ | .closing => True

/-- The attempt has acquired the lease, and has the generation for itself from then on. -/
def AttemptStage.isBegun : AttemptStage Payload Row → Bool
  | .named | .recalled _ | .closing => false
  | _ => true

/-- The events that are left bring a run from a checkpoint to the next. -/
structure Pending (log : Streams.Log (Content Payload)) (base : Nat) (left : List (Write Payload Row)) (upTo : Nat) :
    Prop where
  within : upTo ≤ log.last
  ascending : left.Pairwise (·.envelope.sequence < ·.envelope.sequence)
  bounded : ∀ event ∈ left, base < event.envelope.sequence ∧ event.envelope.sequence ≤ upTo
  recorded : ∀ event ∈ left, event.envelope ∈ log.events
  covers : ∀ event ∈ log.events, base < event.sequence → event.sequence ≤ upTo → ∃ write ∈ left, write.envelope = event
  projected : ∀ event ∈ left, live.project event.envelope.payload = .ok event.rows

def LiveStage.Knows : LiveStage Row → Prop
  | .between => True
  | .targeted generation => world.Targets rebuild generation
  | .rows generation due => world.Targets rebuild generation ∧
      (world.active = some generation → Remains options (world.applied generation) event due)
  | .reserved generation due => world.Targets rebuild generation ∧
      (world.active = some generation → Remains options (world.applied generation) event due) ∧
      world.Reserves options generation due
  | .written generation => world.Targets rebuild generation ∧
      (world.active = some generation → world.Covers options rebuild live generation event.envelope)

def Phase.Agrees : Phase Payload Row → Prop
  | .still => True
  | .idle base => base ≤ world.checkpointSequence
  | .live base event left upTo stage => base ≤ world.checkpointSequence ∧
      Pending live world.log base (event :: left) upTo ∧ stage.Knows options rebuild live world event
  | .applied base upTo => base ≤ world.checkpointSequence ∧ Pending live world.log base [] upTo
  | .attempt number stage => number < world.attempts ∧
      (stage.isBegun = true → world.owner = some number ∨ 2 ≤ world.attempts) ∧
      stage.Remembers options rebuild live world ∧
      (world.owner = some number → stage.Knows options rebuild live world number)

def Phase.number : Phase Payload Row → Option Nat
  | .attempt number _ => some number
  | _ => none

def Phase.Apart (one two : Phase Payload Row) : Prop := ∀ number, one.number = some number → two.number ≠ some number

/-- What a step of one caller, an attempt or not, leaves the others. -/
structure Respects (mover : Option Nat) (world world' : World Payload Row) : Prop where
  log : world.log.Leads world'.log
  attempts : world.attempts ≤ world'.attempts
  checkpoint : world.checkpointSequence ≤ world'.checkpointSequence
  snapshots : world.snapshots ⊆ world'.snapshots
  present : world.active ≠ none → world'.active ≠ none
  kept : world.active = some rebuild.generation → world'.active = some rebuild.generation
  moved : ∀ generation, world'.active = some generation →
    world.active = some generation ∨ world.active = none ∨ generation = rebuild.generation
  owner : world'.owner = world.owner ∨
    ∃ number, mover = some number ∧ world'.owner = some number ∧ number < world.attempts
  grows : ∀ generation, (generation = rebuild.generation → world.active = some rebuild.generation) →
    world.applied generation ⊆ world'.applied generation ∧
      (world.generations generation).partitions ⊆ (world'.generations generation).partitions
  spared : ∀ number, mover ≠ some number → world.owner = some number → world.Inactive rebuild →
    world'.Inactive rebuild ∧ world'.generations rebuild.generation = world.generations rebuild.generation ∧
      world'.applied rebuild.generation = world.applied rebuild.generation ∧
      world'.written number = world.written number

end

theorem Held.mono (held : Held options applied event) (less : applied ⊆ more) : Held options more event := by
  intro row among
  obtain ⟨change, is, entry, present, same⟩ := held row among
  exact ⟨change, is, entry, less present, same⟩

theorem Covered.mono (covered : Covered options rebuild live snapshots applied event) (less : applied ⊆ more)
    (taken : snapshots ⊆ further) : Covered options rebuild live further more event := by
  rcases covered with ⟨rows, projected, held⟩ | ⟨snap, among, below, held⟩
  · exact .inl ⟨rows, projected, held.mono less⟩
  refine .inr ⟨snap, taken among, below, fun page member item inside => ?_⟩
  obtain ⟨partitionBy, event, rows, has, is, projected, held⟩ := held page member item inside
  exact ⟨partitionBy, event, rows, has, is, projected, held.mono less⟩

theorem Owes.mono (owes : Owes options rebuild live log snapshots applied left goal) (less : applied ⊆ more)
    (leads : log.Leads later) (taken : snapshots ⊆ further) :
    Owes options rebuild live later further more left goal := by
  intro all beyond held
  exact ((owes all (List.Subset.trans less beyond) held).leads leads).mono fun _ covered => covered.mono (List.Subset.refl _) taken

theorem Owes.next (owes : Owes options rebuild live log snapshots applied (event :: left) goal)
    (held : Held options applied event) : Owes options rebuild live log snapshots applied left goal := by
  intro all beyond rest
  exact owes all beyond (List.forall_mem_cons.mpr ⟨held.mono beyond, rest⟩)

theorem Owes.through (owes : Owes options rebuild live log snapshots applied [] goal) :
    Through log (Covered options rebuild live snapshots applied) goal := owes applied (List.Subset.refl _) nofun

theorem Loads.mono (loads : Loads options rebuild live log snapshots made) (leads : log.Leads later)
    (taken : snapshots ⊆ further) : Loads options rebuild live later further made :=
  ⟨loads.within.trans leads.last, loads.ordered, loads.owes.mono (List.Subset.refl _) leads taken⟩

/-! ### What others leave -/

section
variable {rebuild : RebuildOptions Payload Row} {world world' : World Payload Row} {mover : Option Nat}

namespace Respects

theorem refl (world : World Payload Row) : Respects rebuild mover world world where
  log := world.log.leads_refl
  attempts := Nat.le_refl _
  checkpoint := Nat.le_refl _
  snapshots := List.Subset.refl _
  present same := same
  kept same := same
  moved _ same := .inl same
  owner := .inl rfl
  grows _ _ := ⟨List.Subset.refl _, List.Subset.refl _⟩
  spared _ _ _ inactive := ⟨inactive, rfl, rfl, rfl⟩

variable (respects : Respects rebuild mover world world')
include respects

theorem targets (targets : world.Targets rebuild generation) : world'.Targets rebuild generation :=
  ⟨respects.present targets.1, fun same => respects.kept (targets.2 same)⟩

theorem active (targets : world.Targets rebuild generation) (active : world'.active = some generation) :
    world.active = some generation := by
  rcases respects.moved generation active with same | none | same
  · exact same
  · exact absurd none targets.1
  · rw [same]
    exact targets.2 same

theorem liveStage {stage : LiveStage Row} (knows : stage.Knows options rebuild live world event)
    : stage.Knows options rebuild live world' event := by
  have remains : ∀ {generation due}, world.Targets rebuild generation →
      (world.active = some generation → Remains options (world.applied generation) event due) →
      world'.active = some generation → Remains options (world'.applied generation) event due := by
    intro generation due targets remains active
    obtain ⟨done, split, held⟩ := remains (respects.active targets active)
    exact ⟨done, split, held.mono (respects.grows generation targets.2).1⟩
  cases stage with
  | between => trivial
  | targeted => exact respects.targets knows
  | rows => exact ⟨respects.targets knows.1, remains knows.1 knows.2⟩
  | reserved generation due =>
    obtain ⟨targets, left, reserves⟩ := knows
    exact ⟨respects.targets targets, remains targets left,
      fun change first => (respects.grows generation targets.2).2 (reserves change first)⟩
  | written generation =>
    obtain ⟨targets, covers⟩ := knows
    exact ⟨respects.targets targets, fun active =>
      (covers (respects.active targets active)).mono (respects.grows generation targets.2).1 respects.snapshots⟩

theorem pending {live : ProjectionOptions Payload Row} {base upTo : Nat} {left : List (Write Payload Row)}
    (pending : Pending live world.log base left upTo) : Pending live world'.log base left upTo where
  within := pending.within.trans respects.log.last
  ascending := pending.ascending
  bounded := pending.bounded
  recorded event among := respects.log.events.subset (pending.recorded event among)
  covers event among above below := by
    rcases respects.log.mem among with among | _
    · exact pending.covers event among above below
    · have := pending.within
      omega
  projected := pending.projected

theorem remembers {stage : AttemptStage Payload Row} (remembers : stage.Remembers options rebuild live world) :
    stage.Remembers options rebuild live world' := by
  have loads : ∀ {made}, world.Loads options rebuild live made → world'.Loads options rebuild live made :=
    fun loads => loads.mono respects.log respects.snapshots
  cases stage with
  | named | closing => trivial
  | recalled recovered | begun recovered | resetting recovered | deleting recovered left =>
    exact fun manifest is => loads (remembers manifest is)
  | replaying afterSequence segments | caught made goal highwater => exact loads remembers
  | writing made left goal | rows made event left goal due | reserved made event left goal due =>
    exact remembers.imp_left loads

theorem knows {stage : AttemptStage Payload Row} (other : mover ≠ some num)
    (knows : world.owner = some num → stage.Knows options rebuild live world num)
    (owns : world'.owner = some num) : stage.Knows options rebuild live world' num := by
  have owned : world.owner = some num := by
    rcases respects.owner with same | ⟨_, moved, is, -⟩
    · exact same ▸ owns
    · exact absurd (moved.trans (is.symm.trans owns)) other
  have knows := knows owned
  have spared := respects.spared num other owned
  have highwater : world.Inactive rebuild → world'.highwater rebuild.generation = world.highwater rebuild.generation :=
    fun inactive => by rw [World.highwater, World.highwater, (spared inactive).2.1]
  have fenced : ∀ {bound}, world.Fenced rebuild num bound → world'.Fenced rebuild num bound := by
    intro bound fenced
    obtain ⟨inactive, -, applied, written⟩ := spared fenced.inactive
    refine ⟨inactive, ?_, ?_, ?_, ?_⟩
    · rw [applied, written]
      exact fenced.own
    · rw [applied]
      exact fenced.bounded
    · rw [applied]
      exact fenced.ascending
    · rw [highwater fenced.inactive]
      exact fenced.highwater
  have owes : ∀ {left goal}, world.Inactive rebuild → world.Owes options rebuild live left goal →
      world'.Owes options rebuild live left goal := by
    intro left goal inactive owes
    unfold World.Owes at owes ⊢
    rw [(spared inactive).2.2.1]
    exact owes.mono (List.Subset.refl _) respects.log respects.snapshots
  cases stage with
  | named | recalled recovered | begun recovered | closing => trivial
  | resetting => exact (spared knows).1
  | deleting =>
    obtain ⟨inactive, -, applied, -⟩ := spared knows.1
    refine ⟨inactive, ?_⟩
    rw [applied]
    exact knows.2
  | replaying =>
    obtain ⟨inactive, -, applied, written⟩ := spared knows.1
    refine ⟨inactive, ?_, ?_, ?_⟩
    · rw [applied]
      exact knows.2.1
    · rw [highwater knows.1]
      exact knows.2.2.1
    · rw [written]
      exact knows.2.2.2
  | writing =>
    obtain ⟨alone, ahead, within, owed⟩ := knows
    change world'.Fenced _ _ _ ∧ _
    rw [highwater alone.inactive]
    exact ⟨fenced alone, ahead, within, owes alone.inactive owed⟩
  | caught =>
    obtain ⟨alone, is, within, owed⟩ := knows
    change world'.Fenced _ _ _ ∧ _
    rw [highwater alone.inactive]
    exact ⟨fenced alone, is, within, owes alone.inactive owed⟩
  | rows =>
    obtain ⟨alone, owed, remains⟩ := knows
    refine ⟨fenced alone, owes alone.inactive owed, ?_⟩
    rw [(spared alone.inactive).2.2.1]
    exact remains
  | reserved =>
    obtain ⟨alone, owed, remains, reserves⟩ := knows
    refine ⟨fenced alone, owes alone.inactive owed, ?_, fun change first => ?_⟩
    · rw [(spared alone.inactive).2.2.1]
      exact remains
    · rw [(spared alone.inactive).2.1]
      exact reserves change first

theorem agrees {phase : Phase Payload Row} (apart : phase.number = none ∨ mover ≠ phase.number)
    (agrees : phase.Agrees options rebuild live world) : phase.Agrees options rebuild live world' := by
  cases phase with
  | still => trivial
  | idle base => exact agrees.trans respects.checkpoint
  | applied => exact ⟨agrees.1.trans respects.checkpoint, respects.pending agrees.2⟩
  | live =>
    obtain ⟨behind, pending, knows⟩ := agrees
    exact ⟨behind.trans respects.checkpoint, respects.pending pending, respects.liveStage knows⟩
  | attempt num stage =>
    have other : mover ≠ some num := apart.resolve_left nofun
    obtain ⟨known, begun, remembers, knows⟩ := agrees
    refine ⟨Nat.lt_of_lt_of_le known respects.attempts, fun since => ?_, respects.remembers remembers,
      respects.knows other knows⟩
    rcases begun since with owns | two
    · rcases respects.owner with same | ⟨number', moved, _, _⟩
      · exact .inl (same.trans owns)
      · have ne : number' ≠ num := by
          rintro rfl
          exact other moved
        have := respects.attempts
        exact .inr (by omega)
    · exact .inr (two.trans respects.attempts)

end Respects
end
end Applik8s.OnlineProjection
