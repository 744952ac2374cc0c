import Applik8s.OnlineProjection.LiveRuns

/-! When the reads of a snapshot see one state of the projection. Live runs apply the rows of an event one by one and
advance the checkpoint behind them, so that equal revisions do not tell whether a row was applied in between. Where none
was, every read finds what the events up to the checkpoint come to. -/
namespace Applik8s.OnlineProjection
open Lib List Nat
open Streams (ReadContract)
variable {Payload Row Value α : Type} {opts : WriterOptions Row} {live : ProjectionOptions Payload Row}
  {source : Streams.Source (Content Payload)} {world world' : World Payload Row} {reader : Reader Value}
  {snapshot : SnapshotOptions α} {seen : Seen Payload Row} {before : String} {asked : Revising}

/-! ### What the reads of an attempt see -/

/-- The generation has just what the events up to the checkpoint come to. -/
structure World.Reflects (options : WriterOptions Row) (live : ProjectionOptions Payload Row)
    (world : World Payload Row) (generation : String) : Prop where
  active : world.active = some generation
  bounded : ∀ entry ∈ world.applied generation, entry.sequence ≤ world.checkpointSequence
  stems : ∀ entry ∈ world.applied generation, ∃ event ∈ world.log.events, event.sequence = entry.sequence ∧
    ∃ rows, live.project event.payload = .ok rows ∧ ∃ row ∈ rows, options.changeOf row = .ok entry.change
  complete : ∀ event ∈ world.log.events, event.sequence ≤ world.checkpointSequence →
    ∃ rows, live.project event.payload = .ok rows ∧ Held options (world.applied generation) ⟨event, rows⟩
  contents : ∀ partition, (world.generations generation).rows partition =
    replay options.maxItemsPerPartition ((world.applied generation).filter (·.change.partition = partition))

def World.Answers (world : World Payload Row) (read : Read) (reply : Except String read.Answer) : Prop :=
  (∃ message, reply = .error message) ∨ reply = .ok (world.look read)

/-- All reads of the operation saw the keys as they were when it began, which is what the events up to the revision's
checkpoint come to in its generation; and the value is one that the operation comes to on these keys. -/
structure Isolated (options : WriterOptions Row) (live : ProjectionOptions Payload Row)
    (operation : Reading α) (value : α) (revision : String) (seen : Seen Payload Row) : Prop where
  state : ∃ generation, seen.start.Reflects options live generation ∧
    revision = generation ++ ":" ++ String.ofList (decimal seen.start.checkpointSequence)
  reads : ∀ world ∈ seen.worlds, ∀ read, world.look read = seen.start.look read
  value : operation.MayEnd seen.start.Answers (.ok value)

variable {generation : String}

theorem Orderly.reflects (orderly : Orderly opts live sys) (active : sys.world.active = some gen)
    (behind : sys.world.ahead = false) : sys.world.Reflects opts live gen := by
  obtain ⟨_, -, ⟨sound, -⟩, -⟩ := orderly.kept
  refine ⟨active, fun entry among => ?_, orderly.stems.stems gen active, fun event recorded below => ?_,
    sound.contents gen⟩
  · unfold World.ahead at behind
    rw [active] at behind
    have none := any_eq_false.mp behind entry among
    exact Nat.le_of_not_lt (by simpa using none)
  rcases (sound.checkpoint.active gen active).covers event recorded below with
    ⟨rows, projected, held⟩ | ⟨snap, taken, -⟩
  · exact ⟨rows, projected.elim id id, held⟩
  · rw [orderly.snapshots] at taken
    cases taken

def Seen.Answers (seen : Seen Payload Row) (read : Read) (reply : Except String read.Answer) : Prop :=
  (∃ message, reply = .error message) ∨ ∃ world ∈ seen.worlds, reply = .ok (world.look read)

/-- What is left of the operation ends as the operation does. -/
def Seen.Leads (seen : Seen Payload Row) (operation rest : Reading α) : Prop :=
  ∀ answers : (read : Read) → Except String read.Answer → Prop,
    (∀ read reply, seen.Answers read reply → answers read reply) →
      ∀ result, rest.MayEnd answers result → operation.MayEnd answers result

/-- Two worlds that a reader cannot tell apart but by their checkpoints. -/
structure Alike (world world' : World Payload Row) : Prop where
  active : world'.active = world.active
  rebuilding : world'.rebuilding = world.rebuilding

/-- What has been answered to a revision's commands still bounds the keys. -/
structure Revising.Knows (world : World Payload Row) (asked : Revising) : Prop where
  active : ∀ generation, asked.active = some (some generation) → world.active = some generation
  checkpoint : ∀ checkpoint, asked.checkpoint = some checkpoint →
    ∃ sequence : Nat, checkpoint = sequence ∧ sequence ≤ world.checkpointSequence

structure Seen.Knows (options : WriterOptions Row) (live : ProjectionOptions Payload Row) (before : String)
    (world : World Payload Row) (seen : Seen Payload Row) : Prop where
  opened : ∃ generation, ∃ sequence : Nat, before = generation ++ ":" ++ String.ofList (decimal sequence) ∧
    seen.start.active = some generation ∧ sequence ≤ seen.start.checkpointSequence ∧
      (seen.disturbed = false → seen.start.Reflects options live generation)
  alike : Alike seen.start world
  advanced : seen.start.checkpointSequence ≤ world.checkpointSequence
  met : ∀ met ∈ seen.worlds, Alike seen.start met ∧ seen.start.checkpointSequence ≤ met.checkpointSequence ∧
    met.checkpointSequence ≤ world.checkpointSequence ∧ (seen.disturbed = false → SameRows seen.start met)

def Stage.Knows (options : WriterOptions Row) (live : ProjectionOptions Payload Row) (operation : Reading α)
    (world : World Payload Row) : Stage Payload Row α → Prop
  | .opening _ asked => asked.Knows world
  | .operating _ before rest seen => seen.Knows options live before world ∧
      (seen.disturbed = false → SameRows seen.start world) ∧ seen.Leads operation rest
  | .closing _ before value asked seen => seen.Knows options live before world ∧ asked.Knows world ∧
      (∀ checkpoint, asked.checkpoint = some checkpoint → (seen.start.checkpointSequence : Int) ≤ checkpoint ∧
        ∀ met ∈ seen.worlds, (met.checkpointSequence : Int) ≤ checkpoint) ∧
      operation.MayEnd seen.Answers (.ok value)
  | .returned value revision seen => seen.disturbed = false → Isolated options live operation value revision seen
  | .failed _ => True

theorem Seen.Knows.alike_active (knows : seen.Knows opts live before world)
    (active : seen.start.active = some gen) : world.active = some gen :=
  knows.alike.active.trans active

/-! ### Steps of the live runs, seen by the reader -/

section
variable (proceeds : Proceeds world world')
include proceeds

private theorem revising_proceeds (knows : asked.Knows world) : asked.Knows world' where
  active gen is := proceeds.active gen (knows.active gen is)
  checkpoint mark is := by
    obtain ⟨seq, same, below⟩ := knows.checkpoint mark is
    exact ⟨seq, same, below.trans proceeds.checkpoint⟩

private theorem seen_proceeds (knows : seen.Knows opts live before world) : seen.Knows opts live before world' where
  opened := knows.opened
  alike := by
    obtain ⟨gen, -, -, active, -⟩ := knows.opened
    exact ⟨(proceeds.active gen (knows.alike_active active)).trans active.symm,
      proceeds.rebuilding.trans knows.alike.rebuilding⟩
  advanced := knows.advanced.trans proceeds.checkpoint
  met met among := by
    obtain ⟨alike, since, until_, rows⟩ := knows.met met among
    exact ⟨alike, since, until_.trans proceeds.checkpoint, rows⟩

private theorem seen_disturbed (knows : seen.Knows opts live before world) :
    ({ seen with disturbed := true } : Seen Payload Row).Knows opts live before world' := by
  have later := seen_proceeds proceeds knows
  obtain ⟨gen, seq, is, active, below, -⟩ := later.opened
  refine ⟨⟨gen, seq, is, active, below, nofun⟩, later.alike, later.advanced, fun met among => ?_⟩
  obtain ⟨alike, since, until_, -⟩ := later.met met among
  exact ⟨alike, since, until_, nofun⟩

theorem Stage.Knows.write {stage : Stage Payload Row α} (rows : applies = false → SameRows world world')
    (knows : stage.Knows opts live snapshot.operation world) :
    (if applies then stage.disturb else stage).Knows opts live snapshot.operation world' := by
  cases stage with
  | opening => cases applies <;> exact revising_proceeds proceeds knows
  | operating =>
    obtain ⟨known, same, leads⟩ := knows
    cases applies with
    | false => exact ⟨seen_proceeds proceeds known, fun calm => (same calm).trans (rows rfl), leads⟩
    | true => exact ⟨seen_disturbed proceeds known, nofun, leads⟩
  | closing =>
    obtain ⟨known, asks, bounds, ends⟩ := knows
    cases applies <;>
      exact ⟨seen_proceeds proceeds known, revising_proceeds proceeds asks, bounds, ends⟩
  | returned => cases applies <;> exact knows
  | failed => cases applies <;> trivial

end

/-! ### Steps of the reader -/

/-- Nothing is known but what was known and what the keys are now. -/
structure Learns (world : World Payload Row) (learn : Revising → Revising) : Prop where
  active : ∀ asked active, (learn asked).active = some active → asked.active = some active ∨ active = world.active
  checkpoint : ∀ asked checkpoint, (learn asked).checkpoint = some checkpoint →
    asked.checkpoint = some checkpoint ∨ checkpoint = world.checkpointSequence

theorem learns_active (world : World Payload Row) :
    Learns world fun asked => { asked with active := asked.active <|> some world.active } where
  active asked active is := by
    cases known : asked.active <;> simp_all
  checkpoint asked mark is := .inl is

theorem learns_checkpoint (world : World Payload Row) :
    Learns world fun asked => { asked with checkpoint := asked.checkpoint <|> some (world.checkpointSequence : Int) } where
  active asked active is := .inl is
  checkpoint asked mark is := by
    cases known : asked.checkpoint <;> simp_all

theorem Revising.Knows.learn {learn : Revising → Revising} (learns : Learns world learn) (knows : asked.Knows world) :
    (learn asked).Knows world where
  active gen is := by
    rcases learns.active asked _ is with known | now
    · exact knows.active gen known
    · exact now.symm
  checkpoint mark is := by
    rcases learns.checkpoint asked _ is with known | now
    · exact knows.checkpoint mark known
    · exact ⟨world.checkpointSequence, now, le_refl _⟩

theorem revision_ok (made : asked.revision reader = some (.ok rev)) (knows : asked.Knows world) : ∃ gen, ∃ seq : Nat,
      rev = gen ++ ":" ++ String.ofList (decimal seq) ∧ asked.checkpoint = some (seq : Int) ∧
        world.active = some gen ∧ seq ≤ world.checkpointSequence := by
  unfold Revising.revision at made
  split at made
  · next active mark isActive isCheckpoint =>
    obtain ⟨seq, rfl, below⟩ := knows.checkpoint mark isCheckpoint
    unfold Reader.revisionOf at made
    split at made
    · cases made
    · cases made
    next gen _ =>
    split at made
    · cases made
    · cases made
      exact ⟨gen, seq, rfl, isCheckpoint, knows.active gen isActive, below⟩
  · cases made

theorem operate_knows (known : seen.Knows opts live before world)
    (same : seen.disturbed = false → SameRows seen.start world) (leads : seen.Leads snapshot.operation rest) :
    (Stage.operate tried before seen rest).Knows opts live snapshot.operation world := by
  cases rest with
  | done value => exact ⟨known, ⟨nofun, nofun⟩, nofun, leads _ (fun _ _ => id) _ rfl⟩
  | throw => trivial
  | call => exact ⟨known, same, leads⟩

theorem begin_knows {sys : System Payload Row} (orderly : Orderly opts live sys) {seq : Nat}
    (active : sys.world.active = some gen) (below : seq ≤ sys.world.checkpointSequence)
    (is : before = gen ++ ":" ++ String.ofList (decimal seq)) :
    ({ start := sys.world, disturbed := sys.world.ahead } : Seen Payload Row).Knows opts live before sys.world where
  opened := ⟨gen, seq, is, active, below, orderly.reflects active⟩
  alike := ⟨rfl, rfl⟩
  advanced := le_refl _
  met := nofun

theorem Seen.Leads.read {read : Read} {next : Except String read.Answer → Reading α}
    {reply : Except String read.Answer} (leads : seen.Leads op (.call read next))
    (answered : world.Answers read reply) :
    ({ seen with worlds := seen.worlds ++ [world] } : Seen Payload Row).Leads op (next reply) := by
  intro answers covers res ends
  have earlier : ∀ read reply, seen.Answers read reply → answers read reply := by
    rintro read reply (failed | ⟨met, among, is⟩)
    · exact covers read reply (.inl failed)
    · exact covers read reply (.inr ⟨met, mem_append_left _ among, is⟩)
  refine leads answers earlier res ⟨reply, covers read reply ?_, ends⟩
  exact answered.imp_right fun is => ⟨world, mem_append_right _ mem_cons_self, is⟩

theorem Seen.Knows.read (known : seen.Knows opts live before world)
    (same : seen.disturbed = false → SameRows seen.start world) :
    ({ seen with worlds := seen.worlds ++ [world] } : Seen Payload Row).Knows opts live before world where
  opened := known.opened
  alike := known.alike
  advanced := known.advanced
  met met among := by
    rcases mem_append.mp among with before | now
    · exact known.met met before
    · obtain rfl := mem_singleton.mp now
      exact ⟨known.alike, known.advanced, le_refl _, same⟩

/-- What is alike, has the same rows and the same checkpoint answers every read in the same way. -/
theorem look_eq (alike : Alike world world') (rows : SameRows world world')
    (mark : world'.checkpointSequence = world.checkpointSequence) (read : Read) :
    world'.look read = world.look read := by
  cases read with
  | active => exact alike.active
  | checkpoint => exact congrArg Nat.cast mark
  | rebuilding => exact alike.rebuilding
  | range gen part =>
    change List.take _ (List.drop _ ((world'.generations gen).rows part).scored) = _
    rw [rows.rows]
    rfl
  | value gen part member =>
    change ((world'.generations gen).rows part).values.get member = _
    rw [rows.rows]
    rfl

theorem returned_isolated {seq : Nat}
    (knows : (Stage.closing tried before value asked seen).Knows opts live snapshot.operation world)
    (same : before = gen ++ ":" ++ String.ofList (decimal seq)) (answered : asked.checkpoint = some (seq : Int))
    (calm : seen.disturbed = false) : Isolated opts live snapshot.operation value before seen := by
  obtain ⟨known, -, bounds, ends⟩ := knows
  obtain ⟨opened, first, is, _, _, reflects⟩ := known.opened
  obtain ⟨_, met⟩ := bounds _ answered
  have texts := (splitRevision_eq opened first).symm.trans ((congrArg splitRevision (is.symm.trans same)).trans
    (splitRevision_eq gen seq))
  have checkpoints : first = seq := decimal_natCast_inj (String.ofList_injective (congrArg Prod.snd texts))
  have reached : seen.start.checkpointSequence = first := by omega
  have looks : ∀ met ∈ seen.worlds, ∀ read, met.look read = seen.start.look read := by
    intro other among read
    obtain ⟨alike, _, -, rows⟩ := known.met other among
    have upper := met other among
    exact look_eq alike (rows calm) (by omega) read
  refine ⟨⟨opened, reflects calm, by rw [is, reached]⟩, looks, ends.mono fun read reply answer => ?_⟩
  refine answer.imp_right ?_
  rintro ⟨other, among, rfl⟩
  rw [looks other among read]

variable {stage : Stage Payload Row α}

theorem Stage.Knows.revise (orderly : Orderly opts live sys) (learns : Learns sys.world learn)
    (knows : stage.Knows opts live snap.operation sys.world) :
    (stage.revise reader snap sys.world learn).Knows opts live snap.operation sys.world := by
  cases stage with
  | opening tried asked =>
    have now : (learn asked).Knows sys.world := Revising.Knows.learn learns knows
    unfold Stage.revise
    dsimp only
    split
    · exact now
    · trivial
    next before made =>
    obtain ⟨gen, seq, is, -, active, below⟩ := revision_ok made now
    exact operate_knows (begin_knows orderly active below is) (fun _ => .refl _) fun _ _ _ => id
  | closing tried before value asked seen =>
    obtain ⟨known, asks, bounds, ends⟩ := knows
    have now : (learn asked).Knows sys.world := Revising.Knows.learn learns asks
    have bounds' : ∀ mark, (learn asked).checkpoint = some mark → (seen.start.checkpointSequence : Int) ≤ mark ∧
          ∀ met ∈ seen.worlds, (met.checkpointSequence : Int) ≤ mark := by
      intro mark is
      rcases learns.checkpoint asked _ is with before | rfl
      · exact bounds mark before
      · exact ⟨Int.ofNat_le.mpr known.advanced, fun met among => Int.ofNat_le.mpr (known.met met among).2.2.1⟩
    unfold Stage.revise
    dsimp only
    split
    · exact ⟨known, now, bounds', ends⟩
    · trivial
    next after made =>
    obtain ⟨_, _, is, answered, -⟩ := revision_ok made now
    split
    · next same =>
      subst same
      have closing : (Stage.closing tried before value (learn asked) seen).Knows opts live snap.operation
        sys.world := ⟨known, now, bounds', ends⟩
      exact returned_isolated closing is answered
    · split
      · exact ⟨nofun, nofun⟩
      · trivial
  | operating => exact knows
  | returned => exact knows
  | failed => trivial

theorem Stage.Knows.read (knows : stage.Knows opts live snapshot.operation world) :
    (stage.read world err).Knows opts live snapshot.operation world := by
  cases stage with
  | operating _ _ rest =>
    cases rest with
    | call =>
      obtain ⟨known, same, leads⟩ := knows
      refine operate_knows (known.read same) same (leads.read ?_)
      cases err with
      | none => exact .inr rfl
      | some msg => exact .inl ⟨msg, rfl⟩
    | done value => exact knows
    | throw => exact knows
  | _ => exact knows

theorem Stage.Knows.refuse (knows : stage.Knows opts live snapshot.operation world) :
    (stage.refuse msg).Knows opts live snapshot.operation world := by
  cases stage with
  | opening _ _ | closing _ _ _ _ _ => trivial
  | _ => exact knows

section
variable [Inhabited Payload] [DecidableEq Payload] [DecidableEq Row]

/-- The live runs are in order, and the reader knows what it needs to. -/
structure Session.Sound (options : WriterOptions Row) (live : ProjectionOptions Payload Row)
    (snapshot : SnapshotOptions α) (session : Session Payload Row α) : Prop where
  orderly : Orderly options live session.writers
  knows : session.stage.Knows options live snapshot.operation session.writers.world

theorem Session.Sound.next {session : Session Payload Row α} (contract : ReadContract source)
    (sound : session.Sound opts live snap) (allowed : move.isLive = true) :
    (session.next reader snap opts source live move).Sound opts live snap := by
  obtain ⟨orderly, knows⟩ := sound
  cases move with
  | write step =>
    have other : ∀ caller, step ≠ .start caller .rebuild := by
      rintro _ rfl
      cases allowed
    obtain ⟨proceeds, -, rows⟩ : Proceeds session.writers.world
        (OnlineProjection.next opts (dormant live) source live session.writers step).world ∧ _ := next_leaves orderly
    exact ⟨orderly.next contract other, knows.write proceeds rows⟩
  | active err =>
    cases err with
    | none => exact ⟨orderly, knows.revise orderly (learns_active _)⟩
    | some => exact ⟨orderly, knows.refuse⟩
  | checkpoint err =>
    cases err with
    | none => exact ⟨orderly, knows.revise orderly (learns_checkpoint _)⟩
    | some => exact ⟨orderly, knows.refuse⟩
  | read => exact ⟨orderly, knows.read⟩

/-- In every run of live runs and of one `snapshot`, whose commands come in any order: where the attempt that returns was
not disturbed, all its operation's reads saw one state of the projection, which is what the events up to the checkpoint of
the returned revision come to in its generation. -/
theorem undisturbed_snapshot_isolated (options : WriterOptions Row) (live : ProjectionOptions Payload Row)
    (reader : Reader Value) (snapshot : SnapshotOptions α) (contract : ReadContract source)
    (log : Streams.Log (Content Payload)) (moves : List (Move Payload)) (allowed : ∀ move ∈ moves, move.isLive = true)
    {value : α} {revision : String} {seen : Seen Payload Row}
    (returned : (runFrom (Session.next reader snapshot options source live) { writers := { world := { log } } }
      moves).stage = .returned value revision seen) (calm : seen.disturbed = false) :
    Isolated options live snapshot.operation value revision seen := by
  have start : Session.Sound options live snapshot
      ({ writers := { world := { log } } } : Session Payload Row α) := ⟨orderly_start log, nofun, nofun⟩
  have each : EachStep (Session.next reader snapshot options source live) (fun _ move => move.isLive = true)
      { writers := { world := { log } } } moves := eachStep_of_forall allowed
  have sound := invariant_of_steps (Session.Sound options live snapshot) (fun _ _ held met => held.next contract met)
    start each
  have knows := sound.knows
  rw [returned] at knows
  exact knows calm

end

def pageSnapshot : SnapshotOptions (List String) where
  operation := do
    let page ← plainReader.readPage { partition := some "p", limit := 10 }
    pure page.items

abbrev plainSession : Session String String (List String) → Move String → Session String String (List String) :=
  Session.next plainReader pageSnapshot plainWriter Streams.postgresRead plainLive

/-- An event is recorded, and a live run takes some steps. -/
def recorded (sequence : Nat) (payload : String) (steps : Nat) : List (Move String) :=
  ((.start 9 (.append ⟨sequence, payload, "p", 0, payload⟩) :: goes 9 2) ++ .start 0 .project :: goes 0 steps).map
    .write

/-- A revision, a page with some members, and a revision. -/
def readOnce (members : Nat) : List (Move String) :=
  [.active, .checkpoint] ++ List.replicate (4 + members) .read ++ [.checkpoint, .active]

/-- What a snapshot has returned, and something of what it saw. -/
def Stage.result {Payload Row α β : Type} (view : Seen Payload Row → β) : Stage Payload Row α → Option (α × String × β)
  | .returned value revision seen => some (value, revision, view seen)
  | _ => none

theorem Stage.result_eq_some {β : Type} {view : Seen Payload Row → β} {value : α}
    {rev : String} {shown : β} (is : stage.result view = some (value, rev, shown)) :
    ∃ seen, stage = .returned value rev seen ∧ view seen = shown := by
  cases stage with
  | returned _ _ seen =>
    cases is
    exact ⟨seen, rfl, rfl⟩
  | _ => cases is

/-- The event is written, then the page is read. -/
theorem snapshot_of_written_event : ∃ seen,
    (runFrom plainSession { writers := { world := { log := .empty } } } (recorded 1 "x" 12 ++ readOnce 1)).stage =
        .returned ["x"] "live:1" seen ∧
      Isolated plainWriter plainLive pageSnapshot.operation ["x"] "live:1" seen := by
  have result : (runFrom plainSession { writers := { world := { log := .empty } } }
      (recorded 1 "x" 12 ++ readOnce 1)).stage.result Seen.disturbed = some (["x"], "live:1", false) := by
    decide +kernel
  obtain ⟨seen, is, calm⟩ := Stage.result_eq_some result
  exact ⟨seen, is, undisturbed_snapshot_isolated plainWriter plainLive plainReader pageSnapshot
    Streams.postgresRead_contract .empty _ (by decide) is calm⟩

theorem World.Reflects.behind (reflects : world.Reflects opts live gen) : world.ahead = false := by
  unfold World.ahead
  rw [reflects.active]
  refine any_eq_false.mpr fun entry among => ?_
  simpa using reflects.bounded entry among

/-- A row of the second event has been applied, and the checkpoint is still at the first. -/
def halfWritten : List (Move String) := recorded 1 "x" 12 ++ recorded 2 "y" 8

/-- A page has the row of an event that lies beyond the revision that is returned with it. -/
theorem snapshot_shows_half_written_event :
    ¬ ∀ (moves : List (Move String)) (value : List String) (revision : String) (seen : Seen String String),
      (∀ move ∈ moves, move.isLive = true) →
      (runFrom plainSession { writers := { world := { log := .empty } } } moves).stage = .returned value revision seen →
      Isolated plainWriter plainLive pageSnapshot.operation value revision seen := by
  intro all
  have result : (runFrom plainSession { writers := { world := { log := .empty } } }
      (halfWritten ++ readOnce 2)).stage.result (fun seen => seen.start.ahead) =
        some (["y", "x"], "live:1", true) := by
    decide +kernel
  obtain ⟨seen, is, ahead⟩ := Stage.result_eq_some result
  obtain ⟨_, reflects, -⟩ := (all _ _ _ seen (by decide) is).state
  rw [reflects.behind] at ahead
  cases ahead

end Applik8s.OnlineProjection
