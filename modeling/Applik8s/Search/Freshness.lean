import Applik8s.Search.Generations

/-! What a PostgreSQL search index reports of its own freshness. The state column is written on
behalf of the active generation and of a rebuilding one; while every write is made with a
checkpoint the active generation has reached, a report of `current` is true and a lost history
stays reported until another generation is installed. -/
namespace Applik8s.Search.Postgres
open Lib
variable {Document : Type} {opts : RuntimeOptions} {tables after' : Tables Document}
  {checksum : Record (StoredDocument Document) → String}

/-- The history behind the active generation is lost: its next change is below the floor. -/
def HistoryLost (tables : Tables Document) : Prop :=
  ∃ checkpoint, tables.generations tables.index.activeGeneration = some checkpoint ∧
    checkpoint + 1 < tables.index.retentionFloor

structure Honest (tables : Tables Document) : Prop where
  current : tables.index.state = .current →
    ∀ checkpoint, tables.generations tables.index.activeGeneration = some checkpoint →
      tables.index.sourceHighWatermark ≤ checkpoint
  lost : HistoryLost tables → tables.index.state = .rebuildRequired

/-- A step records only what holds of the active generation: a page is recorded with a checkpoint
that the active generation has reached and with a floor that is no lower than the recorded one, a
lost history is not marked as a lag, and a generation below the floor is not installed. -/
def Truthful (tables : Tables Document) : Request Document → Prop
  | .recordPage page checkpoint => tables.index.retentionFloor ≤ page.retentionFloor ∧
      ∀ reached, tables.generations tables.index.activeGeneration = some reached → checkpoint ≤ reached
  | .markLagging => ¬ HistoryLost tables
  | .cutOver _ rebuildingCheckpoint => tables.index.retentionFloor ≤ rebuildingCheckpoint + 1
  | _ => True

instance HistoryLost.decidable (tables : Tables Document) : Decidable (HistoryLost tables) :=
  match found : tables.generations tables.index.activeGeneration with
  | none => isFalse (by rintro ⟨checkpoint, here, -⟩; rw [found] at here; cases here)
  | some checkpoint => decidable_of_iff (checkpoint + 1 < tables.index.retentionFloor) (by
      simp [HistoryLost, found])

instance Truthful.decidable (tables : Tables Document) :
    (request : Request Document) → Decidable (Truthful tables request)
  | .recordPage page checkpoint =>
    decidable_of_iff (tables.index.retentionFloor ≤ page.retentionFloor ∧
      ∀ reached ∈ tables.generations tables.index.activeGeneration, checkpoint ≤ reached) Iff.rfl
  | .markLagging => inferInstanceAs (Decidable (¬ HistoryLost tables))
  | .cutOver _ rebuildingCheckpoint =>
    inferInstanceAs (Decidable (tables.index.retentionFloor ≤ rebuildingCheckpoint + 1))
  | .readState | .remember _ _ | .recall _ | .applyChange _ _ _ _ | .beginRebuild _ | .writePage _ _ _
  | .readAggregate _ | .readSample _ | .discard _ | .retire _ | .readChanges _ _ | .affectedRoots _ _
  | .hydrate _ _ | .openSnapshot | .readSnapshot _ _ _ | .closeSnapshot _ | .validate _ =>
    inferInstanceAs (Decidable True)

/-- What a step leaves of the marks it is judged by, where no generation is installed. -/
structure Follows (tables after : Tables Document) : Prop where
  watermark : tables.index.sourceHighWatermark ≤ after.index.sourceHighWatermark
  lost : after.index.activeGeneration = tables.index.activeGeneration → HistoryLost tables → HistoryLost after

theorem Follows.refl (tables : Tables Document) : Follows tables tables := ⟨le_rfl, fun _ => id⟩

theorem readDetailedState_ok (read : readDetailedState tables = .ok report) :
    tables.generations tables.index.activeGeneration = some report.checkpoint ∧
      report.state = tables.index.state := by
  unfold readDetailedState at read
  split at read
  · cases read
  next mark found =>
  cases read
  exact ⟨found, rfl⟩

theorem honest_of_marks (honest : Honest tables)
    (index : after'.index.activeGeneration = tables.index.activeGeneration ∧ after'.index.state = tables.index.state ∧
      after'.index.sourceHighWatermark = tables.index.sourceHighWatermark ∧
      after'.index.retentionFloor = tables.index.retentionFloor)
    (rows : after'.generations tables.index.activeGeneration = tables.generations tables.index.activeGeneration) :
    Honest after' ∧ Follows tables after' := by
  obtain ⟨active, state, watermark, floor⟩ := index
  have lost : HistoryLost after' ↔ HistoryLost tables := by
    unfold HistoryLost
    rw [active, rows, floor]
  refine ⟨⟨?_, ?_⟩, watermark.ge, fun _ => lost.mpr⟩
  · rw [state, active, rows, watermark]
    exact honest.current
  · rw [lost, state]
    exact honest.lost

theorem honest_recordPage (truthful : Truthful tables (.recordPage page mark)) :
    Honest (recordPage page mark tables) ∧ Follows tables (recordPage page mark tables) := by
  obtain ⟨rises, reached⟩ := truthful
  refine ⟨⟨?_, ?_⟩, le_max_left _ _, ?_⟩
  · intro cur active found
    have bound := reached active found
    simp only [recordPage] at cur ⊢
    split at cur
    · cases cur
    split at cur
    · omega
    · cases cur
  · rintro ⟨active, found, lost⟩
    have bound := reached active found
    have below : mark + 1 < page.retentionFloor := by
      simp only [recordPage] at lost
      omega
    simp [recordPage, below]
  · rintro - ⟨active, found, lost⟩
    exact ⟨active, found, lt_of_lt_of_le lost rises⟩

theorem honest_markLagging (truthful : Truthful tables .markLagging) :
    Honest (markLagging tables) ∧ Follows tables (markLagging tables) :=
  ⟨⟨nofun, fun lost => absurd lost truthful⟩, le_rfl, fun _ => id⟩

theorem honest_applied (honest : Honest tables) (found : tables.generations tables.index.activeGeneration = some mark)
    (here : tables.index.state ≠ .rebuildRequired) (contiguous : change.commitPosition = mark + 1)
    (rows : after'.generations tables.index.activeGeneration = some change.commitPosition)
    (index : after'.index = appliedIndex tables.index change) : Honest after' ∧ Follows tables after' := by
  have kept : ¬ HistoryLost tables := fun lost => here (honest.lost lost)
  have active : after'.index.activeGeneration = tables.index.activeGeneration := by rw [index]; rfl
  have kept' : ¬ HistoryLost after' := by
    rintro ⟨reached, found', lost⟩
    rw [active, rows] at found'
    cases found'
    refine kept ⟨mark, found, ?_⟩
    have floor : after'.index.retentionFloor = tables.index.retentionFloor := by rw [index]; rfl
    omega
  refine ⟨⟨?_, fun lost => absurd lost kept'⟩, ?_, fun _ lost => absurd lost kept⟩
  · intro cur reached found'
    rw [active, rows] at found'
    cases found'
    rw [index] at cur ⊢
    simp only [appliedIndex] at cur ⊢
    split at cur
    · omega
    · cases cur
  · rw [index]
    exact le_max_left _ _

theorem honest_cutOver {gen : String} (truthful : Truthful tables (.cutOver gen rebuildingCheckpoint))
    (found : tables.generations gen = some mark) (reached : rebuildingCheckpoint ≤ mark)
    (inactive : tables.index.activeGeneration ≠ gen)
    (effect : Effect tables (.cutOver gen rebuildingCheckpoint) prev after') :
    Honest after' ∧ Follows tables after' := by
  cases effect with | cutOver _ caughtUp gens _ index =>
  have active : after'.index.activeGeneration = gen := by rw [index]
  have watermark : after'.index.sourceHighWatermark = tables.index.sourceHighWatermark := by rw [index]
  have floor : after'.index.retentionFloor = tables.index.retentionFloor := by rw [index]
  have truthful : tables.index.retentionFloor ≤ rebuildingCheckpoint + 1 := truthful
  refine ⟨⟨?_, ?_⟩, watermark.ge, fun same => absurd (same.symm.trans active) inactive⟩
  · intro _ now found'
    rw [active, gens, found] at found'
    cases found'
    omega
  · rintro ⟨_, found', _⟩
    rw [active, gens, found] at found'
    cases found'
    omega

theorem transaction_honest (permitted : permits reckoning phase req) (agrees : Agrees tables phase)
    (honest : Honest tables) (truthful : Truthful tables req) (effect : Effect tables req value after')
    : Honest after' ∧ Follows tables after' := by
  cases effect with
  | recordPage => exact honest_recordPage truthful
  | markLagging => exact honest_markLagging truthful
  | applied updates _ admitted found contiguous sets index =>
    cases updates with
    | true =>
      obtain ⟨rfl, here⟩ := admitted rfl
      refine honest_applied honest found here contiguous ?_ index
      rw [sets.1, Function.update_self]
    | false =>
      obtain ⟨-, _, docs, rfl⟩ := permitted
      have index : after'.index = tables.index := index
      exact honest_of_marks honest (by rw [index]; exact ⟨rfl, rfl, rfl, rfl⟩) (sets.apart agrees.1.2.2).1
  | begun inactive free sets index =>
    exact honest_of_marks honest (by rw [index]; exact ⟨rfl, rfl, rfl, rfl⟩) (sets.apart inactive).1
  | written sets index =>
    obtain ⟨mark, docs, _, _, _, rfl, -⟩ := permitted
    exact honest_of_marks honest (by rw [index]; exact ⟨rfl, rfl, rfl, rfl⟩) (sets.apart agrees.1.2.2).1
  | @cutOver _ prev _ _ own caughtUp gens kept index =>
    obtain ⟨_, _, rfl, reached⟩ := permitted
    exact honest_cutOver truthful agrees.2.1 reached agrees.1.2.2
      (show Effect tables (.cutOver _ _) prev after' from .cutOver own caughtUp gens kept index)
  | discarded sets =>
    exact honest_of_marks honest ⟨rfl, rfl, rfl, rfl⟩ (sets.apart (inactive_of_discard permitted agrees)).1
  | retired inactive apart sets index =>
    exact honest_of_marks honest (by rw [index]; exact ⟨rfl, rfl, rfl, rfl⟩) (sets.apart inactive).1
  | _ => exact ⟨honest, .refl _⟩

section
variable {system : System Document} {phases : Nat → Option (Call × Phase Document)}

/-- The step records only what holds of the active generation. -/
def TruthfulStep (system : System Document) : Event Document → Prop
  | .step caller _ => ∀ call request rest, system.callers caller = some ⟨call, .call request rest⟩ →
      Truthful system.world.tables request
  | _ => True

instance TruthfulStep.decidable (system : System Document) :
    (event : Event Document) → Decidable (TruthfulStep system event)
  | .start _ _ => isTrue trivial
  | .stop _ => isTrue trivial
  | .step caller _ => system.decideAsks caller (Truthful.decidable system.world.tables)

/-- The tables are sound for every call, and their state column is true. -/
def SoundlyHonest (world : World Document) (phases : Nat → Option (Call × Phase Document)) : Prop :=
  Sound world phases ∧ Honest world.tables

theorem step_honest {req : Request Document} {reply : Except Failure req.Result}
    (permitted : permits reckoning phase req) (agrees : Agrees world.tables phase) (honest : Honest world.tables)
    (truthful : Truthful world.tables req) (came : (server opts checksum).answer req answer world = (reply, world')) :
    Honest world'.tables ∧ Follows world.tables world'.tables := by
  rcases answer_cases came with ⟨_, done, -⟩ | ⟨same, -⟩
  · exact transaction_honest permitted agrees honest truthful (transaction_effect done)
  · rw [same]
    exact ⟨honest, .refl _⟩

theorem keeps_soundlyHonest (opts : RuntimeOptions) (checksum : Record (StoredDocument Document) → String) :
    Crowd.Keeps (server opts checksum) (Call.body opts) (conduct .any) SoundlyHonest
      (fun sys event => Orderly sys event ∧ TruthfulStep sys event) Call.initial where
  conducted := conducted .any opts
  start _ _ _ _ conducted held _ allowed := ⟨held.1.start conducted allowed.1, held.2⟩
  call _ _ _ choice _ _ req _ _ held here running permitted allowed :=
    ⟨answers_any req choice _, held.1.called opts checksum here running permitted allowed.1,
      (step_honest permitted (held.1.agrees _ _ _ here) held.2 (allowed.2 _ _ _ running) rfl).1⟩
  leave _ _ caller held := ⟨held.1.leave caller, held.2⟩

theorem next_follows (kept : sys.Kept (conduct .any) SoundlyHonest) (truthful : TruthfulStep sys event) :
    Follows sys.world.tables (next opts checksum sys event).world.tables := by
  obtain ⟨_, conducted, sound, honest⟩ := kept
  unfold next Crowd.advance
  split
  · split <;> exact .refl _
  · next caller answer =>
    split
    · next op req rest running =>
      obtain ⟨_, here, obeys⟩ := conducted.obeys caller _ _ running
      exact (step_honest obeys.1 (sound.agrees _ _ _ here) honest (truthful _ _ _ running) rfl).2
    · exact .refl _
    · exact .refl _
  · exact .refl _

def SameActive (options : RuntimeOptions) (checksum : Record (StoredDocument Document) → String)
    (system : System Document) (event : Event Document) : Prop :=
  (next options checksum system event).world.tables.index.activeGeneration = system.world.tables.index.activeGeneration

/-- In a run whose steps record only what holds of the active generation, a report of `current`
comes with a checkpoint no lower than any watermark recorded before, and a history that was lost
once is reported so until another generation is installed. -/
theorem freshness_honest (options : RuntimeOptions)
    (checksum : Record (StoredDocument Document) → String) (world : World Document)
    (active : (world.tables.generations world.tables.index.activeGeneration).isSome)
    (honest : Honest world.tables) (earlier later : List (Event Document))
    (each : EachStep (next options checksum)
      (fun system event => Orderly system event ∧ TruthfulStep system event) { world }
      (earlier ++ later)) (report : ProjectionState)
    (reported : readDetailedState
      (runFrom (next options checksum) { world } (earlier ++ later)).world.tables = .ok report) :
    let before := runFrom (next options checksum) { world } earlier
    (report.state = .current → before.world.tables.index.sourceHighWatermark ≤ report.checkpoint) ∧
    (HistoryLost before.world.tables → EachStep (next options checksum) (SameActive options checksum) before later →
      report.state = .rebuildRequired) := by
  intro before
  have keeps := keeps_soundlyHonest options checksum
  have start : Crowd.Kept (conduct .any) SoundlyHonest ({ world } : System Document) :=
    kept_empty ⟨⟨active, by simp, by simp, by simp⟩, honest⟩
  obtain ⟨first, second⟩ := eachStep_append.mp each
  have kept : before.Kept (conduct .any) SoundlyHonest := keeps.run start first
  have steps := eachStep_of_steps _ (fun _ event held allowed => keeps.advance event held allowed) kept second
  rw [runFrom_append] at reported
  obtain ⟨_, -, -, honest'⟩ := keeps.run kept second
  obtain ⟨found, state⟩ := readDetailedState_ok reported
  constructor
  · intro current
    refine le_trans ?_ (honest'.current (state ▸ current) _ found)
    exact relates_of_steps (fun system after : System Document => system.world.tables.index.sourceHighWatermark ≤
        after.world.tables.index.sourceHighWatermark) (fun _ => le_rfl) le_trans
      (fun _ _ held => (next_follows held.1 held.2.2).watermark) steps
  · intro lost same
    rw [state]
    apply honest'.lost
    exact invariant_of_steps (fun system : System Document => HistoryLost system.world.tables)
      (fun _ _ lost held => (next_follows held.1.1 held.1.2.2).lost held.2 lost) lost (steps.and same)

def trimmedSource : (request : Request Unit) → request.Result
  | .readChanges _ _ => ⟨[], 5, 7, true⟩
  | request => emptySources request

/-- A synchronization records the floor of that source in its fifth step. -/
def lostHistoryRun : List (Event Unit) :=
  .start 0 ⟨0, .synchronize none none⟩ :: List.replicate 5 (.step 0 ⟨.answered, trimmedSource⟩)

theorem lostHistory_reported :
    let before := runFrom (next firstOptions fun _ => "") { world := firstWorld } lostHistoryRun
    HistoryLost before.world.tables ∧
      ∀ report, readDetailedState (runFrom (next firstOptions fun _ => "") { world := firstWorld }
        (lostHistoryRun ++ [answered 0, answered 0])).world.tables = .ok report →
        report.state = .rebuildRequired := by
  have lost : HistoryLost (runFrom (next firstOptions fun _ => "") { world := firstWorld }
      lostHistoryRun).world.tables := by decide +kernel
  refine ⟨lost, fun report reported => ?_⟩
  have orderly : EachStep (next firstOptions fun _ => "") Orderly { world := firstWorld }
      (lostHistoryRun ++ [answered 0, answered 0]) :=
    ⟨by simp [Orderly], eachStep_of_always fun event member system => by
      obtain ⟨answer, rfl, fate⟩ : ∃ answer, event = .step 0 answer ∧ answer.fate = .answered := by
        rcases List.mem_append.mp member with first | last
        · exact ⟨_, List.eq_of_mem_replicate first, rfl⟩
        · simp only [List.mem_cons, List.not_mem_nil, or_false] at last
          rcases last with rfl | rfl <;> exact ⟨_, rfl, rfl⟩
      exact fun _ _ _ _ _ _ => ⟨fun _ => fate, fun _ _ => by simp [fate]⟩⟩
  have truthful : EachStep (next firstOptions fun _ => "") TruthfulStep { world := firstWorld }
      (lostHistoryRun ++ [answered 0, answered 0]) := by decide +kernel
  have honest : Honest firstWorld.tables := ⟨by decide, by decide⟩
  refine (freshness_honest firstOptions (fun _ => "") firstWorld (by decide) honest lostHistoryRun
    [answered 0, answered 0] (orderly.and truthful) report reported).2 lost ?_
  simp only [EachStep, SameActive]
  decide +kernel

/-- A source that is one change ahead of the active generation, also with its snapshot. -/
def aheadSource : (request : Request Unit) → request.Result
  | .readChanges _ _ => ⟨[], 0, 1, true⟩
  | .openSnapshot => ⟨1, "snapshot"⟩
  | request => emptySources request

/-- A rebuild records the page of its catch-up in its twelfth step. -/
def aheadRun : List (Event Unit) :=
  .start 0 (rebuilding "v2") :: List.replicate 12 (.step 0 ⟨.answered, aheadSource⟩)

theorem rebuild_reports_lagging_as_current : Honest firstWorld.tables ∧
      let after := (runFrom (next firstOptions fun _ => "") { world := firstWorld } aheadRun).world.tables
      (readDetailedState after).map (fun report => (report.activeGeneration, report.state, report.checkpoint)) =
          .ok ("v1", .current, 0) ∧
        after.index.sourceHighWatermark = 1 :=
  ⟨⟨by decide, by decide⟩, by decide +kernel⟩

end
end Applik8s.Search.Postgres
