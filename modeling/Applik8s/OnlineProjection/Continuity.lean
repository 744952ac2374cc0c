import Applik8s.OnlineProjection.Fencing

/-! Publication loses no event. With a single rebuild attempt, everything up to the checkpoint is covered in the active
generation, whichever it is. -/
namespace Applik8s.OnlineProjection
open Lib Nat
open Streams (Through ReadContract)
variable {Payload Row : Type} [DecidableEq Payload] [DecidableEq Row] {rebuild : RebuildOptions Payload Row}
  {live : ProjectionOptions Payload Row} {read : Streams.Source (Content Payload)} {world world' : World Payload Row}

/-- The checkpoint does not fall behind, and another generation that becomes active has come up to it. -/
structure Advances (world world' : World Payload Row) : Prop where
  checkpoint : world.checkpointSequence ≤ world'.checkpointSequence
  active : ∀ active ∈ world.active, ∀ generation ∈ world'.active, generation ≠ active →
    world.checkpointSequence ≤ world'.highwater generation

omit [DecidableEq Payload] [DecidableEq Row] in
theorem Advances.stays (active : world'.active = world.active)
    (mark : world.checkpointSequence ≤ world'.checkpointSequence) : Advances world world' := by
  refine ⟨mark, fun one is other becomes ne => ?_⟩
  cases becomes.symm.trans (active.trans is)
  exact absurd rfl ne

omit [DecidableEq Payload] [DecidableEq Row] in
theorem publish_advances (gen expected : String) (attempt : Nat) :
    Advances world (world.publish gen expected attempt).2 := by
  have same : Advances world world := .stays rfl (le_refl _)
  unfold World.publish
  split
  · exact same
  split
  · exact same
  split
  · exact same
  next highwater is =>
  split
  · exact same
  next reached =>
  refine ⟨Nat.le_of_not_lt reached, fun _ _ other becomes _ => ?_⟩
  cases becomes
  change world.checkpointSequence ≤ (world.generations gen).highwater.getD 0
  rw [is]
  exact Nat.le_of_not_lt reached

theorem perform_advances : Advances world (world.perform opts read choice req).2 := by
  have same : Advances world world := .stays rfl (le_refl _)
  cases req with
  | setActiveAbsent =>
    refine ⟨le_refl _, fun active is gen becomes ne => ?_⟩
    cases becomes
    exact absurd (by rw [is]; rfl) ne
  | reserve attempt gen part =>
    obtain ⟨active, -⟩ := world.reserve_leaves opts gen part
    refine .stays active ?_
    change _ ≤ (world.reserve opts gen part).2.checkpointSequence
    unfold World.reserve
    dsimp only
    split
    · exact le_refl _
    · split <;> exact le_refl _
  | advanceHighwater attempt gen seq =>
    change Advances world (world.advanceHighwater gen seq)
    unfold World.advanceHighwater
    split
    · exact .stays rfl (le_refl _)
    · exact same
  | advanceCheckpoint seq =>
    change Advances world (world.advanceCheckpoint seq)
    unfold World.advanceCheckpoint
    split
    · next less => exact .stays rfl (le_of_lt less)
    · exact same
  | advanceActiveCheckpoint gen seq =>
    change Advances world (world.advanceActiveCheckpoint gen seq).2
    unfold World.advanceActiveCheckpoint World.advanceCheckpoint
    split
    · exact same
    split
    · next less => exact .stays rfl (le_of_lt less)
    · exact same
  | begin gen attempt =>
    change Advances world (world.begin gen attempt).2
    unfold World.begin
    split
    · exact same
    split
    · exact same
    · exact .stays rfl (le_refl _)
  | reset gen attempt =>
    change Advances world (world.reset gen attempt).2
    unfold World.reset
    split
    · exact .stays rfl (le_refl _)
    · exact same
  | publish gen expected attempt => exact publish_advances gen expected attempt
  | abandon gen attempt =>
    change Advances world (world.abandon gen attempt)
    unfold World.abandon
    split
    · exact .stays rfl (le_refl _)
    · exact same
  | putManifest manifest =>
    change Advances world (world.putManifest manifest).2
    unfold World.putManifest
    split
    · exact .stays rfl (le_refl _)
    · split <;> exact same
  | _ => exact .stays rfl (le_refl _)

theorem advance_advances [Inhabited Payload] (sys : System Payload Row) (step : Step Payload) :
    Advances sys.world (next opts rebuild read live sys step).world := by
  have same : Advances sys.world sys.world := .stays rfl (le_refl _)
  refine Crowd.advance_world Advances same fun caller choice op req rest _ _ => ?_
  change Advances sys.world (sys.world.answer opts read req choice).2
  unfold World.answer
  split
  · exact perform_advances
  split
  · exact perform_advances
  · exact same

/-- Up to the checkpoint everything is covered in the active generation. -/
def World.Current (options : WriterOptions Row) (rebuild : RebuildOptions Payload Row)
    (live : ProjectionOptions Payload Row) (world : World Payload Row) : Prop :=
  ∀ event ∈ world.log.events, event.sequence ≤ world.checkpointSequence →
    ∃ generation, world.active = some generation ∧ world.Covers options rebuild live generation event

/-- An event is recorded, and the authority has nothing. -/
def emptied : List (Step String) :=
  .start 9 (.append ⟨1, "1", "p", 0, "x"⟩) :: goes 9 2 ++ .start 0 .rebuild :: goes 0 22

/-- A live run writes the event, and an attempt publishes what it rebuilds meanwhile. -/
def handedOff : List (Step String) :=
  firstAttempt 10 ++ .start 2 .project :: goes 2 6 ++ goes 0 4 [[("x", "x")]] ++ goes 2 8 ++ goes 0 30

end Applik8s.OnlineProjection
