import Applik8s.OnlineProjection.Loading

/-! The hand-off between generations: a live run and a rebuild keep, request by request, that everything up to the
checkpoint is covered in the generation that is active. -/
namespace Applik8s.OnlineProjection
open Lib Nat
open Streams (Through PageSound ReadContract)
variable {Payload Row : Type} {opts : WriterOptions Row} {rebuild : RebuildOptions Payload Row}
  {live : ProjectionOptions Payload Row} {read : Streams.Source (Content Payload)} {world : World Payload Row}
  {phase : Phase Payload Row}

/-! ### What is answered -/

/-- A request and its answer: the keys are sound, the others know what they knew, and the caller knows what it is now
told. -/
structure Moves (options : WriterOptions Row) (rebuild : RebuildOptions Payload Row)
    (live : ProjectionOptions Payload Row) (phase : Phase Payload Row) (world : World Payload Row) {Answer : Type}
    (outcome : Except String Answer × World Payload Row) (next : Answer → Phase Payload Row) : Prop where
  steps : Steps options rebuild live phase.number world outcome.2
  agrees : ∀ answer, outcome.1 = .ok answer → (next answer).Agrees options rebuild live outcome.2

theorem moves_look {Answer : Type} {answer : Answer} {next : Answer → Phase Payload Row}
    (sound : world.Sound opts rebuild live) (agrees : (next answer).Agrees opts rebuild live world) :
    Moves opts rebuild live phase world (.ok answer, world) next :=
  ⟨.refl sound, by rintro _ ⟨⟩; exact agrees⟩

theorem moves_still {Answer : Type} {out : Except String Answer × World Payload Row}
    {next : Answer → Phase Payload Row} (steps : Steps opts rebuild live phase.number world out.2)
    (still : ∀ answer, next answer = .still) : Moves opts rebuild live phase world out next :=
  ⟨steps, fun answer _ => by rw [still]; trivial⟩

/-! ### Callers that are no attempts -/

theorem World.Sound.passed (sound : world.Sound opts rebuild live) (behind : base ≤ world.checkpointSequence)
    : world.Passed opts rebuild live base :=
  ⟨fun gen active => (sound.checkpoint.active gen active).less behind,
    fun none => (sound.checkpoint.unset none).less behind⟩

theorem World.Passed.within (passed : world.Passed opts rebuild live bound) : bound ≤ world.log.last := by
  cases active : world.active with
  | none => exact (passed.unset active).within
  | some gen => exact (passed.active gen active).within

theorem behind_agrees (behind : base ≤ world.checkpointSequence) (pending : Pending live world.log base events upTo) :
    (Phase.behind base upTo events).Agrees opts rebuild live world := by
  cases events with
  | nil => exact ⟨behind, pending⟩
  | cons => exact ⟨behind, pending, trivial⟩

theorem live_through (sound : world.Sound opts rebuild live) (behind : base ≤ world.checkpointSequence)
    (pending : Pending live world.log base (event :: left) upTo) (active : world.active = some gen)
    (covers : world.Covers opts rebuild live gen event.envelope) :
    Through world.log (world.Covers opts rebuild live gen) event.envelope.sequence :=
  pending.through ((sound.passed behind).active gen active) covers

variable [DecidableEq Payload] [DecidableEq Row]

theorem still_moves (sound : world.Sound opts rebuild live) (permits : Phase.still.permits opts rebuild req) :
    Moves opts rebuild live .still world (world.perform opts read choice req)
      (Phase.still.answered opts rebuild live req) := by
  cases req with
  | setActiveAbsent => exact moves_still (setActiveAbsent_steps sound _) fun _ => rfl
  | setCheckpointAbsent =>
    have same : ({ world with checkpoint := some (world.checkpoint.getD 0) } : World Payload Row).checkpointSequence =
        world.checkpointSequence := rfl
    have leaves : Leaves world { world with checkpoint := some (world.checkpoint.getD 0) } :=
      ⟨world.log.leads_refl, le_refl _, same.ge, List.Subset.refl _, rfl, rfl, rfl, rfl⟩
    exact moves_still (apart_steps sound leaves rfl rfl (.inl same) (sound.loads leaves rfl)) fun _ => rfl
  | checkpoint => exact moves_look sound (le_refl _)
  | randomUUID =>
    have leaves : Leaves world { world with attempts := world.attempts + 1 } :=
      ⟨world.log.leads_refl, le_succ _, le_refl _, List.Subset.refl _, rfl, rfl, rfl, rfl⟩
    refine ⟨apart_steps sound leaves rfl rfl (.inl rfl) (sound.loads leaves rfl), ?_⟩
    rintro _ ⟨⟩
    exact ⟨lt_succ_self _, nofun, trivial, fun _ => trivial⟩
  | append event =>
    have leaves : Leaves world { world with log := world.log.append event } :=
      ⟨world.log.leads_append event, le_refl _, le_refl _, List.Subset.refl _, rfl, rfl, rfl, rfl⟩
    exact moves_still (apart_steps sound leaves rfl rfl (.inl rfl) (sound.loads leaves rfl)) fun _ => rfl
  | retain through =>
    have leaves : Leaves world { world with log := world.log.retain through } :=
      ⟨world.log.leads_retain through, le_refl _, le_refl _, List.Subset.refl _, rfl, rfl, rfl, rfl⟩
    exact moves_still (apart_steps sound leaves rfl rfl (.inl rfl) (sound.loads leaves rfl)) fun _ => rfl
  | expire => exact moves_still (released_steps sound world.rebuilding) fun _ => rfl
  | _ => exact False.elim permits

theorem idle_moves (contract : ReadContract read) (sound : world.Sound opts rebuild live)
    (agrees : (Phase.idle base).Agrees opts rebuild live world) (permits : (Phase.idle base).permits opts rebuild req)
    : Moves opts rebuild live (.idle base) world (world.perform opts read choice req)
      ((Phase.idle base).answered opts rebuild live req) := by
  cases req with
  | read afterSequence limit =>
    obtain rfl : afterSequence = base := permits
    refine moves_look sound ?_
    change (Phase.read live afterSequence _).Agrees opts rebuild live world
    unfold Phase.read
    split
    · trivial
    next near =>
    split
    · trivial
    · next events ok =>
      exact behind_agrees agrees (pending_read contract (sound.passed agrees).within (Nat.le_of_not_lt near) ok)
  | _ => exact False.elim permits

theorem applied_moves (sound : world.Sound opts rebuild live)
    (agrees : (Phase.applied base upTo : Phase Payload Row).Agrees opts rebuild live world)
    (permits : (Phase.applied base upTo).permits opts rebuild req) :
    Moves opts rebuild live (.applied base upTo) world (world.perform opts read choice req)
      ((Phase.applied base upTo).answered opts rebuild live req) := by
  cases req with
  | advanceCheckpoint seq =>
    obtain rfl : seq = upTo := permits
    have passed := sound.passed agrees.1
    refine ⟨advanceCheckpoint_steps sound ⟨fun gen active => agrees.2.done (passed.active gen active),
      fun none => agrees.2.done (passed.unset none)⟩, fun _ _ => ?_⟩
    change seq ≤ (world.advanceCheckpoint seq).checkpointSequence
    rw [checkpointSequence_advanceCheckpoint]
    exact le_max_right ..
  | _ => exact False.elim permits

theorem live_moves (sound : world.Sound opts rebuild live)
    (agrees : (Phase.live base event left upTo stage).Agrees opts rebuild live world)
    (permits : (Phase.live base event left upTo stage).permits opts rebuild req) :
    Moves opts rebuild live (.live base event left upTo stage) world (world.perform opts read choice req)
      ((Phase.live base event left upTo stage).answered opts rebuild live req) := by
  obtain ⟨behind, pending, knows⟩ := agrees
  -- The run goes on with what it knew of the stream, and with what it knows of the event now.
  have goesOn : ∀ {world'} {stage' : LiveStage Row}, Steps opts rebuild live none world world' →
      stage'.Knows opts rebuild live world' event →
      (Phase.live base event left upTo stage').Agrees opts rebuild live world' :=
    fun steps now => ⟨behind.trans steps.respects.checkpoint, steps.respects.pending pending, now⟩
  have authorized : ∀ {generation}, world.Targets rebuild generation → world.Authorized rebuild none generation :=
    fun targets => .inl ⟨rfl, targets⟩
  cases stage with
  | between =>
    cases req with
    | active =>
      refine moves_look sound ?_
      change (LiveStage.after base event left upTo .between .active world.active).Agrees opts rebuild live world
      cases active : world.active with
      | none => trivial
      | some =>
        refine goesOn (.refl sound) ⟨fun none => ?_, fun same => ?_⟩
        · rw [active] at none
          cases none
        · rw [active, same]
    | _ => exact False.elim permits
  | targeted generation =>
    cases req with
    | highwater asked =>
      obtain rfl : asked = generation := permits
      refine moves_look sound (goesOn (.refl sound) ?_)
      split
      · next skipped =>
        exact ⟨knows, fun active => (sound.highwater asked active).covers event.envelope
          (pending.recorded event List.mem_cons_self) (le_of_lt skipped)⟩
      · exact ⟨knows, fun _ => .all⟩
    | _ => exact False.elim permits
  | rows _ due =>
    obtain ⟨targets, remains⟩ := knows
    cases req with
    | reserve attempt asked =>
      cases attempt with
      | some num => exact False.elim permits
      | none =>
        obtain ⟨rfl, change, first, rfl⟩ := permits
        have steps : Steps opts rebuild live none world (world.reserve opts asked change.partition).2 :=
          reserve_steps sound (authorized targets) change.partition
        refine ⟨steps, fun _ ok => goesOn steps ?_⟩
        have known : (LiveStage.rows asked due).Knows opts rebuild live world event := ⟨targets, remains⟩
        obtain ⟨targets, remains⟩ := steps.respects.liveStage known
        refine ⟨targets, remains, fun other also => ?_⟩
        obtain ⟨row, rest, rfl, is⟩ := first
        obtain ⟨_, _, same, is'⟩ := also
        cases same
        rw [is] at is'
        cases is'
        exact reserve_ok ok
    | advanceHighwater attempt asked =>
      cases attempt with
      | some num => exact False.elim permits
      | none =>
        obtain ⟨rfl, rfl, rfl⟩ := permits
        have covers : world.active = some asked → world.Covers opts rebuild live asked event.envelope := fun active =>
          .inl ⟨event.rows, .inl (pending.projected event List.mem_cons_self), (remains active).held⟩
        have steps : Steps opts rebuild live none world (world.advanceHighwater asked event.envelope.sequence) :=
          advanceHighwater_steps sound (authorized targets) fun active =>
            live_through sound behind pending active (covers active)
        have known : (LiveStage.written asked).Knows opts rebuild live world event := ⟨targets, covers⟩
        exact ⟨steps, fun _ _ => goesOn steps (steps.respects.liveStage known)⟩
    | _ => exact False.elim permits
  | reserved =>
    obtain ⟨targets, remains, reserves⟩ := knows
    cases req with
    | applyRow attempt asked seq change minimumScore =>
      cases attempt with
      | some num => exact False.elim permits
      | none =>
        obtain ⟨rfl, first, rfl⟩ := permits
        have steps : Steps opts rebuild live none world
            (world.applyRow opts none asked event.envelope.sequence change minimumScore) :=
          applyRow_steps sound (authorized targets) (reserves change first)
        refine ⟨steps, fun _ _ => ?_⟩
        obtain ⟨_, rest, rfl, is⟩ := first
        refine goesOn steps ⟨steps.respects.targets targets, fun active => ?_⟩
        change Remains opts ((world.applyRow opts none asked event.envelope.sequence change
          minimumScore).applied asked) event rest
        rw [applied_applyRow]
        exact (remains active).next is rfl rfl
    | _ => exact False.elim permits
  | written =>
    obtain ⟨_, covers⟩ := knows
    cases req with
    | advanceActiveCheckpoint asked =>
      obtain ⟨rfl, rfl⟩ := permits
      have steps : Steps opts rebuild live none world
          (world.advanceActiveCheckpoint asked event.envelope.sequence).2 := advanceActiveCheckpoint_steps sound
        fun active => live_through sound behind pending active (covers active)
      refine ⟨steps, fun committed is => ?_⟩
      change (if committed then Phase.behind event.envelope.sequence upTo left else .live base event left upTo .between).Agrees
        opts rebuild live _
      cases committed with
      | false => exact goesOn steps trivial
      | true =>
        exact behind_agrees (advanceActiveCheckpoint_committed (Except.ok.inj is)) (steps.respects.pending pending).next
    | _ => exact False.elim permits

end Applik8s.OnlineProjection
