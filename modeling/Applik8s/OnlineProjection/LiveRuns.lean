import Applik8s.OnlineProjection.Snapshots

/-! Live runs of the projection, as long as no rebuild is started: what they ask for, and what each of their requests
leaves of what a reader sees. -/
namespace Applik8s.OnlineProjection
open Lib List Nat
open Lib.Program (MakesOnly makesOnly_bind makesOnly_check makesOnly_forEach)
open Streams (ReadContract)
variable {Payload Row : Type} {opts : WriterOptions Row} {live : ProjectionOptions Payload Row}
  {world world' : World Payload Row}

/-! ### What live runs ask for -/

def Request.IsLive : Request Payload Row → Prop
  | .setActiveAbsent | .setCheckpointAbsent | .active | .checkpoint | .highwater _ | .reserve none _ _
    | .applyRow none _ _ _ _ | .advanceHighwater none _ _ | .advanceActiveCheckpoint _ _ | .advanceCheckpoint _
    | .read _ _ | .append _ | .retain _ | .expire => True
  | _ => False

open Request (IsLive)

private theorem makesOnly_ask (allowed : req.IsLive) : (ask req : Writing Payload Row req.Answer).MakesOnly IsLive :=
  ⟨allowed, fun reply => makesOnly_check reply⟩

private theorem makesOnly_activeGeneration :
    (activeGeneration opts : Writing Payload Row String).MakesOnly IsLive := by
  refine makesOnly_bind (makesOnly_ask trivial) fun active => ?_
  split <;> trivial

private theorem makesOnly_writeEvent (gen : String) (event : Write Payload Row) :
    (writeEvent opts gen none event : Writing Payload Row Unit).MakesOnly IsLive := by
  refine makesOnly_bind trivial fun _ => makesOnly_bind (makesOnly_ask trivial) fun highwater => ?_
  split
  · trivial
  refine makesOnly_bind (makesOnly_forEach fun row => ?_) fun _ => makesOnly_ask trivial
  exact makesOnly_bind trivial fun _ => makesOnly_bind (makesOnly_check _) fun change =>
    makesOnly_bind (makesOnly_ask trivial) fun _ => makesOnly_ask trivial

private theorem makesOnly_writeActive (event : Write Payload Row) (attempts : Nat) :
    (writeActive opts event attempts : Writing Payload Row Unit).MakesOnly IsLive := by
  induction attempts with
  | zero => trivial
  | succ attempts ih =>
    refine makesOnly_bind makesOnly_activeGeneration fun gen =>
      makesOnly_bind (makesOnly_forEach fun _ => makesOnly_writeEvent gen _) fun _ =>
        makesOnly_bind (makesOnly_ask trivial) fun committed => ?_
    split
    · trivial
    · exact ih

private theorem makesOnly_runBatches (batches mark processed : Nat) :
    (runBatches opts live batches mark processed).MakesOnly IsLive := by
  induction batches generalizing mark processed with
  | zero => trivial
  | succ batches ih =>
    refine makesOnly_bind (makesOnly_ask trivial) fun page => ?_
    split
    · trivial
    refine makesOnly_bind (makesOnly_check _) fun events =>
      makesOnly_bind (makesOnly_forEach fun _ => makesOnly_writeActive _ _) fun _ =>
        makesOnly_bind (makesOnly_ask trivial) fun _ => ?_
    split
    · trivial
    · exact ih _ _

variable {operation : Operation Payload}

theorem makesOnly_body [Inhabited Payload] (other : op ≠ .rebuild) :
    (body opts (dormant live) live op).MakesOnly IsLive := by
  cases op with
  | project =>
    refine makesOnly_bind ?_ fun _ => trivial
    unfold runApplicationProjection
    split
    · trivial
    split
    · trivial
    · exact makesOnly_bind (makesOnly_bind (makesOnly_ask trivial) fun _ => makesOnly_ask trivial) fun _ =>
        makesOnly_bind (makesOnly_ask trivial) fun mark => makesOnly_runBatches _ _ _
  | rebuild => exact absurd rfl other
  | append event => exact makesOnly_ask trivial
  | retain => exact makesOnly_ask trivial
  | expire => exact makesOnly_ask trivial

/-! ### What they leave -/

/-- Another row may have been applied; nothing else that a reader can tell changes but the checkpoint, which advances. -/
structure Proceeds (world world' : World Payload Row) : Prop where
  active : ∀ generation, world.active = some generation → world'.active = some generation
  checkpoint : world.checkpointSequence ≤ world'.checkpointSequence
  rebuilding : world'.rebuilding = world.rebuilding
  attempts : world'.attempts = world.attempts
  snapshots : world'.snapshots = world.snapshots

structure SameRows (world world' : World Payload Row) : Prop where
  rows : ∀ generation, (world'.generations generation).rows = (world.generations generation).rows
  applied : world'.applied = world.applied

theorem Proceeds.refl (world : World Payload Row) : Proceeds world world :=
  ⟨fun _ => id, le_refl _, rfl, rfl, rfl⟩

theorem SameRows.refl (world : World Payload Row) : SameRows world world := ⟨fun _ => rfl, rfl⟩

theorem SameRows.trans (earlier : SameRows first second) (later : SameRows second third) : SameRows first third :=
  ⟨fun gen => (later.rows gen).trans (earlier.rows gen), later.applied.trans earlier.applied⟩

private theorem setGeneration_leaves (same : gen.rows = (world.generations name).rows) :
    Proceeds world (world.setGeneration name gen) ∧ SameRows world (world.setGeneration name gen) := by
  refine ⟨⟨fun _ => id, le_refl _, rfl, rfl, rfl⟩, fun other => ?_, rfl⟩
  by_cases is : other = name
  · subst is
    simp [World.setGeneration, same]
  · simp [World.setGeneration, Function.update_of_ne is]

private theorem reserve_leaves : Proceeds world (world.reserve opts gen part).2 ∧
      SameRows world (world.reserve opts gen part).2 := by
  unfold World.reserve
  dsimp only
  split
  · exact ⟨.refl world, .refl world⟩
  split
  · exact ⟨.refl world, .refl world⟩
  · exact setGeneration_leaves rfl

private theorem advanceHighwater_leaves : Proceeds world (world.advanceHighwater gen seq) ∧
      SameRows world (world.advanceHighwater gen seq) := by
  unfold World.advanceHighwater
  split
  · exact setGeneration_leaves rfl
  · exact ⟨.refl world, .refl world⟩

private theorem advanceCheckpoint_leaves :
    Proceeds world (world.advanceCheckpoint seq) ∧ SameRows world (world.advanceCheckpoint seq) := by
  unfold World.advanceCheckpoint
  split
  · next less => exact ⟨⟨fun _ => id, le_of_lt less, rfl, rfl, rfl⟩, fun _ => rfl, rfl⟩
  · exact ⟨.refl world, .refl world⟩

private theorem advanceActiveCheckpoint_leaves : Proceeds world (world.advanceActiveCheckpoint gen seq).2 ∧
      SameRows world (world.advanceActiveCheckpoint gen seq).2 := by
  unfold World.advanceActiveCheckpoint
  split
  · exact ⟨.refl world, .refl world⟩
  · exact advanceCheckpoint_leaves

def Request.isApplyRow : Request Payload Row → Bool
  | .applyRow .. => true
  | _ => false

variable [DecidableEq Payload] [DecidableEq Row]

private theorem perform_leaves (allowed : req.IsLive) : Proceeds world (world.perform opts source choice req).2 ∧
      (req.isApplyRow = false → SameRows world (world.perform opts source choice req).2) := by
  have looked : Proceeds world world ∧ (req.isApplyRow = false → SameRows world world) :=
    ⟨.refl world, fun _ => .refl world⟩
  cases req with
  | setActiveAbsent =>
    refine ⟨⟨fun gen is => ?_, le_refl _, rfl, rfl, rfl⟩, fun _ => ⟨fun _ => rfl, rfl⟩⟩
    change some (world.active.getD opts.initialGeneration) = some gen
    rw [is]
    rfl
  | setCheckpointAbsent => exact ⟨⟨fun _ => id, le_refl _, rfl, rfl, rfl⟩, fun _ => ⟨fun _ => rfl, rfl⟩⟩
  | active | checkpoint | highwater _ | read _ _ => exact looked
  | reserve => exact reserve_leaves.imp_right fun same _ => same
  | applyRow =>
    exact ⟨⟨fun _ => id, le_refl _, rfl, rfl, rfl⟩, nofun⟩
  | advanceHighwater => exact advanceHighwater_leaves.imp_right fun same _ => same
  | advanceActiveCheckpoint => exact advanceActiveCheckpoint_leaves.imp_right fun same _ => same
  | advanceCheckpoint => exact advanceCheckpoint_leaves.imp_right fun same _ => same
  | append _ | retain _ | expire => exact ⟨⟨fun _ => id, le_refl _, rfl, rfl, rfl⟩, fun _ => ⟨fun _ => rfl, rfl⟩⟩
  | _ => exact False.elim allowed

private theorem answer_leaves (allowed : req.IsLive) : Proceeds world (world.answer opts source req choice).2 ∧
      (req.isApplyRow = false → SameRows world (world.answer opts source req choice).2) := by
  unfold World.answer
  split
  · exact perform_leaves allowed
  split
  · exact perform_leaves allowed
  · exact ⟨.refl world, fun _ => .refl world⟩

/-! ### Where rows come from -/

/-- What was applied to the active generation are rows of recorded events. -/
structure World.Stems (options : WriterOptions Row) (live : ProjectionOptions Payload Row) (world : World Payload Row) :
    Prop where
  unset : world.active = none → ∀ generation, world.applied generation = []
  stems : ∀ generation, world.active = some generation → ∀ entry ∈ world.applied generation,
    ∃ event ∈ world.log.events, event.sequence = entry.sequence ∧
      ∃ rows, live.project event.payload = .ok rows ∧ ∃ row ∈ rows, options.changeOf row = .ok entry.change

omit [DecidableEq Payload] [DecidableEq Row] in
private theorem World.Stems.of (stems : world.Stems opts live) (active : world'.active = world.active)
    (applied : world'.applied = world.applied) (log : world.log.Leads world'.log) : world'.Stems opts live where
  unset none gen := by
    rw [applied]
    exact stems.unset (active ▸ none) gen
  stems gen is entry among := by
    rw [applied] at among
    obtain ⟨event, recorded, stem⟩ := stems.stems gen (active ▸ is) entry among
    exact ⟨event, log.events.subset recorded, stem⟩

omit [DecidableEq Payload] [DecidableEq Row] in
private theorem applyRow_stems {seq : Nat} {gen : String} {change : Change} {minimumScore : Option Int}
    {event : Write Payload Row} {due : List Row} (stems : world.Stems opts live) (present : world.active ≠ none)
    (recorded : event.envelope ∈ world.log.events) (projected : live.project event.envelope.payload = .ok event.rows)
    (remains : world.active = some gen → Remains opts (world.applied gen) event due) (first : First opts due change)
    (is : seq = event.envelope.sequence) :
    (world.applyRow opts none gen seq change minimumScore).Stems opts live := by
  subst is
  refine ⟨fun none => absurd none present, fun active same entry among => ?_⟩
  by_cases target : active = gen
  · subst target
    rw [applied_applyRow] at among
    rcases mem_append.mp among with before | new
    · exact stems.stems active same entry before
    obtain rfl := mem_singleton.mp new
    obtain ⟨row, _, rfl, comes⟩ := first
    obtain ⟨_, split, -⟩ := remains same
    refine ⟨event.envelope, recorded, rfl, event.rows, projected, row, ?_, comes⟩
    rw [split]
    exact mem_append_right _ mem_cons_self
  · have untouched : (world.applyRow opts none gen event.envelope.sequence change minimumScore).applied active =
        world.applied active := Function.update_of_ne target _ _
    rw [untouched] at among
    exact stems.stems active same entry among

variable {phase : Phase Payload Row}

private theorem perform_stems (allowed : req.IsLive) (stems : world.Stems opts live)
    (agrees : phase.Agrees opts (dormant live) live world) (permits : phase.permits opts (dormant live) req) :
    (world.perform opts source choice req).2.Stems opts live := by
  cases req with
  | setActiveAbsent =>
    refine ⟨nofun, fun gen is entry among => ?_⟩
    cases active : world.active with
    | none =>
      have none := stems.unset active gen
      change entry ∈ world.applied gen at among
      rw [none] at among
      cases among
    | some =>
      change some (world.active.getD opts.initialGeneration) = some gen at is
      rw [active] at is
      exact stems.stems gen (active.trans is) entry among
  | setCheckpointAbsent => exact stems.of rfl rfl world.log.leads_refl
  | active | checkpoint | highwater _ | read _ _ => exact stems
  | reserve attempt gen part =>
    change ((world.reserve opts gen part).2).Stems opts live
    unfold World.reserve
    dsimp only
    split
    · exact stems
    split
    · exact stems
    · exact stems.of rfl rfl world.log.leads_refl
  | applyRow attempt =>
    cases attempt with
    | some num => exact False.elim allowed
    | none =>
      cases phase with
      | live _ event _ _ stage =>
        cases stage with
        | reserved =>
          obtain ⟨rfl, first, is⟩ := permits
          obtain ⟨-, pending, targets, remains, -⟩ := agrees
          exact applyRow_stems stems targets.1 (pending.recorded event mem_cons_self)
            (pending.projected event mem_cons_self) remains first is
        | _ => exact False.elim permits
      | attempt num stage =>
        cases stage with
        | reserved => exact absurd permits.1 nofun
        | _ => exact False.elim permits
      | _ => exact False.elim permits
  | advanceHighwater attempt gen seq =>
    change (world.advanceHighwater gen seq).Stems opts live
    unfold World.advanceHighwater
    split
    · exact stems.of rfl rfl world.log.leads_refl
    · exact stems
  | advanceActiveCheckpoint gen seq =>
    change (world.advanceActiveCheckpoint gen seq).2.Stems opts live
    unfold World.advanceActiveCheckpoint World.advanceCheckpoint
    split
    · exact stems
    split
    · exact stems.of rfl rfl world.log.leads_refl
    · exact stems
  | advanceCheckpoint seq =>
    change (world.advanceCheckpoint seq).Stems opts live
    unfold World.advanceCheckpoint
    split
    · exact stems.of rfl rfl world.log.leads_refl
    · exact stems
  | append event => exact stems.of rfl rfl (world.log.leads_append event)
  | retain through => exact stems.of rfl rfl (world.log.leads_retain through)
  | expire => exact stems.of rfl rfl world.log.leads_refl
  | _ => exact False.elim allowed

private theorem answer_stems (allowed : req.IsLive) (stems : world.Stems opts live)
    (agrees : phase.Agrees opts (dormant live) live world) (permits : phase.permits opts (dormant live) req) :
    (world.answer opts source req choice).2.Stems opts live := by
  unfold World.answer
  split
  · exact perform_stems allowed stems agrees permits
  split
  · exact perform_stems allowed stems agrees permits
  · exact stems

/-! ### Steps of the live runs -/

structure Orderly (options : WriterOptions Row) (live : ProjectionOptions Payload Row) (system : System Payload Row) :
    Prop where
  kept : system.Kept (conduct options (dormant live) live) (Invariant options (dormant live) live)
  asks : ∀ caller operation program, system.callers caller = some ⟨operation, program⟩ →
    program.MakesOnly Request.IsLive
  attempts : system.world.attempts = 0
  snapshots : system.world.snapshots = []
  stems : system.world.Stems options live

omit [DecidableEq Payload] [DecidableEq Row] in
theorem orderly_start (log : Streams.Log (Content Payload)) : Orderly opts live { world := { log } } where
  kept := kept_start log
  asks _ _ _ := nofun
  attempts := rfl
  snapshots := rfl
  stems := ⟨fun _ _ => rfl, nofun⟩

variable [Inhabited Payload] {system : System Payload Row}

omit [DecidableEq Payload] [DecidableEq Row] [Inhabited Payload] in
private theorem Orderly.permitted {req : Request Payload Row} {caller : Nat} {rest}
    (orderly : Orderly opts live sys) (here : sys.callers caller = some ⟨op, .call req rest⟩) :
    req.IsLive ∧ ∃ phase : Phase Payload Row, phase.Agrees opts (dormant live) live sys.world ∧
      phase.permits opts (dormant live) req := by
  obtain ⟨_, conducted, ⟨-, agrees⟩, -⟩ := orderly.kept
  obtain ⟨phase, at_, obeys⟩ := conducted.obeys caller op _ here
  exact ⟨(orderly.asks caller op _ here).1, phase, agrees caller op phase at_, obeys.1⟩

theorem next_leaves (orderly : Orderly opts live sys) :
    Proceeds sys.world (next opts (dormant live) source live sys step).world ∧
      (next opts (dormant live) source live sys step).world.Stems opts live ∧
      (appliesRow sys step = false →
        SameRows sys.world (next opts (dormant live) source live sys step).world) := by
  have same : Proceeds sys.world sys.world ∧ sys.world.Stems opts live ∧
      (appliesRow sys step = false → SameRows sys.world sys.world) :=
    ⟨.refl _, orderly.stems, fun _ => .refl _⟩
  refine Crowd.advance_world (fun world world' => Proceeds world world' ∧ world'.Stems opts live ∧
    (appliesRow sys step = false → SameRows world world')) same ?_
  rintro _ choice _ req _ rfl here
  obtain ⟨allowed, _, agrees, permits⟩ := orderly.permitted here
  obtain ⟨proceeds, rows⟩ : Proceeds sys.world (sys.world.answer opts source req choice).2 ∧
    (req.isApplyRow = false → SameRows sys.world (sys.world.answer opts source req choice).2) :=
    answer_leaves allowed
  refine ⟨proceeds, answer_stems allowed orderly.stems agrees permits, fun none => rows ?_⟩
  unfold appliesRow at none
  dsimp only at none
  rw [here] at none
  cases req <;> first | rfl | cases none

private theorem next_live
    (asks : ∀ caller op program, system.callers caller = some ⟨op, program⟩ → program.MakesOnly IsLive)
    (other : ∀ caller, step ≠ .start caller .rebuild) {program}
    (here : (next opts (dormant live) source live system step).callers caller = some ⟨op, program⟩) :
    program.MakesOnly IsLive := by
  have elsewhere : ∀ {changed : Nat} {now : Option (Caller (Commands Payload Row) String Unit (Operation Payload))},
      (∀ op program, now = some ⟨op, program⟩ → program.MakesOnly IsLive) →
      (system.set changed now).callers caller = some ⟨op, program⟩ → program.MakesOnly IsLive := by
    intro changed now new there
    by_cases same : caller = changed
    · subst same
      rw [Crowd.set] at there
      simp only [Function.update_self] at there
      exact new op program there
    · rw [Crowd.set] at there
      simp only [Function.update_of_ne same] at there
      exact asks caller op program there
  unfold next Crowd.advance at here
  cases step with
  | start changed begun =>
    dsimp only at here
    split at here
    · refine elsewhere (fun operation' program' is => ?_) here
      cases is
      exact makesOnly_body fun same => other changed (by rw [same])
    · exact asks caller op program here
  | step changed choice =>
    dsimp only at here
    split at here
    · next operation' req rest running =>
      refine elsewhere (fun operation'' program' is => ?_) here
      cases is
      exact (asks changed operation' _ running).2 _
    · refine elsewhere ?_ here
      simp
    · exact asks caller op program here
  | stop =>
    refine elsewhere ?_ here
    simp

theorem Orderly.next {source : Streams.Source (Content Payload)} {step : Step Payload}
    (contract : ReadContract source) (orderly : Orderly opts live system)
    (other : ∀ caller, step ≠ .start caller .rebuild) :
    Orderly opts live (next opts (dormant live) source live system step) where
  kept := (keeps contract).advance step orderly.kept (.inr (orderly.attempts.le.trans (zero_le 1)))
  asks _ _ _ here := next_live orderly.asks other here
  attempts := (next_leaves orderly).1.attempts.trans orderly.attempts
  snapshots := (next_leaves orderly).1.snapshots.trans orderly.snapshots
  stems := (next_leaves orderly).2.1

end Applik8s.OnlineProjection
