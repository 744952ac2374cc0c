import Applik8s.OnlineProjection.Attempts

/-! Runs of the projection: live runs, rebuild attempts, records and retention, one request at a time and in any order.
What the scripts do not check against the lease has to be sent under the lease; then an attempt has a generation for
itself, and a generation that becomes active misses nothing. -/
namespace Applik8s.OnlineProjection
open Lib Option Nat
open Streams (Through ReadContract)
variable {Payload Row : Type} {opts : WriterOptions Row} {rebuild : RebuildOptions Payload Row}
  {live : ProjectionOptions Payload Row} {read : Streams.Source (Content Payload)} {world : World Payload Row}
  {choice : Choice Payload} {request : Request Payload Row} {phase other : Phase Payload Row}

/-- What no lease guards is sent by the attempt that was the last to acquire the lease. -/
def World.Grants (world : World Payload Row) (request : Request Payload Row) : Prop :=
  ∀ sender ∈ request.sender, world.owner = some sender

instance World.Grants.decidable (world : World Payload Row) (request : Request Payload Row) :
    Decidable (world.Grants request) :=
  inferInstanceAs (Decidable (∀ sender ∈ request.sender, world.owner = some sender))

theorem permits_sender (permits : phase.permits opts rebuild req) (sent : req.sender = some num) :
    ∃ stage : AttemptStage Payload Row, phase = .attempt num stage ∧ stage.isBegun = true := by
  cases req with
  | reserve attempt =>
    obtain rfl : attempt = some num := sent
    cases phase with
    | live _ _ _ _ stage => cases stage <;> exact False.elim permits
    | attempt caller stage =>
      cases stage with
      | rows => exact ⟨_, by rw [some.inj permits.1], rfl⟩
      | _ => exact False.elim permits
    | _ => exact False.elim permits
  | applyRow attempt =>
    obtain rfl : attempt = some num := sent
    cases phase with
    | live _ _ _ _ stage => cases stage <;> exact False.elim permits
    | attempt caller stage =>
      cases stage with
      | reserved => exact ⟨_, by rw [some.inj permits.1], rfl⟩
      | _ => exact False.elim permits
    | _ => exact False.elim permits
  | advanceHighwater attempt =>
    obtain rfl : attempt = some num := sent
    cases phase with
    | live _ _ _ _ stage => cases stage <;> exact False.elim permits
    | attempt caller stage =>
      cases stage with
      | caught made goal highwater | rows made event left goal due => exact ⟨_, by rw [some.inj permits.1], rfl⟩
      | _ => exact False.elim permits
    | _ => exact False.elim permits
  | delete attempt =>
    cases sent
    cases phase with
    | live _ _ _ _ stage => cases stage <;> exact False.elim permits
    | attempt caller stage =>
      cases stage with
      | deleting => exact ⟨_, by rw [permits.1], rfl⟩
      | _ => exact False.elim permits
    | _ => exact False.elim permits
  | _ => cases sent

theorem grants_alone (agrees : phase.Agrees opts rebuild live world) (permits : phase.permits opts rebuild req)
    (alone : world.attempts ≤ 1) : world.Grants req := by
  intro sender sent
  obtain ⟨_, rfl, begun⟩ := permits_sender permits sent
  exact (agrees.2.1 begun).resolve_right (Nat.not_le_of_lt (Nat.lt_succ_of_le alone))

theorem failed_agrees (agrees : phase.Agrees opts rebuild live world)
    (steps : Steps opts rebuild live phase.number world world') : phase.failed.Agrees opts rebuild live world' := by
  cases phase with
  | attempt => exact closing_agrees agrees steps
  | _ => trivial

theorem behind_number (base upTo : Nat) (events : List (Write Payload Row)) :
    (Phase.behind base upTo events).number = none := by
  cases events <;> rfl

theorem liveStage_number (base upTo : Nat) (event : Write Payload Row) (left : List (Write Payload Row))
    (stage : LiveStage Row) (req : Request Payload Row) (reply : req.Answer) :
    (stage.after base event left upTo req reply).number = none := by
  unfold LiveStage.after
  split
  · split <;> rfl
  · rfl
  · split <;> rfl
  · split <;> rfl
  · rfl
  · split
    · exact behind_number ..
    · rfl
  · rfl

theorem read_number (afterSequence : Nat) (page : Streams.Page (Content Payload)) :
    (Phase.read live afterSequence page : Phase Payload Row).number = none := by
  unfold Phase.read
  split
  · rfl
  split
  · rfl
  · exact behind_number ..

section
variable [DecidableEq Payload] [DecidableEq Row]

theorem perform_moves (choice : Choice Payload) (contract : ReadContract read) (sound : world.Sound opts rebuild live)
    (agrees : phase.Agrees opts rebuild live world) (permits : phase.permits opts rebuild req)
    (granted : world.Grants req) : Moves opts rebuild live phase world (world.perform opts read choice req)
      (phase.answered opts rebuild live req) := by
  cases phase with
  | still => exact still_moves sound permits
  | idle base => exact idle_moves contract sound agrees permits
  | live => exact live_moves sound agrees permits
  | applied => exact applied_moves sound agrees permits
  | attempt => exact attempt_moves contract sound agrees permits granted

theorem answer_steps (choice : Choice Payload) (contract : ReadContract read) (sound : world.Sound opts rebuild live)
    (agrees : phase.Agrees opts rebuild live world) (permits : phase.permits opts rebuild req)
    (granted : world.Grants req) : Steps opts rebuild live phase.number world (world.answer opts read req choice).2 ∧
      ((conduct opts rebuild live).after phase req (world.answer opts read req choice).1).Agrees opts
        rebuild live (world.answer opts read req choice).2 := by
  obtain ⟨steps, next⟩ := perform_moves choice contract sound agrees permits granted
  unfold World.answer
  cases choice.failure with
  | none =>
    refine ⟨steps, ?_⟩
    cases out : (world.perform opts read choice req).1 with
    | ok answer => exact next answer out
    | error => exact failed_agrees agrees steps
  | some =>
    dsimp only
    split
    · exact ⟨steps, failed_agrees agrees steps⟩
    · exact ⟨.refl sound, failed_agrees agrees (.refl sound)⟩

theorem after_number
    (is : ((conduct opts rebuild live).after phase request (world.answer opts read request choice).1).number = some num)
    : phase.number = some num ∨ num = world.attempts := by
  cases reply : (world.answer opts read request choice).1 with
  | error =>
    rw [reply] at is
    cases phase with
    | attempt => exact .inl is
    | _ => cases is
  | ok answer =>
    rw [reply] at is
    cases phase with
    | attempt => exact .inl is
    | live base event left upTo stage =>
      have none := liveStage_number base upTo event left stage request answer
      exact absurd (is.symm.trans none) nofun
    | idle base =>
      cases request with
      | read => exact absurd (is.symm.trans (read_number ..)) nofun
      | _ => cases is
    | applied =>
      cases request with
      | _ => cases is
    | still =>
      cases request with
      | randomUUID =>
        refine .inr ?_
        unfold World.answer at reply
        cases err : choice.failure with
        | none =>
          rw [err] at reply
          cases reply
          cases is
          rfl
        | some =>
          rw [err] at reply
          cases reply
      | _ => cases is

theorem after_apart (agrees : other.Agrees opts rebuild live world) (apart : phase.Apart other) :
    ((conduct opts rebuild live).after phase request (world.answer opts read request choice).1).Apart other := by
  intro num is same
  rcases after_number is with before | rfl
  · exact apart num before same
  cases other with
  | attempt =>
    cases same
    exact lt_irrefl _ agrees.1
  | _ => cases same

/-- Each command that no lease guards is sent under the lease. -/
def Guarded (system : System Payload Row) : Step Payload → Prop
  | .step caller _ => system.Asks caller system.world.Grants
  | .start _ _ | .stop _ => True

instance Guarded.decidable (system : System Payload Row) (step : Step Payload) : Decidable (Guarded system step) :=
  match step with
  | .step caller _ => system.decideAsks caller (World.Grants.decidable system.world)
  | .start _ _ | .stop _ => inferInstanceAs (Decidable True)

def Allowed (system : System Payload Row) (step : Step Payload) : Prop :=
  Guarded system step ∨ system.world.attempts ≤ 1

/-- The keys are sound, everyone knows what is so, and no two callers are one attempt. -/
def Invariant (options : WriterOptions Row) (rebuild : RebuildOptions Payload Row)
    (live : ProjectionOptions Payload Row) (world : World Payload Row)
    (phases : Nat → Option (Operation Payload × Phase Payload Row)) : Prop :=
  Pointwise (World.Sound options rebuild live) (fun world _ phase => phase.Agrees options rebuild live world) world
    phases ∧
  ∀ one two operation operation' phase other, one ≠ two → phases one = some (operation, phase) →
    phases two = some (operation', other) → Phase.Apart phase other

theorem keeps [Inhabited Payload] (contract : ReadContract read) :
    Crowd.Keeps (server opts read) (body opts rebuild live) (conduct opts rebuild live)
      (Invariant opts rebuild live) Allowed fun _ => .still := by
  refine Crowd.keeps_apart Phase.Apart (fun one two apart num is same => apart num same is) obeys_body
    (fun _ _ _ _ _ => trivial) (fun _ _ => nofun) ?_
  intro sys caller choice op phase req rest running allowed sound agrees permits
  have granted : sys.world.Grants req := by
    rcases allowed with guarded | alone
    · exact guarded op req rest running
    · exact grants_alone agrees permits alone
  obtain ⟨steps, next⟩ := answer_steps choice contract sound agrees permits granted
  refine ⟨trivial, steps.sound, next, fun operation' other agrees' apart => ⟨?_, after_apart agrees' apart⟩⟩
  refine steps.respects.agrees ?_ agrees'
  cases is : other.number with
  | none => exact .inl rfl
  | some num => exact .inr fun same => apart num same is

omit [DecidableEq Payload] [DecidableEq Row] in
theorem sound_start (log : Streams.Log (Content Payload)) : ({ log } : World Payload Row).Sound opts rebuild live where
  contents _ _ := rfl
  reserved _ := nofun
  lease := nofun
  owner := nofun
  unset _ _ := rfl
  checkpoint := ⟨nofun, fun _ => .zero⟩
  highwater := nofun
  manifest := nofun

omit [DecidableEq Payload] [DecidableEq Row] in
theorem kept_start (log : Streams.Log (Content Payload)) :
    Crowd.Kept (conduct opts rebuild live) (Invariant opts rebuild live) ({ world := { log } } : System Payload Row) :=
  kept_empty ⟨⟨sound_start log, fun _ _ _ here => (some_ne_none _ here.symm).elim⟩,
    fun _ _ _ _ _ _ _ here => (some_ne_none _ here.symm).elim⟩

theorem kept_run [Inhabited Payload] (contract : ReadContract read) (log : Streams.Log (Content Payload))
    (allowed : EachStep (next opts rebuild read live) Allowed { world := { log } } steps) :
    (runFrom (next opts rebuild read live) { world := { log } } steps).Kept (conduct opts rebuild live)
      (Invariant opts rebuild live) := by
  have start : Crowd.Kept (conduct opts rebuild live) (Invariant opts rebuild live)
      ({ world := { log } } : System Payload Row) := kept_start log
  exact (keeps contract).run start allowed

/-! ### Attempts exclude one another -/

/-- The attempt that a request is sent by, if it says so. -/
def Request.attempt : Request Payload Row → Option Nat
  | .reserve attempt _ _ | .applyRow attempt _ _ _ _ | .advanceHighwater attempt _ _ => attempt
  | .delete attempt _ _ | .renew _ attempt | .begin _ attempt | .reset _ attempt | .publish _ _ attempt
    | .abandon _ attempt => some attempt
  | _ => none

/-- Another attempt's commands, once it does not own the generation any more, leave all generations. -/
def World.Spares (options : WriterOptions Row) (read : Streams.Source (Content Payload)) (world : World Payload Row)
    (choice : Choice Payload) (request : Request Payload Row) : Prop :=
  ∀ attempt ∈ request.attempt, ∀ owner ∈ world.owner, attempt ≠ owner →
    (world.answer options read request choice).2.generations = world.generations

/-- Where a publication succeeds, the generation has what its attempt has written, in order. -/
def World.PublishesOwn (world : World Payload Row) : Request Payload Row → Prop
  | .publish generation expected attempt => (world.publish generation expected attempt).1 = true →
      world.applied generation = world.written attempt ∧ (world.written attempt).Pairwise (·.sequence ≤ ·.sequence)
  | _ => True

instance World.PublishesOwn.decidable (world : World Payload Row) (request : Request Payload Row) :
    Decidable (world.PublishesOwn request) :=
  match request with
  | .publish generation expected attempt =>
    inferInstanceAs (Decidable ((world.publish generation expected attempt).1 = true →
      world.applied generation = world.written attempt ∧ (world.written attempt).Pairwise (·.sequence ≤ ·.sequence)))
  | .setActiveAbsent | .setCheckpointAbsent | .active | .checkpoint | .rebuildState | .highwater _ | .renew _ _
  | .reserve _ _ _ | .applyRow _ _ _ _ _ | .advanceHighwater _ _ _ | .advanceActiveCheckpoint _ _
  | .advanceCheckpoint _ | .begin _ _ | .members _ | .delete _ _ _ | .reset _ _ | .abandon _ _ | .read _ _ | .scan
  | .readManifest | .putManifest _ | .randomUUID | .append _ | .retain _ | .expire => inferInstanceAs (Decidable True)

def Each (allowed : Choice Payload → World Payload Row → Request Payload Row → Prop) (system : System Payload Row) :
    Step Payload → Prop
  | .step caller choice => system.Asks caller (allowed choice system.world)
  | .start _ _ | .stop _ => True

instance Each.decidable (allowed : Choice Payload → World Payload Row → Request Payload Row → Prop)
    [∀ choice world request, Decidable (allowed choice world request)] (system : System Payload Row)
    (step : Step Payload) : Decidable (Each allowed system step) :=
  match step with
  | .step caller choice => system.decideAsks caller fun request =>
    inferInstanceAs (Decidable (allowed choice system.world request))
  | .start _ _ | .stop _ => inferInstanceAs (Decidable True)

theorem spares (sound : world.Sound opts rebuild live) (granted : world.Grants req) :
    world.Spares opts read choice req := by
  rintro attempt sends _ owns ne
  have performed : (world.perform opts read choice req).2.generations = world.generations := by
    have ungranted : ∀ {sender}, req.sender = some sender → req.attempt = some sender → False := by
      intro sender sent is
      cases sends.symm.trans is
      exact ne (some.inj ((granted attempt sent).symm.trans owns))
    cases req with
    | reserve => exact (ungranted sends sends).elim
    | applyRow => exact (ungranted sends sends).elim
    | advanceHighwater => exact (ungranted sends sends).elim
    | delete => exact (ungranted rfl rfl).elim
    | reset gen sender =>
      cases sends
      change (world.reset gen attempt).2.generations = world.generations
      unfold World.reset
      split
      · next owned => exact (ne (some.inj ((World.owns_owner sound owned).symm.trans owns))).elim
      · rfl
    | begin gen sender =>
      change (world.begin gen sender).2.generations = world.generations
      unfold World.begin
      split
      · rfl
      · split <;> rfl
    | publish gen expected sender =>
      change (world.publish gen expected sender).2.generations = world.generations
      unfold World.publish
      split
      · rfl
      split
      · rfl
      split
      · rfl
      split <;> rfl
    | abandon gen sender =>
      change (world.abandon gen sender).generations = world.generations
      unfold World.abandon
      split <;> rfl
    | renew => rfl
    | _ => cases sends
  unfold World.answer
  split
  · exact performed
  split
  · exact performed
  · rfl

omit [DecidableEq Payload] [DecidableEq Row] in
theorem publish_owns {num : Nat} {gen expected : String} (published : (world.publish gen expected num).1 = true) :
    world.owns gen num = true := by
  unfold World.publish at published
  by_cases moved : world.active ≠ some expected
  · rw [if_pos moved] at published
    cases published
  rw [if_neg moved] at published
  by_contra lost
  rw [if_pos lost] at published
  cases published

omit [DecidableEq Payload] [DecidableEq Row] in
theorem publishesOwn (sound : world.Sound opts rebuild live) (agrees : phase.Agrees opts rebuild live world)
    (permits : phase.permits opts rebuild req) : world.PublishesOwn req := by
  cases req with
  | publish =>
    intro published
    cases phase with
    | attempt num stage =>
      cases stage with
      | writing =>
        obtain ⟨rfl, rfl, rfl⟩ := permits
        obtain ⟨fenced, -⟩ := agrees.2.2.2 (World.owns_owner sound (publish_owns published))
        exact ⟨fenced.own, fenced.own ▸ fenced.ascending⟩
      | _ => exact False.elim permits
    | live _ _ _ _ stage => cases stage <;> exact False.elim permits
    | _ => exact False.elim permits
  | _ => trivial

/-- The rows of each generation are those that were applied to it. -/
def World.Replays (options : WriterOptions Row) (world : World Payload Row) : Prop :=
  ∀ generation partition, (world.generations generation).rows partition = replay options.maxItemsPerPartition
    ((world.applied generation).filter (·.change.partition = partition))

/-- Where what no lease guards is sent under the lease, an attempt that has lost the lease changes no generation, and a
generation that is published has the rows that its attempt has written. -/
theorem guarded_attempts_are_fenced [Inhabited Payload] (options : WriterOptions Row) (rebuild : RebuildOptions Payload Row)
    (live : ProjectionOptions Payload Row) (contract : ReadContract read) (log : Streams.Log (Content Payload))
    (steps : List (Step Payload))
    (guarded : EachStep (next options rebuild read live) Guarded { world := { log } } steps) :
    EachStep (next options rebuild read live) (Each fun choice world => world.Spares options read choice)
        { world := { log } } steps ∧
      EachStep (next options rebuild read live) (Each fun _ world => world.PublishesOwn) { world := { log } } steps ∧
      (runFrom (next options rebuild read live) { world := { log } } steps).world.Replays options := by
  have start : Crowd.Kept (conduct options rebuild live) (Invariant options rebuild live)
      ({ world := { log } } : System Payload Row) := kept_start log
  have each := eachStep_of_steps (Crowd.Kept (conduct options rebuild live) (Invariant options rebuild live))
    (fun _ step kept allowed => (keeps contract).advance step kept (.inl allowed)) start guarded
  have sees : ∀ {system : System Payload Row} {step : Step Payload} {holds}, system.Kept (conduct options rebuild live)
      (Invariant options rebuild live) → Guarded system step → (∀ choice request phase,
        system.world.Sound options rebuild live → Phase.Agrees options rebuild live system.world phase →
        phase.permits options rebuild request → system.world.Grants request → holds choice system.world request) →
      Each holds system step := by
    rintro system step _ ⟨phases, conducted, ⟨sound, agrees⟩, -⟩ allowed shows
    cases step with
    | start caller operation | stop caller => trivial
    | step caller choice =>
      intro operation request rest running
      obtain ⟨phase, here, permits, -⟩ := conducted.obeys caller operation _ running
      exact shows choice request phase sound (agrees caller operation phase here) permits
        (allowed operation request rest running)
  refine ⟨each.imp fun step _ system met => sees met.1 met.2 fun choice request phase sound _ _ granted =>
      spares sound granted,
    each.imp fun step _ system met => sees met.1 met.2 fun choice request phase sound agrees permits _ =>
      publishesOwn sound agrees permits, ?_⟩
  obtain ⟨_, -, ⟨sound, -⟩, -⟩ := kept_run contract log (guarded.imp fun _ _ _ => .inl)
  exact sound.contents

end

/-! ### A late write -/

def plainWriter : WriterOptions String where
  projection := "board"
  partitionBy _ := "p"
  key row := row
  score _ := some 0
  value row := .ok row
  maxItemsPerPartition := 10

def plainLive : ProjectionOptions String String where
  streamName := "changes.v1"
  project content := .ok [content.payload]

def plainRebuild : RebuildOptions String String where
  streamName := "changes.v1"
  generation := "g"
  snapshotPartition := some fun _ => some "p"
  project content := .ok [content.payload]

abbrev plainNext : System String String → Step String → System String String :=
  next plainWriter plainRebuild Streams.postgresRead plainLive

def goes (caller count : Nat) (pages : List (List (String × String)) := []) : List (Step String) :=
  List.replicate count (.step caller { pages })

/-- One event is recorded; an attempt finds `x` in the authority, and `spent` of its requests are made. -/
def firstAttempt (spent : Nat) : List (Step String) :=
  .start 9 (.append ⟨1, "1", "p", 0, "x"⟩) :: goes 9 2 ++ .start 0 .rebuild :: goes 0 spent [[("x", "x")]]

def secondAttempt (spent : Nat) : List (Step String) :=
  .start 9 .expire :: goes 9 2 ++ .start 1 .rebuild :: goes 1 spent

/-- The first attempt has the answer that it owns the generation, and applies its row once the second has reset it. -/
theorem attempts_write_late : ¬ ∀ steps, EachStep plainNext (Each fun _ world => world.PublishesOwn)
    { world := { log := .empty } } steps := by
  intro all
  have late := all (firstAttempt 17 ++ secondAttempt 15 ++ goes 0 1 ++ goes 1 8)
  revert late
  decide +kernel

/-- Where the row and the high-water mark are written before the lease is over, the second attempt publishes what it has written. -/
theorem timely_attempts_are_fenced :
    EachStep plainNext (Each fun _ world => world.PublishesOwn) { world := { log := .empty } }
        (firstAttempt 19 ++ secondAttempt 15 ++ goes 0 1 ++ goes 1 8) ∧
      (runFrom plainNext { world := { log := .empty } }
        (firstAttempt 19 ++ secondAttempt 15 ++ goes 0 1 ++ goes 1 8)).world.active = some "g" :=
  ⟨(guarded_attempts_are_fenced plainWriter plainRebuild plainLive Streams.postgresRead_contract .empty _
    (by decide +kernel)).2.1, by decide +kernel⟩

end Applik8s.OnlineProjection
