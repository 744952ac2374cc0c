import Applik8s.Lib.Program
import Applik8s.Lib.Run

/-! Programs that take turns. A desk works on one program at a time, in the order they
were submitted; at calls that yield, the program is left where it is and outside
actions may change the world before it is resumed. `Sound` says what a program does
stretch by stretch, whatever happens in between, and a `Discipline` carries it to
every run of the desk. -/
namespace Applik8s.Lib
open List
variable {I : Interface} {ε α σ δ Op : Type}

/-- Who answers the calls, at which of them a program yields, and what outside actions
do to the world. -/
structure Floor (I : Interface) (σ δ : Type) extends Interpreter I σ where
  yields : I.Call → Bool
  disturb : δ → σ → σ

/-- Runs a program up to the next call at which it yields, or to its end. -/
def Floor.stretch (floor : Floor I σ δ) : Program I ε α → σ → Program I ε α × σ
  | .done value, world => (.done value, world)
  | .throw error, world => (.throw error, world)
  | .call request next, world =>
    if floor.yields request then (.call request next, world)
    else floor.stretch (next (floor.answer request world).1) (floor.answer request world).2

/-- Executes the call a program has yielded at and runs it on. -/
def Floor.resume (floor : Floor I σ δ) : Program I ε α → σ → Program I ε α × σ
  | .call request next, world => floor.stretch (next (floor.answer request world).1) (floor.answer request world).2
  | program, world => (program, world)

structure Settled (σ ε α Op : Type) where
  operation : Op
  /-- The world when the operation was taken up. -/
  origin : σ
  result : Except ε α
  /-- The world when it ended. -/
  final : σ

structure Running (I : Interface) (σ ε α Op : Type) where
  operation : Op
  origin : σ
  program : Program I ε α

structure Desk (I : Interface) (σ ε α Op : Type) where
  world : σ
  running : Option (Running I σ ε α Op) := none
  waiting : List Op := []
  /-- What has ended, the latest first. -/
  settled : List (Settled σ ε α Op) := []

inductive DeskEvent (Op δ : Type) where
  | submit (operation : Op)
  | turn
  | disturb (action : δ)

def Desk.leave (desk : Desk I σ ε α Op) (operation : Op) (origin : σ) :
    Program I ε α × σ → Desk I σ ε α Op
  | (.done value, world) =>
    { desk with world, running := none, settled := ⟨operation, origin, .ok value, world⟩ :: desk.settled }
  | (.throw error, world) =>
    { desk with world, running := none, settled := ⟨operation, origin, .error error, world⟩ :: desk.settled }
  | (program, world) => { desk with world, running := some ⟨operation, origin, program⟩ }

/-- One step of the desk; a turn takes up the next operation when none is under way. -/
def Desk.advance (floor : Floor I σ δ) (body : Op → Program I ε α) (desk : Desk I σ ε α Op) :
    DeskEvent Op δ → Desk I σ ε α Op
  | .submit operation => { desk with waiting := desk.waiting ++ [operation] }
  | .disturb action => { desk with world := floor.disturb action desk.world }
  | .turn =>
    match desk.running, desk.waiting with
    | some running, _ => desk.leave running.operation running.origin (floor.resume running.program desk.world)
    | none, operation :: rest =>
      { desk with waiting := rest }.leave operation desk.world (floor.stretch (body operation) desk.world)
    | none, [] => desk

section
variable (floor : Floor I σ δ) (body : Op → Program I ε α) (desk : Desk I σ ε α Op)
include floor body desk

theorem Desk.world_turn (yields : ∀ req, floor.yields req = true) :
    (desk.advance floor body .turn).world = desk.world ∨ ∃ op origin req next,
      desk.running = some ⟨op, origin, .call req next⟩ ∧
        (desk.advance floor body .turn).world = (floor.answer req desk.world).2 := by
  have stops : ∀ (prog : Program I ε α) world, floor.stretch prog world = (prog, world) := by
    intro prog world
    cases prog with
    | done value | throw error => rfl
    | call req next => exact if_pos (yields req)
  have leaves : ∀ (desk : Desk I σ ε α Op) op origin prog world,
      (desk.leave op origin (prog, world)).world = world := by
    intro desk op origin prog world
    cases prog <;> rfl
  unfold Desk.advance
  dsimp only
  split
  · next _ running here =>
    obtain ⟨op, origin, prog⟩ := running
    cases prog with
    | done value | throw error => exact .inl (leaves ..)
    | call req next =>
      refine .inr ⟨op, origin, req, next, here, ?_⟩
      rw [Floor.resume, stops, leaves]
  · rw [stops, leaves]
    exact .inl rfl
  · exact .inl rfl

theorem Desk.settled_advance (event : DeskEvent Op δ) : desk.settled <:+ (desk.advance floor body event).settled := by
  have leaves : ∀ (desk : Desk I σ ε α Op) op origin stopped,
      desk.settled <:+ (desk.leave op origin stopped).settled := by
    rintro desk op _ ⟨_ | _ | ⟨_, _⟩, world⟩
    · exact suffix_cons _ _
    · exact suffix_cons _ _
    · exact suffix_rfl
  cases event with
  | submit => exact suffix_rfl
  | disturb action => exact suffix_rfl
  | turn =>
    unfold Desk.advance
    dsimp only
    split
    · exact leaves _ _ _ _
    · rename_i op rest _ _
      exact leaves { desk with waiting := rest } op desk.world _
    · exact suffix_rfl

theorem Desk.settled_run (events : List (DeskEvent Op δ))
    : desk.settled <:+ (runFrom (Desk.advance floor body) desk events).settled := by
  induction events generalizing desk with
  | nil => exact suffix_rfl
  | cons event rest ih => exact (desk.settled_advance floor body event).trans (ih _)

end

/-- Every stretch of the program takes the world where it begins to one related by
`step`, whatever `rely` allows in between, and where the program ends its result, the
beginning of its last stretch and the world there satisfy `close`. -/
def Sound (floor : Floor I σ δ) (rely step : σ → σ → Prop) (close : Except ε α → σ → σ → Prop) :
    σ → Program I ε α → σ → Prop
  | entry, .done value, world => close (.ok value) entry world
  | entry, .throw error, world => close (.error error) entry world
  | entry, .call request next, world =>
    if floor.yields request then
      step entry world ∧ ∀ later, rely world later →
        Sound floor rely step close later (next (floor.answer request later).1) (floor.answer request later).2
    else
      Sound floor rely step close entry (next (floor.answer request world).1) (floor.answer request world).2

section
variable {β : Type} {floor : Floor I σ δ} {rely step : σ → σ → Prop} {close : Except ε α → σ → σ → Prop}
  {entry world : σ}

theorem sound_yield (yields : floor.yields req = true) : Sound floor rely step close entry (.call req rest) world ↔
      step entry world ∧ ∀ later, rely world later →
        Sound floor rely step close later (rest (floor.answer req later).1) (floor.answer req later).2 := by
  rw [Sound, if_pos yields]

theorem sound_call (stays : floor.yields req = false) : Sound floor rely step close entry (.call req rest) world ↔
      Sound floor rely step close entry (rest (floor.answer req world).1) (floor.answer req world).2 := by
  rw [Sound, if_neg (by simp [stays])]

theorem sound_bind {prog : Program I ε β} : Sound floor rely step close entry (prog >>= rest) world ↔
      Sound floor rely step (fun res entry world => match res with
        | .ok value => Sound floor rely step close entry (rest value) world
        | .error error => close (.error error) entry world) entry prog world := by
  change Sound floor rely step close entry (prog.bind rest) world ↔ _
  induction prog generalizing entry world with
  | done value => rfl
  | throw error => rfl
  | call req after ih =>
    rw [Program.bind]
    cases yields : floor.yields req with
    | true =>
      rw [sound_yield yields, sound_yield yields]
      exact and_congr_right fun _ => forall₂_congr fun later _ => ih _
    | false =>
      rw [sound_call yields, sound_call yields]
      exact ih _

@[simp] theorem sound_pure :
    Sound floor rely step close entry (pure value) world ↔ close (.ok value) entry world := Iff.rfl

@[simp] theorem sound_check :
    Sound floor rely step close entry (.check out) world ↔ close out entry world := by
  cases out <;> rfl

theorem Sound.weaken (steps : ∀ before after, step before after → wider before after)
    (closes : ∀ res entry world, close res entry world → laxer res entry world)
    (sound : Sound floor rely step close entry prog world) : Sound floor rely wider laxer entry prog world := by
  induction prog generalizing entry world with
  | done value => exact closes _ _ _ sound
  | throw error => exact closes _ _ _ sound
  | call req next ih =>
    cases yields : floor.yields req with
    | true =>
      rw [sound_yield yields] at sound ⊢
      exact ⟨steps _ _ sound.1, fun later relied => ih _ (sound.2 later relied)⟩
    | false =>
      rw [sound_call yields] at sound ⊢
      exact ih _ sound

theorem sound_forEach {items : List β} {iteration : β → Program I ε Unit} (holds : σ → σ → Prop)
    (failing : ε → σ → σ → Prop) (here : holds entry world)
    (each : ∀ item ∈ items, ∀ entry world, holds entry world →
      Sound floor rely step (fun res entry world => match res with
        | .ok _ => holds entry world
        | .error error => failing error entry world) entry (iteration item) world) :
    Sound floor rely step (fun res entry world => match res with
      | .ok _ => holds entry world
      | .error error => failing error entry world) entry (Program.forEach items iteration) world := by
  induction items generalizing entry world with
  | nil => exact here
  | cons item rest ih =>
    refine sound_bind.mpr (Sound.weaken (fun _ _ stepped => stepped) (fun res entry world closed => ?_)
      (each item mem_cons_self entry world here))
    cases res with
    | ok value => exact ih closed fun item member => each item (mem_cons_of_mem _ member)
    | error error => exact closed

/-- What is left of a sound program after a stretch: it has ended as promised, or goes
on soundly from wherever it is resumed. -/
inductive Left (floor : Floor I σ δ) (rely step : σ → σ → Prop) (close : Except ε α → σ → σ → Prop)
    (entry : σ) : Program I ε α × σ → Prop where
  | done {value : α} {world : σ} (closed : close (.ok value) entry world) :
      Left floor rely step close entry (.done value, world)
  | throw {error : ε} {world : σ} (closed : close (.error error) entry world) :
      Left floor rely step close entry (.throw error, world)
  | yielded {request : I.Call} {next : I.Reply request → Program I ε α} {world : σ}
      (stepped : step entry world)
      (goesOn : ∀ later, rely world later → Sound floor rely step close later (next (floor.answer request later).1)
          (floor.answer request later).2) :
      Left floor rely step close entry (.call request next, world)

theorem left_of_sound (sound : Sound floor rely step close entry prog world) :
    Left floor rely step close entry (floor.stretch prog world) := by
  induction prog generalizing world with
  | done value => exact .done sound
  | throw error => exact .throw sound
  | call req next ih =>
    rw [Floor.stretch]
    cases yields : floor.yields req with
    | true =>
      rw [sound_yield yields] at sound
      exact .yielded sound.1 sound.2
    | false =>
      rw [sound_call yields] at sound
      exact ih _ sound
end

/-- A discipline for a desk: which operations are submitted and where they may be taken
up, an invariant, the relation the stretches of an operation follow, the one outside
actions follow, what holds of an operation between its origin and any later point of
it, and what it promises at its end. -/
structure Discipline (floor : Floor I σ δ) (body : Op → Program I ε α) where
  submits : Op → Prop
  takes : Op → σ → Prop
  invariant : σ → Prop
  rely : σ → σ → Prop
  step : Op → σ → σ → Prop
  since : Op → σ → σ → Prop
  post : Op → Except ε α → σ → Prop
  /-- Where an outside action may come, with an operation under way or not. -/
  disturbs : Bool → δ → σ → Prop
  rely_refl : ∀ world, rely world world
  rely_trans : ∀ {first second third}, rely first second → rely second third → rely first third
  disturbed : ∀ {underway action world}, disturbs underway action world → invariant world →
    (underway = true → rely world (floor.disturb action world)) ∧ invariant (floor.disturb action world)
  since_start : ∀ operation world, invariant world → since operation world world
  since_rely : ∀ {operation origin before after}, since operation origin before → rely before after →
    since operation origin after
  since_step : ∀ {operation origin before after}, invariant before → since operation origin before →
    step operation before after → since operation origin after
  step_keeps : ∀ {operation origin before after}, submits operation → takes operation origin →
    since operation origin before → invariant before → step operation before after → invariant after
  sound : ∀ operation world, submits operation → takes operation world → invariant world →
    Sound floor rely (step operation)
      (fun result entry final => step operation entry final ∧ post operation result final)
      world (body operation) world

variable {floor : Floor I σ δ} {body : Op → Program I ε α} (discipline : Discipline floor body)

def Discipline.Proceeds (operation : Op) (entry : σ) (program : Program I ε α) (world : σ) : Prop :=
  Sound floor discipline.rely (discipline.step operation)
    (fun result entry final => discipline.step operation entry final ∧ discipline.post operation result final)
    entry program world

structure Discipline.Underway (world : σ) (running : Running I σ ε α Op) : Prop where
  submitted : discipline.submits running.operation
  taken : discipline.takes running.operation running.origin
  since : discipline.since running.operation running.origin world
  proceeds : ∃ request next, running.program = .call request next ∧ ∀ later, discipline.rely world later →
      discipline.Proceeds running.operation later (next (floor.answer request later).1) (floor.answer request later).2

structure Discipline.Kept (desk : Desk I σ ε α Op) : Prop where
  invariant : discipline.invariant desk.world
  waiting : ∀ operation ∈ desk.waiting, discipline.submits operation
  running : ∀ running ∈ desk.running, discipline.Underway desk.world running
  settled : ∀ entry ∈ desk.settled, discipline.since entry.operation entry.origin entry.final ∧
    discipline.post entry.operation entry.result entry.final

/-- Only operations the discipline knows are submitted, each is taken up where it may be,
and outside actions come where they may. -/
def Discipline.Admits (desk : Desk I σ ε α Op) : DeskEvent Op δ → Prop
  | .submit operation => discipline.submits operation
  | .turn => ∀ operation ∈ desk.waiting.head?, desk.running = none → discipline.takes operation desk.world
  | .disturb action => discipline.disturbs desk.running.isSome action desk.world

theorem Discipline.kept_idle (invariant : discipline.invariant world) : discipline.Kept { world } :=
  ⟨invariant, by simp, by simp, by simp⟩

theorem Discipline.kept_leave (desk : Desk I σ ε α Op) (invariant : discipline.invariant desk.world)
    (waiting : ∀ op ∈ desk.waiting, discipline.submits op)
    (settled : ∀ entry ∈ desk.settled, discipline.since entry.operation entry.origin entry.final ∧ discipline.post entry.operation entry.result entry.final)
    (submitted : discipline.submits op) (taken : discipline.takes op origin)
    (since : discipline.since op origin desk.world)
    (left : Left floor discipline.rely (discipline.step op) (fun res entry final => discipline.step op entry final ∧ discipline.post op res final) desk.world stopped)
    : discipline.Kept (desk.leave op origin stopped) ∧
      discipline.step op desk.world (desk.leave op origin stopped).world := by
  have keeps := fun {after} (stepped : discipline.step op desk.world after) =>
    discipline.step_keeps submitted taken since invariant stepped
  cases left with
  | done closed | throw closed =>
    refine ⟨⟨keeps closed.1, waiting, ?_, ?_⟩, closed.1⟩
    · simp [Desk.leave]
    intro entry member
    rcases mem_cons.mp member with rfl | earlier
    · exact ⟨discipline.since_step invariant since closed.1, closed.2⟩
    · exact settled entry earlier
  | yielded stepped goesOn =>
    refine ⟨⟨keeps stepped, waiting, ?_, settled⟩, stepped⟩
    intro running held
    cases held
    exact ⟨submitted, taken, discipline.since_step invariant since stepped, _, _, rfl, goesOn⟩

/-- What one step of a desk does to its world under a discipline: nothing, a stretch of
the operation under way, or what an outside action does. -/
inductive Discipline.Moves (before after : σ) : Prop where
  | still (same : after = before)
  | stretch {operation : Op} (submitted : discipline.submits operation)
      (stepped : discipline.step operation before after)
  | disturb {underway : Bool} {action : δ} (allowed : discipline.disturbs underway action before)
      (came : after = floor.disturb action before)

theorem Discipline.advance_kept (kept : discipline.Kept desk) (admitted : discipline.Admits desk event) :
    discipline.Kept (desk.advance floor body event) ∧
      discipline.Moves desk.world (desk.advance floor body event).world := by
  cases event with
  | submit =>
    refine ⟨⟨kept.invariant, ?_, kept.running, kept.settled⟩, .still rfl⟩
    intro other member
    rcases mem_append.mp member with earlier | last
    · exact kept.waiting other earlier
    · rw [mem_singleton.mp last]
      exact admitted
  | disturb action =>
    obtain ⟨relies, invariant⟩ := discipline.disturbed admitted kept.invariant
    refine ⟨⟨invariant, kept.waiting, ?_, kept.settled⟩, .disturb admitted rfl⟩
    intro running held
    have underway : desk.running = some running := held
    have relied := relies (by rw [underway]; rfl)
    obtain ⟨submitted, taken, since, req, next, here, goesOn⟩ := kept.running running held
    exact ⟨submitted, taken, discipline.since_rely since relied, req, next, here,
      fun later further => goesOn later (discipline.rely_trans relied further)⟩
  | turn =>
    unfold Desk.advance
    cases underway : desk.running with
    | some running =>
      obtain ⟨submitted, taken, since, _, _, here, goesOn⟩ :=
        kept.running running (by simp [underway])
      have left := left_of_sound (goesOn desk.world (discipline.rely_refl _))
      have resumed := discipline.kept_leave desk kept.invariant kept.waiting kept.settled submitted taken since left
      simp only [here, Floor.resume]
      exact ⟨resumed.1, .stretch submitted resumed.2⟩
    | none =>
      cases queue : desk.waiting with
      | nil => exact ⟨kept, .still rfl⟩
      | cons op rest =>
        have known := kept.waiting
        rw [queue] at known
        have submitted := known op mem_cons_self
        have taken := admitted op (by simp [queue]) underway
        have left := left_of_sound (discipline.sound op desk.world submitted taken kept.invariant)
        have begun := discipline.kept_leave { desk with waiting := rest } kept.invariant
          (fun other member => known other (mem_cons_of_mem _ member)) kept.settled submitted taken
          (discipline.since_start op desk.world kept.invariant) left
        exact ⟨begun.1, .stretch submitted begun.2⟩

/-- A run of the desk in which every step is admitted where it is taken. -/
def Discipline.Observed (desk : Desk I σ ε α Op) (events : List (DeskEvent Op δ)) : Prop :=
  EachStep (Desk.advance floor body) discipline.Admits desk events

theorem Discipline.run_kept (kept : discipline.Kept desk) (observed : discipline.Observed desk events) :
    discipline.Kept (runFrom (Desk.advance floor body) desk events) := by
  induction events generalizing desk with
  | nil => exact kept
  | cons event rest ih => exact ih (discipline.advance_kept kept observed.1).1 observed.2

/-- From one point of a run to any later one the world follows a preorder that stretches
and outside actions follow. -/
theorem Discipline.run_relates (related : σ → σ → Prop) (refl : ∀ world, related world world)
    (trans : ∀ {first second third}, related first second → related second third → related first third)
    (stepped : ∀ {op before after}, discipline.invariant before → discipline.step op before after → related before after)
    (disturbed : ∀ {action before}, discipline.invariant before → related before (floor.disturb action before))
    (kept : discipline.Kept desk) (observed : discipline.Observed desk events) :
    related desk.world (runFrom (Desk.advance floor body) desk events).world := by
  induction events generalizing desk with
  | nil => exact refl _
  | cons event rest ih =>
    obtain ⟨next, moved⟩ := discipline.advance_kept kept observed.1
    refine trans ?_ (ih next observed.2)
    cases moved with
    | still same => rw [same]; exact refl _
    | stretch _ moved => exact stepped kept.invariant moved
    | disturb _ came => rw [came]; exact disturbed kept.invariant

end Applik8s.Lib
