import Mathlib.Data.List.Perm.Basic

/-! `consumeWithBoundedConcurrency` of `packages/applik8s/src/bounded-concurrency.ts`, less its reports to `observe`,
which its copy in `packages/runtime-nats` lacks: the loop and the handlers of the tasks, and what the host does between
two awaits, in any order. The next item is in hand before there is a place for its task, and is dropped there once a
failure is noticed. -/
namespace Applik8s.Concurrency
open List Relation

/-- What a promise is rejected with. -/
inductive Cause (ε : Type) where
  | undefined | null | error (error : ε)

/-- `failure ??= cause` -/
def Cause.orElse : Cause ε → Cause ε → Cause ε
  | .error held, _ => .error held
  | _, cause => cause

inductive Outcome (ε : Type) where
  | fulfilled | rejected (cause : Cause ε)

def Outcome.cause : Outcome ε → Option (Cause ε)
  | .fulfilled => none
  | .rejected cause => some cause

/-- A number of the host. -/
inductive Number where
  | finite (value : Rat) | infinity | negativeInfinity | nan

/-- `Math.max(1, Math.floor(concurrency))`, less the two that no size reaches: infinity and `NaN`. -/
def limit : Number → Option Nat
  | .finite value => some (max 1 value.floor).toNat
  | .negativeInfinity => some 1
  | _ => none

/-- Where the function is: between two items, in the loop's wait for a place, leaving the loop by a throw, in the
last wait for all tasks, or done. A wait is for the tasks that `active` held when it began. -/
inductive Phase (T ε : Type) where
  | pulling
  | waiting (item : T) (raced : List Nat)
  | closing (cause : Cause ε)
  | settling (awaited : List Nat)
  | resolved
  | rejected (cause : Cause ε)

/-- The variables of the function, and what has become of its source and of its tasks. A task is known by its place
among the started ones. -/
structure State (T ε : Type) where
  phase : Phase T ε := .pulling
  active : List Nat := []
  failure : Cause ε := .undefined
  taken : List T := []
  started : List T := []
  outcome : Nat → Option (Outcome ε) := fun _ => none
  source : Option (Outcome ε) := none

section
variable (state : State T ε)

/-- `task(item)`, and what the loop does about it. -/
def State.start (item : T) : State T ε :=
  { state with
    phase := .pulling
    started := state.started ++ [item]
    active := state.active ++ [state.started.length] }

/-- The handler of a task: `failure ??= cause` and `complete`. -/
def State.handle (task : Nat) (outcome : Outcome ε) : State T ε :=
  { state with
    active := state.active.erase task
    failure := outcome.cause.elim state.failure state.failure.orElse }

/-- The promise of a task is settled. -/
def State.settle (task : Nat) (outcome : Outcome ε) : State T ε :=
  { state with outcome := Function.update state.outcome task (some outcome) }

/-- `failure` behind `Promise.allSettled`. -/
def State.verdict (awaited : List Nat) : Cause ε :=
  let reasons := awaited.filterMap fun task => (state.outcome task).bind Outcome.cause
  state.failure.orElse (reasons.head?.getD .undefined)

/-- The item was just taken, or a race for its place was won. -/
def State.Woken (raced : List Nat) : Prop := raced = [] ∨ ∃ task ∈ raced, state.outcome task = some .fulfilled

end

variable (concurrency : Number)

/-- One step of the function or of what surrounds it. `take` leaves the item to `wait`, `start` and `throws`, the
`while` and what follows it in the loop; `fails` is a race that was lost, `leaves` the catch of what was thrown. -/
inductive Step (state : State T ε) : State T ε → Prop where
  | take (item : T) (pulling : state.phase = .pulling) :
      Step state { state with taken := state.taken ++ [item], phase := .waiting item [] }
  | wait (holding : state.phase = .waiting item raced) (woken : state.Woken raced)
      (full : ∃ bound ∈ limit concurrency, bound ≤ state.active.length) :
      Step state { state with phase := .waiting item state.active }
  | start (holding : state.phase = .waiting item raced) (woken : state.Woken raced)
      (free : ∀ bound ∈ limit concurrency, state.active.length < bound) (none : state.failure = .undefined) :
      Step state (state.start item)
  | throws (holding : state.phase = .waiting item raced) (woken : state.Woken raced)
      (free : ∀ bound ∈ limit concurrency, state.active.length < bound) (some : state.failure ≠ .undefined) :
      Step state { state with phase := .closing state.failure }
  | ends (pulling : state.phase = .pulling) :
      Step state { state with source := some .fulfilled, phase := .settling state.active }
  | breaks (cause : Cause ε) (pulling : state.phase = .pulling) :
      Step state { state with
        source := some (.rejected cause), failure := cause, phase := .settling state.active }
  | settles (outcome : Outcome ε) (began : task < state.started.length) (unsettled : state.outcome task = none) :
      Step state (state.settle task outcome)
  | handles (among : task ∈ state.active) (is : state.outcome task = some outcome) :
      Step state (state.handle task outcome)
  | fails (holding : state.phase = .waiting item raced) (among : task ∈ raced)
      (is : state.outcome task = some (.rejected cause)) : Step state { state with phase := .closing cause }
  | leaves (closing : state.phase = .closing cause) :
      Step state { state with failure := cause, phase := .settling state.active }
  | resolves (settling : state.phase = .settling awaited) (all : ∀ task ∈ awaited, (state.outcome task).isSome)
      (none : state.verdict awaited = .undefined) :
      Step state { state with failure := .undefined, phase := .resolved }
  | rejects (settling : state.phase = .settling awaited) (all : ∀ task ∈ awaited, (state.outcome task).isSome)
      (some : state.verdict awaited ≠ .undefined) :
      Step state { state with failure := state.verdict awaited, phase := .rejected (state.verdict awaited) }

section
variable (state : State T ε)

/-- The tasks that have started and not settled. -/
def State.running : List Nat := (range state.started.length).filter fun task => (state.outcome task).isNone

def State.Rejects (cause : Cause ε) : Prop :=
  state.source = some (.rejected cause) ∨ ∃ task, state.outcome task = some (.rejected cause)

/-- Not one of the two reasons that `??=` takes for none. -/
def Cause.given : Cause ε → Bool
  | .error _ => true
  | _ => false

def State.Reasoned : Prop := ∀ cause, state.Rejects cause → cause.given
def State.Dropped : Prop := ∃ item, state.taken = state.started ++ [item]

/-- A task for each item, but for one that was dropped over a failure. -/
def State.OneEach : Prop := state.taken = state.started ∨ state.Dropped ∧ ∃ cause, state.Rejects cause

/-- The function has returned, or thrown. -/
def State.Done : Prop := state.phase = .resolved ∨ ∃ cause, state.phase = .rejected cause
def State.Settled : Prop := ∀ task < state.started.length, (state.outcome task).isSome

/-- The source and all tasks have succeeded. -/
def State.Succeeded : Prop :=
  state.source = some .fulfilled ∧ ∀ task < state.started.length, state.outcome task = some .fulfilled

/-- What the phase tells. -/
def State.Tells : Prop :=
  match state.phase with
  | .pulling => state.taken = state.started ∧ state.source = none
  | .waiting item _ => state.taken = state.started ++ [item] ∧ state.source = none
  | .closing cause => state.Dropped ∧ state.Rejects cause
  | .settling awaited => state.active ⊆ awaited ∧ state.OneEach
  | .resolved => state.Settled ∧ state.OneEach
  | .rejected cause => state.Settled ∧ state.OneEach ∧ state.Rejects cause

/-- `active` holds the tasks whose handler has not run. -/
structure Sound : Prop where
  below : ∀ task ∈ state.active, task < state.started.length
  distinct : state.active.Nodup
  began : ∀ task, (state.outcome task).isSome → task < state.started.length
  settled : ∀ task < state.started.length, task ∉ state.active → (state.outcome task).isSome
  places : ∀ bound ∈ limit concurrency, state.active.length ≤ bound
  known : state.failure = .undefined ∨ state.Rejects state.failure
  tells : state.Tells

/-- A failure is recorded once its handler has run, and what left the loop is. -/
structure Told : Prop where
  recorded : ∀ task cause, state.outcome task = some (.rejected cause) → task ∈ state.active ∨ state.failure.given
  ended : match state.phase with
    | .settling _ => state.source = some .fulfilled ∨ state.failure.given
    | .resolved => state.Succeeded
    | _ => True

end

variable {concurrency} {state after : State T ε}

theorem settle_other (different : other ≠ task) : (state.settle task out).outcome other = state.outcome other :=
  Function.update_of_ne different ..

theorem still (unsettled : state.outcome task = none) (settled : (state.outcome other).isSome) :
    (state.settle task out).outcome other = state.outcome other := by
  refine settle_other fun same => ?_
  rw [same, unsettled] at settled
  cases settled

theorem Step.keeps_rejects (step : Step concurrency state after) (told : state.Rejects cause)
    (begun : state.phase = .pulling → state.source = none) : after.Rejects cause := by
  cases step with
  | settles out began unsettled => exact told.imp_right fun ⟨task, is⟩ => ⟨task, (still unsettled (is ▸ rfl)).trans is⟩
  | ends pulling | breaks cause pulling =>
    refine told.imp_left fun is => ?_
    rw [begun pulling] at is
    cases is
  | _ => exact told

open State (Tells handle verdict)

theorem Sound.start (sound : Sound concurrency state) (holding : state.phase = .waiting item raced)
    (free : ∀ bound ∈ limit concurrency, state.active.length < bound) (none : state.failure = .undefined) :
    Sound concurrency (state.start item) := by
  have tells := sound.tells
  rw [Tells, holding] at tells
  have longer : (state.start item).started.length = state.started.length + 1 := length_append
  refine ⟨fun task among => ?_, ?_, fun task settled => ?_, fun task within out => ?_, fun bound is => ?_,
    .inl none, tells⟩
  · rw [longer]
    rcases mem_append.mp among with among | among
    · have := sound.below task among
      omega
    · rw [mem_singleton.mp among]
      omega
  · refine nodup_append.mpr ⟨sound.distinct, pairwise_singleton .., fun task among other is same => ?_⟩
    have := sound.below task among
    rw [same, mem_singleton.mp is] at this
    omega
  · have := sound.began task settled
    omega
  · obtain ⟨old, other⟩ : task ∉ state.active ∧ task ≠ state.started.length := by
      simpa [State.start] using out
    exact sound.settled task (by omega) old
  · have : (state.start item).active.length = state.active.length + 1 := length_append
    have := free bound is
    omega

theorem Sound.handle (sound : Sound concurrency state) (is : state.outcome task = some outcome) :
    Sound concurrency (state.handle task outcome) := by
  refine ⟨fun other among => sound.below other (mem_of_mem_erase among), sound.distinct.erase task, sound.began,
    fun other within out => ?_, fun bound is => Nat.le_trans length_erase_le (sound.places bound is), ?_, ?_⟩
  · by_cases same : other = task
    · rw [same]
      exact is ▸ rfl
    · exact sound.settled other within fun among => out ((mem_erase_of_ne same).mpr among)
  · cases outcome with
    | fulfilled => exact sound.known
    | rejected cause =>
      dsimp only [State.handle, Outcome.cause, Option.elim]
      cases held : state.failure with
      | error => exact .inr ((held ▸ sound.known).resolve_left nofun)
      | undefined | null => exact .inr (.inr ⟨task, is⟩)
  · have tells := sound.tells
    unfold State.Tells at *
    rw [show (state.handle task outcome).phase = state.phase from rfl]
    cases phase : state.phase <;> simp only [phase] at tells ⊢
    case settling awaited => exact ⟨Subset.trans erase_subset tells.1, tells.2⟩
    all_goals exact tells

theorem Sound.settle (sound : Sound concurrency state) (began : task < state.started.length)
    (unsettled : state.outcome task = none) : Sound concurrency (state.settle task outcome) := by
  have rejects : ∀ cause, state.Rejects cause → (state.settle task outcome).Rejects cause :=
    fun _ => .imp_right fun ⟨other, is⟩ => ⟨other, (still unsettled (is ▸ rfl)).trans is⟩
  have each : state.OneEach → (state.settle task outcome).OneEach :=
    .imp_right fun ⟨dropped, cause, is⟩ => ⟨dropped, cause, rejects cause is⟩
  have settled : ∀ other, (state.outcome other).isSome → ((state.settle task outcome).outcome other).isSome :=
    fun other settled => (still unsettled settled).symm ▸ settled
  refine { sound with
    began := fun other settled => ?_
    settled := fun other within out => settled other (sound.settled other within out)
    known := sound.known.imp_right (rejects _)
    tells := ?_ }
  · by_cases same : other = task
    · exact same ▸ began
    · exact sound.began other (by rwa [settle_other same] at settled)
  have tells := sound.tells
  unfold Tells at *
  rw [show (state.settle task outcome).phase = state.phase from rfl]
  cases phase : state.phase <;> simp only [phase] at tells ⊢
  case closing => exact ⟨tells.1, rejects _ tells.2⟩
  case settling => exact ⟨tells.1, each tells.2⟩
  case resolved => exact ⟨fun other within => settled other (tells.1 other within), each tells.2⟩
  case rejected =>
    exact ⟨fun other within => settled other (tells.1 other within), each tells.2.1, rejects _ tells.2.2⟩
  all_goals exact tells

theorem Sound.all_settled (sound : Sound concurrency state) (settling : state.phase = .settling awaited)
    (all : ∀ task ∈ awaited, (state.outcome task).isSome) : state.Settled := fun task within => by
  have tells := sound.tells
  rw [Tells, settling] at tells
  by_cases among : task ∈ state.active
  · exact all task (tells.1 among)
  · exact sound.settled task within among

theorem State.rejects_reason {awaited : List Nat}
    (among : cause ∈ awaited.filterMap fun task => (state.outcome task).bind Outcome.cause) :
    state.Rejects cause := by
  obtain ⟨task, -, is⟩ := mem_filterMap.mp among
  obtain ⟨out, settled, rejected⟩ := Option.bind_eq_some_iff.mp is
  cases out with
  | fulfilled => cases rejected
  | rejected cause =>
    cases rejected
    exact .inr ⟨task, settled⟩

theorem Sound.verdict (sound : Sound concurrency state) (some : state.verdict awaited ≠ .undefined) :
    state.Rejects (state.verdict awaited) := by
  have known := sound.known
  unfold State.verdict at *
  cases held : state.failure with
  | error => exact (held ▸ known).resolve_left nofun
  | undefined | null =>
    rw [held] at some
    dsimp only [Cause.orElse] at some ⊢
    cases reasons : awaited.filterMap fun task => (state.outcome task).bind Outcome.cause with
    | nil => simp [reasons] at some
    | cons first rest => exact state.rejects_reason (reasons ▸ mem_cons_self)

theorem Sound.step (sound : Sound concurrency state) (step : Step concurrency state after) :
    Sound concurrency after := by
  have tells := sound.tells
  unfold Tells at tells
  cases step with
  | take item pulling =>
    rw [pulling] at tells
    exact { sound with tells := ⟨congrArg (· ++ [item]) tells.1, tells.2⟩ }
  | wait holding =>
    rw [holding] at tells
    exact { sound with tells }
  | start holding _ free none => exact sound.start holding free none
  | throws holding _ _ some =>
    rw [holding] at tells
    exact { sound with tells := ⟨⟨_, tells.1⟩, sound.known.resolve_left some⟩ }
  | ends pulling =>
    rw [pulling] at tells
    exact { sound with
      known := sound.known.imp_right fun known =>
        (.ends pulling : Step concurrency state _).keeps_rejects known fun _ => tells.2
      tells := ⟨Subset.refl _, .inl tells.1⟩ }
  | breaks cause pulling =>
    rw [pulling] at tells
    exact { sound with known := .inr (.inl rfl), tells := ⟨Subset.refl _, .inl tells.1⟩ }
  | settles out began unsettled => exact sound.settle began unsettled
  | handles among is => exact sound.handle is
  | fails holding among is =>
    rw [holding] at tells
    exact { sound with tells := ⟨⟨_, tells.1⟩, .inr ⟨_, is⟩⟩ }
  | leaves closing =>
    rw [closing] at tells
    exact { sound with known := .inr tells.2, tells := ⟨Subset.refl _, .inr ⟨tells.1, _, tells.2⟩⟩ }
  | resolves settling all =>
    rw [settling] at tells
    exact { sound with known := .inl rfl, tells := ⟨sound.all_settled settling all, tells.2⟩ }
  | rejects settling all some =>
    rw [settling] at tells
    have rejects := sound.verdict some
    exact { sound with known := .inr rejects, tells := ⟨sound.all_settled settling all, tells.2, rejects⟩ }

theorem Told.handle (told : Told state) (is : state.outcome task = some out) (reasoned : state.Reasoned) :
    Told (state.handle task out) := by
  have err : state.failure.given ∨ out ≠ .fulfilled → (state.handle task out).failure.given := by
    intro given
    cases held : state.failure <;> cases out <;> simp_all [State.handle, Outcome.cause, Cause.orElse, Cause.given]
    all_goals exact reasoned _ (.inr ⟨task, is⟩)
  refine ⟨fun other cause rejected => ?_, ?_⟩
  · by_cases same : other = task
    · refine .inr (err (.inr ?_))
      rintro rfl
      cases (same ▸ is).symm.trans rejected
    · exact (told.recorded other cause rejected).imp (mem_erase_of_ne same).mpr fun given => err (.inl given)
  · have ended := told.ended
    rw [show (state.handle task out).phase = state.phase from rfl]
    cases phase : state.phase <;> simp only [phase] at ended ⊢
    case settling => exact ended.imp_right fun given => err (.inl given)
    case resolved => exact ended

theorem Told.settle (told : Told state) (sound : Sound concurrency state) (began : task < state.started.length)
    (unsettled : state.outcome task = none) : Told (state.settle task out) := by
  refine ⟨fun other cause is => ?_, ?_⟩
  · by_cases same : other = task
    · by_cases among : task ∈ state.active
      · exact .inl (same ▸ among)
      · have settled := sound.settled task began among
        rw [unsettled] at settled
        cases settled
    · exact told.recorded other cause (by rwa [settle_other same] at is)
  · have ended := told.ended
    rw [show (state.settle task out).phase = state.phase from rfl]
    cases phase : state.phase <;> simp only [phase] at ended ⊢
    case settling => exact ended
    case resolved =>
      exact ⟨ended.1, fun other within =>
        (still unsettled (ended.2 other within ▸ rfl)).trans (ended.2 other within)⟩

theorem Told.succeeded (told : Told state) (sound : Sound concurrency state) (reasoned : state.Reasoned)
    (settling : state.phase = .settling awaited) (all : ∀ task ∈ awaited, (state.outcome task).isSome)
    (none : state.verdict awaited = .undefined) : state.Succeeded := by
  have tells := sound.tells
  have ended := told.ended
  rw [Tells, settling] at tells
  rw [settling] at ended
  have unrecorded : ¬state.failure.given := fun given => by
    rw [verdict] at none
    cases held : state.failure <;> simp_all [Cause.orElse, Cause.given]
  refine ⟨ended.resolve_right unrecorded, fun task within => ?_⟩
  obtain ⟨out, is⟩ := Option.isSome_iff_exists.mp (sound.all_settled settling all task within)
  cases out with
  | fulfilled => exact is
  | rejected cause =>
    have active := (told.recorded task cause is).resolve_right unrecorded
    have among : cause ∈ awaited.filterMap fun task => (state.outcome task).bind Outcome.cause :=
      mem_filterMap.mpr ⟨task, tells.1 active, by rw [is]; rfl⟩
    obtain ⟨first, rest, reasons⟩ := exists_cons_of_ne_nil (ne_nil_of_mem among)
    have given := reasoned first (state.rejects_reason (reasons ▸ mem_cons_self))
    rw [verdict, reasons] at none
    cases held : state.failure <;> simp_all [Cause.orElse, Cause.given]

theorem Told.step (told : Told state) (sound : Sound concurrency state) (step : Step concurrency state after)
    (reasoned : state.Reasoned) (next : after.Reasoned) : Told after := by
  have tells := sound.tells
  unfold Tells at tells
  cases step with
  | start => exact ⟨fun task cause is => (told.recorded task cause is).imp_left (mem_append_left _), trivial⟩
  | ends => exact ⟨told.recorded, .inl rfl⟩
  | breaks cause =>
    have given := next cause (.inl rfl)
    exact ⟨fun _ _ _ => .inr given, .inr given⟩
  | settles out began unsettled => exact told.settle sound began unsettled
  | handles among is => exact told.handle is reasoned
  | leaves closing =>
    rw [closing] at tells
    have given := reasoned _ tells.2
    exact ⟨fun _ _ _ => .inr given, .inr given⟩
  | resolves settling all none =>
    have succeeded := told.succeeded sound reasoned settling all none
    refine ⟨fun task cause is => ?_, succeeded⟩
    cases (succeeded.2 task (sound.began task (is ▸ rfl))).symm.trans is
  | rejects settling all some => exact ⟨fun _ _ _ => .inr (reasoned _ (sound.verdict some)), trivial⟩
  | _ => exact ⟨told.recorded, trivial⟩

theorem reached_sound (reached : ReflTransGen (Step concurrency) {} state) :
    Sound concurrency state ∧ (state.Reasoned → Told state) := by
  induction reached with
  | refl =>
    exact ⟨⟨nofun, nodup_nil, nofun, nofun, fun _ _ => Nat.zero_le _, .inl rfl, rfl, rfl⟩, fun _ => ⟨nofun, trivial⟩⟩
  | tail _ step ih =>
    refine ⟨ih.1.step step, fun reasoned => ?_⟩
    have earlier := fun cause told => reasoned cause (step.keeps_rejects told fun pulling => by
      have tells := ih.1.tells
      rw [Tells, pulling] at tells
      exact tells.2)
    exact (ih.2 earlier).step ih.1 step earlier reasoned

/-! ### Behind a failure -/

/-- A failure is recorded, or the loop is left. -/
def State.Noticed (state : State T ε) : Prop :=
  match state.phase with
  | .pulling | .waiting _ _ => state.failure.given
  | _ => True

/-- No task has started since, and no item was taken but the one that was asked for. -/
def State.Stops (state later : State T ε) : Prop :=
  later.Noticed ∧ later.started = state.started ∧ (later.phase = .pulling → state.phase = .pulling) ∧
    (later.taken = state.taken ∨ state.phase = .pulling ∧ later.phase ≠ .pulling ∧
      ∃ item, later.taken = state.taken ++ [item])

theorem State.given_handle (given : state.failure.given) : (state.handle task reply).failure.given := by
  unfold handle
  cases held : state.failure with
  | error => cases reply <;> rfl
  | undefined | null =>
    rw [held] at given
    cases given

theorem Step.stops (step : Step concurrency state after) (noticed : state.Noticed) : state.Stops after := by
  have noticed' := noticed
  unfold State.Noticed at noticed'
  cases step with
  | take item pulling =>
    rw [pulling] at noticed'
    exact ⟨noticed', rfl, nofun, .inr ⟨pulling, nofun, item, rfl⟩⟩
  | wait holding =>
    rw [holding] at noticed'
    exact ⟨noticed', rfl, nofun, .inl rfl⟩
  | start holding _ _ none =>
    rw [holding, none] at noticed'
    cases noticed'
  | handles =>
    refine ⟨?_, rfl, id, .inl rfl⟩
    unfold State.Noticed
    rw [show (state.handle _ _).phase = state.phase from rfl]
    cases phase : state.phase <;> simp only [phase] at noticed' ⊢
    all_goals exact state.given_handle noticed'
  | settles => exact ⟨noticed, rfl, id, .inl rfl⟩
  | _ => exact ⟨trivial, rfl, nofun, .inl rfl⟩

theorem State.Stops.trans {later : State T ε} (first : state.Stops after) (second : after.Stops later) :
    state.Stops later := by
  obtain ⟨-, started, pulls, taken⟩ := first
  obtain ⟨noticed, unstarted, pulled, took⟩ := second
  refine ⟨noticed, unstarted.trans started, pulls ∘ pulled, ?_⟩
  rcases taken with same | ⟨pulling, stopped, item, one⟩
  · exact same ▸ took.imp_right fun ⟨still, stopped, one⟩ => ⟨pulls still, stopped, one⟩
  rcases took with same | ⟨still, -⟩
  · exact .inr ⟨pulling, stopped ∘ pulled, item, same.trans one⟩
  · exact (stopped still).elim

theorem stops_reached {later : State T ε} (noticed : state.Noticed) (reached : ReflTransGen (Step concurrency) state later) :
    state.Stops later := by
  induction reached with
  | refl => exact ⟨noticed, rfl, id, .inl rfl⟩
  | tail _ step ih => exact ih.trans (step.stops ih.1)

variable (concurrency) in
/-- What is promised of a state that a run has reached. -/
structure Bounded (state : State T ε) : Prop where
  atMost : ∀ bound ∈ limit concurrency, state.running.length ≤ bound
  oneEach : state.taken = state.started ∨ ∃ item, state.taken = state.started ++ [item] ∧
    ((∃ raced, state.phase = .waiting item raced) ∨ ∃ cause, state.Rejects cause)
  returns : state.Done → state.running = []
  resolves : state.Done → state.Reasoned → (state.phase = .resolved ↔ state.Succeeded)
  stops : state.Noticed → ∀ later, ReflTransGen (Step concurrency) state later → state.Stops later

end Applik8s.Concurrency
