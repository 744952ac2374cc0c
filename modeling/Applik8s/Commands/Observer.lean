import Applik8s.Lib.Run
import Applik8s.Platform

/-! `ApplicationCommandClient` of `packages/client/src/command-store.ts`, observing one command. It polls on behind the
durable result while the reconciliation progresses; a request that fails then takes the result back, and one that
`dispose` aborts schedules the next. -/
namespace Applik8s.CommandClient
open Lib

inductive Transport where
  | idle | submitting | acknowledged | failed
  deriving DecidableEq

inductive DurableResult where
  | unknown | pending | succeeded | rejected | failed
  deriving DecidableEq

inductive Reconciliation where
  | notObserved | progressing | ready | failed
  deriving DecidableEq

inductive Phase where
  | submitting | pending | succeeded | rejected | failed | unknown | error
  deriving DecidableEq

/-- `ApplicationCommandProgress`, less what the client only hands on. -/
structure Progress (Json : Type) where
  command : String
  commandId : String
  transport : Transport
  durableResult : DurableResult
  progressCursor : Option String := none
  output : Option Json := none
  rejection : Option (String × Json) := none
  failure : Option (String × Option Nat) := none
  reconciliation : Option Reconciliation := none

/-- `ApplicationCommandState`. -/
structure State (Json : Type) extends Progress Json where
  phase : Phase
  error : Option String := none
  revision : Nat

/-- The timer of an entry; `dispose` clears it, but leaves the field set. -/
inductive Timer where
  | unset | running | cleared
  deriving DecidableEq

/-- `CommandEntry`. Of its controller we keep whether it was aborted. -/
structure Entry (Json : Type) where
  command : String
  commandId : String
  state : State Json
  timer : Timer := .unset
  controller : Option Bool := none

variable {Json : Type}

def pendingState (command commandId : String) : State Json :=
  { command, commandId, transport := .submitting, durableResult := .unknown, reconciliation := some .notObserved
    phase := .submitting, revision := 0 }

def requiresProgressPolling (state : State Json) : Bool :=
  state.durableResult = .pending || state.durableResult = .unknown || state.reconciliation = some .progressing

def DurableResult.phase : DurableResult → Phase
  | .succeeded => .succeeded
  | .rejected => .rejected
  | .failed => .failed
  | .pending => .pending
  | .unknown => .unknown

namespace Entry
variable (entry : Entry Json)

def apply (progress : Progress Json) : Except String (Entry Json) :=
  if progress.command ≠ entry.command ∨ progress.commandId ≠ entry.commandId then
    .error "Application command progress identity does not match the tracked command."
  else
    .ok { entry with state :=
      { progress with phase := progress.durableResult.phase, revision := entry.state.revision + 1 } }

def schedule : Entry Json := if entry.timer = .unset then { entry with timer := .running } else entry

/-- The end of `submit` and of `#refresh`. -/
def scheduleIfRequired : Entry Json := if requiresProgressPolling entry.state then entry.schedule else entry

/-- What both of them catch. -/
def failed (transport : Transport) (error : String) : Entry Json :=
  { entry with state := { entry.state with
      phase := .unknown, transport, durableResult := .unknown, error := some error
      revision := entry.state.revision + 1 } }

def submitted (answer : Except String (Progress Json)) : Entry Json :=
  match answer.bind entry.apply with
  | .ok entry => entry.scheduleIfRequired
  | .error error =>
    entry.failed .failed error

/-- `#refresh`, up to the request. -/
def requests : Bool := truthy entry.state.progressCursor && entry.controller.isNone

/-- `#refresh`, from the answer to its request until the listeners were told. -/
def answered (answer : Except String (Progress Json)) : Entry Json :=
  match answer.bind entry.apply with
  | .ok entry => entry
  | .error error =>
    if entry.controller = some true then entry else entry.failed entry.state.transport error

/-- The rest of `#refresh`. -/
def resumed : Entry Json := { entry with controller := none }.scheduleIfRequired

def dispose : Entry Json :=
  { entry with
    controller := entry.controller.map fun _ => true
    timer := if entry.timer = .running then .cleared else entry.timer }

end Entry

/-- A final durable result with all that belongs to it. -/
structure Verdict (Json : Type) where
  durableResult : DurableResult
  output : Option Json
  rejection : Option (String × Json)
  failure : Option (String × Option Nat)
  deriving DecidableEq

def Progress.verdict (progress : Progress Json) : Option (Verdict Json) :=
  if progress.durableResult = .unknown ∨ progress.durableResult = .pending then none
  else some ⟨progress.durableResult, progress.output, progress.rejection, progress.failure⟩

/-- One command and what became of it: how many requests were made and how many wait for an answer, and what final
result the server has answered. -/
structure Watch (Json : Type) where
  entry : Entry Json
  /-- `submit` has returned the handle. -/
  handed : Bool := false
  waiting : Nat := 0
  /-- An answer is taken, and its listeners are being told. -/
  resuming : Bool := false
  started : Nat := 0
  disposed : Bool := false
  verdict : Option (Verdict Json) := none

def Watch.start (command commandId : String) : Watch Json :=
  { entry := { command, commandId, state := pendingState command commandId } }

inductive Step (Json : Type) where
  | submitted (answer : Except String (Progress Json))
  | refresh
  | timer
  | answered (answer : Except String (Progress Json))
  | resumed
  | dispose

/-- What the server answers in a step. -/
def Step.progress : Step Json → Option (Progress Json)
  | .submitted (.ok progress) | .answered (.ok progress) => some progress
  | _ => none

/-- The final result in an answer of the server. -/
def verdictOf : Except String (Progress Json) → Option (Verdict Json)
  | .ok progress => progress.verdict
  | .error _ => none

namespace Watch
variable (watch : Watch Json)

def refresh : Watch Json :=
  if watch.entry.requests then
    { watch with
      entry := { watch.entry with controller := some false }
      waiting := watch.waiting + 1
      started := watch.started + 1 }
  else watch

/-- What is not possible in a state leaves it. Only listeners act before `resumed`. -/
def next : Step Json → Watch Json
  | .submitted answer =>
    if watch.handed then watch
    else
      { watch with
        entry := watch.entry.submitted answer
        handed := true
        verdict := watch.verdict.or (verdictOf answer) }
  | .refresh => if watch.handed then watch.refresh else watch
  | .timer =>
    if watch.entry.timer = .running ∧ watch.resuming = false then
      { watch with entry := { watch.entry with timer := .unset } }.refresh
    else watch
  | .answered answer =>
    if watch.waiting = 0 ∨ watch.resuming then watch
    else
      { watch with
        entry := watch.entry.answered answer
        waiting := watch.waiting - 1
        resuming := true
        verdict := watch.verdict.or (verdictOf answer) }
  | .resumed =>
    if watch.resuming then { watch with entry := watch.entry.resumed, resuming := false }
    else watch
  | .dispose =>
    if watch.handed then { watch with entry := watch.entry.dispose, disposed := true }
    else watch

/-- The server has no other final result than the one it has answered. -/
def Settled (step : Step Json) : Prop :=
  ∀ progress ∈ step.progress, ∀ verdict ∈ watch.verdict, progress.verdict = some verdict

/-- No failure is taken in while a final result is shown, and once disposed the client neither schedules nor is asked
for another request. -/
def Spared : Step Json → Prop
  | .answered answer => watch.entry.controller = some false → watch.entry.state.verdict ≠ none →
    (answer.bind watch.entry.apply).isOk = true
  | .resumed => watch.entry.controller = some true →
    watch.entry.timer ≠ .unset ∨ requiresProgressPolling watch.entry.state = false
  | .refresh => watch.disposed = true → watch.entry.requests = false
  | _ => True

/-- What holds of two states of a run, one before the other. -/
structure Stays (before after : Watch Json) : Prop where
  shown : ∀ verdict ∈ before.entry.state.verdict, after.entry.state.verdict = some verdict
  single : after.waiting ≤ 1
  stopped : before.disposed = true → after.started = before.started

/-- The invariant of the runs. -/
structure Sound : Prop where
  inFlight : watch.waiting + watch.resuming.toNat = watch.entry.controller.isSome.toNat
  known : ∀ verdict ∈ watch.entry.state.verdict, watch.verdict = some verdict
  fresh : watch.handed = false → watch.entry.state.verdict = none ∧ watch.disposed = false ∧
    watch.entry.timer = .unset ∧ watch.entry.controller = none
  quiet : watch.disposed = true → watch.entry.timer ≠ .running ∧ watch.entry.controller ≠ some false

end Watch

namespace Entry
variable {entry : Entry Json} (answer : Except String (Progress Json))

theorem applied (done : answer.bind entry.apply = .ok after) :
    (∃ progress, answer = .ok progress) ∧ after.state.verdict = verdictOf answer ∧ after.timer = entry.timer ∧
      after.controller = entry.controller := by
  cases answer with
  | error => cases done
  | ok progress =>
    simp only [Except.bind, apply] at done
    split at done <;> cases done
    exact ⟨⟨progress, rfl⟩, rfl, rfl, rfl⟩

@[simp] theorem scheduleIfRequired_state : entry.scheduleIfRequired.state = entry.state := by
  unfold scheduleIfRequired schedule
  split
  · split <;> rfl
  · rfl

@[simp] theorem scheduleIfRequired_controller : entry.scheduleIfRequired.controller = entry.controller := by
  unfold scheduleIfRequired schedule
  split
  · split <;> rfl
  · rfl

/-- What a failure leaves shows no final result. -/
theorem verdict_unknown {state : State Json} (unknown : state.durableResult = .unknown) : state.verdict = none :=
  if_pos (.inl unknown)

theorem submitted_controller : (entry.submitted answer).controller = entry.controller := by
  unfold submitted
  split
  · next done => exact scheduleIfRequired_controller.trans (applied answer done).2.2.2
  · rfl

theorem submitted_verdict (entry : Entry Json) :
    (entry.submitted answer).state.verdict = none ∨ (entry.submitted answer).state.verdict = verdictOf answer := by
  unfold submitted
  split
  · next done =>
    rw [scheduleIfRequired_state]
    exact .inr (applied answer done).2.1
  · exact .inl (verdict_unknown rfl)

theorem answered_kept (entry : Entry Json) :
    (entry.answered answer).timer = entry.timer ∧ (entry.answered answer).controller = entry.controller := by
  unfold answered
  split
  · next done => exact (applied answer done).2.2
  · split <;> exact ⟨rfl, rfl⟩

/-- An answer is shown, or fails: then the result is unknown, unless the request was aborted. -/
theorem answered_verdict (entry : Entry Json) :
    (entry.answered answer).state.verdict = verdictOf answer ∧ (∃ progress, answer = .ok progress) ∨
    entry.controller = some true ∧ (entry.answered answer).state = entry.state ∨
    entry.controller ≠ some true ∧ (entry.answered answer).state.verdict = none ∧
      (answer.bind entry.apply).isOk = false := by
  unfold answered
  split
  · next done => exact .inl ⟨(applied answer done).2.1, (applied answer done).1⟩
  next failed =>
  refine .inr ?_
  split
  · next aborted => exact .inl ⟨aborted, rfl⟩
  · next live => exact .inr ⟨live, verdict_unknown rfl, by rw [failed]; rfl⟩

theorem resumed_timer (still : entry.timer ≠ .unset ∨ requiresProgressPolling entry.state = false) :
    entry.resumed.timer = entry.timer := by
  unfold resumed scheduleIfRequired schedule
  split
  · next required =>
    rcases still with set | done
    · exact if_neg set ▸ rfl
    · exact absurd (done.symm.trans required) nofun
  · rfl

end Entry

namespace Watch
variable {watch : Watch Json} {step : Step Json}

instance (watch : Watch Json) [DecidableEq Json] (step : Step Json) : Decidable (Settled watch step) :=
  inferInstanceAs (Decidable (∀ progress ∈ step.progress, _))

instance (watch : Watch Json) [DecidableEq Json] : (step : Step Json) → Decidable (Spared watch step)
  | .answered _ => inferInstanceAs (Decidable (_ → _ → _))
  | .resumed | .refresh => inferInstanceAs (Decidable (_ → _))
  | .submitted _ | .timer | .dispose => inferInstanceAs (Decidable True)

/-- What an answer shows is what the server is known to have answered. -/
theorem known_of_answer (settled : Settled watch step)
    (is : ∀ progress, answer = .ok progress → step.progress = some progress) :
    ∀ verdict ∈ verdictOf answer, watch.verdict.or (verdictOf answer) = some verdict := by
  intro verdict shows
  cases answer with
  | error => cases shows
  | ok progress =>
    cases before : watch.verdict with
    | none => exact shows
    | some first => exact (settled progress (is progress rfl) first before).symm.trans shows

theorem Sound.single (sound : Sound watch) : watch.waiting ≤ 1 := by
  have inFlight := sound.inFlight
  have := Bool.toNat_le watch.entry.controller.isSome
  omega

theorem Sound.handed (sound : Sound watch) (busy : watch.entry.controller = some aborted) :
    watch.handed = true := by simpa [busy] using mt sound.fresh

theorem Sound.busy (sound : Sound watch) (waits : watch.waiting ≠ 0) :
    ∃ aborted, watch.entry.controller = some aborted := by
  have inFlight := sound.inFlight
  cases is : watch.entry.controller <;> simp_all

/-- A step keeps the invariant and the result, and starts no request once disposed. -/
structure Keeps (before after : Watch Json) : Prop where
  sound : Sound after
  shown : ∀ verdict ∈ before.entry.state.verdict, after.entry.state.verdict = some verdict
  stopped : before.disposed = true → after.disposed = true ∧ after.started = before.started

theorem keeps_refl (sound : Sound watch) : Keeps watch watch :=
  ⟨sound, fun _ => id, fun disposed => ⟨disposed, rfl⟩⟩

theorem Keeps.trans {first second third : Watch Json} (early : Keeps first second) (late : Keeps second third) :
    Keeps first third where
  sound := late.sound
  shown verdict shows := late.shown verdict (early.shown verdict shows)
  stopped disposed :=
    have ⟨still, same⟩ := early.stopped disposed
    ⟨(late.stopped still).1, (late.stopped still).2.trans same⟩

theorem keeps_refresh (sound : Sound watch) (handed : watch.handed = true)
    (spared : watch.disposed = true → watch.entry.requests = false) : Keeps watch watch.refresh := by
  unfold refresh
  split
  · next reqs =>
    have live : watch.disposed = false := by simpa [reqs] using spared
    have idle : watch.entry.controller = none := by simpa using (Bool.and_eq_true_iff.mp reqs).2
    have inFlight := sound.inFlight
    refine ⟨⟨?_, sound.known, by simp [handed], by simp [live]⟩, fun _ => id, by simp [live]⟩
    simp only [idle, Option.isSome_none, Bool.toNat_false, Option.isSome_some, Bool.toNat_true] at inFlight ⊢
    omega
  · exact keeps_refl sound

theorem keeps_submitted (sound : Sound watch) (settled : Settled watch (.submitted answer)) :
    Keeps watch (watch.next (.submitted answer)) := by
  dsimp only [next]
  split
  · exact keeps_refl sound
  next fresh =>
  obtain ⟨hidden, live, -, -⟩ := sound.fresh (by simpa using fresh)
  refine ⟨⟨by simpa [Entry.submitted_controller] using sound.inFlight, ?_, nofun, by simp [live]⟩, by simp [hidden],
    by simp [live]⟩
  rcases watch.entry.submitted_verdict answer with none | same
  · simp [none]
  · rw [same]
    exact known_of_answer settled fun _ is => is ▸ rfl

theorem keeps_answered (sound : Sound watch) (settled : Settled watch (.answered answer))
    (spared : Spared watch (.answered answer)) : Keeps watch (watch.next (.answered answer)) := by
  dsimp only [next]
  split
  · exact keeps_refl sound
  next answers =>
  obtain ⟨timer, ctl⟩ := watch.entry.answered_kept answer
  have inFlight := sound.inFlight
  simp only [not_or, Bool.not_eq_true] at answers
  obtain ⟨aborted, busy⟩ := sound.busy answers.1
  suffices shown : (∀ verdict ∈ (watch.entry.answered answer).state.verdict,
      watch.verdict.or (verdictOf answer) = some verdict) ∧
      ∀ verdict ∈ watch.entry.state.verdict, (watch.entry.answered answer).state.verdict = some verdict by
    refine ⟨⟨?_, shown.1, by simp [sound.handed busy], ?_⟩, shown.2, fun disposed => ⟨disposed, rfl⟩⟩
    · simp only [answers.2, Bool.toNat_false, Bool.toNat_true, ctl] at inFlight ⊢
      omega
    · rw [timer, ctl]
      exact sound.quiet
  rcases watch.entry.answered_verdict answer with
    ⟨same, progress, rfl⟩ | ⟨aborted, same⟩ | ⟨live, none, failed⟩
  · rw [same]
    exact ⟨known_of_answer settled fun _ is => is ▸ rfl,
      fun verdict shows => settled progress rfl verdict (sound.known verdict shows)⟩
  · rw [same]
    exact ⟨fun verdict shows => by rw [sound.known verdict shows]; rfl, fun _ => id⟩
  · have hidden : watch.entry.state.verdict = Option.none := by
      cases aborted <;> simp_all [Spared]
    simp [none, hidden]

theorem keeps_resumed (sound : Sound watch) (spared : Spared watch .resumed) : Keeps watch (watch.next .resumed) := by
  dsimp only [next]
  split
  · next resuming =>
    have inFlight := sound.inFlight
    obtain ⟨aborted, busy⟩ : ∃ aborted, watch.entry.controller = some aborted := by
      cases is : watch.entry.controller <;> simp_all
    refine ⟨⟨?_, by simpa [Entry.resumed] using sound.known, by simp [sound.handed busy], fun disposed => ?_⟩,
      by simp [Entry.resumed], fun disposed => ⟨disposed, rfl⟩⟩
    · simp_all [Entry.resumed]
    obtain ⟨stopped, live⟩ := sound.quiet disposed
    cases aborted with
    | false => exact absurd busy live
    | true => exact ⟨Entry.resumed_timer (spared busy) ▸ stopped, by simp [Entry.resumed]⟩
  · exact keeps_refl sound

theorem keeps_dispose (sound : Sound watch) : Keeps watch (watch.next .dispose) := by
  dsimp only [next]
  split
  · next handed =>
    refine ⟨⟨by simpa [Entry.dispose] using sound.inFlight, sound.known, by simp [handed], fun _ => ?_⟩, fun _ => id,
      fun _ => ⟨rfl, rfl⟩⟩
    refine ⟨?_, by cases watch.entry.controller <;> simp [Entry.dispose]⟩
    simp only [Entry.dispose]
    split <;> simp_all
  · exact keeps_refl sound

theorem keeps_next (sound : Sound watch) (settled : Settled watch step) (spared : Spared watch step) :
    Keeps watch (watch.next step) := by
  cases step with
  | submitted answer => exact keeps_submitted sound settled
  | refresh =>
    dsimp only [next]
    split
    · next handed => exact keeps_refresh sound handed spared
    · exact keeps_refl sound
  | timer =>
    dsimp only [next]
    split
    · next fires =>
      have live : watch.disposed = false := by simpa [fires.1] using mt sound.quiet
      have handed : watch.handed = true := by simpa [fires.1] using mt sound.fresh
      have unset : Sound { watch with entry := { watch.entry with timer := .unset } } :=
        ⟨sound.inFlight, sound.known, by simp [handed], by simp [live]⟩
      obtain ⟨kept, shown, stopped⟩ := keeps_refresh unset handed (by simp [live])
      exact ⟨kept, shown, stopped⟩
    · exact keeps_refl sound
  | answered answer => exact keeps_answered sound settled spared
  | resumed => exact keeps_resumed sound spared
  | dispose => exact keeps_dispose sound

/-- What a run has come to. -/
def reached (command commandId : String) (steps : List (Step Json)) : Watch Json :=
  runFrom next (start command commandId) steps

theorem sound_start (cmd commandId : String) : Sound (start cmd commandId : Watch Json) :=
  ⟨rfl, nofun, fun _ => ⟨rfl, rfl, rfl, rfl⟩, nofun⟩

/-- In every run that is spared, a final result that was shown stays, no two requests are in flight, and none starts
after `dispose`. -/
theorem observed_result_stays (command commandId : String) (earlier later : List (Step Json))
    (settled : EachStep next Settled (start command commandId) (earlier ++ later))
    (spared : EachStep next Spared (start command commandId) (earlier ++ later)) :
    Stays (reached command commandId earlier) (reached command commandId (earlier ++ later)) := by
  obtain ⟨first, last⟩ := eachStep_append.mp (settled.and spared)
  have sound : Sound (reached command commandId earlier) :=
    invariant_of_steps Sound (fun _ _ kept each => (keeps_next kept each.1 each.2).sound) (sound_start command commandId)
      first
  rw [reached, reached, runFrom_append]
  have kept := invariant_of_steps (Keeps (reached command commandId earlier))
    (fun _ _ kept each => kept.trans (keeps_next kept.sound each.1 each.2)) (keeps_refl sound) last
  exact ⟨kept.shown, kept.sound.single, fun disposed => (kept.stopped disposed).2⟩

def reply (durableResult : DurableResult) (reconciliation : Reconciliation) : Except String (Progress Nat) :=
  .ok ⟨"orders.place", "command-1", .acknowledged, durableResult, "cursor-1", none, none, none, reconciliation⟩

/-- Submitted and asked for once. -/
def polled : List (Step Nat) := [.submitted (reply .pending .notObserved), .timer]

/-- The result is succeeded, and the reconciliation still progresses. -/
def succeeded : List (Step Nat) := polled ++ [.answered (reply .succeeded .progressing), .resumed]

theorem succeeded_result_stays :
    Stays (reached "orders.place" "command-1" succeeded) (reached "orders.place" "command-1"
      (succeeded ++ [.timer, .answered (reply .succeeded .ready), .resumed, .dispose])) :=
  observed_result_stays "orders.place" "command-1" _ _ (by decide) (by decide)

/-- A poll that fails hides the result, and one that `dispose` aborts schedules the next. -/
theorem observation_goes_on :
    EachStep next Settled (start "orders.place" "command-1") (succeeded ++ [.timer, .answered (.error "fetch failed")]) ∧
    (reached "orders.place" "command-1" succeeded).entry.state.durableResult = .succeeded ∧
    (reached "orders.place" "command-1" (succeeded ++ [.timer, .answered (.error "fetch failed")])).entry.state.durableResult =
      .unknown ∧
    ¬ Stays (reached "orders.place" "command-1" (polled ++ [.dispose]))
      (reached "orders.place" "command-1" (polled ++ [.dispose, .answered (.error "aborted"), .resumed, .timer])) := by
  refine ⟨by decide, by decide, by decide, fun stays => ?_⟩
  exact absurd (stays.stopped rfl) (by decide)

end Watch
end Applik8s.CommandClient
