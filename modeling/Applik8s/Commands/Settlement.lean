import Applik8s.Commands.Processor

/-! How deliveries of one command envelope settle it. Whatever fails and wherever a delivery is gone, the message is
acknowledged or terminated only behind a durable result and the release of its reference. -/
namespace Applik8s.Commands
open Lib

/-- What a delivery knows: whether a result is stored and the reference released, before it publishes a dead letter
and behind that. -/
inductive Stage where
  | working | stored | freed | published | recorded | cleared | closed
deriving DecidableEq

namespace Stage

def fresh : Stage → Bool
  | .working | .stored | .freed => true
  | _ => false

def hasResult : Stage → Bool
  | .working | .published => false
  | _ => true

def isFree : Stage → Bool
  | .freed | .cleared | .closed => true
  | _ => false

def withResult : Stage → Stage
  | .working => .stored
  | .published => .recorded
  | stage => stage

def released : Stage → Stage
  | .stored => .freed
  | .recorded => .cleared
  | stage => stage

@[simp] theorem fresh_released (stage : Stage) : stage.released.fresh = stage.fresh := by cases stage <;> rfl

@[simp] theorem hasResult_released (stage : Stage) : stage.released.hasResult = stage.hasResult := by
  cases stage <;> rfl

end Stage

variable {options : ProcessorOptions} {envelope : Envelope} {binding : Binding} {attempt : Nat}

/-- A delivery that has reached the limit may publish, and then records no other failure than its own. -/
def permits (options : ProcessorOptions) (envelope : Envelope) (attempt : Nat) (stage : Stage) : Request → Prop
  | .revalidateAuthorization .. | .execute .. => stage.fresh = true
  | .recordTerminalFailure _ _ code attempts =>
    stage.fresh = true ∨ stage = .published ∧ code = .processingFailed ∧ attempts = attempt
  | .releaseAuthorization .. => stage.hasResult = true ∧ stage ≠ .closed
  | .publish _ => stage.fresh = true ∧ options.attemptLimit ≤ attempt
  | .nak _ => True
  | .ack => stage.fresh = true ∧ stage.hasResult = true ∧ (envelope.authorizationReceipt.isSome → stage.isFree = true)
  | .term _ => stage.hasResult = true ∧ stage ≠ .closed ∧ (envelope.authorizationReceipt.isSome → stage.isFree = true)

def afterCall (stage : Stage) : (request : Request) → request.Reply → Stage
  | .execute .., .ok _ => stage.withResult
  | .execute .., .error (.rejected ..) => stage.withResult
  | .recordTerminalFailure .., .ok _ => stage.withResult
  | .releaseAuthorization .., .ok _ => stage.released
  | .publish _, _ => .published
  | .ack, _ => .closed
  | .term _, _ => .closed
  | _, _ => stage

def processorConduct (options : ProcessorOptions) (envelope : Envelope) (attempt : Nat) :
    Conduct processorInterface Stage where
  permits := permits options envelope attempt
  answers _ _ := True
  after := afterCall

/-! ### What the program does -/

/-- The contract of the message belongs to the binding, and the message is not routed to another one. -/
structure Registered (options : ProcessorOptions) (envelope : Envelope) (binding : Binding) : Prop where
  found : options.bindings.find? (·.contract = envelope.contract) = some binding
  routed : ¬ (truthy (envelope.routing.get "binding") ∧ envelope.routing.get "binding" ≠ some binding.bindingId)

def Through (envelope : Envelope) (stage : Stage) : Prop :=
  envelope.authorizationReceipt.isSome → stage.isFree = true

theorem obeys_release {next : Unit → Processor Settled} (res : stage.hasResult = true) (closed : stage ≠ .closed)
    (fails : ∀ msg, close stage (.error (.other msg)))
    (rest : ∀ after, after = stage ∨ after = stage.released → Through envelope after → Obeys (processorConduct opts envelope attempt) close after (next ()))
    : Obeys (processorConduct opts envelope attempt) close stage (releaseAuthorization binding envelope >>= next) := by
  unfold releaseAuthorization
  cases receipt : envelope.authorizationReceipt with
  | none => exact rest stage (.inl rfl) (by simp [Through, receipt])
  | some held =>
    dsimp only
    split
    · refine ⟨⟨res, closed⟩, fun reply _ => ?_⟩
      cases reply with
      | error msg => exact fails msg
      | ok _ =>
        refine rest stage.released (.inr rfl) fun _ => ?_
        cases stage <;> simp_all [Stage.released, Stage.isFree, Stage.hasResult]
    · exact fails _

/-- What the `try` block leaves to the `catch` block. -/
def Caught (stage : Stage) : Except ProcessorError Settled → Prop
  | .ok _ => True
  | .error (.rejected ..) => stage.fresh = true ∧ stage.hasResult = true
  | .error (.other _) => stage.fresh = true

theorem obeys_ack (fresh : stage.fresh = true) (res : stage.hasResult = true) (through : Through envelope stage)
    : Obeys (processorConduct opts envelope attempt) Caught stage ack :=
  ⟨⟨fresh, res, through⟩, fun _ _ => trivial⟩

theorem obeys_attemptOnce : Obeys (processorConduct opts envelope attempt) Caught .working
      (attemptOnce opts binding envelope attempt) := by
  have release : Obeys (processorConduct opts envelope attempt) Caught .stored
      (releaseAuthorization binding envelope >>= fun _ => ack) := by
    refine obeys_release rfl (by decide) (fun _ => rfl) fun after stays through => ?_
    rcases stays with rfl | rfl <;> exact obeys_ack rfl rfl through
  have carries : ∀ denied, Obeys (processorConduct opts envelope attempt) Caught .working
      (carryOut binding envelope (deliveryOptions opts envelope attempt) attempt denied) := by
    rintro (_ | ⟨_, _⟩)
    · refine ⟨rfl, fun reply _ => ?_⟩
      match reply with
      | .ok _ => exact release
      | .error (.rejected ..) => exact ⟨rfl, rfl⟩
      | .error (.other _) => exact rfl
    unfold carryOut
    dsimp only
    split
    · refine ⟨.inl rfl, fun reply _ => ?_⟩
      cases reply with
      | ok _ => exact release
      | error => exact rfl
    · exact rfl
  refine obeys_bind.mpr ?_
  unfold revalidate
  split
  · exact carries none
  split
  · refine ⟨rfl, fun reply _ => ?_⟩
    match reply with
    | .ok (.ok _) => exact carries none
    | .ok (.error found) => exact carries (some found)
    | .error _ => exact rfl
  · exact rfl

theorem obeys_afterFailure (caught : Caught stage (.error error)) :
    Obeys (processorConduct opts envelope attempt) (fun _ _ => True) stage
      (afterFailure opts binding envelope attempt error) := by
  unfold afterFailure
  cases error with
  | rejected =>
    obtain ⟨fresh, res⟩ := caught
    refine obeys_release res (by rintro rfl; cases fresh) (fun _ => trivial) fun after stays through => ?_
    refine ⟨⟨?_, ?_, through⟩, fun _ _ => trivial⟩ <;> rcases stays with same | same <;> simp [same, fresh, res]
  | other msg =>
    dsimp only
    split
    · exact ⟨trivial, fun _ _ => trivial⟩
    next reached =>
    refine ⟨⟨caught, not_lt.mp reached⟩, fun reply _ => ?_⟩
    cases reply with
    | error => trivial
    | ok _ =>
      split
      · refine ⟨.inr ⟨rfl, rfl, rfl⟩, fun reply _ => ?_⟩
        cases reply with
        | error => trivial
        | ok _ =>
          change Obeys _ _ Stage.recorded (releaseAuthorization binding envelope >>= _)
          refine obeys_release rfl (by decide) (fun _ => trivial) fun after stays through => ?_
          rcases stays with rfl | rfl <;> exact ⟨⟨rfl, by decide, through⟩, fun _ _ => trivial⟩
      · trivial

theorem obeys_handle (registered : Registered opts envelope binding) (deliveryCount : Nat) :
    Obeys (processorConduct opts envelope (max 1 deliveryCount)) (fun _ _ => True) .working
      (handleJetStreamCommandMessage opts (.ok envelope) deliveryCount) := by
  unfold handleJetStreamCommandMessage
  dsimp only
  rw [registered.found]
  dsimp only
  rw [if_neg registered.routed]
  refine obeys_bind.mpr (obeys_attempt.mpr (obeys_attemptOnce.weaken fun stage res caught => ?_))
  cases res with
  | ok => trivial
  | error error => exact obeys_afterFailure caught

/-! ### What a delivery leaves -/

/-- A dead letter of this delivery, if there is one: where no result was stored when it was published, none is stored
but the failure of this delivery. -/
def Posted (options : ProcessorOptions) (attempt : Nat) (before after : World) : Prop :=
  after.published = before.published ∨ options.attemptLimit ≤ attempt ∧ ∃ letter standing,
    after.published = before.published ++ [⟨letter, attempt, standing⟩] ∧
      (standing = none → after.result = none ∨ after.result = some (.failed .processingFailed attempt))

structure Sound (envelope : Envelope) (world : World) : Prop where
  unprotected : envelope.authorizationReceipt = none → world.referenced = false
  released : envelope.authorizationReceipt.isSome → world.referenced = false → world.result.isSome
  settled : world.settlements ≠ [] → world.result.isSome ∧ world.referenced = false

/-- What a delivery that began at `before` knows of the world at its stage. -/
structure Knows (options : ProcessorOptions) (envelope : Envelope) (attempt : Nat) (before : World) (stage : Stage)
    (world : World) : Prop where
  sound : Sound envelope world
  stable : ∀ result, before.result = some result → world.result = some result
  posted : Posted options attempt before world
  fresh : stage.fresh = true → world.published = before.published
  result : stage.hasResult = true → world.result.isSome
  free : stage.isFree = true → world.referenced = false
  settlements : stage ≠ .closed → world.settlements = before.settlements

variable {before world : World} {stage : Stage}

theorem World.store_stable (held : world.result = some res) : (world.store other).result = some res := by
  simp [World.store, held]

theorem Sound.store (sound : Sound envelope world) (res : Result) : Sound envelope (world.store res) where
  unprotected := sound.unprotected
  released _ _ := rfl
  settled settled := ⟨rfl, (sound.settled settled).2⟩

theorem Knows.store (knows : Knows opts envelope attempt before stage world) (fresh : stage.fresh = true)
    (res : Result) : Knows opts envelope attempt before stage.withResult (world.store res) where
  sound := knows.sound.store res
  stable held is := World.store_stable (knows.stable held is)
  posted := .inl (knows.fresh fresh)
  fresh _ := knows.fresh fresh
  result _ := rfl
  free free := knows.free (by cases stage <;> exact free)
  settlements ne := knows.settlements (by rintro rfl; cases fresh)

theorem Knows.storeFailure (knows : Knows opts envelope attempt before .published world) :
    Knows opts envelope attempt before .recorded (world.store (.failed .processingFailed attempt)) where
  sound := knows.sound.store _
  stable held is := World.store_stable (knows.stable held is)
  posted := by
    rcases knows.posted with same | ⟨reached, letter, standing, published, res⟩
    · exact .inl same
    refine .inr ⟨reached, letter, standing, published, fun none => .inr ?_⟩
    rcases res none with empty | failed
    · simp [World.store, empty]
    · simp [World.store, failed]
  fresh fresh := nomatch fresh
  result _ := rfl
  free free := nomatch free
  settlements _ := knows.settlements (by decide)

theorem Knows.forget {known : Stage} (knows : Knows opts envelope attempt before known world)
    (fresh : stage.fresh = true → known.fresh = true) (res : stage.hasResult = true → known.hasResult = true)
    (free : stage.isFree = true → known.isFree = true) (closed : known = .closed → stage = .closed) :
    Knows opts envelope attempt before stage world where
  sound := knows.sound
  stable := knows.stable
  posted := knows.posted
  fresh holds := knows.fresh (fresh holds)
  result holds := knows.result (res holds)
  free holds := knows.free (free holds)
  settlements ne := knows.settlements fun same => ne (closed same)

section
variable (knows : Knows options envelope attempt before stage world)
include knows

theorem Knows.release (res : stage.hasResult = true) (closed : stage ≠ .closed) :
    Knows options envelope attempt before stage.released { world with referenced := false } where
  sound :=
    { unprotected := fun _ => rfl
      released := fun _ _ => knows.result res
      settled := fun settled => ⟨(knows.sound.settled settled).1, rfl⟩ }
  stable := knows.stable
  posted := knows.posted
  fresh fresh := knows.fresh (by simpa using fresh)
  result _ := knows.result res
  free _ := rfl
  settlements _ := knows.settlements closed

theorem Knows.publish (fresh : stage.fresh = true) (reached : options.attemptLimit ≤ attempt) (letter : DeadLetter) :
    Knows options envelope attempt before .published
      { world with published := world.published ++ [⟨letter, attempt, world.result⟩] } where
  sound := ⟨knows.sound.unprotected, knows.sound.released, knows.sound.settled⟩
  stable := knows.stable
  posted := .inr ⟨reached, letter, world.result, by rw [knows.fresh fresh], fun empty => .inl empty⟩
  fresh fresh := nomatch fresh
  result res := nomatch res
  free free := nomatch free
  settlements _ := knows.settlements (by rintro rfl; cases fresh)

theorem Knows.unreferenced (through : Through envelope stage) : world.referenced = false := by
  cases receipt : envelope.authorizationReceipt with
  | none => exact knows.sound.unprotected receipt
  | some held => exact knows.free (through (by simp [receipt]))

theorem Knows.settle (res : stage.hasResult = true) (through : Through envelope stage) (settled : Settled) :
    Knows options envelope attempt before .closed { world with settlements := world.settlements ++ [settled] } where
  sound :=
    { unprotected := knows.sound.unprotected
      released := knows.sound.released
      settled := fun _ => ⟨knows.result res, knows.unreferenced through⟩ }
  stable := knows.stable
  posted := knows.posted
  fresh fresh := nomatch fresh
  result _ := knows.result res
  free _ := knows.unreferenced through
  settlements ne := absurd rfl ne

end

theorem Knows.forgetResult (knows : Knows opts envelope attempt before stage.withResult world) :
    Knows opts envelope attempt before stage world := by
  refine knows.forget ?_ ?_ ?_ ?_ <;> cases stage <;> simp [Stage.withResult, Stage.fresh, Stage.hasResult, Stage.isFree]

theorem Knows.forgetRelease (knows : Knows opts envelope attempt before stage.released world) :
    Knows opts envelope attempt before stage world := by
  refine knows.forget ?_ ?_ ?_ ?_ <;> cases stage <;> simp [Stage.released, Stage.fresh, Stage.hasResult, Stage.isFree]

private theorem knows_reply {known : Stage} {changed : World} (choice : Choice)
    (done : choice.takesEffect = true → Knows opts envelope attempt before known changed)
    (less : Knows opts envelope attempt before known changed → Knows opts envelope attempt before stage changed)
    (still : Knows opts envelope attempt before stage world) :
    Knows opts envelope attempt before (match choice.reply with
        | .ok _ => known
        | .error _ => stage)
      (if choice.takesEffect then changed else world) := by
  cases err : choice.failure with
  | none =>
    have effect : choice.takesEffect = true := by simp [Choice.takesEffect, err]
    have ok : choice.reply = .ok () := by simp [Choice.reply, err]
    rw [ok, if_pos effect]
    exact done effect
  | some msg =>
    have failed : choice.reply = .error msg := by simp [Choice.reply, err]
    rw [failed]
    by_cases effect : choice.takesEffect = true
    · rw [if_pos effect]
      exact less (done effect)
    · rw [if_neg effect]
      exact still

theorem Knows.answer (knows : Knows options envelope attempt before stage world)
    (permitted : permits options envelope attempt stage req) (choice : Choice) :
    Knows options envelope attempt before (afterCall stage req (answer attempt req choice world).1)
      (answer attempt req choice world).2 := by
  cases req with
  | revalidateAuthorization =>
    cases err : choice.failure <;> simpa [Commands.answer, err, afterCall] using knows
  | nak delay => exact knows
  | ack => exact knows.settle permitted.2.1 permitted.2.2 .acked
  | term reason => exact knows.settle permitted.1 permitted.2.2 .terminated
  | execute =>
    have fresh : stage.fresh = true := permitted
    have stored := knows.store fresh (outcomeResult choice.outcome)
    cases err : choice.failure with
    | none =>
      have effect : choice.takesEffect = true := by simp [Choice.takesEffect, err]
      simp only [Commands.answer, err, effect, if_true]
      cases held : (world.store (outcomeResult choice.outcome)).result with
      | none => cases held
      | some res => cases res <;> exact stored
    | some =>
      simp only [Commands.answer, err]
      by_cases effect : choice.takesEffect = true
      · rw [if_pos effect]
        exact stored.forgetResult
      · rw [if_neg effect]
        exact knows
  | recordTerminalFailure _ _ code attempts =>
    have stored : Knows options envelope attempt before stage.withResult (world.store (.failed code attempts)) := by
      rcases permitted with fresh | ⟨rfl, rfl, rfl⟩
      · exact knows.store fresh _
      · exact knows.storeFailure
    have kept := knows_reply choice (fun _ => stored) Knows.forgetResult knows
    unfold Commands.answer
    cases reply : choice.reply <;> simpa [reply, afterCall] using kept
  | releaseAuthorization =>
    have released := knows.release permitted.1 permitted.2
    have kept := knows_reply choice (fun _ => released) Knows.forgetRelease knows
    unfold Commands.answer
    cases reply : choice.reply <;> simpa [reply, afterCall] using kept
  | publish letter =>
    obtain ⟨fresh, reached⟩ := permitted
    unfold Commands.answer
    dsimp only
    split
    · exact knows.publish fresh reached letter
    refine knows.forget (fun bad => nomatch bad) (fun bad => nomatch bad) (fun bad => nomatch bad) ?_
    rintro rfl
    cases fresh

/-- What a delivery leaves of the message, the result, the reference and the dead letters. -/
structure Settles (options : ProcessorOptions) (envelope : Envelope) (attempt : Nat) (before after : World) : Prop where
  settled : after.settlements ≠ [] → after.result.isSome ∧ after.referenced = false
  released : envelope.authorizationReceipt.isSome → after.referenced = false → after.result.isSome
  stable : ∀ result, before.result = some result → after.result = some result
  posted : Posted options attempt before after
  failed : after.settlements ≠ before.settlements → ∀ letter,
    after.published = before.published ++ [⟨letter, attempt, none⟩] →
      after.result = some (.failed .processingFailed attempt)

theorem deliver_knows (registered : Registered opts envelope binding) (sound : Sound envelope before)
    (delivery : Delivery) : ∃ stage, Knows opts envelope (max 1 delivery.count) before stage
      (deliver opts envelope before delivery) := by
  have start : Knows opts envelope (max 1 delivery.count) before .working before :=
    { sound, stable := fun _ same => same, posted := .inl rfl, fresh := fun _ => rfl, result := nofun, free := nofun
      settlements := fun _ => rfl }
  have answers : ∀ (stage : Stage) (req : Request) (choice : Choice) (world : World),
      Knows opts envelope (max 1 delivery.count) before stage world →
      permits opts envelope (max 1 delivery.count) stage req →
      True ∧ Knows opts envelope (max 1 delivery.count) before
        (afterCall stage req (answer (max 1 delivery.count) req choice world).1)
        (answer (max 1 delivery.count) req choice world).2 :=
    fun _ _ choice _ knows permitted => ⟨trivial, knows.answer permitted choice⟩
  obtain ⟨stage, knows, _⟩ :=
    (processorServer _).play_keeps answers (obeys_handle registered delivery.count) delivery.script start
  exact ⟨stage, knows⟩

theorem Knows.settles (knows : Knows opts envelope attempt before stage world) :
    Settles opts envelope attempt before world where
  settled := knows.sound.settled
  released := knows.sound.released
  stable := knows.stable
  posted := knows.posted
  failed settled letter published := by
    have closed : stage = .closed := by_contra fun ne => settled (knows.settlements ne)
    have res := knows.result (by rw [closed]; rfl)
    rcases knows.posted with same | ⟨_, _, _, posted, fails⟩
    · rw [same] at published
      simp at published
    have same : [_] = [_] := List.append_cancel_left (published.symm.trans posted)
    simp only [List.cons.injEq, Publication.mk.injEq] at same
    rcases fails same.1.2.2.symm with none | failed
    · simp [none] at res
    · exact failed

/-- Along every sequence of deliveries of one envelope, however their calls fail and wherever they are gone: the
message is settled only behind a result and the release of the reference, the reference is released only behind a
result, and the result does not change. Only a delivery at the limit publishes a dead letter, and where it found no
result it settles the message only with its failure stored. -/
theorem deliveries_settle (registered : Registered options envelope binding) (deliveries : List Delivery) :
    EachStep (deliver options envelope) (fun before delivery =>
        Settles options envelope (max 1 delivery.count) before (deliver options envelope before delivery))
      { referenced := envelope.authorizationReceipt.isSome } deliveries := by
  have start : Sound envelope { referenced := envelope.authorizationReceipt.isSome } :=
    { unprotected := fun none => by simp [none]
      released := fun held free => by simp [held] at free
      settled := fun settled => absurd rfl settled }
  have all : EachStep (deliver options envelope) (fun _ _ => True)
      { referenced := envelope.authorizationReceipt.isSome } deliveries :=
    eachStep_of_always fun _ _ _ => trivial
  have each := eachStep_of_steps (Sound envelope) (fun _ delivery sound _ =>
    (deliver_knows registered sound delivery).elim fun _ knows => knows.sound) start all
  refine each.imp fun delivery _ before holds => ?_
  obtain ⟨_, knows⟩ := deliver_knows registered holds.1 delivery
  exact knows.settles

/-! ### A protected command -/

def renameBinding : Binding where
  bindingId := "Account-account.rename.v1"
  contract := ⟨"account.rename", "v1"⟩
  revalidates := true
  releases := true
  records := true

def renameOptions : ProcessorOptions := { bindings := [renameBinding], subjectPrefix := "applik8s", maxAttempts := some 2 }

def renameEnvelope : Envelope where
  id := "message-1"
  contract := ⟨"account.rename", "v1"⟩
  payload := .object []
  recordedAt := "2026-01-01T00:00:00.000Z"
  authorizationReceipt := some (.string "receipt-1")

theorem rename_registered : Registered renameOptions renameEnvelope renameBinding := ⟨rfl, by decide⟩

theorem rename_settles : EachStep (deliver renameOptions renameEnvelope) (fun before delivery =>
        Settles renameOptions renameEnvelope (max 1 delivery.count) before
          (deliver renameOptions renameEnvelope before delivery))
      { referenced := true } [⟨1, [{}, { failure := some "lost" }]⟩, ⟨2, [{}, {}, {}, {}]⟩] :=
  deliveries_settle rename_registered _

/-- The recording that follows a dead letter fails, and no result is stored; and a release that fails at the last
attempt turns an executed command over to a dead letter. -/
theorem dead_letter_without_failure : (∃ after, deliver renameOptions renameEnvelope { referenced := true }
        ⟨2, [{}, { failure := some "constraint", effective := false }, {},
          { failure := some "down", effective := false }]⟩ = after ∧
      after.published.length = 1 ∧ after.result = none) ∧
    ∃ after, deliver renameOptions renameEnvelope { referenced := true }
        ⟨2, [{}, {}, { failure := some "down", effective := false }, {}, {}, {}, {}]⟩ = after ∧
      after.published.length = 1 ∧ after.result = some (.completed .null) ∧ after.settlements = [.terminated] :=
  ⟨⟨_, rfl, rfl, rfl⟩, _, rfl, rfl, rfl, rfl⟩

end Applik8s.Commands
