import Applik8s.Identity.Admission

/-! Admission and containment exclude one another, unless a session is admitted after a call has given it up
or is given up after it was admitted under another key. A flow is consumed on the version that was read, so by
one receipt; and a call tells its caller of an orphan only once that is revoked or recorded. -/
namespace Applik8s.Admission
open Function (update update_of_ne update_self)
open Lib List Option Except
variable {runtime : Runtime} {world world' : World} {flow stored : Flow} {input : Admission}
  {session : Session} {choice : Choice} {receipt : Receipt} {orphan : Orphan}

section
variable (runtime : Runtime) (world : World)

def World.Contains (session : Session) : Prop :=
  session ∈ world.revoked ∨ ∃ orphan ∈ world.orphans.rows, orphan.session = session

/-- A flow is consumed by one receipt; no admitted session is revoked or a pending orphan; and every call that
ended without a receipt has its session contained. -/
structure World.Exclusive : Prop where
  once : ∀ first ∈ world.receipts.rows, ∀ second ∈ world.receipts.rows, first.flowId = second.flowId →
    first = second
  consumed : ∀ receipt ∈ world.receipts.rows, ∃ flow, world.flows receipt.flowId = some flow ∧ flow.state = .consumed
  admitted : ∀ receipt ∈ world.receipts.rows, receipt.session ∉ world.revoked ∧
    ∀ orphan ∈ world.orphans.rows, orphan.state = .pending → orphan.session ≠ receipt.session
  contained : ∀ session ∈ world.ended, world.Contains session

def World.Commits (flow : Flow) (expectedFlowVersion : Nat) (receipt : Receipt) : Prop :=
  world.receipts.find? receipt.providerCompletionKey = none ∧
    ∃ after, world.commitAdmission flow expectedFlowVersion receipt = .ok after

/-- The time that a call goes by: the one that it was given, or else one that was told. -/
def GoesBy (given : Option Int) (told : Int → Prop) (now : Int) : Prop :=
  match given with
  | some given => now = given
  | none => told now

/-- Who consumes a flow has found it active, unexpired and bound as the caller says. -/
def ConsumesRightly (system : System) : Event → Prop
  | .step caller _ => ∀ operation flow expectedFlowVersion receipt rest,
      system.callers caller = some ⟨operation, .call (.commitAdmission flow expectedFlowVersion receipt) rest⟩ →
      system.world.Commits flow expectedFlowVersion receipt →
        ∃ input stored now, operation = .complete input ∧ system.world.flows input.flowId = some stored ∧
          stored.state = .active ∧ assertBound runtime stored input.binding = .ok () ∧
          isExpired runtime.dates (some stored.expiresAt) now = false ∧
          GoesBy input.context.now (· ∈ system.world.told) now
  | _ => True

/-- A receipt is stored only while no call has given its session up, and a call gives a session up only where
it was not admitted under another key. -/
def World.Careful (choice : Choice) : Request → Prop
  | .commitAdmission flow expectedFlowVersion receipt => choice.takes = true →
    world.Commits flow expectedFlowVersion receipt → receipt.session ∉ world.givenUp
  | .recover completionKey session => world.receipts.find? completionKey = none →
    ∀ receipt ∈ world.receipts.rows, receipt.session ≠ session
  | _ => True

def Careful (system : System) : Event → Prop
  | .step caller choice => system.Asks caller (system.world.Careful choice)
  | _ => True

instance (flow : Flow) (expectedFlowVersion : Nat) (receipt : Receipt) :
    Decidable (world.Commits flow expectedFlowVersion receipt) :=
  decidable_of_iff ((world.receipts.find? receipt.providerCompletionKey).isNone ∧
      (world.commitAdmission flow expectedFlowVersion receipt).isOk) <| by
    unfold World.Commits
    rw [isNone_iff_eq_none]
    refine and_congr_right fun _ => ?_
    cases world.commitAdmission flow expectedFlowVersion receipt <;> simp [Except.isOk, Except.toBool]

instance (choice : Choice) : ∀ request, Decidable (world.Careful choice request)
  | .commitAdmission flow expectedFlowVersion receipt => inferInstanceAs (Decidable (choice.takes = true →
      world.Commits flow expectedFlowVersion receipt → receipt.session ∉ world.givenUp))
  | .recover completionKey session =>
    decidable_of_iff ((world.receipts.find? completionKey).isNone → ∀ receipt ∈ world.receipts.rows,
        receipt.session ≠ session) <| by
      rw [isNone_iff_eq_none]
      rfl
  | .clock | .getFlow _ | .replaceFlow _ _ | .getAdmissionReceipt _ | .admitPrincipal _ _ _
  | .revokeSession _ _ | .sessionState _ | .recordOrphan _ | .listPendingOrphans _
  | .resolveOrphan _ _ _ _ | .orphaned _ => inferInstanceAs (Decidable True)

instance (system : System) : ∀ event, Decidable (Careful system event)
  | .start _ _ | .stop _ => inferInstanceAs (Decidable True)
  | .step caller choice => system.decideAsks caller fun request : Request =>
      inferInstanceAs (Decidable (system.world.Careful choice request))

def orphanId (input : Admission) : String :=
  "identity_orphan_" ++ admissionDigest runtime input.flowId (providerCompletionKey runtime input.completion)

/-- The digests tell the sessions of these admissions apart. -/
def Distinguishes (asked : Admission → Prop) : Prop :=
  ∀ one two, asked one → asked two → orphanId runtime one = orphanId runtime two →
    one.completion.session = two.completion.session

def Begins (events : List Event) (input : Admission) : Prop :=
  ∃ caller, .start caller (.complete input) ∈ events

end

theorem boundFlow_ok {read : Option Flow} (done : boundFlow runtime binding allowed now read = .ok flow) :
    read = some flow ∧ assertBound runtime flow binding = .ok () ∧ flow.state ∈ allowed ∧
      isExpired runtime.dates (some flow.expiresAt) now = false := by
  cases read with
  | none => cases done
  | some found =>
    change (assertBound runtime found binding >>= _) = _ at done
    cases bound : assertBound runtime found binding with
    | error => rw [bound] at done; cases done
    | ok _ =>
      rw [bound] at done
      split at done
      · cases done
      next available =>
      cases done
      simpa [bound] using available

theorem assertProviderCompletion_ok (done : assertProviderCompletion runtime flow completion = .ok ())
    : completion.provider = flow.provider := by
  unfold assertProviderCompletion at done
  split at done
  · cases done
  next fits =>
  simp only [Bool.or_eq_true, decide_eq_true_eq, not_or, not_not] at fits
  exact fits.1

section
inductive Stage where
  | idle
  | timed (now : Int)
  | seen (flow : Flow) (time : Option Int)
  | failed (session : Session)
  | containing (session : Session)
  | contained (session : Session)
  | listed (orphans : List Orphan)

def Stage.sessions : Stage → List Session
  | .containing session => [session]
  | .listed orphans => orphans.map Orphan.session
  | _ => []

def Stage.start : Option Int → Stage
  | none => .idle
  | some now => .timed now

variable (runtime : Runtime)

/-- The commit of an admission, on the flow that it has read. -/
structure CommitsOn (operation : Operation) (flow : Flow) (time : Option Int) (next : Flow)
    (expectedFlowVersion : Nat) (receipt : Receipt) (input : Admission) (now : Int) : Prop where
  operation : operation = .complete input
  version : expectedFlowVersion = flow.version
  active : flow.state = .active
  bound : assertBound runtime flow input.binding = .ok ()
  alive : isExpired runtime.dates (some flow.expiresAt) now = false
  time : GoesBy input.context.now (time = some ·) now
  flowId : flow.id = input.flowId
  next : ∃ consumedAt, next = consumed runtime flow consumedAt
  receiptFlow : receipt.flowId = flow.id
  session : receipt.session = input.completion.session

/-- Reads are made anywhere, and so are orphans resolved. -/
def permits : Operation × Stage → Request → Prop
  | (_, stage), .replaceFlow next expectedVersion => ∃ flow time, stage = .seen flow time ∧
    expectedVersion = flow.version ∧ flow.state = .active ∧ next.id = flow.id ∧ next.provider = flow.provider
  | (operation, stage), .commitAdmission next expectedFlowVersion receipt =>
    ∃ flow time input now, stage = .seen flow time ∧
      CommitsOn runtime operation flow time next expectedFlowVersion receipt input now
  | (_, stage), .recover _ session => stage = .failed session
  | (_, stage), .revokeSession session _ => session ∈ stage.sessions
  | (operation, stage), .recordOrphan orphan => stage = .containing orphan.session ∧
    ∃ input, operation = .complete input ∧ input.completion.session = orphan.session ∧
      orphan.id = orphanId runtime input
  | (_, stage), .orphaned session => stage = .contained session
  | _, _ => True

def afterwards : Operation × Stage → (request : Request) → request.Reply → Operation × Stage
  | (operation, .idle), .clock, now => (operation, .timed now)
  | (operation, .idle), .getFlow _, some flow => (operation, .seen flow none)
  | (operation, .timed now), .getFlow _, some flow => (operation, .seen flow (some now))
  | (operation, .idle), .listPendingOrphans _, orphans => (operation, .listed orphans)
  | (operation, .seen _ _), .commitAdmission _ _ receipt, .error _ => (operation, .failed receipt.session)
  | (operation, .failed session), .recover _ _, none => (operation, .containing session)
  | (operation, .containing session), .revokeSession _ _, .ok _ => (operation, .contained session)
  | (operation, .containing session), .recordOrphan _, _ => (operation, .contained session)
  | phase, _, _ => phase

/-- Flows come under their ids, of the providers that there are. -/
def answers : (request : Request) → request.Reply → Prop
  | .getFlow flowId, some flow => flow.id = flowId ∧ flow.provider ∈ runtime.providers
  | _, _ => True

def conduct : Conduct Identity (Operation × Stage) where
  permits := permits runtime
  answers := answers runtime
  after := afterwards

variable {runtime}

theorem obeys_readNow : Obeys (conduct runtime) (fun phase res =>
    ∃ now time, res = .ok now ∧ phase = (op, Stage.start time) ∧ GoesBy given (time = some ·) now)
    (op, .idle) (readNow given) := by
  cases given with
  | some now => exact ⟨now, none, rfl, rfl, rfl⟩
  | none => exact ⟨trivial, fun now _ => ⟨now, some now, rfl, rfl, rfl⟩⟩

theorem requiredString_ok (done : requiredString value field = .ok text) : text = value := by
  unfold requiredString at done
  split at done
  · cases done
  · exact (ok.inj done).symm

structure Bound (runtime : Runtime) (flow : Flow) (flowId : String) (binding : Binding)
    (allowed : List FlowState) (given time : Option Int) (now : Int) : Prop where
  id : flow.id = flowId
  provider : flow.provider ∈ runtime.providers
  bound : assertBound runtime flow binding = .ok ()
  state : flow.state ∈ allowed
  alive : isExpired runtime.dates (some flow.expiresAt) now = false
  time : GoesBy given (time = some ·) now

theorem obeys_readBoundFlow : Obeys (conduct runtime) (fun phase res => match res with
      | .ok flow => ∃ time now, phase = (op, .seen flow time) ∧
          Bound runtime flow flowId binding allowed given time now
      | .error _ => True) (op, .idle) (readBoundFlow runtime flowId binding allowed given) := by
  refine obeys_bind.mpr (obeys_readNow.weaken ?_)
  rintro _ _ ⟨now, time, rfl, rfl, goesBy⟩
  cases named : requiredString flowId "flowId" with
  | error => trivial
  | ok text =>
    obtain rfl := requiredString_ok named
    refine ⟨trivial, fun read answered => ?_⟩
    change Obeys _ _ _ (Program.check _)
    rw [obeys_check]
    cases bound : boundFlow runtime binding allowed now read with
    | error => trivial
    | ok flow =>
      obtain ⟨rfl, holds, state, alive⟩ := boundFlow_ok bound
      refine ⟨time, now, ?_, answered.1, answered.2, holds, state, alive, goesBy⟩
      cases time <;> rfl

theorem obeys_await {α : Type} {out : IdentityProgram (Except Failure α)} {phase : Operation × Stage}
    {holds : Operation × Stage → Prop} (obeys : Obeys (conduct runtime) (fun now _ => holds now) phase out) :
    Obeys (conduct runtime) (fun now _ => holds now) phase (await out) := by
  refine obeys_bind.mpr (obeys.weaken ?_)
  rintro _ (_ | _) held
  · exact held
  · exact obeys_check.mpr held

theorem obeys_transition (input : Transition) : Obeys (conduct runtime) (fun _ _ => True) (op, .idle)
    (transition runtime input) := by
  refine obeys_bind.mpr (obeys_readBoundFlow.weaken ?_)
  rintro _ (_ | flow) closed
  · trivial
  obtain ⟨time, _, rfl, bound⟩ := closed
  have active : flow.state = .active := mem_singleton.mp bound.state
  refine obeys_check_bind (fun _ _ => trivial) fun _ _ => ?_
  split
  · trivial
  refine obeys_check_bind (fun _ _ => trivial) fun _ _ => ?_
  have permitted : (conduct runtime).permits (op, .seen flow time) (.replaceFlow { flow with
      completedTransitions := flow.completedTransitions ++ [input.transition]
      attempts := flow.attempts + 1
      version := flow.version + 1 } flow.version) := ⟨flow, time, rfl, rfl, active, rfl, rfl⟩
  exact obeys_await ⟨permitted, fun _ _ => trivial⟩

theorem obeys_cancel (flowId : String) (binding : Binding) :
    Obeys (conduct runtime) (fun _ _ => True) (op, .idle) (cancel runtime flowId binding) := by
  refine obeys_bind.mpr (obeys_readBoundFlow.weaken ?_)
  rintro _ (_ | flow) closed
  · trivial
  obtain ⟨time, _, rfl, bound⟩ := closed
  have active : flow.state = .active := mem_singleton.mp bound.state
  refine obeys_request trivial fun clock _ => obeys_await ?_
  exact ⟨⟨flow, time, rfl, rfl, active, rfl, rfl⟩, fun _ _ => trivial⟩

theorem obeys_containOrphan (asked : op = .complete input) (flowId : flow.id = input.flowId)
    (provider : flow.provider = input.completion.provider) (present : flow.provider ∈ runtime.providers)
    (key : completionKey = providerCompletionKey runtime input.completion) :
    Obeys (conduct runtime) (fun phase _ => phase = (op, .contained input.completion.session))
      (op, .containing input.completion.session)
      (containOrphan runtime flow input.completion completionKey reason) := by
  have session : (⟨flow.provider, input.completion.providerSessionId⟩ : Session) = input.completion.session := by
    rw [provider]
    rfl
  have served : requireProvider runtime flow.provider = .ok () := if_pos present
  unfold containOrphan
  rw [session]
  refine obeys_check_bind (fun err is => ?_) fun _ _ => ?_
  · rw [served] at is
    cases is
  refine obeys_request (mem_singleton.mpr rfl) ?_
  rintro (_ | _) -
  · refine obeys_request trivial fun now _ => ?_
    refine ⟨⟨congrArg Stage.containing session.symm, input, asked, session.symm, ?_⟩, fun _ _ => rfl⟩
    rw [orphanId, flowId, key]
  · rfl

theorem obeys_commit (asked : op = .complete input)
    (bound : Bound runtime flow input.flowId input.binding [.active] input.context.now time now)
    (provider : flow.provider = input.completion.provider) :
    Obeys (conduct runtime) (fun _ _ => True) (op, .seen flow time)
      (commit runtime flow input (admissionReceipt runtime flow input principal assurance clock) clock) := by
  have session : (⟨flow.provider, input.completion.providerSessionId⟩ : Session) = input.completion.session := by
    rw [provider]
    rfl
  refine obeys_request ⟨flow, time, input, now, rfl, asked, rfl, mem_singleton.mp bound.state,
    bound.bound, bound.alive, bound.time, bound.id, ⟨clock, rfl⟩, rfl, session⟩ ?_
  rintro (err | _) -
  · have failed : (admissionReceipt runtime flow input principal assurance clock).session =
        input.completion.session := session
    rw [session]
    change Obeys _ _ (op, Stage.failed _) _
    rw [failed]
    refine obeys_request rfl ?_
    rintro (_ | _) -
    · refine obeys_bind.mpr ((obeys_containOrphan asked bound.id provider bound.provider rfl).weaken ?_)
      rintro _ (_ | _) rfl
      · trivial
      · exact obeys_request rfl fun _ _ => trivial
    · trivial
  · trivial

theorem obeys_complete (input : Admission) :
    Obeys (conduct runtime) (fun _ _ => True) (.complete input, .idle) (complete runtime input) := by
  refine obeys_request trivial ?_
  rintro (_ | _) -
  · refine obeys_bind.mpr (obeys_readBoundFlow.weaken ?_)
    rintro _ (err | flow) closed
    · trivial
    obtain ⟨time, now, rfl, bound⟩ := closed
    refine obeys_check_bind (fun _ _ => trivial) fun _ fits => ?_
    refine obeys_check_bind (fun _ _ => trivial) fun _ _ => ?_
    have admits : Obeys (conduct runtime) (fun now _ => now = (.complete input, .seen flow time))
        (.complete input, .seen flow time) (await (ask (.admitPrincipal input.completion flow input.context))) :=
      obeys_await ⟨trivial, fun _ _ => rfl⟩
    refine obeys_bind.mpr (admits.weaken ?_)
    rintro _ (err | _) rfl
    · trivial
    refine obeys_check_bind (fun _ _ => trivial) fun _ _ => ?_
    have reads : Obeys (conduct runtime) (fun now _ => now = (.complete input, .seen flow time))
        (.complete input, .seen flow time) (readNow input.context.now) := by
      cases input.context.now with
      | none => exact ⟨trivial, fun _ _ => rfl⟩
      | some given => rfl
    refine obeys_bind.mpr (reads.weaken ?_)
    rintro _ (err | _) rfl
    · trivial
    refine obeys_check_bind (fun _ _ => trivial) fun assurance _ => ?_
    exact obeys_commit rfl bound (assertProviderCompletion_ok fits).symm
  · refine obeys_check_bind (fun _ _ => trivial) fun _ _ => ?_
    refine obeys_bind.mpr (obeys_readBoundFlow.weaken ?_)
    rintro _ (_ | _) - <;> trivial

theorem obeys_reconcileOrphan (among : orphan ∈ orphans) :
    Obeys (conduct runtime) (fun now _ => now = (op, .listed orphans)) (op, .listed orphans)
      (reconcileOrphan runtime orphan) := by
  have state : Obeys (conduct runtime) (fun now _ => now = (op, .listed orphans))
      (op, .listed orphans) (await (ask (.sessionState orphan.session))) :=
    obeys_await ⟨trivial, fun _ _ => rfl⟩
  have resolve : ∀ resolved, Obeys (conduct runtime) (fun now _ => now = (op, .listed orphans))
      (op, .listed orphans) (do
        let now ← ask .clock
        await (ask (.resolveOrphan orphan.id orphan.version resolved (runtime.dates.toISOString now)))) :=
    fun _ => obeys_request trivial fun _ _ => obeys_await ⟨trivial, fun _ _ => rfl⟩
  refine obeys_bind.mpr (state.weaken ?_)
  rintro _ (err | _) rfl
  · rfl
  dsimp only
  split
  · have revoke : Obeys (conduct runtime) (fun now _ => now = (op, .listed orphans)) (op, .listed orphans)
        (await (ask (.revokeSession orphan.session s!"Recover orphaned identity flow {orphan.flowId}."))) :=
      obeys_await ⟨mem_map_of_mem among, fun _ _ => rfl⟩
    refine obeys_bind.mpr (revoke.weaken ?_)
    rintro _ (_ | _) rfl
    · rfl
    · exact resolve _
  · exact resolve _

theorem obeys_reconcileOrphans (limit : Int) : Obeys (conduct runtime) (fun _ _ => True) (op, .idle)
    (reconcileOrphans runtime limit) := by
  refine obeys_check_bind (fun _ _ => trivial) fun bounded _ => ?_
  refine obeys_request trivial fun orphans _ => ?_
  have loop : Obeys (conduct runtime) (fun now _ => now = (op, .listed orphans))
      (op, .listed orphans) (Program.collect orphans fun orphan => do
        Program.check (requireProvider runtime orphan.provider)
        (reconcileOrphan runtime orphan).attempt) := by
    refine obeys_collect (fun phase => phase = (op, Stage.listed orphans)) rfl ?_
    rintro _ among _ rfl
    refine obeys_check_bind (fun _ _ => rfl) fun _ _ => ?_
    exact obeys_attempt.mpr (obeys_reconcileOrphan among)
  refine obeys_bind.mpr (loop.weaken ?_)
  rintro _ (_ | _) rfl <;> trivial

theorem conducted (op : Operation) : Obeys (conduct runtime) (fun _ _ => True) (op, .idle)
    (op.body runtime) := by
  have ends : ∀ {α : Type} {prog : IdentityProgram α}, Obeys (conduct runtime) (fun _ _ => True) (op, .idle) prog →
      Obeys (conduct runtime) (fun _ _ => True) (op, .idle) (do let _ ← prog) := by
    intro α prog obeys
    refine obeys_bind.mpr (obeys.weaken ?_)
    rintro _ (_ | _) - <;> trivial
  cases op with
  | complete input => exact ends (obeys_complete input)
  | transition input => exact ends (obeys_transition input)
  | cancel flowId binding => exact ends (obeys_cancel flowId binding)
  | reconcileOrphans limit => exact ends (obeys_reconcileOrphans limit)

end

/-- Flows move on by versions, and what was told, given up or contained stays so. -/
structure World.Follows (world world' : World) : Prop where
  told : ∀ now ∈ world.told, now ∈ world'.told
  flows : ∀ id stored, world.flows id = some stored → ∃ stored', world'.flows id = some stored' ∧
    (stored' = stored ∨ stored.version < stored'.version)
  givenUp : ∀ session ∈ world.givenUp, session ∈ world'.givenUp
  revoked : ∀ session ∈ world.revoked, session ∈ world'.revoked
  orphans : ∀ orphan ∈ world.orphans.rows, ∃ orphan' ∈ world'.orphans.rows, orphan'.session = orphan.session

/-- Admitted sessions are not given up, but revoked and orphaned ones are. -/
structure World.Sound (runtime : Runtime) (asked : Admission → Prop) (world : World) : Prop where
  flows : ∀ id flow, world.flows id = some flow → flow.id = id ∧ flow.provider ∈ runtime.providers
  consumed : ∀ receipt ∈ world.receipts.rows, ∃ flow, world.flows receipt.flowId = some flow ∧ flow.state = .consumed
  once : ∀ first ∈ world.receipts.rows, ∀ second ∈ world.receipts.rows, first.flowId = second.flowId →
    first = second
  admitted : ∀ receipt ∈ world.receipts.rows, receipt.session ∉ world.givenUp
  revoked : ∀ session ∈ world.revoked, session ∈ world.givenUp
  orphans : ∀ orphan ∈ world.orphans.rows, orphan.session ∈ world.givenUp ∧
    ∃ input, asked input ∧ orphan.id = orphanId runtime input ∧ orphan.session = input.completion.session
  ended : ∀ session ∈ world.ended, world.Contains session

namespace World

def Holds (world : World) : Stage → Prop
  | .idle | .failed _ => True
  | .timed now => now ∈ world.told
  | .seen flow time => (∀ now, time = some now → now ∈ world.told) ∧
    ∃ stored, world.flows flow.id = some stored ∧ (stored = flow ∨ flow.version < stored.version)
  | .containing session => session ∈ world.givenUp
  | .contained session => world.Contains session
  | .listed orphans => ∀ orphan ∈ orphans, orphan.session ∈ world.givenUp

variable {asked : Admission → Prop}

theorem Follows.refl (world : World) : world.Follows world where
  told _ told := told
  flows _ stored here := ⟨stored, here, .inl rfl⟩
  givenUp _ given := given
  revoked _ revoked := revoked
  orphans orphan among := ⟨orphan, among, rfl⟩

theorem Contains.follows (contains : world.Contains session) (follows : world.Follows world') :
    world'.Contains session := by
  rcases contains with revoked | ⟨orphan, among, rfl⟩
  · exact .inl (follows.revoked session revoked)
  · exact .inr (follows.orphans orphan among)

theorem Holds.follows (holds : world.Holds stage) (follows : world.Follows world') : world'.Holds stage := by
  cases stage with
  | idle | failed session => trivial
  | timed now => exact follows.told now holds
  | seen =>
    obtain ⟨told, stored, here, later⟩ := holds
    refine ⟨fun now is => follows.told now (told now is), ?_⟩
    obtain ⟨stored', there, rfl | newer⟩ := follows.flows _ stored here
    · exact ⟨stored', there, later⟩
    refine ⟨stored', there, .inr ?_⟩
    rcases later with rfl | later
    · exact newer
    · exact later.trans newer
  | containing session => exact follows.givenUp session holds
  | contained => exact Contains.follows holds follows
  | listed => exact fun orphan among => follows.givenUp _ (holds orphan among)

theorem Holds.current (holds : world.Holds (.seen flow time)) (here : world.flows flow.id = some stored)
    (same : stored.version = flow.version) : stored = flow := by
  obtain ⟨-, _, there, later⟩ := holds
  rw [here] at there
  cases there
  rcases later with rfl | newer
  · rfl
  · exact absurd same newer.ne'

variable (sound : world.Sound runtime asked)
include sound

theorem Sound.exclusive : world.Exclusive where
  once := sound.once
  consumed := sound.consumed
  admitted receipt among := by
    refine ⟨fun revoked => sound.admitted receipt among (sound.revoked _ revoked),
      fun orphan listed _ same => sound.admitted receipt among ?_⟩
    rw [← same]
    exact (sound.orphans orphan listed).1
  contained := sound.ended

theorem Sound.setFlow {next : Flow} (here : world.flows next.id = some flow) (active : flow.state = .active)
    (provider : next.provider = flow.provider) (later : flow.version < next.version) :
    Sound runtime asked { world with flows := update world.flows next.id (some next) } ∧
      world.Follows { world with flows := update world.flows next.id (some next) } := by
  have follows : world.Follows { world with flows := update world.flows next.id (some next) } := by
    refine { Follows.refl world with flows := fun id stored there => ?_ }
    by_cases same : id = next.id
    · subst same
      rw [here] at there
      cases there
      exact ⟨next, update_self .., .inr later⟩
    · exact ⟨stored, (update_of_ne same ..).trans there, .inl rfl⟩
  refine ⟨{ sound with flows := fun id stored there => ?_, consumed := fun receipt among => ?_
                       ended := fun session ended => (sound.ended session ended).follows follows }, follows⟩
  · by_cases same : id = next.id
    · subst same
      change update world.flows next.id (some next) next.id = some stored at there
      rw [update_self] at there
      cases there
      exact ⟨rfl, provider ▸ (sound.flows _ flow here).2⟩
    · exact sound.flows id stored ((update_of_ne same ..).symm.trans there)
  · obtain ⟨stored, there, consumed⟩ := sound.consumed receipt among
    refine ⟨stored, (update_of_ne ?_ ..).trans there, consumed⟩
    intro same
    rw [same, here] at there
    cases there
    rw [active] at consumed
    cases consumed

theorem Sound.storeReceipt (here : world.flows receipt.flowId = some flow) (consumed : flow.state = .consumed)
    (first : ∀ other ∈ world.receipts.rows, other.flowId ≠ receipt.flowId) (kept : receipt.session ∉ world.givenUp) :
    Sound runtime asked { world with receipts := world.receipts.put receipt } := by
  have among : ∀ stored ∈ (world.receipts.put receipt).rows, stored = receipt ∨ stored ∈ world.receipts.rows := by
    intro stored listed
    rcases Table.mem_put.mp listed with rfl | ⟨before, -⟩
    · exact .inl rfl
    · exact .inr before
  refine { sound with consumed := fun stored listed => ?_, once := fun one listed two listed' same => ?_
                      admitted := fun stored listed => ?_, ended := sound.ended }
  · rcases among stored listed with rfl | before
    · exact ⟨flow, here, consumed⟩
    · exact sound.consumed stored before
  · rcases among one listed with rfl | before <;> rcases among two listed' with rfl | before'
    · rfl
    · exact absurd same.symm (first two before')
    · exact absurd same (first one before)
    · exact sound.once one before two before' same
  · rcases among stored listed with rfl | before
    · exact kept
    · exact sound.admitted stored before

theorem Sound.giveUp (apart : ∀ receipt ∈ world.receipts.rows, receipt.session ≠ session) :
    Sound runtime asked { world with givenUp := session :: world.givenUp } :=
  { sound with
    admitted := fun receipt among given => by
      rcases mem_cons.mp given with same | before
      · exact apart receipt among same
      · exact sound.admitted receipt among before
    revoked := fun session revoked => mem_cons_of_mem _ (sound.revoked session revoked)
    orphans := fun orphan among =>
      ⟨mem_cons_of_mem _ (sound.orphans orphan among).1, (sound.orphans orphan among).2⟩
    ended := sound.ended }

theorem Sound.revoke (given : session ∈ world.givenUp) :
    Sound runtime asked { world with revoked := session :: world.revoked } ∧
      world.Follows { world with revoked := session :: world.revoked } := by
  have follows : world.Follows { world with revoked := session :: world.revoked } :=
    { Follows.refl world with revoked := fun _ revoked => mem_cons_of_mem _ revoked }
  refine ⟨{ sound with revoked := fun other revoked => ?_
                       ended := fun other ended => (sound.ended other ended).follows follows }, follows⟩
  rcases mem_cons.mp revoked with rfl | before
  · exact given
  · exact sound.revoked other before

theorem Sound.putOrphan (given : orphan.session ∈ world.givenUp)
    (of : ∃ input, asked input ∧ orphan.id = orphanId runtime input ∧ orphan.session = input.completion.session)
    (same : ∀ before ∈ world.orphans.rows, before.id = orphan.id → before.session = orphan.session) :
    Sound runtime asked { world with orphans := world.orphans.put orphan } ∧
      world.Follows { world with orphans := world.orphans.put orphan } := by
  have follows : world.Follows { world with orphans := world.orphans.put orphan } := by
    refine { Follows.refl world with orphans := fun before among => ?_ }
    by_cases replaced : before.id = orphan.id
    · exact ⟨orphan, Table.mem_put.mpr (.inl rfl), (same before among replaced).symm⟩
    · exact ⟨before, Table.mem_put.mpr (.inr ⟨among, replaced⟩), rfl⟩
  refine ⟨{ sound with orphans := fun other among => ?_
                       ended := fun other ended => (sound.ended other ended).follows follows }, follows⟩
  rcases Table.mem_put.mp among with rfl | ⟨before, -⟩
  · exact ⟨given, of⟩
  · exact sound.orphans other before

end World

open World (answer)

section
variable {asked : Admission → Prop} {operation : Operation}

namespace World

theorem write_spec {α : Type} (choice : Choice) (world : World) (written : Except Failure (α × World)) :
    (∃ err, world.write choice written = (.error err, world)) ∨
      ∃ value after, written = .ok (value, after) ∧ choice.takes = true ∧
        (world.write choice written = (.ok value, after) ∨
          ∃ err, world.write choice written = (.error err, after)) := by
  unfold write
  split
  · next takes =>
    cases written with
    | error err => exact .inl ⟨err, rfl⟩
    | ok done =>
      refine .inr ⟨done.1, done.2, rfl, takes, ?_⟩
      dsimp only
      split
      · exact .inl rfl
      · exact .inr ⟨_, rfl⟩
  · exact .inl ⟨_, rfl⟩

theorem replaceFlow_ok {next : Flow} (done : world.replaceFlow next expectedVersion = .ok world') : ∃ cur,
      world.flows next.id = some cur ∧ cur.version = expectedVersion ∧ next.version = expectedVersion + 1 ∧
        world' = { world with flows := update world.flows next.id (some next) } := by
  unfold replaceFlow at done
  split at done
  · cases done
  next cur here =>
  split at done
  · cases done
  next same =>
  split at done
  · cases done
  · next advances =>
    exact ⟨cur, here, by simpa using same, by simpa using advances, (ok.inj done).symm⟩

theorem commitAdmission_ok {next : Flow}
    (done : world.commitAdmission next expectedFlowVersion receipt = .ok (answered, world')) :
    (∃ replay, world.receipts.find? receipt.providerCompletionKey = some replay) ∧ world' = world ∨
      world.Commits next expectedFlowVersion receipt ∧ ∃ cur,
      world.flows next.id = some cur ∧ cur.version = expectedFlowVersion ∧
        next.version = expectedFlowVersion + 1 ∧ next.state = .consumed ∧
        world' = { world with
          flows := update world.flows next.id (some next)
          receipts := world.receipts.put receipt } := by
  have whole := done
  unfold commitAdmission at done
  split at done
  · next replay found =>
    split at done
    · exact .inl ⟨⟨replay, found⟩, (Prod.mk.inj (ok.inj done)).2.symm⟩
    · cases done
  next absent =>
  split at done
  · cases done
  next cur here =>
  split at done
  · cases done
  next same =>
  split at done
  · cases done
  next advances =>
  simp only [Bool.or_eq_true, decide_eq_true_eq, not_or, not_not] at advances
  exact .inr ⟨⟨absent, _, whole⟩, cur, here, by simpa using same, advances.1, advances.2,
    (Prod.mk.inj (ok.inj done)).2.symm⟩

theorem resolveOrphan_ok {orphanId : String}
    (done : world.resolveOrphan orphanId expectedVersion state resolvedAt = .ok (answered, world'))
    : ∃ cur ∈ world.orphans.rows, answered.id = cur.id ∧
        answered.session = cur.session ∧ world' = { world with orphans := world.orphans.put answered } := by
  unfold resolveOrphan at done
  split at done
  · cases done
  next cur here =>
  split at done
  · cases done
  · cases ok.inj done
    exact ⟨cur, (Table.find?_eq_some.mp here).1, rfl, rfl, rfl⟩

end World

structure Knows (asked : Admission → Prop) (world : World) (operation : Operation)
    (phase : Operation × Stage) : Prop where
  same : phase.1 = operation
  asked : ∀ input, operation = .complete input → asked input
  holds : world.Holds phase.2

theorem Knows.follows (knows : Knows asked world op phase) (follows : world.Follows world')
    : Knows asked world' op phase :=
  { knows with holds := knows.holds.follows follows }

namespace World

theorem Sound.replaceFlow {next : Flow} (sound : world.Sound runtime asked)
    (holds : world.Holds (.seen flow time)) (active : flow.state = .active) (id : next.id = flow.id)
    (provider : next.provider = flow.provider) (done : world.replaceFlow next flow.version = .ok world') :
    world'.Sound runtime asked ∧ world.Follows world' := by
  obtain ⟨cur, here, same, _, rfl⟩ := replaceFlow_ok done
  obtain rfl := holds.current (id ▸ here) same
  exact sound.setFlow here active provider (by omega)

theorem Sound.commitAdmission {next : Flow} (sound : world.Sound runtime asked) (holds : world.Holds (.seen flow time))
    (commits : CommitsOn runtime op flow time next expectedFlowVersion receipt input now)
    (careful : world.Commits next expectedFlowVersion receipt → receipt.session ∉ world.givenUp)
    (done : world.commitAdmission next expectedFlowVersion receipt = .ok (answered, world')) :
    world'.Sound runtime asked ∧ world.Follows world' := by
  rcases commitAdmission_ok done with
    ⟨-, rfl⟩ | ⟨stores, cur, here, same, -, isConsumed, rfl⟩
  · exact ⟨sound, .refl _⟩
  obtain ⟨consumedAt, rfl⟩ := commits.next
  obtain rfl := holds.current here (same.trans commits.version)
  have later : cur.version < (Admission.consumed runtime cur consumedAt).version := Nat.lt_succ_self _
  obtain ⟨kept, follows⟩ := sound.setFlow here commits.active rfl later
  have there : update world.flows cur.id (some (Admission.consumed runtime cur consumedAt))
      receipt.flowId = some (Admission.consumed runtime cur consumedAt) := by
    rw [commits.receiptFlow, update_self]
  have first : ∀ other ∈ world.receipts.rows, other.flowId ≠ receipt.flowId := by
    intro other among same
    obtain ⟨_, there, state⟩ := sound.consumed other among
    rw [same, commits.receiptFlow] at there
    cases there.symm.trans here
    rw [commits.active] at state
    cases state
  exact ⟨kept.storeReceipt there isConsumed first (careful stores), { follows with }⟩

theorem Sound.recordOrphan (sound : world.Sound runtime asked) (distinguishes : Distinguishes runtime asked)
    (given : orphan.session ∈ world.givenUp) (of : asked input) (id : orphan.id = orphanId runtime input)
    (session : input.completion.session = orphan.session) :
    (world.recordOrphan orphan).Sound runtime asked ∧ world.Follows (world.recordOrphan orphan) ∧
      (world.recordOrphan orphan).Contains orphan.session := by
  unfold World.recordOrphan
  split
  · next before here =>
    obtain ⟨among, same⟩ := Table.find?_eq_some.mp here
    obtain ⟨-, input', of', id', session'⟩ := sound.orphans before among
    have same : before.id = orphan.id := same
    refine ⟨sound, .refl world, .inr ⟨before, among, ?_⟩⟩
    rw [session', ← session]
    exact distinguishes input' input of' of (id' ▸ id ▸ same)
  · next absent =>
    obtain ⟨kept, follows⟩ := sound.putOrphan given ⟨input, of, id, session.symm⟩ fun before among same =>
      absurd same (Table.find?_eq_none.mp absent before among)
    exact ⟨kept, follows, .inr ⟨orphan, Table.mem_put.mpr (.inl rfl), rfl⟩⟩

theorem Sound.resolveOrphan {orphanId : String} (sound : world.Sound runtime asked)
    (done : world.resolveOrphan orphanId expectedVersion state resolvedAt = .ok (answered, world')) :
    world'.Sound runtime asked ∧ world.Follows world' := by
  obtain ⟨cur, among, id, session, rfl⟩ := resolveOrphan_ok done
  obtain ⟨given, input, of, id', session'⟩ := sound.orphans cur among
  refine sound.putOrphan (session ▸ given) ⟨input, of, id.trans id', session.trans session'⟩ ?_
  intro before listed same
  rw [Table.eq_of_key_eq listed among (same.trans id), session]

end World

theorem afterwards_fst (phase : Operation × Stage) (req : Request) (reply : req.Reply) :
    (afterwards phase req reply).1 = phase.1 := by
  unfold afterwards
  split <;> rfl

variable {phase : Operation × Stage}

theorem Knows.next (knows : Knows asked world op phase) (holds : world'.Holds (afterwards phase req reply).2) :
    Knows asked world' op (afterwards phase req reply) :=
  ⟨(afterwards_fst phase req reply).trans knows.same, knows.asked, holds⟩

/-- An answer leaves the world in order, and what its caller then holds is so. -/
structure Proper (runtime : Runtime) (asked : Admission → Prop) (world : World) (phase : Operation × Stage)
    (request : Request) (answer : request.Reply × World) : Prop where
  sound : answer.2.Sound runtime asked
  follows : world.Follows answer.2
  holds : answer.2.Holds (afterwards phase request answer.1).2

theorem Proper.of_write {α : Type} (phase : Operation × Stage) (req : Request) (choice : Choice)
    (written : Except Failure (α × World)) (reply : Except Failure α → req.Reply) (sound : world.Sound runtime asked)
    (holds : world.Holds phase.2) (stays : ∀ answer, afterwards phase req (reply answer) = phase)
    (done : ∀ value after, written = .ok (value, after) → after.Sound runtime asked ∧ world.Follows after) :
    Proper runtime asked world phase req
      (reply (world.write choice written).1, (world.write choice written).2) := by
  rcases World.write_spec choice world written with
    ⟨err, is⟩ | ⟨value, after, is, -, answered | ⟨err, answered⟩⟩
  · rw [is]
    exact ⟨sound, .refl world, (stays _).symm ▸ holds⟩
  all_goals
    obtain ⟨kept, follows⟩ := done value after is
    rw [answered]
    exact ⟨kept, follows, (stays _).symm ▸ holds.follows follows⟩

theorem Proper.clock (choice : Choice) (sound : world.Sound runtime asked)
    (holds : world.Holds phase.2) : Proper runtime asked world phase .clock (answer .clock choice world) := by
  have follows : world.Follows { world with told := choice.now :: world.told } :=
    { World.Follows.refl world with told := fun _ told => mem_cons_of_mem _ told }
  refine ⟨{ sound with ended := sound.ended }, follows, ?_⟩
  obtain ⟨_, stage⟩ := phase
  cases stage with
  | idle => exact mem_cons_self
  | timed now | seen flow time | failed session | containing session | contained session | listed orphans =>
    exact World.Holds.follows holds follows

theorem Proper.getFlow (flowId : String) (choice : Choice)
    (sound : world.Sound runtime asked) (holds : world.Holds phase.2) :
    Proper runtime asked world phase (.getFlow flowId) (answer (.getFlow flowId) choice world) := by
  refine ⟨sound, .refl world, ?_⟩
  obtain ⟨_, stage⟩ := phase
  rw [answer]
  cases here : world.flows flowId with
  | none => cases stage <;> exact holds
  | some flow =>
    have stored : world.flows flow.id = some flow := by rw [(sound.flows flowId flow here).1, here]
    cases stage with
    | idle => exact ⟨nofun, flow, stored, .inl rfl⟩
    | timed now =>
      refine ⟨fun other same => ?_, flow, stored, .inl rfl⟩
      cases same
      exact holds
    | seen flow time | failed session | containing session | contained session | listed orphans => exact holds

theorem Proper.listPendingOrphans (limit : Nat) (choice : Choice) (sound : world.Sound runtime asked)
    (holds : world.Holds phase.2) : Proper runtime asked world phase (.listPendingOrphans limit)
      (answer (.listPendingOrphans limit) choice world) := by
  refine ⟨sound, .refl world, ?_⟩
  obtain ⟨_, stage⟩ := phase
  cases stage with
  | idle =>
    intro orphan among
    have listed := mem_mergeSort.mp (mem_of_mem_take among)
    exact (sound.orphans orphan (mem_of_mem_filter listed)).1
  | timed now | seen flow time | failed session | containing session | contained session | listed orphans =>
    exact holds

theorem Proper.recover (choice : Choice) (sound : world.Sound runtime asked) (failed : phase.2 = .failed session)
    (careful : world.Careful choice (.recover completionKey session)) :
    Proper runtime asked world phase (.recover completionKey session)
      (answer (.recover completionKey session) choice world) := by
  obtain ⟨_, stage⟩ := phase
  obtain rfl : stage = .failed session := failed
  rw [answer]
  cases here : world.receipts.find? completionKey with
  | some => exact ⟨sound, .refl world, trivial⟩
  | none =>
    have follows : world.Follows { world with givenUp := session :: world.givenUp } :=
      { World.Follows.refl world with givenUp := fun _ given => mem_cons_of_mem _ given }
    exact ⟨sound.giveUp (careful here), follows, mem_cons_self⟩

theorem Proper.revokeSession (choice : Choice) (sound : world.Sound runtime asked) (holds : world.Holds phase.2)
    (among : session ∈ phase.2.sessions) : Proper runtime asked world phase (.revokeSession session reason)
      (answer (.revokeSession session reason) choice world) := by
  obtain ⟨op, stage⟩ := phase
  cases stage with
  | idle | timed now | seen flow time | failed other | contained other => cases among
  | listed orphans =>
    refine Proper.of_write (op, .listed orphans) (.revokeSession session reason) choice
      (.ok ((), { world with revoked := session :: world.revoked })) (fun reply => reply) sound holds
      (fun _ => rfl) fun value after is => ?_
    cases ok.inj is
    obtain ⟨orphan, listed, rfl⟩ := mem_map.mp among
    exact sound.revoke (holds orphan listed)
  | containing other =>
    obtain rfl := mem_singleton.mp among
    obtain ⟨kept, follows⟩ := sound.revoke holds
    rcases World.write_spec choice world (.ok ((), { world with revoked := session :: world.revoked })) with
      ⟨err, is⟩ | ⟨value, after, is, -, answered | ⟨err, answered⟩⟩
    · rw [answer, is]
      exact ⟨sound, .refl world, holds⟩
    · obtain ⟨-, rfl⟩ := Prod.mk.inj (ok.inj is)
      rw [answer, answered]
      exact ⟨kept, follows, .inl mem_cons_self⟩
    · obtain ⟨-, rfl⟩ := Prod.mk.inj (ok.inj is)
      rw [answer, answered]
      exact ⟨kept, follows, follows.givenUp session holds⟩

theorem answer_proper (req : Request) (choice : Choice) (distinguishes : Distinguishes runtime asked)
    (sound : world.Sound runtime asked) (knows : Knows asked world op phase) (permitted : permits runtime phase req)
    (careful : world.Careful choice req) : Proper runtime asked world phase req (answer req choice world) := by
  obtain ⟨operation', stage⟩ := phase
  obtain rfl : operation' = op := knows.same
  have holds : world.Holds stage := knows.holds
  cases req with
  | clock => exact .clock choice sound holds
  | getFlow flowId => exact .getFlow flowId choice sound holds
  | listPendingOrphans limit => exact .listPendingOrphans limit choice sound holds
  | getAdmissionReceipt completionKey | sessionState session | admitPrincipal completion flow ctx =>
    refine ⟨sound, .refl world, ?_⟩
    cases stage <;> exact holds
  | replaceFlow next =>
    obtain ⟨flow, time, rfl, rfl, active, id, provider⟩ := permitted
    have done : ∀ value after, (world.replaceFlow next flow.version).map (next, ·) = .ok (value, after) →
        after.Sound runtime asked ∧ world.Follows after := by
      intro value after is
      cases replaced : world.replaceFlow next flow.version with
      | error =>
        rw [replaced] at is
        cases is
      | ok world' =>
        rw [replaced] at is
        obtain ⟨-, rfl⟩ := Prod.mk.inj (ok.inj is)
        exact sound.replaceFlow holds active id provider replaced
    exact .of_write (_, .seen flow time) (.replaceFlow next flow.version) choice _ (fun reply => reply) sound
      holds (fun _ => rfl) done
  | commitAdmission next expectedFlowVersion receipt =>
    obtain ⟨_, _, input, _, rfl, commits⟩ := permitted
    rw [answer]
    rcases World.write_spec choice world (world.commitAdmission next expectedFlowVersion receipt) with
      ⟨err, is⟩ | ⟨value, after, is, takes, answered | ⟨err, answered⟩⟩
    · rw [is]
      exact ⟨sound, .refl world, trivial⟩
    · obtain ⟨kept, follows⟩ := sound.commitAdmission holds commits (careful takes) is
      rw [answered]
      exact ⟨kept, follows, holds.follows follows⟩
    · obtain ⟨kept, follows⟩ := sound.commitAdmission holds commits (careful takes) is
      rw [answered]
      exact ⟨kept, follows, trivial⟩
  | recover => exact .recover choice sound permitted careful
  | revokeSession => exact .revokeSession choice sound holds permitted
  | recordOrphan orphan =>
    obtain ⟨containing, input, rfl, session, id⟩ := permitted
    obtain rfl : stage = .containing orphan.session := containing
    obtain ⟨kept, follows, contains⟩ :=
      sound.recordOrphan distinguishes holds (knows.asked input rfl) id session
    exact ⟨kept, follows, contains⟩
  | resolveOrphan orphanId expectedVersion state resolvedAt =>
    refine .of_write (_, stage) (.resolveOrphan orphanId expectedVersion state resolvedAt) choice _
      (fun reply => reply) sound holds (fun _ => ?_) fun value after is => sound.resolveOrphan is
    cases stage <;> rfl
  | orphaned session =>
    obtain rfl : stage = .contained session := permitted
    refine ⟨{ sound with ended := fun other ended => ?_ }, { World.Follows.refl world with }, holds⟩
    rcases mem_cons.mp ended with rfl | before
    · exact holds
    · exact sound.ended other before

end

section
variable (runtime : Runtime) (asked : Admission → Prop)

/-- The care is taken, and only admissions that are asked for begin. -/
def Allowed (system : System) (event : Event) : Prop :=
  Careful system event ∧ ∀ caller input, event = .start caller (.complete input) → asked input

abbrev Invariant : World → (Nat → Option (Operation × Operation × Stage)) → Prop :=
  Pointwise (World.Sound runtime asked) (Knows asked)

variable {runtime asked}

theorem keeps (distinguishes : Distinguishes runtime asked) :
    Crowd.Keeps server (Operation.body runtime) (conduct runtime) (Invariant runtime asked) (Allowed asked)
      fun op => (op, .idle) := by
  refine Crowd.keeps_pointwise World.Follows conducted ?_ ?_ ?_
  · rintro sys caller op allowed -
    refine ⟨rfl, ?_, trivial⟩
    rintro input rfl
    exact allowed.2 caller input rfl
  · intro world world' op phase knows follows
    exact knows.follows follows
  intro sys caller choice op phase req rest running allowed sound knows permitted
  obtain ⟨kept, follows, holds⟩ := answer_proper req choice distinguishes sound knows permitted
    (allowed.1 op req rest running)
  refine ⟨?_, kept, follows, knows.next holds⟩
  cases req with
  | getFlow flowId =>
    change answers runtime (.getFlow flowId) (sys.world.flows flowId)
    cases here : sys.world.flows flowId with
    | none => trivial
    | some flow => exact sound.flows flowId flow here
  | _ => trivial

theorem kept_start (issued : world.Issued runtime) :
    Crowd.Kept (conduct runtime) (Invariant runtime asked) ({ world } : System) := by
  refine kept_empty ⟨?_, fun _ _ _ here => (some_ne_none _ here.symm).elim⟩
  obtain ⟨flows, empty⟩ := issued
  rw [empty]
  exact ⟨fun id flow here => ⟨(flows id flow here).1, (flows id flow here).2.2⟩,
    nofun, nofun, nofun, nofun, nofun, nofun⟩

theorem consumesRightly (kept : sys.Kept (conduct runtime) (Invariant runtime asked)) (event : Event)
    : ConsumesRightly runtime sys event := by
  obtain ⟨_, conducted, _, agrees⟩ := kept
  cases event with
  | start caller op | stop caller => trivial
  | step caller choice =>
    intro op next expectedFlowVersion receipt rest running stores
    obtain ⟨phase, here, permitted, -⟩ := conducted.obeys caller _ _ running
    have knows := agrees caller op phase here
    obtain ⟨operation', _⟩ := phase
    obtain rfl : operation' = op := knows.same
    obtain ⟨flow, time, input, now, rfl, commits⟩ := permitted
    have holds : sys.world.Holds (.seen flow time) := knows.holds
    obtain ⟨absent, ⟨_, _⟩, done⟩ := stores
    obtain ⟨⟨_, found⟩, -⟩ | ⟨-, cur, there, same, -, -, -⟩ := World.commitAdmission_ok done
    · rw [absent] at found
      cases found
    obtain ⟨_, rfl⟩ := commits.next
    obtain rfl := holds.current there (same.trans commits.version)
    refine ⟨input, cur, now, commits.operation, commits.flowId ▸ there, commits.active, commits.bound,
      commits.alive, ?_⟩
    have time := commits.time
    cases given : input.context.now with
    | some given' => rwa [given] at time
    | none =>
      rw [given] at time
      exact holds.1 now time

/-- Where no session is admitted that a call has given up, and none given up that was admitted under another
key, admission and containment exclude one another, and flows are consumed rightly. -/
theorem admission_excludes_containment (runtime : Runtime) (world : World) (events : List Event)
    (issued : world.Issued runtime) (distinguishes : Distinguishes runtime (Begins events))
    (careful : EachStep (next runtime) Careful { world } events) :
    (runFrom (next runtime) { world } events).world.Exclusive ∧
      EachStep (next runtime) (ConsumesRightly runtime) { world } events := by
  have allowed : EachStep (next runtime) (Allowed (Begins events)) { world } events := by
    have begins : EachStep (next runtime) (fun _ event => event ∈ events) { world } events :=
      eachStep_of_forall fun _ => id
    refine (careful.and begins).imp fun event _ system met => ⟨met.1, ?_⟩
    rintro caller _ rfl
    exact ⟨caller, met.2⟩
  have steps := eachStep_of_steps (Crowd.Kept (conduct runtime) (Invariant runtime (Begins events)))
    (fun _ event kept allowed => (keeps distinguishes).advance event kept allowed) (kept_start issued) allowed
  obtain ⟨_, -, sound, -⟩ := (keeps distinguishes).run (kept_start issued) allowed
  exact ⟨sound.exclusive, steps.imp fun event _ system met => consumesRightly met.1 event⟩

end

private def plainRuntime : Runtime where
  dates := utcDates
  sha256 := id
  hmac kind value := kind ++ value
  providers := ["acme"]

private def plainBinding : Binding := ⟨"browser", "csrf", "continuity", none⟩

private def issuedFlow (id : String) : Flow where
  id := id
  provider := "acme"
  providerFlowId := "login-" ++ id
  browserBindingDigest := "browserbrowser"
  csrfBindingDigest := "csrfcsrf"
  providerContinuityDigest := "provider-continuitycontinuity"
  networkBindingDigest := none
  oauth := none
  allowedTransitions := []
  completedTransitions := []
  state := .active
  attempts := 0
  maximumAttempts := 3
  expiresAt := "2026-07-01T01:00:00Z"
  version := 1

private def admission (flowId : String) : Admission where
  flowId := flowId
  binding := plainBinding
  completion := {
    provider := "acme"
    providerFlowId := "login-" ++ flowId
    providerSessionId := "session-" ++ flowId
    providerIdentity := ⟨"ada", "human", "https://acme", "ada"⟩
    authenticationMethod := "password"
    assurance := []
    completedAt := "2026-07-01T00:00:00Z"
    expiresAt := none }
  context := ⟨"catalog", "authority", "context", utcDates.parse "2026-07-01T00:30:00Z"⟩

private def issued : World where
  flows id := if id = "one" ∨ id = "two" then some (issuedFlow id) else none

private theorem issued_issued : issued.Issued plainRuntime := by
  refine ⟨fun id flow here => ?_, rfl⟩
  change (if id = "one" ∨ id = "two" then some (issuedFlow id) else none) = some flow at here
  split at here
  · cases here
    exact ⟨rfl, rfl, mem_singleton.mpr rfl⟩
  · cases here

private def plainChoice (takes : Bool) : Choice where
  now := 0
  takes
  answers := true
  principal := .ok ⟨"ada", "human", "context", "catalog", "authority"⟩
  state := .ok .revoked

private def steps (caller count : Nat) : List Event := List.replicate count (.step caller (plainChoice true))
private def fails (caller : Nat) : List Event := steps caller 3 ++ [.step caller (plainChoice false)]

private def retried : List Event :=
  [.start 0 (.complete (admission "one"))] ++ fails 0 ++ steps 0 3 ++
    [.start 1 (.complete (admission "one"))] ++ steps 1 4

private def reconciled : List Event :=
  [.start 0 (.complete (admission "one"))] ++ steps 0 5 ++ [.start 1 (.complete (admission "one"))] ++ steps 1 3 ++
    [.start 2 (.complete (admission "two"))] ++ fails 2 ++ steps 2 1 ++ [.step 2 (plainChoice false)] ++
    steps 2 3 ++ [.start 3 (.reconcileOrphans 10)] ++ steps 3 4

private theorem begins_retried {input : Admission} (begins : Begins retried input) : input = admission "one" := by
  obtain ⟨_, among⟩ := begins
  simp [retried, fails, steps] at among
  rcases among with ⟨-, same⟩ | ⟨-, same⟩ <;> exact same

private theorem begins_reconciled {input : Admission} (begins : Begins reconciled input) :
    input = admission "one" ∨ input = admission "two" := by
  obtain ⟨_, among⟩ := begins
  simp [reconciled, fails, steps] at among
  rcases among with ⟨-, same⟩ | ⟨-, same⟩ | ⟨-, same⟩
  · exact .inl same
  · exact .inl same
  · exact .inr same

/-- An admitted session is revoked. -/
theorem admitted_session_is_revoked : issued.Issued plainRuntime ∧ Distinguishes plainRuntime (Begins retried) ∧
      ¬ (runFrom (next plainRuntime) { world := issued } retried).world.Exclusive := by
  refine ⟨issued_issued, ?_, fun exclusive => ?_⟩
  · intro one two asked asked' _
    rw [begins_retried asked, begins_retried asked']
  have admitted : ∃ receipt ∈ (runFrom (next plainRuntime) { world := issued } retried).world.receipts.rows,
      receipt.session ∈ (runFrom (next plainRuntime) { world := issued } retried).world.revoked := by
    decide +kernel
  obtain ⟨receipt, among, revoked⟩ := admitted
  exact (exclusive.admitted receipt among).1 revoked

theorem admission_excludes_containment_reconciled :
    (runFrom (next plainRuntime) { world := issued } reconciled).world.ended = [⟨"acme", "session-two"⟩] ∧
      (runFrom (next plainRuntime) { world := issued } reconciled).world.Exclusive ∧
      EachStep (next plainRuntime) (ConsumesRightly plainRuntime) { world := issued } reconciled := by
  refine ⟨by decide +kernel,
    admission_excludes_containment plainRuntime issued reconciled issued_issued ?_ (by decide +kernel)⟩
  intro one two asked asked' same
  have apart : orphanId plainRuntime (admission "one") ≠ orphanId plainRuntime (admission "two") := by
    decide +kernel
  rcases begins_reconciled asked with rfl | rfl <;> rcases begins_reconciled asked' with rfl | rfl
  · rfl
  · exact absurd same apart
  · exact absurd same.symm apart
  · rfl

end Applik8s.Admission
