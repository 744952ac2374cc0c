import Applik8s.Lib.Program
import Applik8s.Signals.Records

/-! `runApplicationSignalOutboxRelay`, as a program that talks to its store, its publisher
and its clock. Whatever they answer, a fact is acknowledged only after it was published. -/
namespace Applik8s.Signals
open Lib List
open Program (bind_keeps)

structure RelayOptions where
  batchSize : Option Int := none
  idleMs : Option Int := none

inductive RelayCall where
  | aborted
  | now
  | expireDue (now : String) (limit : Int)
  | pendingOutbox (limit : Int)
  | publish (fact : OutboxFact)
  | acknowledgeOutbox (ids : List String)
  | onError (failure : Failure)
  | sleep (milliseconds : Int)

@[reducible] def RelayCall.Reply : RelayCall → Type
  | .aborted => Bool
  | .now => String
  | .expireDue .. => Except Failure (List String)
  | .pendingOutbox _ => Except Failure (List OutboxFact)
  | .publish _ => Except Failure Unit
  | .acknowledgeOutbox _ => Except Failure Unit
  | .onError _ => Except Failure Unit
  | .sleep _ => Except Failure Unit

abbrev RelayInterface : Interface := ⟨RelayCall, RelayCall.Reply⟩
abbrev RelayProgram := Program RelayInterface Failure

namespace Relay

def await {α : Type} (request : RelayCall) (outcome : request.Reply → Except Failure α) : RelayProgram α :=
  .call request fun reply => .check (outcome reply)

def aborted : RelayProgram Bool := .call .aborted .done
def now : RelayProgram String := .call .now .done

/-- The loop over the facts of a batch; answers the ids to acknowledge. -/
def publishAll : List OutboxFact → List String → RelayProgram (List String)
  | [], acknowledged => pure acknowledged
  | fact :: rest, acknowledged => do
    if ← aborted then return acknowledged
    else
      await (.publish fact) id
      publishAll rest (acknowledged ++ [fact.id])

/-- The body of the `try`. -/
def relayBatch (batchSize idleMs : Int) : RelayProgram Unit := do
  let now ← now
  let _ ← await (.expireDue now batchSize) id
  let facts ← await (.pendingOutbox batchSize) id
  let acknowledged ← publishAll facts []
  await (.acknowledgeOutbox acknowledged) id
  if facts.length < batchSize then await (.sleep idleMs) id

/-- The `catch`. -/
def recover (idleMs : Int) : Except Failure Unit → RelayProgram Unit
  | .ok _ => pure ()
  | .error failure => do
    await (.onError failure) id
    await (.sleep idleMs) id

/-- The `while` loop, for a number of rounds. -/
def relayRounds (batchSize idleMs : Int) : Nat → RelayProgram Unit
  | 0 => pure ()
  | rounds + 1 => do
    if ← aborted then return ()
    else
      recover idleMs (← (relayBatch batchSize idleMs).attempt)
      relayRounds batchSize idleMs rounds

def assertIdleMs (idleMs : Int) : Except Failure Unit :=
  if idleMs < 1 ∨ idleMs > 60000 then
    .error (.error "Signal outbox idleMs must be between 1 and 60000.")
  else .ok ()

/-- `runApplicationSignalOutboxRelay` up to the end of a round. -/
def runApplicationSignalOutboxRelay (options : RelayOptions) (rounds : Nat) : RelayProgram Unit := do
  let batchSize := options.batchSize.getD 100
  .check (assertSignalBatchSize batchSize)
  let idleMs := options.idleMs.getD 250
  .check (assertIdleMs idleMs)
  relayRounds batchSize idleMs rounds

end Relay

abbrev Exchange := (request : RelayCall) × request.Reply

/-- Whoever the relay talks to answers from all that was said before. -/
def conversation (environment : List Exchange → (request : RelayCall) → request.Reply) :
    Interpreter RelayInterface (List Exchange) where
  answer request said := (environment said request, said ++ [⟨request, environment said request⟩])

def Published (said : List Exchange) (id : String) : Prop :=
  ∃ fact : OutboxFact, fact.id = id ∧ ⟨.publish fact, .ok ()⟩ ∈ said

/-- Whenever facts were acknowledged, each had been published. -/
def AcknowledgesPublished (said : List Exchange) : Prop :=
  ∀ earlier later ids reply, said = earlier ++ ⟨.acknowledgeOutbox ids, reply⟩ :: later →
    ∀ id ∈ ids, Published earlier id

variable {environment : List Exchange → (req : RelayCall) → req.Reply} {said : List Exchange}

theorem Published.later {id : String} (published : Published said id) (more : List Exchange) :
    Published (said ++ more) id := by
  obtain ⟨fact, same, member⟩ := published
  exact ⟨fact, same, mem_append_left _ member⟩

/-- One more call keeps the acknowledgements right, an acknowledgement when its facts were
published. -/
theorem acknowledges_snoc (kept : AcknowledgesPublished said)
    (right : ∀ ids reply, exchange = ⟨.acknowledgeOutbox ids, reply⟩ → ∀ id ∈ ids, Published said id) :
    AcknowledgesPublished (said ++ [exchange]) := by
  intro earlier later ids reply same
  rcases eq_nil_or_concat later with rfl | ⟨before, last, rfl⟩
  · obtain ⟨rfl, own⟩ := append_inj' same rfl
    exact right ids reply (by simpa using own)
  have parts : said ++ [exchange] = (earlier ++ ⟨.acknowledgeOutbox ids, reply⟩ :: before) ++ [last] := by
    simpa using same
  obtain ⟨rfl, _⟩ := append_inj' parts rfl
  exact kept earlier before ids reply rfl

open Relay

@[simp] private theorem exec_await {α : Type} {req : RelayCall} {out : req.Reply → Except Failure α} :
    (await req out).exec (conversation environment) said =
      (out (environment said req), said ++ [⟨req, environment said req⟩]) :=
  Program.exec_check _

private theorem exec_aborted {α : Type} {next : Bool → RelayProgram α} :
    (aborted >>= next).exec (conversation environment) said =
      (next (environment said .aborted)).exec (conversation environment)
        (said ++ [⟨.aborted, environment said .aborted⟩]) := rfl

private theorem acknowledges_other (kept : AcknowledgesPublished said) (other : ∀ ids, req ≠ .acknowledgeOutbox ids)
    (reply : req.Reply) : AcknowledgesPublished (said ++ [⟨req, reply⟩]) :=
  acknowledges_snoc kept fun ids _ same => absurd (congrArg Sigma.fst same) (other ids)

theorem publishAll_published (facts : List OutboxFact) (acknowledged : List String)
    (kept : AcknowledgesPublished said) (published : ∀ id ∈ acknowledged, Published said id) :
    AcknowledgesPublished ((publishAll facts acknowledged).exec (conversation environment) said).2 ∧
      ∀ ids, ((publishAll facts acknowledged).exec (conversation environment) said).1 = .ok ids →
        ∀ id ∈ ids, Published ((publishAll facts acknowledged).exec (conversation environment) said).2 id := by
  induction facts generalizing said acknowledged with
  | nil =>
    refine ⟨kept, fun ids same => ?_⟩
    cases same
    exact published
  | cons fact rest ih =>
    have asked : AcknowledgesPublished (said ++ [⟨.aborted, environment said .aborted⟩]) :=
      acknowledges_other kept (by simp) _
    rw [publishAll, exec_aborted]
    split
    · refine ⟨asked, fun ids same => ?_⟩
      cases same
      exact fun id member => (published id member).later _
    rw [Program.exec_bind, exec_await]
    have told := fun reply => acknowledges_other asked (by simp) (reply : (RelayCall.publish fact).Reply)
    cases environment (said ++ [⟨.aborted, environment said .aborted⟩]) (.publish fact) with
    | error => exact ⟨told _, nofun⟩
    | ok _ =>
      refine ih (acknowledged ++ [fact.id]) (told _) fun id member => ?_
      rcases mem_append.mp member with earlier | last
      · exact ((published id earlier).later _).later _
      · exact ⟨fact, (mem_singleton.mp last).symm, by simp⟩

private theorem relayBatch_keeps (kept : AcknowledgesPublished said) :
    AcknowledgesPublished ((relayBatch batchSize idleMs).exec (conversation environment) said).2 := by
  refine bind_keeps (acknowledges_other kept (by simp) _) fun time said _ kept => ?_
  refine bind_keeps ?_ fun _ said _ kept => ?_
  · rw [exec_await]
    exact acknowledges_other kept (by simp) _
  refine bind_keeps ?_ fun facts said _ kept => ?_
  · rw [exec_await]
    exact acknowledges_other kept (by simp) _
  have batch : AcknowledgesPublished ((publishAll facts []).exec (conversation environment) said).2 ∧ _ :=
    publishAll_published facts [] kept (by simp)
  refine bind_keeps batch.1 fun acknowledged said ran kept => ?_
  rw [ran] at batch
  refine bind_keeps ?_ fun _ said _ kept => ?_
  · rw [exec_await]
    refine acknowledges_snoc kept fun ids reply same => ?_
    cases same
    exact batch.2 acknowledged rfl
  · split
    · rw [exec_await]
      exact acknowledges_other kept (by simp) _
    · exact kept

private theorem relayRounds_keeps (rounds : Nat) (kept : AcknowledgesPublished said) :
    AcknowledgesPublished ((relayRounds batchSize idleMs rounds).exec (conversation environment) said).2 := by
  induction rounds generalizing said with
  | zero => exact kept
  | succ rounds ih =>
    refine bind_keeps (acknowledges_other kept (by simp) _) fun stop said _ kept => ?_
    split
    · exact kept
    refine bind_keeps ?_ fun out said _ kept => ?_
    · rw [Program.exec_attempt]
      exact relayBatch_keeps kept
    refine bind_keeps ?_ fun _ said _ kept => ih kept
    cases out with
    | ok _ => exact kept
    | error =>
      refine bind_keeps ?_ fun _ said _ kept => ?_
      · rw [exec_await]
        exact acknowledges_other kept (by simp) _
      · rw [exec_await]
        exact acknowledges_other kept (by simp) _

/-- However long the relay runs and whatever it is answered, it acknowledges no fact that
it has not published. -/
theorem relay_acknowledges_published (opts : RelayOptions) (rounds : Nat) : AcknowledgesPublished
      ((runApplicationSignalOutboxRelay opts rounds).exec (conversation environment) []).2 := by
  have nothing : AcknowledgesPublished [] := by
    intro earlier later ids reply same
    simp at same
  refine Program.check_bind_keeps nothing fun _ _ => ?_
  exact Program.check_bind_keeps nothing fun _ _ => relayRounds_keeps rounds nothing

end Applik8s.Signals
