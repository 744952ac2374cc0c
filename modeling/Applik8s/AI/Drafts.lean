import Applik8s.AI.Stores

/-! What one operation writes. An operation reads first and writes last, at most one record of each
kind; so what it does is a draft against the state it began in, and both stores carry the draft
out. -/
namespace Applik8s.AI
open Lib

structure Change where
  invocation : Option InvocationRecord := none
  attempt : Option AttemptRecord := none
  delta : Option StreamDelta := none
  proposal : Option ToolProposalRecord := none

def Change.nothing : Change := {}

variable (state : AttemptStoreState)

def AttemptStoreState.apply (change : Change) : AttemptStoreState where
  invocation := change.invocation.or state.invocation
  attempts :=
    match change.attempt with
    | some record => state.attempts.set record.id record
    | none => state.attempts
  deltas :=
    match change.delta with
    | some delta => Function.update state.deltas delta.attemptId (state.deltas delta.attemptId ++ [delta])
    | none => state.deltas
  proposals :=
    match change.proposal with
    | some record => Function.update state.proposals (record.attemptId, record.providerToolCallId) (some record)
    | none => state.proposals

@[simp] theorem apply_nothing : state.apply .nothing = state := rfl

/-- The buffer of a transaction that has written a change. -/
def Buffer.of (change : Change) : Buffer where
  state := state.apply change
  invocationDirty := change.invocation.isSome
  dirtyAttempts := (change.attempt.map AttemptRecord.id).toList
  dirtyDeltas := (change.delta.map fun delta => (delta.attemptId, delta.sequence)).toList
  dirtyProposals :=
    (change.proposal.map fun record => (record.attemptId, record.providerToolCallId)).toList

open Buffer (of)
open AttemptStoreState (apply withAttempt)

section
variable (surroundings : Surroundings)

/-- Reads are answered from the state, writes are noted. -/
def draft (state : AttemptStoreState) : Interpreter Transaction (Change × Drawn) where
  answer
    | .getInvocation, (change, drawn) => (state.invocation, change, drawn)
    | .putInvocation record, (change, drawn) => (.ok (), { change with invocation := some record }, drawn)
    | .listAttempts, (change, drawn) => (state.attempts.map Prod.snd, change, drawn)
    | .getAttempt attemptId, (change, drawn) => (state.attempts.get attemptId, change, drawn)
    | .putAttempt record, (change, drawn) => (.ok (), { change with attempt := some record }, drawn)
    | .appendDelta delta, (change, drawn) => (.ok (), { change with delta := some delta }, drawn)
    | .listDeltas attemptId, (change, drawn) => ((state.deltas attemptId).filter (0 < ·.sequence), change, drawn)
    | .getToolProposal attemptId providerToolCallId, (change, drawn) =>
      (state.proposals (attemptId, providerToolCallId), change, drawn)
    | .putToolProposal record, (change, drawn) => (.ok (), { change with proposal := some record }, drawn)
    | .now, (change, drawn) => (surroundings.times drawn.times, change, { drawn with times := drawn.times + 1 })
    | .nextId kind, (change, drawn) => (surroundings.ids drawn.ids kind, change, { drawn with ids := drawn.ids + 1 })

/-- A call as an operation on an invocation makes it: reads come before writes, a record of a kind is
written once and belongs to the invocation, and deltas come in order. -/
def Orderly (invocationId : String) (state : AttemptStoreState) (change : Change) : Request → Prop
  | .putInvocation record => change.invocation = none ∧ record.id = invocationId
  | .putAttempt record => change.attempt = none ∧ record.invocationId = invocationId
  | .appendDelta delta => change = .nothing ∧
      (state.attempts.get delta.attemptId).any (·.invocationId = invocationId) = true ∧
      (state.deltas delta.attemptId).any (·.sequence = delta.sequence) = false
  | .putToolProposal record => change = .nothing ∧
      (state.attempts.get record.attemptId).any (·.invocationId = invocationId) = true
  | .listDeltas attemptId => change = .nothing ∧ (state.deltas attemptId).Pairwise (·.sequence ≤ ·.sequence)
  | .now => True
  | .nextId _ => True
  | _ => change = .nothing

def Keeps {α : Type} (invocationId : String) (state : AttemptStoreState) :
    AttemptProgram α → Change × Drawn → Prop
  | .done _, _ => True
  | .throw _, _ => True
  | .call request next, (change, drawn) => Orderly invocationId state change request ∧
      Keeps invocationId state (next ((draft surroundings state).answer request (change, drawn)).1)
        ((draft surroundings state).answer request (change, drawn)).2

variable {surroundings} {invId : String} {state : AttemptStoreState} {α : Type}
  {prog : AttemptProgram α} {change : Change} {drawn : Drawn}

theorem exec_memory (keeps : Keeps surroundings invId state prog (change, drawn)) :
    prog.exec (memoryTransaction surroundings) (state.apply change, drawn) =
      let drafted := prog.exec (draft surroundings state) (change, drawn)
      (drafted.1, state.apply drafted.2.1, drafted.2.2) := by
  induction prog generalizing change drawn with
  | done value => rfl
  | throw error => rfl
  | call req next ih =>
    obtain ⟨orderly, rest⟩ := keeps
    have later := ih _ rest
    rw [Program.exec, Program.exec]
    cases req with
    | getInvocation =>
      obtain rfl := orderly
      exact later
    | listAttempts =>
      obtain rfl := orderly
      exact later
    | getAttempt =>
      obtain rfl := orderly
      exact later
    | getToolProposal =>
      obtain rfl := orderly
      exact later
    | listDeltas =>
      obtain ⟨rfl, -⟩ := orderly
      exact later
    | putInvocation record => exact later
    | putAttempt record =>
      obtain ⟨free, -⟩ := orderly
      have same : (state.apply change).withAttempt record = state.apply { change with attempt := some record } := by
        simp [apply, withAttempt, free]
      simp only [memoryTransaction]
      rw [same]
      exact later
    | appendDelta delta =>
      obtain ⟨rfl, -, fresh⟩ := orderly
      simp only [memoryTransaction, apply_nothing, fresh]
      exact later
    | putToolProposal record =>
      obtain ⟨rfl, -⟩ := orderly
      exact later
    | now => exact later
    | nextId kind => exact later

theorem exec_postgres (keeps : Keeps surroundings invId state prog (change, drawn)) :
    prog.exec (postgresTransaction surroundings invId) (.of state change, drawn) =
      let drafted := prog.exec (draft surroundings state) (change, drawn)
      (drafted.1, .of state drafted.2.1, drafted.2.2) := by
  induction prog generalizing change drawn with
  | done value => rfl
  | throw error => rfl
  | call req next ih =>
    obtain ⟨orderly, rest⟩ := keeps
    have later := ih _ rest
    rw [Program.exec, Program.exec]
    cases req with
    | getInvocation =>
      obtain rfl := orderly
      exact later
    | listAttempts =>
      obtain rfl := orderly
      exact later
    | getAttempt =>
      obtain rfl := orderly
      exact later
    | getToolProposal =>
      obtain rfl := orderly
      exact later
    | listDeltas attId =>
      obtain ⟨rfl, sorted⟩ := orderly
      have same : ((state.deltas attId).filter (0 < ·.sequence)).insertionSort
          (fun left right => left.sequence ≤ right.sequence) =
          (state.deltas attId).filter (0 < ·.sequence) :=
        (sorted.filter _).insertionSort_eq
      simp only [postgresTransaction, of, apply_nothing]
      rw [same]
      exact later
    | putInvocation record =>
      obtain ⟨-, own⟩ := orderly
      simp only [postgresTransaction, own, ne_eq, not_true_eq_false, if_false]
      exact later
    | putAttempt record =>
      obtain ⟨free, own⟩ := orderly
      have same : ({ of state change with
          state := (of state change).state.withAttempt record
          dirtyAttempts := addTo (of state change).dirtyAttempts record.id } : Buffer) =
          .of state { change with attempt := some record } := by
        simp [of, apply, withAttempt, addTo, free]
      simp only [postgresTransaction, own, ne_eq, not_true_eq_false, if_false]
      rw [same]
      exact later
    | appendDelta delta =>
      obtain ⟨rfl, own, fresh⟩ := orderly
      have available : (!((of state .nothing).state.attempts.get delta.attemptId).any
          (·.invocationId = invId)) = false := by
        rw [Bool.not_eq_false']
        exact own
      have absent : ((of state .nothing).state.deltas delta.attemptId).any
          (·.sequence = delta.sequence) = false := fresh
      simp only [postgresTransaction, available, absent]
      exact later
    | putToolProposal record =>
      obtain ⟨rfl, own⟩ := orderly
      have available : (!((of state .nothing).state.attempts.get record.attemptId).any
          (·.invocationId = invId)) = false := by
        rw [Bool.not_eq_false']
        exact own
      simp only [postgresTransaction, available]
      exact later
    | now => exact later
    | nextId kind => exact later

end

section
variable {surroundings : Surroundings} {state : AttemptStoreState} {α β : Type}

/-- Every call that the program makes is orderly, and it ends as the postcondition says. -/
def Drafts (surroundings : Surroundings) (invocationId : String) (state : AttemptStoreState)
    (program : AttemptProgram α) (start : Change × Drawn)
    (post : Except Failure α → Change × Drawn → Prop) : Prop :=
  Keeps surroundings invocationId state program start ∧ post (program.exec (draft surroundings state) start).1
      (program.exec (draft surroundings state) start).2

theorem drafts_pure (ends : post (.ok value) start) :
    Drafts surroundings invId state (pure value) start post := ⟨trivial, ends⟩

theorem drafts_throw (ends : post (.error err) start) :
    Drafts surroundings invId state (.throw err) start post := ⟨trivial, ends⟩

theorem drafts_call {next : req.Reply → AttemptProgram α} (orderly : Orderly invId state start.1 req)
    (rest : Drafts surroundings invId state (next ((draft surroundings state).answer req start).1) ((draft surroundings state).answer req start).2 post)
    : Drafts surroundings invId state (.call req next) start post :=
  ⟨⟨orderly, rest.1⟩, rest.2⟩

theorem drafts_bind {next : β → AttemptProgram α} (between : Except Failure β → Change × Drawn → Prop)
    (first : Drafts surroundings invId state prog start between)
    (rest : ∀ value reached, between (.ok value) reached → Drafts surroundings invId state (next value) reached post)
    (fails : ∀ err reached, between (.error err) reached → post (.error err) reached) :
    Drafts surroundings invId state (prog >>= next) start post := by
  induction prog generalizing start with
  | done value => exact rest value start first.2
  | throw err => exact ⟨trivial, fails err start first.2⟩
  | call _ _ ih =>
    obtain ⟨⟨orderly, keeps⟩, ends⟩ := first
    exact drafts_call orderly (ih _ ⟨keeps, ends⟩)

theorem drafts_map {into : β → α}
    (first : Drafts surroundings invId state prog start fun res reached => post (res.map into) reached) :
    Drafts surroundings invId state (prog >>= fun value => pure (into value)) start post :=
  drafts_bind _ first (fun _ _ ends => drafts_pure ends) fun _ _ ends => ends

theorem drafts_ask {next : req.Reply → AttemptProgram α} (orderly : Orderly invId state start.1 req)
    (rest : Drafts surroundings invId state (next ((draft surroundings state).answer req start).1) ((draft surroundings state).answer req start).2 post)
    : Drafts surroundings invId state (ask req >>= next) start post :=
  drafts_call orderly rest

theorem drafts_check {next : β → AttemptProgram α}
    (rest : ∀ value, out = .ok value → Drafts surroundings invId state (next value) start post)
    (fails : ∀ err, out = .error err → post (.error err) start) :
    Drafts surroundings invId state (Program.check out >>= next) start post := by
  cases out with
  | ok value => exact rest value rfl
  | error err => exact drafts_throw (fails err rfl)

theorem drafts_put {next : Unit → AttemptProgram α} (orderly : Orderly invId state change (.putAttempt record))
    (rest : Drafts surroundings invId state (next ()) ({ change with attempt := some record }, drawn) post) :
    Drafts surroundings invId state (putAttempt record >>= next) (change, drawn) post :=
  drafts_call orderly rest

theorem drafts_putInvocation {next : Unit → AttemptProgram α}
    (orderly : Orderly invId state change (.putInvocation record))
    (rest : Drafts surroundings invId state (next ()) ({ change with invocation := some record }, drawn) post) :
    Drafts surroundings invId state (putInvocation record >>= next) (change, drawn) post :=
  drafts_call orderly rest

theorem drafts_requireInvocation {id : String} {next : InvocationRecord → AttemptProgram α}
    (found : ∀ inv, state.invocation = some inv → inv.id = id → Drafts surroundings invId state (next inv) (.nothing, drawn) post)
    (missing : ∀ err, post (.error err) (.nothing, drawn)) :
    Drafts surroundings invId state (requireInvocation id >>= next) (.nothing, drawn) post := by
  refine drafts_bind (fun res reached => reached = (.nothing, drawn) ∧
    match res with
    | .ok inv => state.invocation = some inv ∧ inv.id = id
    | .error _ => True) ?_ ?_ ?_
  · refine drafts_ask rfl ?_
    simp only [draft]
    cases held : state.invocation with
    | none => exact drafts_throw ⟨rfl, trivial⟩
    | some inv =>
      dsimp only
      by_cases own : inv.id = id
      · rw [if_pos own]
        exact drafts_pure ⟨rfl, rfl, own⟩
      · rw [if_neg own]
        exact drafts_throw ⟨rfl, trivial⟩
  · rintro inv _ ⟨rfl, held, own⟩
    exact found inv held own
  · rintro err _ ⟨rfl, -⟩
    exact missing err

theorem drafts_requireAttempt {next : AttemptRecord → AttemptProgram α} (unwritten : change = .nothing)
    (found : ∀ attempt, state.attempts.get attId = some attempt → Drafts surroundings invId state (next attempt) (change, drawn) post)
    (missing : ∀ err, post (.error err) (change, drawn)) :
    Drafts surroundings invId state (requireAttempt attId >>= next) (change, drawn) post := by
  refine drafts_bind (fun res reached => reached = (change, drawn) ∧
    match res with
    | .ok attempt => state.attempts.get attId = some attempt
    | .error _ => True) ?_ ?_ ?_
  · refine drafts_ask unwritten ?_
    simp only [draft]
    cases held : state.attempts.get attId with
    | none => exact drafts_throw ⟨rfl, trivial⟩
    | some => exact drafts_pure ⟨rfl, rfl⟩
  · rintro attempt _ ⟨rfl, held⟩
    exact found attempt held
  · rintro err _ ⟨rfl, -⟩
    exact missing err

end
end Applik8s.AI
