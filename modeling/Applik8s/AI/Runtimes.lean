import Applik8s.AI.Runs

/-! The runtime over the two stores. Each of them carries out what an operation drafts: the memory
store as long as no commit breaks off behind its first write, the PostgreSQL store always. -/
namespace Applik8s.AI
open Lib
open Operation (call drafted)

section
variable {surroundings : Surroundings} {digest : Digest} {operation : Operation}

def MemoryStore.empty : MemoryStore := ⟨fun _ => .empty, ⟨0, 0⟩⟩
def PostgresStore.empty : PostgresStore := ⟨.empty, ⟨0, 0⟩⟩

theorem memory_call (sound : Sound operation.invocationId (store.states operation.invocationId))
    (drafts : operation.drafted surroundings digest (store.states operation.invocationId) store.drawn = (result, change, reached))
    : operation.call (memoryStore surroundings) digest store =
      (result, ⟨Function.update store.states operation.invocationId
        ((store.states operation.invocationId).apply change), reached⟩) := by
  unfold drafted at drafts
  unfold call
  cases admitted : operation.admitted with
  | error =>
    rw [admitted] at drafts
    cases drafts
    simp
  | ok _ =>
    rw [admitted] at drafts
    have carried := exec_memory (operation_drafts surroundings digest store.drawn operation sound).1
    dsimp only at drafts
    rw [apply_nothing, drafts] at carried
    simp [memoryStore, MemoryStore.transact, carried]

theorem postgres_call {change : Change} {store : PostgresStore} (named : blank operation.invocationId = false)
    (filed : Filed store.database) (standing : Standing surroundings (postgresStore surroundings) store.drawn store)
    (generates : Generates surroundings)
    (drafts : operation.drafted surroundings digest (store.database.load operation.invocationId) store.drawn = (result, change, reached))
    : ∃ db, operation.call (postgresStore surroundings) digest store = (result, ⟨db, reached⟩) ∧
      match result with
      | .ok _ => Moved operation.invocationId store.database db
          ((store.database.load operation.invocationId).apply change)
      | .error _ => db = store.database := by
  have sound := standing.sound operation.invocationId
  have ends := (drafted_ends sound drafts).1
  unfold drafted at drafts
  unfold call
  cases admitted : operation.admitted with
  | error =>
    rw [admitted] at drafts
    cases drafts
    exact ⟨store.database, rfl, rfl⟩
  | ok _ =>
    rw [admitted] at drafts
    have carried : (operation.body digest).exec (postgresTransaction surroundings operation.invocationId)
        (⟨store.database.load operation.invocationId, false, [], [], []⟩, store.drawn) =
        (result, .of (store.database.load operation.invocationId) change, reached) := by
      have keeps := (operation_drafts surroundings digest store.drawn operation sound).1
      dsimp only at drafts
      refine (exec_postgres keeps).trans ?_
      dsimp only [postgresStore]
      rw [drafts]
    simp only [postgresStore, PostgresStore.transact, named]
    rw [carried]
    cases result with
    | error => exact ⟨store.database, rfl, rfl⟩
    | ok =>
      obtain ⟨after, persisted, moved⟩ := Makes.persisted ends rfl filed sound generates standing.issued
      have persisted : store.database.persist (.of (store.database.load operation.invocationId) change) =
          .ok after := persisted
      refine ⟨after, ?_, moved⟩
      dsimp only
      rw [persisted]
      rfl

variable (surroundings digest) in
theorem postgres_unnamed (store : PostgresStore) (unnamed : blank operation.invocationId = true) :
    ∃ err, operation.call (postgresStore surroundings) digest store = (.error err, store) := by
  unfold call
  cases operation.admitted with
  | error err => exact ⟨err, rfl⟩
  | ok _ =>
    simp only [postgresStore, PostgresStore.transact, unnamed, if_true]
    exact ⟨_, rfl⟩

end

section
variable (surroundings : Surroundings) (digest : Digest)

theorem memory_serves : Serves surroundings digest (memoryStore surroundings) MemoryStore.drawn (fun _ => True)
      fun state operation => ¬ HalfCommits state operation where
  serve store operation standing _ whole := by
    have sound := standing.sound operation.invocationId
    obtain ⟨result, change, reached, drafts⟩ : ∃ result change reached,
        operation.drafted surroundings digest (store.states operation.invocationId) store.drawn =
          (result, change, reached) := ⟨_, _, _, rfl⟩
    obtain ⟨ends, draws⟩ := drafted_ends sound drafts
    refine ⟨trivial, ?_⟩
    unfold next
    rw [memory_call sound drafts]
    refine ⟨fun other differ => Function.update_of_ne differ _ _, draws, ?_, ?_⟩
    · rintro _ rfl
      exact ⟨change, ends, Function.update_self ..⟩
    rintro _ rfl
    obtain rfl := ends.resolve_right whole
    exact Function.update_self ..

theorem postgres_serves (generates : Generates surroundings) :
    Serves surroundings digest (postgresStore surroundings) PostgresStore.drawn
      (fun store => Filed store.database) fun _ _ => True where
  serve store operation standing filed _ := by
    unfold next
    cases named : blank operation.invocationId with
    | true =>
      obtain ⟨_, called⟩ := postgres_unnamed surroundings digest store named
      rw [called]
      exact ⟨filed, fun _ _ => rfl, le_rfl, fun _ is => (by cases is), fun _ _ => rfl⟩
    | false =>
      obtain ⟨result, change, reached, drafts⟩ : ∃ result change reached,
          operation.drafted surroundings digest (store.database.load operation.invocationId)
            store.drawn = (result, change, reached) := ⟨_, _, _, rfl⟩
      obtain ⟨ends, draws⟩ := drafted_ends (standing.sound operation.invocationId) drafts
      obtain ⟨_, called, left⟩ := postgres_call named filed standing generates drafts
      rw [called]
      cases result with
      | error =>
        subst left
        exact ⟨filed, fun _ _ => rfl, draws, fun _ is => (by cases is), fun _ _ => rfl⟩
      | ok =>
        refine ⟨left.filed, left.others, draws, ?_, fun _ is => by cases is⟩
        rintro _ is
        cases is
        exact ⟨change, ends, left.here⟩

end

/-- Over every run of either runtime whose operations do not go around the transitions, invocations and
attempts live by them. A commit over the memory store must not break off either. -/
theorem attempts_live_by_transitions {surroundings : Surroundings} (digest : Digest)
    (generates : Generates surroundings) :
    (∀ operations, EachStep (next (memoryStore surroundings) digest) (fun store operation =>
        ¬ HalfCommits (store.states operation.invocationId) operation ∧
          Proper (store.states operation.invocationId) operation) .empty operations →
      Lives (memoryStore surroundings) digest .empty operations) ∧
    (∀ operations, EachStep (next (postgresStore surroundings) digest) (fun store operation =>
        Proper (store.database.load operation.invocationId) operation) .empty operations →
      Lives (postgresStore surroundings) digest .empty operations) := by
  refine ⟨fun operations each => ?_, fun operations each => ?_⟩
  · exact (memory_serves surroundings digest).lives generates trivial (fun _ => rfl) each
  · exact (postgres_serves surroundings digest generates).lives generates filed_empty (fun _ => rfl)
      (each.imp fun _ _ _ proper => ⟨trivial, proper⟩)

def numberedSurroundings : Surroundings where
  times drawing := s!"2026-01-01T00:00:{drawing}Z"
  ids drawing kind := s!"{kind}_{drawing}"

theorem numberedSurroundings_generates : Generates numberedSurroundings where
  once drawing other same := by
    change "attempt" ++ "_" ++ toString drawing = "attempt" ++ "_" ++ toString other at same
    have digits : Nat.toDigits 10 drawing = Nat.toDigits 10 other := by
      have chars := congrArg String.toList same
      rw [String.toList_append, String.toList_append (s := "attempt" ++ "_")] at chars
      simpa using List.append_cancel_left chars
    have read : Nat.ofDigitChars 10 (Nat.toDigits 10 drawing) 0 = drawing :=
      Nat.ofDigitChars_toDigits (by decide) (by decide)
    rw [digits, Nat.ofDigitChars_toDigits (by decide) (by decide)] at read
    exact read.symm
  named drawing same := by
    change "attempt" ++ "_" ++ toString drawing = "" at same
    have lengths := congrArg String.length same
    rw [String.length_append, String.length_append] at lengths
    have filled : "attempt".length = 7 := rfl
    have empty : "".length = 0 := rfl
    omega

def sampleDigest : Digest := fun _ => "sha256:4f53cda18c2baa0c"

def agentPrincipal : Principal where
  kind := "execution"
  id := "execution-1"
  executionKind := "agent"
  executionId := "agent-run-1"
  workloadIdentityKind := "workload"
  serviceIdentityKind := some "service"
  authorityRevision := "authority-1"
  rest := .null

def sampleRoute : ResolvedRoute where
  policyRevision := "policy-1"
  logicalModel := "assistant"
  providerClass := "remote"
  backend := "primary"
  concreteModel := "model-1"
  concreteModelVersion := none
  capabilities := ["streaming"]
  route := "default"
  pricingRevision := none
  fallbackChain := []

def moving (state : AttemptState) (recovery : Recovery) (expectedVersion : Nat) : Operation :=
  .transition "invocation-1" "attempt_0" expectedVersion ⟨state, recovery, none, none, none, none⟩

def dispatchedRun : List Operation := [
  .reserveInvocation ⟨"invocation-1", "conversation-1", "protocol-run-1", "agent-run-1", "assistant",
    .null, agentPrincipal⟩,
  .reserveAttempt ⟨"invocation-1", .null, sampleRoute, false⟩,
  moving .dispatching .joinable 1]

/-- Its provider has answered in two parts, and its result is committed. -/
def committedRun : List Operation := dispatchedRun ++ [.appendDelta "invocation-1" "attempt_0" (.string "Good "),
  .appendDelta "invocation-1" "attempt_0" (.string "morning"),
  moving .providerCompleted .joinable 4,
  .commitCanonicalResult "invocation-1" "attempt_0" "message-1"]

/-- A run that dispatches one attempt and commits its result. -/
theorem attempts_live_committed : Lives (memoryStore numberedSurroundings) sampleDigest .empty committedRun ∧
      Lives (postgresStore numberedSurroundings) sampleDigest .empty committedRun ∧
      dispatches (postgresStore numberedSurroundings) sampleDigest .empty committedRun =
        [("invocation-1", "attempt_0")] := by
  have live := attempts_live_by_transitions sampleDigest numberedSurroundings_generates
  refine ⟨live.1 committedRun ?_, live.2 committedRun ?_, by decide +kernel⟩
  · refine ⟨⟨id, trivial⟩, ⟨id, trivial⟩, ⟨id, fun _ _ _ _ => by decide⟩, ⟨id, trivial⟩, ⟨id, trivial⟩,
      ⟨id, fun _ _ _ _ => by decide⟩, ⟨fun half => ?_, trivial⟩, trivial⟩
    exact absurd half.1 (by decide)
  · exact ⟨trivial, trivial, fun _ _ _ _ => by decide, trivial, trivial, fun _ _ _ _ => by decide,
      trivial, trivial⟩

theorem Lives.last {σ : Type} {store : AttemptStore σ} {digest : Digest} {start : σ} (ops : List Operation)
    {op : Operation} (lives : Lives store digest start (ops ++ [op])) (invId : String) :
    Follows (store.held (runFrom (next store digest) start ops) invId)
      (store.held (next store digest (runFrom (next store digest) start ops) op) invId) :=
  ((eachStep_append.mp lives.steps).2.1 invId).2

def providerFailure : Operation := moving .providerFailed .terminal 2
def withdrawal : Operation := .cancel "invocation-1" "no longer wanted"
def bareCommit : Operation := moving .canonicalCommitted .terminal 5

def lateProposal : Operation :=
  .reserveToolProposal ⟨"invocation-1", "attempt_0", "call-1", "orders.refund", "1", .null, none⟩

def numberedRun (operations : List Operation) : Database :=
  (runFrom (next (postgresStore numberedSurroundings) sampleDigest) .empty operations).database

/-- Cancelling a failed invocation makes it a cancelled one; a transition completes an invocation
without a message; a tool call is proposed for a committed attempt. -/
theorem attempts_go_around_transitions : ¬ Lives (postgresStore numberedSurroundings) sampleDigest .empty
        (dispatchedRun ++ [providerFailure, withdrawal]) ∧
      ¬ Lives (postgresStore numberedSurroundings) sampleDigest .empty (committedRun.dropLast ++ [bareCommit]) ∧
      ¬ Lives (postgresStore numberedSurroundings) sampleDigest .empty (committedRun ++ [lateProposal]) := by
  refine ⟨fun lives => ?_, fun lives => ?_, fun lives => ?_⟩
  · have before : ((numberedRun (dispatchedRun ++ [providerFailure])).load
        "invocation-1").invocation.map (·.state) = some .failed := by decide +kernel
    have after : ((numberedRun (dispatchedRun ++ [providerFailure, withdrawal])).load
        "invocation-1").invocation.map (·.state) = some .cancelled := by decide +kernel
    obtain ⟨invocation, held, failed⟩ := Option.map_eq_some_iff.mp before
    obtain ⟨_, held', keeps⟩ :=
      (Lives.last (dispatchedRun ++ [providerFailure]) lives "invocation-1").settled invocation held
    have kept := keeps (by rw [failed]; decide)
    obtain ⟨_, held'', cancelled⟩ := Option.map_eq_some_iff.mp after
    cases held'.symm.trans held''
    rw [kept, failed] at cancelled
    cases cancelled
  · have after : ((numberedRun (committedRun.dropLast ++ [bareCommit])).load
        "invocation-1").invocation.map (fun invocation =>
          (invocation.state, invocation.canonicalMessageId)) = some (.completed, none) := by
      decide +kernel
    obtain ⟨invocation, held, is⟩ := Option.map_eq_some_iff.mp after
    obtain ⟨completed, messageless⟩ := Prod.mk.inj is
    have present := (((lives.lawful "invocation-1").completed invocation held).mp completed).1
    rw [messageless] at present
    cases present
  · have proposed : (((numberedRun (committedRun ++ [lateProposal])).load "invocation-1").proposals
        ("attempt_0", "call-1")).isSome ≠ (((numberedRun committedRun).load "invocation-1").proposals
        ("attempt_0", "call-1")).isSome := by decide +kernel
    have standing : (((numberedRun committedRun).load "invocation-1").attempts.get
        "attempt_0").map (·.state) = some .canonicalCommitted := by decide +kernel
    obtain ⟨_, found, committed⟩ := Option.map_eq_some_iff.mp standing
    rcases (Lives.last committedRun lives "invocation-1").proposals ("attempt_0", "call-1") with
      same | ⟨attempt', found', isOpen⟩
    · exact proposed (congrArg Option.isSome same)
    cases found.symm.trans found'
    rw [committed] at isOpen
    cases isOpen

section
variable (surroundings : Surroundings) (digest : Digest)

def nextOfBoth (stores : MemoryStore × PostgresStore) (operation : Operation) :
    MemoryStore × PostgresStore :=
  (next (memoryStore surroundings) digest stores.1 operation,
    next (postgresStore surroundings) digest stores.2 operation)

/-- The results are the same, and an operation that throws leaves what both stores hold as it was. -/
structure Agrees (stores : MemoryStore × PostgresStore) (operation : Operation) : Prop where
  result : (operation.call (memoryStore surroundings) digest stores.1).1 =
    (operation.call (postgresStore surroundings) digest stores.2).1
  memory : ∀ failure, (operation.call (memoryStore surroundings) digest stores.1).1 = .error failure →
    ∀ invocationId, (next (memoryStore surroundings) digest stores.1 operation).states invocationId =
      stores.1.states invocationId
  postgres : ∀ failure, (operation.call (postgresStore surroundings) digest stores.2).1 = .error failure →
      (next (postgresStore surroundings) digest stores.2 operation).database = stores.2.database

/-- An operation that gets to its transaction names its invocation, and does not break off a commit. -/
def Careful (state : AttemptStoreState) (operation : Operation) : Prop :=
  (operation.admitted = .ok () → blank operation.invocationId = false) ∧ ¬ HalfCommits state operation

structure Alike (stores : MemoryStore × PostgresStore) : Prop where
  states : ∀ invocationId, stores.2.database.load invocationId = stores.1.states invocationId
  drawn : stores.2.drawn = stores.1.drawn
  filed : Filed stores.2.database
  standing : Standing surroundings (postgresStore surroundings) stores.2.drawn stores.2

variable {surroundings digest} {stores : MemoryStore × PostgresStore} {operation : Operation}

theorem call_refused {σ : Type} {store : AttemptStore σ} {state : σ} {err : Failure}
    (refused : operation.admitted = .error err) : operation.call store digest state = (.error err, state) := by
  unfold call
  rw [refused]

theorem Alike.step (alike : Alike surroundings stores) (generates : Generates surroundings)
    (careful : Careful (stores.1.states operation.invocationId) operation) :
    Agrees surroundings digest stores operation ∧
      Alike surroundings (nextOfBoth surroundings digest stores operation) := by
  obtain ⟨mem, postgres⟩ := stores
  obtain ⟨states, drawn, filed, standing⟩ := alike
  cases admitted : operation.admitted with
  | error =>
    refine ⟨⟨?_, ?_, ?_⟩, ?_⟩
    · rw [call_refused admitted, call_refused admitted]
    · intro _ _ _
      rw [next, call_refused admitted]
    · intro _ _
      rw [next, call_refused admitted]
    · rw [nextOfBoth, next, next, call_refused admitted, call_refused admitted]
      exact ⟨states, drawn, filed, standing⟩
  | ok _ =>
    have named := careful.1 admitted
    have sound := standing.sound operation.invocationId
    obtain ⟨result, change, reached, drafts⟩ : ∃ result change reached,
        operation.drafted surroundings digest (postgres.database.load operation.invocationId)
          postgres.drawn = (result, change, reached) := ⟨_, _, _, rfl⟩
    have serves := (postgres_serves surroundings digest generates).serve postgres operation standing filed trivial
    have standing' := serves.2.standing standing generates
    obtain ⟨ends, _⟩ := drafted_ends sound drafts
    obtain ⟨db, called, left⟩ := postgres_call named filed standing generates drafts
    have sound' : Sound operation.invocationId (mem.states operation.invocationId) :=
      states operation.invocationId ▸ sound
    have drafts' : operation.drafted surroundings digest (mem.states operation.invocationId)
        mem.drawn = (result, change, reached) := by
      rw [← states, ← drawn]
      exact drafts
    have called' := memory_call sound' drafts'
    unfold nextOfBoth
    unfold next at serves standing' ⊢
    rw [called] at serves standing' ⊢
    rw [called']
    have whole : ¬ HalfCommits (postgres.database.load operation.invocationId) operation := by
      rw [states]
      exact careful.2
    have loads : (db.load operation.invocationId = (mem.states operation.invocationId).apply change) ∧
        ∀ other, other ≠ operation.invocationId → db.load other = mem.states other := by
      cases result with
      | ok => exact ⟨left.here.trans (by rw [states]),
          fun other differ => (left.others other differ).trans (states other)⟩
      | error =>
        obtain rfl := (ends.resolve_right whole : change = .nothing)
        subst left
        exact ⟨states _, fun other _ => states other⟩
    refine ⟨⟨?_, ?_, ?_⟩, ⟨?_, rfl, serves.1, standing'⟩⟩
    · rw [called, called']
    · rw [called']
      rintro err rfl invId
      obtain rfl := (ends.resolve_right whole : change = .nothing)
      rw [next, called', apply_nothing, Function.update_eq_self]
    · rw [called]
      rintro _ rfl
      rw [next, called]
      exact left
    · intro invId
      by_cases same : invId = operation.invocationId
      · subst same
        rw [loads.1]
        exact (Function.update_self operation.invocationId _ mem.states).symm
      · rw [loads.2 _ same]
        exact (Function.update_of_ne same _ mem.states).symm

def blankCommit : Operation := .commitCanonicalResult "invocation-1" "attempt_0" " "

def Outcome.refusal : Except Failure Outcome → Option Failure
  | .error failure => some failure
  | .ok _ => none

/-- Whatever a run over PostgreSQL does, no attempt is dispatched twice, and those of an invocation are what was
dispatched for it, numbered in order. -/
theorem dispatches_stored (digest : Digest) (generates : Generates surroundings) (operations : List Operation) :
    let told := dispatches (postgresStore surroundings) digest .empty operations
    (told.map Prod.snd).Nodup ∧ ∀ invocationId,
      let state := (runFrom (next (postgresStore surroundings) digest) .empty operations).database.load invocationId
      state.attempts.map Prod.fst = (told.filter (·.1 = invocationId)).map Prod.snd ∧
        state.attempts.map (·.2.ordinal) = List.range' 1 state.attempts.length := by
  have serves := postgres_serves surroundings digest generates
  have holds : serves.Holds .empty := ⟨filed_empty, fun _ => sound_empty _, fun _ _ member => by cases member⟩
  have each : EachStep (next (postgresStore surroundings) digest) (fun _ _ => True) .empty operations :=
    eachStep_of_always fun _ _ _ => trivial
  have reached := invariant_of_steps serves.Holds (fun _ _ => serves.step generates) holds each
  exact ⟨(serves.dispatches_once generates holds each).1, fun invId =>
    ⟨serves.dispatches_keys generates holds each invId, (reached.2.sound invId).ordinals⟩⟩

theorem dispatches_stored_committed :
    ((dispatches (postgresStore numberedSurroundings) sampleDigest .empty committedRun).map Prod.snd).Nodup :=
  (dispatches_stored sampleDigest numberedSurroundings_generates committedRun).1

end
end Applik8s.AI
