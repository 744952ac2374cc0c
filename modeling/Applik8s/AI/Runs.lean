import Applik8s.AI.Lifecycle

/-! Runs of operations over a store. What a store has to do is stated once: carry out what an
operation drafts, and leave every other invocation alone. From that the life of invocations follows
for every run over it. -/
namespace Applik8s.AI
open Lib List

section
variable (surroundings : Surroundings) (digest : Digest)

/-- What an operation comes to in a state: its result, what it writes, and what it has drawn. -/
def Operation.drafted (operation : Operation) (state : AttemptStoreState) (drawn : Drawn) :
    Except Failure Outcome × Change × Drawn :=
  match operation.admitted with
  | .error failure => (.error failure, .nothing, drawn)
  | .ok () => (operation.body digest).exec (draft surroundings state) (.nothing, drawn)

variable {surroundings digest} {state : AttemptStoreState}
variable (surroundings state) in
theorem exec_draws {α : Type} (prog : AttemptProgram α) (start : Change × Drawn) :
    start.2.ids ≤ (prog.exec (draft surroundings state) start).2.2.ids := by
  induction prog generalizing start with
  | done value => exact le_rfl
  | throw error => exact le_rfl
  | call req next ih =>
    refine le_trans ?_ (ih _ _)
    cases req <;> simp [draft]

theorem drafted_ends (sound : Sound operation.invocationId state)
    (drafts : operation.drafted surroundings digest state drawn = (res, change, reached)) :
    Ends surroundings drawn operation state res (change, reached) ∧ drawn.ids ≤ reached.ids := by
  unfold Operation.drafted at drafts
  cases admitted : operation.admitted with
  | error =>
    rw [admitted] at drafts
    cases drafts
    exact ⟨.inl rfl, le_rfl⟩
  | ok _ =>
    rw [admitted] at drafts
    have ends := (operation_drafts surroundings digest drawn operation sound).2
    have draws := exec_draws surroundings state (operation.body digest) (.nothing, drawn)
    dsimp only at drafts
    rw [drafts] at ends draws
    exact ⟨ends, draws⟩

end

section
variable {σ : Type}

/-- Everything that is held is sound, and its attempts have been given their identifiers. -/
structure Standing (surroundings : Surroundings) (store : AttemptStore σ) (drawn : Drawn) (state : σ) :
    Prop where
  sound : ∀ invocationId, Sound invocationId (store.held state invocationId)
  issued : ∀ invocationId, Issued surroundings drawn (store.held state invocationId)

structure Served (surroundings : Surroundings) (store : AttemptStore σ) (before : Drawn)
    (operation : Operation) (state : σ) (result : Except Failure Outcome) (after : Drawn)
    (left : σ) : Prop where
  others : ∀ other, other ≠ operation.invocationId → store.held left other = store.held state other
  draws : before.ids ≤ after.ids
  made : ∀ outcome, result = .ok outcome → ∃ change,
    Makes surroundings before after operation (store.held state operation.invocationId) change outcome ∧
      store.held left operation.invocationId = (store.held state operation.invocationId).apply change
  refused : ∀ failure, result = .error failure →
    store.held left operation.invocationId = store.held state operation.invocationId

/-- A store that carries operations out, as long as they are allowed. -/
structure Serves (surroundings : Surroundings) (digest : Digest) (store : AttemptStore σ)
    (drawn : σ → Drawn) (filed : σ → Prop) (allowed : AttemptStoreState → Operation → Prop) : Prop where
  serve : ∀ state operation, Standing surroundings store (drawn state) state → filed state →
    allowed (store.held state operation.invocationId) operation →
    filed (next store digest state operation) ∧
      Served surroundings store (drawn state) operation state (operation.call store digest state).1
        (drawn (next store digest state operation)) (next store digest state operation)

end

section
/-- What the records of an invocation say of each other. -/
structure Lawful (state : AttemptStoreState) : Prop where
  /-- Only the current attempt can be open. -/
  current : ∀ attemptId attempt, state.attempts.get attemptId = some attempt →
    attempt.state.open = true → ∃ invocation, state.invocation = some invocation ∧
      invocation.currentAttemptId = some attemptId
  numbered : ∀ attemptId attempt, state.attempts.get attemptId = some attempt →
    (state.deltas attemptId).map StreamDelta.sequence = List.range' 1 attempt.streamFrontier
  completed : ∀ invocation, state.invocation = some invocation →
    (invocation.state = .completed ↔ invocation.canonicalMessageId.isSome ∧
      ∃ attemptId attempt, invocation.currentAttemptId = some attemptId ∧
        state.attempts.get attemptId = some attempt ∧ attempt.state = .canonicalCommitted)

theorem Sound.lawful {invId : String} {state : AttemptStoreState}
    (sound : Sound invId state) (committed : Committed state) : Lawful state where
  current attId attempt found isOpen := by
    obtain ⟨rfl, -⟩ := sound.found found
    cases held : state.invocation with
    | none =>
      have member := Record.mem_of_get found
      rw [sound.absent held] at member
      cases member
    | some inv => exact ⟨inv, rfl, (sound.current_of_unfailed held found (unfailed_of_open isOpen)).1⟩
  numbered _ _ found := sound.sequences found
  completed inv held := by
    have stands := sound.stands inv held
    unfold Stands at stands
    rw [committed inv held]
    refine ⟨fun done => ⟨done, ?_⟩, fun both => both.1⟩
    cases cur : inv.currentAttemptId with
    | none =>
      rw [cur, done] at stands
      rcases stands.2 with is | is <;> cases is
    | some attId =>
      rw [cur] at stands
      obtain ⟨-, ⟨attempt, found, tells⟩, -⟩ := stands
      exact ⟨attId, attempt, rfl, found, invocationState_completed.mp (tells.symm.trans done)⟩

variable {σ : Type} (store : AttemptStore σ) (digest : Digest)

/-- The attempt that an operation tells its caller to dispatch. -/
def dispatchedBy (state : σ) (operation : Operation) : List (String × String) :=
  match (operation.call store digest state).1 with
  | .ok (.decision decision) =>
    if decision.action = .dispatch then [(operation.invocationId, decision.attempt.id)] else []
  | _ => []

/-- The attempts that a run tells its callers to dispatch. -/
def dispatches : σ → List Operation → List (String × String)
  | _, [] => []
  | state, operation :: rest =>
    dispatchedBy store digest state operation ++ dispatches (next store digest state operation) rest

structure Lives (start : σ) (operations : List Operation) : Prop where
  lawful : ∀ invocationId, Lawful (store.held (runFrom (next store digest) start operations) invocationId)
  steps : EachStep (next store digest) (fun state operation => ∀ invocationId,
    Lawful (store.held state invocationId) ∧ Follows (store.held state invocationId)
      (store.held (next store digest state operation) invocationId)) start operations
  /-- Another attempt is dispatched when all earlier ones have failed so that they can be replayed. -/
  replays : EachStep (next store digest) (fun state operation =>
    dispatchedBy store digest state operation ≠ [] →
      ∀ entry ∈ (store.held state operation.invocationId).attempts, entry.2.replayable) start operations
  once : ((dispatches store digest start operations).map Prod.snd).Nodup
  dispatched : ∀ invocationId,
    (store.held (runFrom (next store digest) start operations) invocationId).attempts.map Prod.fst =
      ((dispatches store digest start operations).filter (·.1 = invocationId)).map Prod.snd

end

section
variable {surroundings : Surroundings} {before after : Drawn}

theorem Sound.replayable (sound : Sound invId state) (held : state.invocation = some inv)
    (earlier : ∀ cur, inv.currentAttemptId = some cur → ∃ attempt, state.attempts.get cur = some attempt ∧ attempt.replayable)
    : ∀ entry ∈ state.attempts, entry.2.replayable := by
  intro entry among
  have stands := sound.stands inv held
  unfold Stands at stands
  cases cur : inv.currentAttemptId with
  | none =>
    rw [cur] at stands
    rw [stands.1] at among
    cases among
  | some attId =>
    rw [cur] at stands
    obtain ⟨_, found, replayable⟩ := earlier attId cur
    by_cases same : entry.1 = attId
    · have here : state.attempts.get entry.1 = some entry.2 := Record.get_of_mem sound.keys among
      rw [same, found] at here
      exact Option.some.inj here ▸ replayable
    · exact stands.2.2 entry among same

structure Dispatches (surroundings : Surroundings) (before after : Drawn) (state left : AttemptStoreState)
    (attemptId : String) : Prop where
  keys : left.attempts.map Prod.fst = state.attempts.map Prod.fst ++ [attemptId]
  replayable : ∀ entry ∈ state.attempts, entry.2.replayable
  drew : ∃ drawing, before.ids ≤ drawing ∧ drawing < after.ids ∧ attemptId = surroundings.ids drawing "attempt"

theorem Makes.dispatched (makes : Makes surroundings before after operation state change out)
    (sound : Sound operation.invocationId state) (generates : Generates surroundings)
    (issued : Issued surroundings before state) :
    (∃ decision, out = .decision decision ∧ decision.action = .dispatch ∧
      Dispatches surroundings before after state (state.apply change) decision.attempt.id) ∨
    ((∀ decision, out = .decision decision → decision.action ≠ .dispatch) ∧
      (state.apply change).attempts.map Prod.fst = state.attempts.map Prod.fst) := by
  have kept : ∀ {attempt updated : AttemptRecord}, state.attempts.get attempt.id = some attempt →
      Revises attempt updated →
      (state.attempts.set updated.id updated).map Prod.fst = state.attempts.map Prod.fst := by
    intro attempt updated found revises
    refine Record.keys_set_present sound.keys ?_
    rw [revises.id, found]
    rfl
  cases makes with
  | nothing joined => exact .inr ⟨joined, rfl⟩
  | accept => exact .inr ⟨fun _ is => (by cases is), rfl⟩
  | @dispatch _ _ _ drawing held _ earlier since early drew =>
    have fresh := fresh_attempt generates issued since drew
    refine .inl ⟨_, rfl, rfl, ?_, sound.replayable held earlier, drawing, since, early, drew⟩
    exact (congrArg (List.map Prod.fst) (Record.set_absent fresh)).trans map_append
  | move _ _ _ found _ _ revises =>
    exact .inr ⟨fun _ is => (by cases is), kept found revises⟩
  | append found _ _ revises =>
    exact .inr ⟨fun _ is => (by cases is), kept found revises⟩
  | commit _ found _ _ revises =>
    exact .inr ⟨fun _ is => (by cases is), kept found revises⟩
  | withdraw => exact .inr ⟨fun _ is => (by cases is), rfl⟩
  | cancel _ _ _ _ _ found _ revises =>
    exact .inr ⟨fun _ is => (by cases is), kept found revises⟩
  | propose => exact .inr ⟨fun _ is => (by cases is), rfl⟩

variable {σ : Type}

theorem Served.dispatched
    (served : Served surroundings store before operation state (operation.call store digest state).1 after (next store digest state operation))
    (standing : Standing surroundings store before state) (generates : Generates surroundings) :
    (∃ attId, dispatchedBy store digest state operation = [(operation.invocationId, attId)] ∧
      Dispatches surroundings before after (store.held state operation.invocationId)
        (store.held (next store digest state operation) operation.invocationId) attId) ∨
    (dispatchedBy store digest state operation = [] ∧
      (store.held (next store digest state operation) operation.invocationId).attempts.map Prod.fst =
        (store.held state operation.invocationId).attempts.map Prod.fst) := by
  unfold dispatchedBy
  cases res : (operation.call store digest state).1 with
  | error err => exact .inr ⟨rfl, by rw [served.refused err res]⟩
  | ok out =>
    obtain ⟨_, makes, left⟩ := served.made out res
    rw [left]
    rcases makes.dispatched (standing.sound _) generates (standing.issued _) with
      ⟨decision, rfl, dispatch, dispatches⟩ | ⟨others, keys⟩
    · exact .inl ⟨decision.attempt.id, if_pos dispatch, dispatches⟩
    refine .inr ⟨?_, keys⟩
    cases out with
    | decision decision => exact if_neg (others decision rfl)
    | _ => rfl

theorem Served.issued
    (served : Served surroundings store before operation state (operation.call store digest state).1 after (next store digest state operation))
    (standing : Standing surroundings store before state) (generates : Generates surroundings) (invId : String) :
    Issued surroundings after (store.held (next store digest state operation) invId) := by
  have earlier : ∀ attId ∈ (store.held state invId).attempts.map Prod.fst,
      ∃ drawing < after.ids, attId = surroundings.ids drawing "attempt" := by
    intro attId among
    obtain ⟨entry, there, rfl⟩ := mem_map.mp among
    obtain ⟨drawing, early, is⟩ := standing.issued invId entry there
    exact ⟨drawing, lt_of_lt_of_le early served.draws, is⟩
  intro entry among
  have named := mem_map_of_mem (f := Prod.fst) among
  by_cases same : invId = operation.invocationId
  · subst same
    rcases served.dispatched standing generates with ⟨_, -, dispatches⟩ | ⟨-, keys⟩
    · rw [dispatches.keys] at named
      rcases mem_append.mp named with there | here
      · exact earlier _ there
      · obtain ⟨drawing, -, early, is⟩ := dispatches.drew
        exact ⟨drawing, early, (mem_singleton.mp here).trans is⟩
    · rw [keys] at named
      exact earlier _ named
  · rw [served.others _ same] at named
    exact earlier _ named

theorem Served.standing {digest : Digest} {operation : Operation} {store : AttemptStore σ} {state : σ}
    (served : Served surroundings store before operation state (operation.call store digest state).1 after (next store digest state operation))
    (standing : Standing surroundings store before state) (generates : Generates surroundings) :
    Standing surroundings store after (next store digest state operation) where
  issued := served.issued standing generates
  sound invId := by
    by_cases same : invId = operation.invocationId
    · subst same
      cases res : (operation.call store digest state).1 with
      | error err => exact (served.refused err res).symm ▸ standing.sound _
      | ok out =>
        obtain ⟨_, makes, left⟩ := served.made out res
        rw [left]
        exact makes.sound (standing.sound _) generates (standing.issued _)
    · rw [served.others _ same]
      exact standing.sound _

theorem Served.follows
    (served : Served surroundings store before operation state (operation.call store digest state).1 after (next store digest state operation))
    (standing : Standing surroundings store before state) (generates : Generates surroundings)
    (committed : ∀ invId, Committed (store.held state invId))
    (proper : Proper (store.held state operation.invocationId) operation) (invId : String) :
    Committed (store.held (next store digest state operation) invId) ∧ Follows (store.held state invId)
        (store.held (next store digest state operation) invId) := by
  by_cases same : invId = operation.invocationId
  · subst same
    cases res : (operation.call store digest state).1 with
    | error err =>
      rw [served.refused err res]
      exact ⟨committed _, follows_refl _⟩
    | ok out =>
      obtain ⟨_, makes, left⟩ := served.made out res
      rw [left]
      exact ⟨makes.committed (standing.sound _) (committed _) proper,
        makes.follows (standing.sound _) generates (standing.issued _) proper⟩
  · rw [served.others _ same]
    exact ⟨committed _, follows_refl _⟩

end

section
variable {surroundings : Surroundings} {digest : Digest} {σ : Type} {store : AttemptStore σ}
  {drawn : σ → Drawn} {filed : σ → Prop} {allowed : AttemptStoreState → Operation → Prop}

/-- What holds in every state of a run whose operations are allowed. -/
def Serves.Holds (_ : Serves surroundings digest store drawn filed allowed) (state : σ) : Prop :=
  filed state ∧ Standing surroundings store (drawn state) state

variable (serves : Serves surroundings digest store drawn filed allowed) {state : σ}

theorem Serves.step (generates : Generates surroundings) (holds : serves.Holds state)
    (may : allowed (store.held state operation.invocationId) operation) :
    serves.Holds (next store digest state operation) := by
  obtain ⟨filed', served⟩ := serves.serve state operation holds.2 holds.1 may
  exact ⟨filed', served.standing holds.2 generates⟩

variable {ops : List Operation}

section
variable (generates : Generates surroundings) (holds : serves.Holds state)
  (each : EachStep (next store digest) (fun state operation => allowed (store.held state operation.invocationId) operation) state ops)
include generates holds each

theorem Serves.dispatches_keys (invId : String) :
    (store.held (runFrom (next store digest) state ops) invId).attempts.map Prod.fst =
      (store.held state invId).attempts.map Prod.fst ++
        ((dispatches store digest state ops).filter (·.1 = invId)).map Prod.snd := by
  induction ops generalizing state with
  | nil => simp [runFrom, dispatches]
  | cons operation rest ih =>
    have later := ih (serves.step generates holds each.1) each.2
    refine later.trans ?_
    obtain ⟨-, served⟩ := serves.serve state operation holds.2 holds.1 each.1
    rw [dispatches, filter_append, map_append, ← append_assoc]
    congr 1
    rcases served.dispatched holds.2 generates with ⟨_, told, dispatches⟩ | ⟨told, keys⟩
    · rw [told]
      by_cases same : invId = operation.invocationId
      · subst same
        rw [dispatches.keys]
        simp
      · rw [served.others _ same]
        simp [Ne.symm same]
    · rw [told]
      by_cases same : invId = operation.invocationId
      · subst same
        rw [keys]
        simp
      · rw [served.others _ same]
        simp

theorem Serves.dispatches_once : ((dispatches store digest state ops).map Prod.snd).Nodup ∧
      ∀ attId ∈ (dispatches store digest state ops).map Prod.snd,
        ∃ drawing, (drawn state).ids ≤ drawing ∧ attId = surroundings.ids drawing "attempt" := by
  induction ops generalizing state with
  | nil => exact ⟨nodup_nil, nofun⟩
  | cons operation rest ih =>
    obtain ⟨nodup, drew⟩ := ih (serves.step generates holds each.1) each.2
    obtain ⟨-, served⟩ := serves.serve state operation holds.2 holds.1 each.1
    have later : ∀ attId ∈ (dispatches store digest (next store digest state operation) rest).map Prod.snd,
        ∃ drawing, (drawn state).ids ≤ drawing ∧ attId = surroundings.ids drawing "attempt" := by
      intro attId among
      obtain ⟨drawing, since, is⟩ := drew attId among
      exact ⟨drawing, le_trans served.draws since, is⟩
    rw [dispatches]
    rcases served.dispatched holds.2 generates with ⟨_, told, dispatches⟩ | ⟨told, -⟩
    · obtain ⟨drawing, since, _, is⟩ := dispatches.drew
      rw [told, singleton_append, map_cons, nodup_cons]
      refine ⟨⟨fun among => ?_, nodup⟩, ?_⟩
      · obtain ⟨other, _, same⟩ := drew _ among
        have := generates.once drawing other (is.symm.trans same)
        omega
      intro other among
      rcases mem_cons.mp among with rfl | among
      · exact ⟨drawing, since, is⟩
      · exact later other among
    · rw [told, nil_append]
      exact ⟨nodup, later⟩

end

/-- Over every run whose operations are allowed and proper, invocations and attempts live by their
transitions. -/
theorem Serves.lives (serves : Serves surroundings digest store drawn filed allowed)
    (generates : Generates surroundings) (filed' : filed start) (empty : ∀ invId, store.held start invId = .empty)
    (each : EachStep (next store digest) (fun state operation => allowed (store.held state operation.invocationId) operation ∧ Proper (store.held state operation.invocationId) operation) start ops)
    : Lives store digest start ops := by
  have holds : serves.Holds start := by
    refine ⟨filed', ⟨fun _ => ?_, fun _ => ?_⟩⟩
    · rw [empty]
      exact sound_empty _
    · rw [empty]
      exact fun _ member => by cases member
  have may : EachStep (next store digest) (fun state operation =>
      allowed (store.held state operation.invocationId) operation) start ops :=
    each.imp fun _ _ _ both => both.1
  have kept : ∀ state operation, (serves.Holds state ∧ ∀ invId, Committed (store.held state invId)) →
      (allowed (store.held state operation.invocationId) operation ∧
        Proper (store.held state operation.invocationId) operation) →
      (serves.Holds (next store digest state operation) ∧
        ∀ invId, Committed (store.held (next store digest state operation) invId)) := by
    rintro state operation ⟨holds, committed⟩ ⟨may, proper⟩
    obtain ⟨-, served⟩ := serves.serve state operation holds.2 holds.1 may
    exact ⟨serves.step generates holds may, fun invId =>
      (served.follows holds.2 generates committed proper invId).1⟩
  have start : serves.Holds start ∧ ∀ invId, Committed (store.held start invId) :=
    ⟨holds, fun _ => (empty _).symm ▸ committed_empty⟩
  have everywhere := eachStep_of_steps _ kept start each
  refine ⟨?_, everywhere.imp ?_, everywhere.imp ?_, (serves.dispatches_once generates holds may).1, ?_⟩
  · intro invId
    obtain ⟨holds, committed⟩ := invariant_of_steps _ kept start each
    exact (holds.2.sound _).lawful (committed _)
  · rintro operation - state ⟨⟨holds, committed⟩, may, proper⟩ invId
    obtain ⟨-, served⟩ := serves.serve state operation holds.2 holds.1 may
    exact ⟨(holds.2.sound _).lawful (committed _), (served.follows holds.2 generates committed proper invId).2⟩
  · rintro operation - state ⟨⟨holds, -⟩, may, -⟩ dispatched
    obtain ⟨-, served⟩ := serves.serve state operation holds.2 holds.1 may
    rcases served.dispatched holds.2 generates with ⟨_, -, dispatches⟩ | ⟨told, -⟩
    · exact dispatches.replayable
    · exact absurd told dispatched
  · intro invId
    have keys := serves.dispatches_keys generates holds may invId
    rwa [empty] at keys

end
end Applik8s.AI
