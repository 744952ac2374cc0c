import Applik8s.AI.Drafts

/-! What each operation can do to an invocation: one case for each kind of write, and one for none.
The invariant of the states that operations leave is here too, for what is written is orderly only
in them. -/
namespace Applik8s.AI
open Lib List

/-- The states in which a provider may still be at work, or its result is not yet committed. -/
def AttemptState.open : AttemptState → Bool
  | .reserved | .dispatching | .streaming | .providerCompleted => true
  | .providerFailed | .completionUncertain | .canonicalCommitted | .cancelled => false

def AttemptRecord.replayable (attempt : AttemptRecord) : Prop :=
  attempt.state = .providerFailed ∧ attempt.recovery = .replaySafe

/-- The invocation tells the state of its current attempt, and every other attempt ended so that it
could be followed. -/
def Stands (state : AttemptStoreState) (invocation : InvocationRecord) : Prop :=
  match invocation.currentAttemptId with
  | none => state.attempts = [] ∧ (invocation.state = .active ∨ invocation.state = .cancelled)
  | some current => current ≠ "" ∧ (∃ attempt, state.attempts.get current = some attempt ∧
        invocation.state = invocationStateForAttempt attempt.state attempt.recovery) ∧
      ∀ entry ∈ state.attempts, entry.1 ≠ current → entry.2.replayable

structure Sound (invocationId : String) (state : AttemptStoreState) : Prop where
  absent : state.invocation = none → state.attempts = []
  own : ∀ invocation, state.invocation = some invocation → invocation.id = invocationId
  keys : (state.attempts.map Prod.fst).Nodup
  attempts : ∀ entry ∈ state.attempts, entry.2.id = entry.1 ∧ entry.2.invocationId = invocationId
  ordinals : state.attempts.map (·.2.ordinal) = List.range' 1 state.attempts.length
  stands : ∀ invocation, state.invocation = some invocation → Stands state invocation
  deltas : ∀ entry ∈ state.attempts,
    (state.deltas entry.1).map StreamDelta.sequence = List.range' 1 entry.2.streamFrontier
  noDeltas : ∀ attemptId, state.attempts.get attemptId = none → state.deltas attemptId = []
  noProposals : ∀ key, state.attempts.get key.1 = none → state.proposals key = none

theorem sound_empty (invId : String) : Sound invId .empty where
  absent _ := rfl
  own _ held := by cases held
  keys := nodup_nil
  attempts _ member := by cases member
  ordinals := rfl
  stands _ held := by cases held
  deltas _ member := by cases member
  noDeltas _ _ := rfl
  noProposals _ _ := rfl

theorem Sound.found (sound : Sound invId state) (held : state.attempts.get attId = some attempt) :
    attempt.id = attId ∧ attempt.invocationId = invId :=
  sound.attempts _ (Record.mem_of_get held)

theorem Sound.sequences (sound : Sound invId state) (held : state.attempts.get attId = some attempt) :
    (state.deltas attId).map StreamDelta.sequence = List.range' 1 attempt.streamFrontier :=
  sound.deltas _ (Record.mem_of_get held)

structure Revises (attempt updated : AttemptRecord) : Prop where
  id : updated.id = attempt.id
  invocationId : updated.invocationId = attempt.invocationId
  ordinal : updated.ordinal = attempt.ordinal

/-- What an operation that succeeds has written, and what it returns. -/
inductive Makes (surroundings : Surroundings) (drawn reached : Drawn) (operation : Operation)
    (state : AttemptStoreState) : Change → Outcome → Prop where
  | nothing {outcome : Outcome}
      (joined : ∀ decision, outcome = .decision decision → decision.action ≠ .dispatch) :
      Makes surroundings drawn reached operation state .nothing outcome
  | accept {record : InvocationRecord} (absent : state.invocation = none)
      (own : record.id = operation.invocationId) (active : record.state = .active)
      (unattempted : record.currentAttemptId = none)
      (uncommitted : record.canonicalMessageId = none) :
      Makes surroundings drawn reached operation state { invocation := some record } (.invocation record)
  | dispatch {invocation : InvocationRecord} {attempt : AttemptRecord} {now : String} {drawing : Nat}
      (held : state.invocation = some invocation) (active : invocation.state = .active)
      (earlier : ∀ current, invocation.currentAttemptId = some current →
        ∃ attempt, state.attempts.get current = some attempt ∧ attempt.replayable)
      (since : drawn.ids ≤ drawing) (before : drawing < reached.ids)
      (drew : attempt.id = surroundings.ids drawing "attempt")
      (own : attempt.invocationId = operation.invocationId)
      (ordinal : attempt.ordinal = state.attempts.length + 1) (reserved : attempt.state = .reserved)
      (frontier : attempt.streamFrontier = 0) :
      Makes surroundings drawn reached operation state
        { attempt := some attempt
          invocation := some (updateInvocation invocation now .active (some attempt.id) none) }
        (.decision ⟨.dispatch, updateInvocation invocation now .active (some attempt.id) none, attempt⟩)
  | move {invocation : InvocationRecord} {attempt updated : AttemptRecord} {now : String}
      {target : Transition}
      (called : operation = .transition operation.invocationId attempt.id attempt.version target)
      (state_eq : updated.state = target.state) (held : state.invocation = some invocation)
      (found : state.attempts.get attempt.id = some attempt)
      (current : invocation.currentAttemptId = some attempt.id)
      (allowed : updated.state ∈ transitions attempt.state) (revises : Revises attempt updated)
      (frontier : updated.streamFrontier = attempt.streamFrontier) :
      Makes surroundings drawn reached operation state
        { attempt := some updated
          invocation := some (updateInvocation invocation now
            (invocationStateForAttempt updated.state updated.recovery) none none) }
        (.attempt updated)
  | append {attempt updated : AttemptRecord} {delta : StreamDelta}
      (found : state.attempts.get attempt.id = some attempt)
      (live : attempt.state = .streaming ∨ attempt.state = .dispatching)
      (streaming : updated.state = .streaming) (revises : Revises attempt updated)
      (of : delta.attemptId = attempt.id) (follows : delta.sequence = attempt.streamFrontier + 1)
      (frontier : updated.streamFrontier = delta.sequence) :
      Makes surroundings drawn reached operation state { attempt := some updated, delta := some delta } (.delta delta)
  | commit {invocation : InvocationRecord} {attempt updated : AttemptRecord}
      {now messageId : String} (held : state.invocation = some invocation)
      (found : state.attempts.get attempt.id = some attempt)
      (completed : attempt.state = .providerCompleted)
      (committed : updated.state = .canonicalCommitted) (revises : Revises attempt updated)
      (frontier : updated.streamFrontier = attempt.streamFrontier) (named : messageId ≠ "") :
      Makes surroundings drawn reached operation state
        { attempt := some updated
          invocation := some (updateInvocation invocation now .completed none (some messageId)) }
        (.attempt updated)
  | withdraw {invocation : InvocationRecord} {now : String}
      (held : state.invocation = some invocation) (active : invocation.state ≠ .completed)
      (unattempted : ∀ current attempt, invocation.currentAttemptId = some current → current ≠ "" →
        state.attempts.get current = some attempt → attempt.state = .canonicalCommitted) :
      Makes surroundings drawn reached operation state
        { invocation := some (updateInvocation invocation now .cancelled none none) }
        (.invocation (updateInvocation invocation now .cancelled none none))
  | cancel {invocation : InvocationRecord} {attempt updated : AttemptRecord} {now reason : String}
      (called : operation = .cancel operation.invocationId reason) (filled : blank reason = false)
      (held : state.invocation = some invocation)
      (open_ : invocation.state ≠ .completed ∧ invocation.state ≠ .cancelled)
      (current : invocation.currentAttemptId = some attempt.id)
      (found : state.attempts.get attempt.id = some attempt)
      (cancelled : updated.state = .cancelled) (revises : Revises attempt updated)
      (frontier : updated.streamFrontier = attempt.streamFrontier) :
      Makes surroundings drawn reached operation state
        { attempt := some updated
          invocation := some (updateInvocation invocation now .cancelled none none) }
        (.invocation (updateInvocation invocation now .cancelled none none))
  | propose {attempt : AttemptRecord} {proposal : ToolProposalRecord} {input : ToolProposalInput}
      (called : operation = .reserveToolProposal input) (attempted : proposal.attemptId = input.attemptId)
      (tool : proposal.providerToolCallId = input.providerToolCallId)
      (found : state.attempts.get proposal.attemptId = some attempt)
      (fresh : state.proposals (proposal.attemptId, proposal.providerToolCallId) = none)
      (open_ : attempt.state.open = true ∨ attempt.state = .canonicalCommitted) :
      Makes surroundings drawn reached operation state { proposal := some proposal } (.proposal proposal)

section
variable {env : Surroundings} {digest : Digest} {state : AttemptStoreState} {drawn : Drawn}

/-- A commit that throws behind its first write: its message identity is blank. -/
def HalfCommits (state : AttemptStoreState) : Operation → Prop
  | .commitCanonicalResult _ attemptId messageId => blank messageId = true ∧
      ∃ attempt, state.attempts.get attemptId = some attempt ∧ attempt.state = .providerCompleted
  | _ => False

def Ends (surroundings : Surroundings) (drawn : Drawn) (operation : Operation)
    (state : AttemptStoreState) (result : Except Failure Outcome) (reached : Change × Drawn) : Prop :=
  match result with
  | .ok outcome => Makes surroundings drawn reached.2 operation state reached.1 outcome
  | .error _ => reached.1 = .nothing ∨ HalfCommits state operation

theorem nonEmpty_ok (accepted : nonEmpty value name = .ok same) : same = value ∧ blank value = false := by
  unfold nonEmpty at accepted
  split at accepted
  · cases accepted
  · next filled => exact ⟨(Except.ok.inj accepted).symm, Bool.not_eq_true _ ▸ filled⟩

theorem ne_empty_of_filled (filled : blank value = false) : value ≠ "" := by
  rintro rfl
  simp [blank] at filled

theorem whenTruthy_some (is : whenTruthy text = some value) : text = some value ∧ value ≠ "" := by
  unfold whenTruthy at is
  split at is
  · next present =>
    subst is
    exact ⟨rfl, by simpa [truthy] using present⟩
  · cases is

theorem reserveInvocation_drafts (input : InvocationReservation) : Drafts env input.invocationId state
      ((Operation.reserveInvocation input).body digest) (.nothing, drawn)
      (Ends env drawn (.reserveInvocation input) state) := by
  refine drafts_map (drafts_ask rfl ?_)
  simp only [draft]
  cases held : state.invocation with
  | some =>
    dsimp only
    split
    · exact drafts_throw (.inl rfl)
    · exact drafts_pure (.nothing fun _ is => by cases is)
  | none =>
    refine drafts_ask trivial (drafts_check (fun id named => ?_) fun _ _ => .inl rfl)
    refine drafts_check (fun conversationId _ => ?_) fun _ _ => .inl rfl
    refine drafts_check (fun protocolRunId _ => ?_) fun _ _ => .inl rfl
    refine drafts_check (fun agentRunId _ => ?_) fun _ _ => .inl rfl
    refine drafts_check (fun logicalModel _ => ?_) fun _ _ => .inl rfl
    obtain ⟨rfl, -⟩ := nonEmpty_ok named
    exact drafts_putInvocation ⟨rfl, rfl⟩ (drafts_pure (.accept held rfl rfl rfl rfl))

theorem transition_drafts (sound : Sound invId state) (attId : String)
    (expectedVersion : Nat) (target : Transition) : Drafts env invId state
      ((Operation.transition invId attId expectedVersion target).body digest) (.nothing, drawn)
      (Ends env drawn (.transition invId attId expectedVersion target) state) := by
  refine drafts_map (drafts_requireInvocation (fun inv held own => ?_) fun _ => .inl rfl)
  refine drafts_requireAttempt rfl (fun attempt found => ?_) fun _ => .inl rfl
  obtain ⟨rfl, belongs⟩ := sound.found found
  split
  · exact drafts_throw (.inl rfl)
  next cur =>
  split
  · exact drafts_throw (.inl rfl)
  next expected =>
  refine drafts_check (fun _ asserted => ?_) fun _ _ => .inl rfl
  refine drafts_ask trivial (drafts_put ⟨rfl, belongs⟩ ?_)
  refine drafts_putInvocation ⟨rfl, own⟩ (drafts_pure ?_)
  simp only [Bool.or_eq_true, decide_eq_true_eq, not_or, not_not] at cur
  have allowed : target.state ∈ transitions attempt.state := by
    unfold assertTransition at asserted
    split at asserted
    · assumption
    · cases asserted
  rw [not_not] at expected
  subst expected
  exact .move rfl rfl held found cur.2 allowed ⟨rfl, rfl, rfl⟩ rfl

theorem appendDelta_drafts (sound : Sound invId state) (attId : String) (event : Json) :
    Drafts env invId state ((Operation.appendDelta invId attId event).body digest) (.nothing, drawn)
      (Ends env drawn (.appendDelta invId attId event) state) := by
  refine drafts_map (drafts_requireInvocation (fun inv held own => ?_) fun _ => .inl rfl)
  refine drafts_requireAttempt rfl (fun attempt found => ?_) fun _ => .inl rfl
  obtain ⟨rfl, belongs⟩ := sound.found found
  split
  · exact drafts_throw (.inl rfl)
  split
  · exact drafts_throw (.inl rfl)
  next live =>
  have fresh : (state.deltas attempt.id).any (·.sequence = attempt.streamFrontier + 1) = false := by
    rw [any_eq_false]
    intro delta among next
    have within : delta.sequence ∈ List.range' 1 attempt.streamFrontier :=
      sound.sequences found ▸ mem_map_of_mem among
    rw [mem_range'_1] at within
    rw [decide_eq_true_eq] at next
    omega
  refine drafts_ask trivial (drafts_call ⟨rfl, by simp [found, belongs], fresh⟩ ?_)
  refine drafts_put ⟨rfl, belongs⟩ (drafts_pure ?_)
  simp only [Bool.and_eq_true, decide_eq_true_eq, not_and, not_not] at live
  exact .append found (Classical.or_iff_not_imp_left.mpr live) rfl ⟨rfl, rfl, rfl⟩ rfl rfl rfl

theorem commitCanonicalResult_drafts (sound : Sound invId state) (attId messageId : String) : Drafts env invId state
      ((Operation.commitCanonicalResult invId attId messageId).body digest) (.nothing, drawn)
      (Ends env drawn (.commitCanonicalResult invId attId messageId) state) := by
  refine drafts_map (drafts_requireInvocation (fun inv held own => ?_) fun _ => .inl rfl)
  refine drafts_requireAttempt rfl (fun attempt found => ?_) fun _ => .inl rfl
  obtain ⟨rfl, belongs⟩ := sound.found found
  split
  · exact drafts_throw (.inl rfl)
  next completed =>
  rw [not_not] at completed
  split
  · exact drafts_throw (.inl rfl)
  refine drafts_ask trivial (drafts_put ⟨rfl, belongs⟩ (drafts_check (fun named given => ?_) ?_))
  · obtain ⟨rfl, filled⟩ := nonEmpty_ok given
    refine drafts_putInvocation ⟨rfl, own⟩ (drafts_pure ?_)
    exact .commit held found completed rfl ⟨rfl, rfl, rfl⟩ rfl (ne_empty_of_filled filled)
  intro err refused
  refine .inr ⟨?_, attempt, found, completed⟩
  unfold nonEmpty at refused
  split at refused
  · assumption
  · cases refused

theorem decideCurrent_some (decided : decideCurrent input cur = .ok (some action)) : action ≠ .dispatch := by
  unfold decideCurrent at decided
  split at decided
  · cases decided
  repeat
    split at decided
    · cases Except.ok.inj decided
      decide
  cases decided

theorem decideCurrent_none (decided : decideCurrent input cur = .ok none) : cur.replayable := by
  unfold decideCurrent at decided
  split at decided
  · cases decided
  split at decided
  · cases decided
  next closed =>
  split at decided
  · cases decided
  next unsettled =>
  split at decided
  · cases decided
  next certain =>
  split at decided
  · cases decided
  next retried =>
  have failed : cur.state = .providerFailed := by
    cases state : cur.state <;> simp_all
  simp only [failed, decide_true, Bool.true_and, Bool.or_eq_true, decide_eq_true_eq, not_or, not_not] at retried
  exact ⟨failed, retried.1⟩

theorem dispatchAttempt_drafts (sound : Sound invId state) (own : input.invocationId = invId)
    (held : state.invocation = some inv)
    (earlier : ∀ cur, inv.currentAttemptId = some cur → ∃ attempt, state.attempts.get cur = some attempt ∧ attempt.replayable)
    : Drafts env invId state (dispatchAttempt input inv state.attempts.length) (.nothing, drawn)
      fun res reached => Ends env drawn (.reserveAttempt input) state (res.map .decision) reached := by
  have named := sound.own inv held
  unfold dispatchAttempt
  split
  · exact drafts_throw (.inl rfl)
  next active =>
  rw [not_not] at active
  refine drafts_ask trivial (drafts_ask trivial (drafts_put ⟨rfl, named⟩ ?_))
  refine drafts_putInvocation ⟨rfl, named⟩ (drafts_pure ?_)
  exact .dispatch held active earlier le_rfl (Nat.lt_succ_self _) rfl (named.trans own.symm) rfl rfl rfl

theorem byOrdinal_attempts (sound : Sound invId state) :
    byOrdinal (state.attempts.map Prod.snd) = state.attempts.map Prod.snd := by
  have sorted : ((state.attempts.map Prod.snd).map AttemptRecord.ordinal).Pairwise (· ≤ ·) := by
    rw [map_map]
    change (state.attempts.map fun entry => entry.2.ordinal).Pairwise (· ≤ ·)
    rw [sound.ordinals]
    exact pairwise_le_range'
  exact (pairwise_map.mp sorted).insertionSort_eq

theorem reserveAttempt_drafts (input : AttemptReservation) (sound : Sound input.invocationId state) :
    Drafts env input.invocationId state ((Operation.reserveAttempt input).body digest)
      (.nothing, drawn) (Ends env drawn (.reserveAttempt input) state) := by
  refine drafts_map (drafts_requireInvocation (fun inv held own => ?_) fun _ => .inl rfl)
  refine drafts_ask rfl ?_
  simp only [draft]
  rw [byOrdinal_attempts sound, length_map]
  have stands := sound.stands inv held
  unfold Stands at stands
  unfold currentAttempt
  cases cur : inv.currentAttemptId with
  | none =>
    rw [cur] at stands
    simp only [stands.1]
    refine drafts_bind (fun res reached => res = .ok none ∧ reached = (.nothing, drawn))
      (drafts_pure ⟨rfl, rfl⟩) ?_ (fun _ _ ends => by cases ends.1)
    rintro _ _ ⟨same, rfl⟩
    cases same
    have drafts : Drafts env input.invocationId state
        (dispatchAttempt input inv state.attempts.length) (.nothing, drawn)
        fun res reached => Ends env drawn (.reserveAttempt input) state (res.map .decision) reached :=
      dispatchAttempt_drafts sound rfl held (by simp [cur])
    rwa [stands.1] at drafts
  | some attId =>
    rw [cur] at stands
    obtain ⟨named, ⟨attempt, found, -⟩, -⟩ := stands
    have present : whenTruthy (some attId) = some attId := by
      simp [whenTruthy, truthy, named]
    simp only [present]
    refine drafts_ask rfl ?_
    simp only [draft, found]
    refine drafts_check (fun decision decided => ?_) fun _ _ => .inl rfl
    cases decision with
    | some action =>
      refine drafts_pure (.nothing fun _ is => ?_)
      cases is
      exact decideCurrent_some decided
    | none =>
      refine dispatchAttempt_drafts sound rfl held fun other is => ?_
      cases cur.symm.trans is
      exact ⟨attempt, found, decideCurrent_none decided⟩

theorem cancel_drafts (sound : Sound invId state) (reason : String) :
    Drafts env invId state ((Operation.cancel invId reason).body digest)
      (.nothing, drawn) (Ends env drawn (.cancel invId reason) state) := by
  refine drafts_map (drafts_requireInvocation (fun inv held own => ?_) fun _ => .inl rfl)
  split
  · exact drafts_throw (.inl rfl)
  next incomplete =>
  split
  · exact drafts_pure (.nothing fun _ is => by cases is)
  next uncancelled =>
  refine drafts_ask trivial ?_
  unfold cancelCurrent
  cases cur : whenTruthy inv.currentAttemptId with
  | none =>
    refine drafts_putInvocation ⟨rfl, own⟩ (drafts_pure (.withdraw held incomplete ?_))
    intro attId attempt is named
    rw [is] at cur
    simp [whenTruthy, truthy, named] at cur
  | some attId =>
    obtain ⟨isCurrent, _⟩ := whenTruthy_some cur
    refine drafts_bind (fun res reached => reached.2 = { drawn with times := drawn.times + 1 } ∧
      res.rec (fun _ => reached.1 = .nothing) fun _ => ∃ attempt, state.attempts.get attId = some attempt ∧
        (reached.1 = .nothing ∧ attempt.state = .canonicalCommitted ∨
          ∃ updated, reached.1 = { attempt := some updated } ∧ blank reason = false ∧
            updated.state = .cancelled ∧ Revises attempt updated ∧
            updated.streamFrontier = attempt.streamFrontier)) ?_ ?_ ?_
    · refine drafts_requireAttempt rfl (fun attempt found => ?_) fun _ => ⟨rfl, rfl⟩
      split
      · next committed => exact drafts_pure ⟨rfl, attempt, found, .inl ⟨rfl, committed⟩⟩
      refine drafts_check (fun _ given => ?_) fun _ _ => ⟨rfl, rfl⟩
      refine drafts_call ⟨rfl, (sound.found found).2⟩ (drafts_pure ⟨rfl, attempt, found, .inr ?_⟩)
      exact ⟨_, rfl, (nonEmpty_ok given).2, rfl, ⟨rfl, rfl, rfl⟩, rfl⟩
    · rintro _ ⟨change, _⟩ ⟨rfl, _, found, ⟨rfl, committed⟩ | ⟨_, rfl, filled, cancelled, revises, frontier⟩⟩
      · refine drafts_putInvocation ⟨rfl, own⟩ (drafts_pure (.withdraw held incomplete ?_))
        intro other attempt' is _ found'
        cases isCurrent.symm.trans is
        cases found.symm.trans found'
        exact committed
      · obtain ⟨rfl, -⟩ := sound.found found
        refine drafts_putInvocation ⟨rfl, own⟩ (drafts_pure ?_)
        exact .cancel rfl filled held ⟨incomplete, uncancelled⟩ isCurrent found cancelled revises frontier
    · rintro _ ⟨_, _⟩ ⟨-, rfl⟩
      exact .inl rfl

theorem reserveToolProposal_drafts (input : ToolProposalInput) (sound : Sound input.invocationId state) :
    Drafts env input.invocationId state ((Operation.reserveToolProposal input).body digest) (.nothing, drawn)
      (Ends env drawn (.reserveToolProposal input) state) := by
  refine drafts_map (drafts_requireInvocation (fun inv held own => ?_) fun _ => .inl rfl)
  refine drafts_requireAttempt rfl (fun attempt found => ?_) fun _ => .inl rfl
  obtain ⟨same, belongs⟩ := sound.found found
  split
  · exact drafts_throw (.inl rfl)
  next open_ =>
  refine drafts_ask rfl ?_
  simp only [draft]
  cases existing : state.proposals (attempt.id, input.providerToolCallId) with
  | some =>
    dsimp only
    split
    · exact drafts_throw (.inl rfl)
    · exact drafts_pure (.nothing fun _ is => by cases is)
  | none =>
    refine drafts_ask trivial (drafts_check (fun toolCallId given => ?_) fun _ _ => .inl rfl)
    refine drafts_check (fun _ _ => ?_) fun _ _ => .inl rfl
    obtain ⟨rfl, -⟩ := nonEmpty_ok given
    refine drafts_ask trivial (drafts_call ⟨rfl, by simp [found, belongs]⟩ (drafts_pure ?_))
    refine .propose rfl rfl rfl found (by rw [← same]; exact existing) ?_
    cases state : attempt.state <;> simp_all [AttemptState.open]

theorem drafts_collectDeltas (sound : Sound invId state) (attempts : List AttemptRecord) : Drafts env invId state
      (Program.collect attempts fun attempt => ask (.listDeltas attempt.id)) (.nothing, drawn)
      fun res reached => reached = (.nothing, drawn) ∧ ∃ deltas, res = .ok deltas := by
  induction attempts with
  | nil => exact ⟨trivial, rfl, [], rfl⟩
  | cons attempt rest ih =>
    have sorted : (state.deltas attempt.id).Pairwise (·.sequence ≤ ·.sequence) := by
      cases found : state.attempts.get attempt.id with
      | none => simp [sound.noDeltas _ found]
      | some held =>
        apply pairwise_map.mp
        rw [sound.sequences found]
        exact pairwise_le_range'
    refine drafts_ask ⟨rfl, sorted⟩ (drafts_bind _ ih ?_ ?_)
    · rintro _ _ ⟨rfl, -⟩
      exact ⟨trivial, rfl, _, rfl⟩
    · rintro _ _ ⟨-, _, is⟩
      cases is

theorem observe_drafts (sound : Sound invId state) : Drafts env invId state ((Operation.observe invId).body digest)
      (.nothing, drawn) (Ends env drawn (.observe invId) state) := by
  refine drafts_map (drafts_requireInvocation (fun inv held own => ?_) fun _ => .inl rfl)
  refine drafts_ask rfl (drafts_bind _ (drafts_collectDeltas sound _) ?_ ?_)
  · rintro _ _ ⟨rfl, -⟩
    exact drafts_pure (.nothing fun _ is => by cases is)
  · rintro _ _ ⟨-, _, is⟩
    cases is

variable (env digest drawn) in
theorem operation_drafts (op : Operation) (sound : Sound op.invocationId state) :
    Drafts env op.invocationId state (op.body digest) (.nothing, drawn)
      (Ends env drawn op state) := by
  cases op with
  | reserveInvocation input => exact reserveInvocation_drafts input
  | reserveAttempt input => exact reserveAttempt_drafts input sound
  | transition _ attId expectedVersion target =>
    exact transition_drafts sound attId expectedVersion target
  | appendDelta _ attId event => exact appendDelta_drafts sound attId event
  | commitCanonicalResult _ attId messageId =>
    exact commitCanonicalResult_drafts sound attId messageId
  | cancel _ reason => exact cancel_drafts sound reason
  | reserveToolProposal input => exact reserveToolProposal_drafts input sound
  | observe => exact observe_drafts sound

end
end Applik8s.AI
