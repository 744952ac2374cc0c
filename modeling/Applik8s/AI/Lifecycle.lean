import Applik8s.AI.Persistence

/-! The life of invocations and attempts. Every step leaves what a store holds sound, and takes
attempts and invocations only where the transitions let them go, as long as no operation goes around
them: a cancellation of an attempt that has ended, a commit without its message, a proposal for a
committed attempt. -/
namespace Applik8s.AI
open Lib List Option Nat
open AttemptStoreState (apply)

section
variable {state : AttemptStoreState} {attempt updated : AttemptRecord}

namespace Sound

theorem revised (sound : Sound invId state) (found : state.attempts.get attempt.id = some attempt)
    (revises : Revises attempt updated) : state.attempts.set updated.id updated =
      state.attempts.map fun entry => if entry.1 = attempt.id then (attempt.id, updated) else entry := by
  rw [revises.id]
  exact Record.set_present sound.keys (by rw [found]; rfl)

theorem get_revised (revises : Revises attempt updated) : (state.attempts.set updated.id updated).get attId =
      if attId = attempt.id then some updated else state.attempts.get attId := by
  rw [Record.get_set, revises.id]

theorem mem_revised (sound : Sound invId state) (found : state.attempts.get attempt.id = some attempt)
    (revises : Revises attempt updated) (member : entry ∈ state.attempts.set updated.id updated) :
    entry = (attempt.id, updated) ∨ entry ∈ state.attempts ∧ entry.1 ≠ attempt.id := by
  rw [sound.revised found revises] at member
  obtain ⟨_, there, rfl⟩ := mem_map.mp member
  split
  · exact .inl rfl
  · next differ => exact .inr ⟨there, differ⟩

theorem current_of_unfailed (sound : Sound invId state) (held : state.invocation = some inv)
    (found : state.attempts.get attempt.id = some attempt) (unfailed : attempt.state ≠ .providerFailed) :
    inv.currentAttemptId = some attempt.id ∧ attempt.id ≠ "" ∧
      inv.state = invocationStateForAttempt attempt.state attempt.recovery := by
  have stands := sound.stands inv held
  unfold Stands at stands
  have member := Record.mem_of_get found
  cases cur : inv.currentAttemptId with
  | none =>
    rw [cur] at stands
    rw [stands.1] at member
    cases member
  | some other =>
    rw [cur] at stands
    obtain ⟨named, ⟨_, found', tells⟩, others⟩ := stands
    have same : attempt.id = other := by
      by_contra differ
      exact unfailed (others _ member differ).1
    subst same
    cases found.symm.trans found'
    exact ⟨rfl, named, tells⟩

theorem revise {invId : String} {inv : InvocationRecord} (sound : Sound invId state) (after : InvocationRecord)
    (deltas : String → List StreamDelta) (held : state.invocation = some inv)
    (found : state.attempts.get attempt.id = some attempt) (cur : inv.currentAttemptId = some attempt.id)
    (revises : Revises attempt updated) (same : after.id = inv.id) (still : after.currentAttemptId = some attempt.id)
    (tells : after.state = invocationStateForAttempt updated.state updated.recovery)
    (sequences : (deltas attempt.id).map StreamDelta.sequence = List.range' 1 updated.streamFrontier)
    (others : ∀ attId, attId ≠ attempt.id → deltas attId = state.deltas attId) : Sound invId
      { state with
        invocation := some after
        attempts := state.attempts.set updated.id updated
        deltas } where
  absent missing := by cases missing
  own _ is := by
    cases is
    exact same.trans (sound.own inv held)
  keys := by
    rw [sound.revised found revises, List.map_map]
    have keys : state.attempts.map (Prod.fst ∘ fun entry =>
        if entry.1 = attempt.id then (attempt.id, updated) else entry) =
        state.attempts.map Prod.fst := by
      apply List.map_congr_left
      intro entry _
      simp only [Function.comp]
      split
      · next is => exact is.symm
      · rfl
    rw [keys]
    exact sound.keys
  attempts entry member := by
    rcases sound.mem_revised found revises member with rfl | ⟨there, -⟩
    · exact ⟨revises.id, revises.invocationId.trans (sound.found found).2⟩
    · exact sound.attempts entry there
  ordinals := by
    rw [sound.revised found revises, List.map_map, List.length_map, ← sound.ordinals]
    apply List.map_congr_left
    intro entry member
    simp only [Function.comp]
    split
    · next is =>
      have here : state.attempts.get entry.1 = some entry.2 := Record.get_of_mem sound.keys member
      rw [is, found] at here
      obtain same := Option.some.inj here
      rw [← same]
      exact revises.ordinal
    · rfl
  stands _ is := by
    cases is
    have stands := sound.stands inv held
    unfold Stands at stands ⊢
    rw [cur] at stands
    rw [still]
    refine ⟨stands.1, ⟨updated, ?_, tells⟩, fun entry member differ => ?_⟩
    · rw [get_revised revises, if_pos rfl]
    rcases sound.mem_revised found revises member with rfl | ⟨there, -⟩
    · exact absurd rfl differ
    · exact stands.2.2 entry there differ
  deltas entry member := by
    rcases sound.mem_revised found revises member with rfl | ⟨there, differ⟩
    · exact sequences
    dsimp only
    rw [others _ differ]
    exact sound.deltas entry there
  noDeltas attId missing := by
    dsimp only at missing ⊢
    rw [get_revised revises] at missing
    split at missing
    · cases missing
    next differ =>
    rw [others _ differ]
    exact sound.noDeltas _ missing
  noProposals key missing := by
    rw [get_revised revises] at missing
    split at missing
    · cases missing
    · exact sound.noProposals _ missing

end Sound
end

section
variable {state : AttemptStoreState}

/-- The operation does not go around the transitions: it does not commit an attempt without its
message, does not cancel one that has failed or is uncertain, and proposes no tool call for a
committed one. -/
def Proper (state : AttemptStoreState) : Operation → Prop
  | .transition _ attemptId expectedVersion target => ∀ attempt,
      state.attempts.get attemptId = some attempt → attempt.version = expectedVersion →
      attempt.state = .providerCompleted → target.state ≠ .canonicalCommitted
  | .cancel _ reason => blank reason = false → ∀ invocation attemptId attempt,
      state.invocation = some invocation → invocation.currentAttemptId = some attemptId →
      state.attempts.get attemptId = some attempt →
      attempt.state ≠ .providerFailed ∧ attempt.state ≠ .completionUncertain
  | .reserveToolProposal input => ∀ attempt, state.attempts.get input.attemptId = some attempt →
      attempt.state = .canonicalCommitted →
      state.proposals (input.attemptId, input.providerToolCallId) ≠ none
  | _ => True

theorem updateInvocation_attempt (named : attId ≠ "") :
    (updateInvocation inv now standing (some attId) none).currentAttemptId = some attId := by
  simp [updateInvocation, whenTruthy, truthy, named]

theorem open_of_transition (allowed : target ∈ transitions cur) : cur.open = true := by
  cases cur <;> simp_all [transitions, AttemptState.open]

theorem active_of_open (isOpen : standing.open = true) : invocationStateForAttempt standing recovery = .active := by
  cases standing <;> simp_all [AttemptState.open, invocationStateForAttempt]

theorem unfailed_of_open {standing : AttemptState} (isOpen : standing.open = true) : standing ≠ .providerFailed := by
  rintro rfl
  cases isOpen

theorem Makes.sound (makes : Makes env drawn reached op state change out) (sound : Sound op.invocationId state)
    (generates : Generates env) (issued : Issued env drawn state) : Sound op.invocationId (state.apply change) := by
  cases makes with
  | nothing joined => exact sound
  | @accept _ absent own active unattempted =>
    have none := sound.absent absent
    refine { sound with absent := ?_, own := ?_, stands := ?_ }
    · intro missing
      cases missing
    · rintro _ is
      cases is
      exact own
    · rintro _ is
      cases is
      unfold Stands
      rw [unattempted]
      exact ⟨none, .inl active⟩
  | @dispatch inv attempt now drawing held _ earlier since _ drew own ordinal reserved frontier =>
    have fresh := fresh_attempt generates issued since drew
    have named : attempt.id ≠ "" := drew ▸ generates.named drawing
    have attempts : (state.apply { attempt := some attempt
                                   invocation := some (updateInvocation inv now .active
                                    (some attempt.id) none) }).attempts =
        state.attempts ++ [(attempt.id, attempt)] := Record.set_absent fresh
    have stands := sound.stands inv held
    refine ⟨?_, ?_, ?_, ?_, ?_, ?_, ?_, ?_, ?_⟩
    · intro missing
      cases missing
    · rintro _ is
      cases is
      exact sound.own inv held
    · rw [attempts, map_append, nodup_append]
      refine ⟨sound.keys, by simp, ?_⟩
      intro name member other last same
      obtain ⟨entry, there, rfl⟩ := mem_map.mp member
      simp only [map_cons, map_nil, mem_singleton] at last
      exact Record.get_eq_none_iff.mp fresh entry there (same.trans last)
    · rw [attempts]
      intro entry member
      rcases mem_append.mp member with there | last
      · exact sound.attempts entry there
      · obtain rfl := mem_singleton.mp last
        exact ⟨rfl, own⟩
    · rw [attempts, map_append, sound.ordinals, length_append, map_singleton,
        List.length_singleton, List.range'_concat, ordinal, Nat.add_comm, Nat.one_mul]
    · rintro _ is
      cases is
      unfold Stands
      rw [updateInvocation_attempt named, attempts]
      refine ⟨named, ⟨attempt, ?_, ?_⟩, ?_⟩
      · rw [Record.get_append, fresh]
        simp [Record.get_cons]
      · rw [reserved]
        rfl
      intro entry member differ
      rcases mem_append.mp member with there | last
      · unfold Stands at stands
        cases cur : inv.currentAttemptId with
        | none =>
          rw [cur] at stands
          rw [stands.1] at there
          cases there
        | some attId =>
          rw [cur] at stands
          obtain ⟨_, found, _⟩ := earlier attId cur
          by_cases same : entry.1 = attId
          · have here : state.attempts.get entry.1 = some entry.2 :=
              Record.get_of_mem sound.keys there
            rw [same, found] at here
            rwa [← some.inj here]
          · exact stands.2.2 entry there same
      · obtain rfl := mem_singleton.mp last
        exact absurd rfl differ
    · rw [attempts]
      intro entry member
      rcases mem_append.mp member with there | last
      · exact sound.deltas entry there
      obtain rfl := mem_singleton.mp last
      change (state.deltas attempt.id).map StreamDelta.sequence = _
      rw [sound.noDeltas _ fresh, frontier]
      rfl
    · rw [attempts]
      intro attId missing
      rw [Record.get_append] at missing
      cases found : state.attempts.get attId with
      | none => exact sound.noDeltas _ found
      | some _ => simp [found] at missing
    · rw [attempts]
      intro key missing
      rw [Record.get_append] at missing
      cases found : state.attempts.get key.1 with
      | none => exact sound.noProposals _ found
      | some _ => simp [found] at missing
  | @move inv _ updated now _ _ _ held found cur _ revises frontier =>
    refine sound.revise (updateInvocation inv now
      (invocationStateForAttempt updated.state updated.recovery) none none) state.deltas held found
      cur revises rfl ?_ rfl ?_ fun _ _ => rfl
    · simp [updateInvocation, whenTruthy, cur]
    · rw [frontier]
      exact sound.sequences found
  | @append attempt updated delta found live streaming revises of follows frontier =>
    cases held : state.invocation with
    | none =>
      have member := Record.mem_of_get found
      rw [sound.absent held] at member
      cases member
    | some inv =>
      have isOpen : attempt.state.open = true := by rcases live with is | is <;> rw [is] <;> rfl
      obtain ⟨cur, named, tells⟩ := sound.current_of_unfailed held found (unfailed_of_open isOpen)
      rw [active_of_open isOpen] at tells
      have revised := sound.revise inv (state.apply { delta := some delta }).deltas held found
        cur revises rfl cur (by rw [tells, streaming]; rfl) ?_ ?_
      · simpa [apply, held] using revised
      · simp [apply, of, sound.sequences found, frontier, follows, List.range'_concat, Nat.add_comm]
      · intro attId differ
        exact Function.update_of_ne (by rw [of]; exact differ) _ _
  | @commit inv attempt _ now messageId held found completed committed revises frontier =>
    have isOpen : attempt.state.open = true := by rw [completed]; rfl
    obtain ⟨cur, -, tells⟩ := sound.current_of_unfailed held found (unfailed_of_open isOpen)
    refine sound.revise (updateInvocation inv now .completed none (some messageId)) state.deltas
      held found cur revises rfl ?_ ?_ ?_ fun _ _ => rfl
    · simp [updateInvocation, whenTruthy, cur]
    · rw [committed]
      rfl
    · rw [frontier]
      exact sound.sequences found
  | @withdraw inv now held incomplete unattempted =>
    have stands := sound.stands inv held
    unfold Stands at stands
    cases cur : inv.currentAttemptId with
    | some attId =>
      rw [cur] at stands
      obtain ⟨named, ⟨attempt, found, tells⟩, -⟩ := stands
      rw [unattempted attId attempt cur named found] at tells
      exact absurd tells incomplete
    | none =>
      rw [cur] at stands
      refine { sound with absent := ?_, own := ?_, stands := ?_ }
      · intro missing
        cases missing
      · rintro _ is
        cases is
        exact sound.own inv held
      rintro _ is
      cases is
      unfold Stands
      have : (updateInvocation inv now .cancelled none none).currentAttemptId = none := by
        simp [updateInvocation, whenTruthy, cur]
      rw [this]
      exact ⟨stands.1, .inr rfl⟩
  | @cancel inv _ _ now _ _ _ held _ cur found cancelled revises frontier =>
    refine sound.revise (updateInvocation inv now .cancelled none none) state.deltas held found
      cur revises rfl ?_ ?_ ?_ fun _ _ => rfl
    · simp [updateInvocation, whenTruthy, cur]
    · rw [cancelled]
      rfl
    · rw [frontier]
      exact sound.sequences found
  | @propose _ proposal _ _ _ _ found =>
    refine { sound with noProposals := ?_ }
    intro key missing
    have differ : key ≠ (proposal.attemptId, proposal.providerToolCallId) := by
      rintro rfl
      exact absurd (found.symm.trans missing) (by simp)
    exact (Function.update_of_ne differ _ _).trans (sound.noProposals key missing)

end

section
variable {state : AttemptStoreState}

/-- An invocation has its canonical message exactly when it is completed. -/
def Committed (state : AttemptStoreState) : Prop := ∀ invocation, state.invocation = some invocation →
    (invocation.canonicalMessageId.isSome ↔ invocation.state = .completed)

theorem committed_empty : Committed .empty := by
  intro _ held
  cases held

theorem Committed.none (committed : Committed state) (held : state.invocation = some inv)
    (incomplete : inv.state ≠ .completed) : inv.canonicalMessageId = none := by
  rw [← not_isSome_iff_eq_none, committed inv held]
  exact incomplete

theorem invocationState_completed :
    invocationStateForAttempt standing recovery = .completed ↔ standing = .canonicalCommitted := by
  cases standing <;> simp [invocationStateForAttempt]
  split <;> simp

theorem Proper.uncommitting (proper : Proper state (.transition invId attempt.id attempt.version target))
    (found : state.attempts.get attempt.id = some attempt) (allowed : target.state ∈ transitions attempt.state)
    : target.state ≠ .canonicalCommitted := by
  intro committed
  have completed : attempt.state = .providerCompleted := by
    rw [committed] at allowed
    revert allowed
    cases attempt.state <;> decide
  exact proper attempt found rfl completed committed

theorem Makes.committed (makes : Makes env drawn reached op state change out) (sound : Sound op.invocationId state)
    (committed : Committed state) (proper : Proper state op) : Committed (state.apply change) := by
  cases makes with
  | nothing joined => exact committed
  | accept _ _ active _ uncommitted =>
    rintro _ is
    cases is
    simp [uncommitted, active]
  | @dispatch _ _ _ _ held active =>
    rintro _ is
    cases is
    have uncommitted := committed.none held (by rw [active]; decide)
    simp [updateInvocation, whenTruthy, uncommitted]
  | @move _ _ _ _ _ called standing held found _ allowed =>
    rw [called] at proper
    rw [standing] at allowed
    have differs := proper.uncommitting found allowed
    have isOpen := open_of_transition allowed
    obtain ⟨-, named, tells⟩ := sound.current_of_unfailed held found (unfailed_of_open isOpen)
    rw [active_of_open isOpen] at tells
    have uncommitted := committed.none held (by rw [tells]; decide)
    rintro _ is
    cases is
    simp [updateInvocation, whenTruthy, uncommitted, invocationState_completed, standing, differs]
  | append => exact committed
  | @commit _ _ _ _ _ _ _ _ _ _ _ named =>
    rintro _ is
    cases is
    simp [updateInvocation, whenTruthy, truthy, named]
  | @withdraw _ _ held incomplete =>
    rintro _ is
    cases is
    simp [updateInvocation, whenTruthy, committed.none held incomplete]
  | @cancel _ _ _ _ _ _ _ held open_ =>
    rintro _ is
    cases is
    simp [updateInvocation, whenTruthy, committed.none held open_.1]
  | propose => exact committed

end

section
variable {before : AttemptStoreState}

/-- What a step may do to what a store holds for an invocation. -/
structure Follows (before after : AttemptStoreState) : Prop where
  /-- Attempts stay, and their states move along the table. -/
  attempts : ∀ attemptId attempt, before.attempts.get attemptId = some attempt →
    ∃ updated, after.attempts.get attemptId = some updated ∧
      (updated.state = attempt.state ∨ updated.state ∈ transitions attempt.state)
  reserved : ∀ attemptId attempt, before.attempts.get attemptId = none →
    after.attempts.get attemptId = some attempt → attempt.state = .reserved
  /-- Deltas are appended while the provider streams. -/
  deltas : ∀ attemptId, after.deltas attemptId = before.deltas attemptId ∨
    ∃ attempt delta, before.attempts.get attemptId = some attempt ∧
      (attempt.state = .streaming ∨ attempt.state = .dispatching) ∧
      after.deltas attemptId = before.deltas attemptId ++ [delta]
  /-- Tool calls are proposed while the attempt is open. -/
  proposals : ∀ key, after.proposals key = before.proposals key ∨
    ∃ attempt, before.attempts.get key.1 = some attempt ∧ attempt.state.open = true
  /-- An invocation that has ended keeps its state. -/
  settled : ∀ invocation, before.invocation = some invocation → ∃ updated,
    after.invocation = some updated ∧ (invocation.state ≠ .active → updated.state = invocation.state)

theorem follows_refl (state : AttemptStoreState) : Follows state state where
  attempts _ attempt found := ⟨attempt, found, .inl rfl⟩
  reserved _ _ missing found := by cases missing.symm.trans found
  deltas _ := .inl rfl
  proposals _ := .inl rfl
  settled inv held := ⟨inv, held, fun _ => rfl⟩

theorem follows_revised {attempt updated : AttemptRecord} (after : InvocationRecord)
    (deltas : String → List StreamDelta) (revises : Revises attempt updated)
    (found : before.attempts.get attempt.id = some attempt)
    (moves : updated.state = attempt.state ∨ updated.state ∈ transitions attempt.state)
    (appends : ∀ attId, deltas attId = before.deltas attId ∨ ∃ attempt delta, before.attempts.get attId = some attempt ∧
        (attempt.state = .streaming ∨ attempt.state = .dispatching) ∧
        deltas attId = before.deltas attId ++ [delta])
    (settled : ∀ inv, before.invocation = some inv → inv.state ≠ .active → after.state = inv.state) :
    Follows before
      { before with
        invocation := some after
        attempts := before.attempts.set updated.id updated
        deltas } where
  attempts attId earlier there := by
    rw [Sound.get_revised revises]
    split
    · next same =>
      rw [same, found] at there
      cases there
      exact ⟨updated, rfl, moves⟩
    · exact ⟨earlier, there, .inl rfl⟩
  reserved attId later missing there := by
    rw [Sound.get_revised revises] at there
    split at there
    · next same =>
      rw [same, found] at missing
      cases missing
    · cases missing.symm.trans there
  deltas := appends
  proposals _ := .inl rfl
  settled inv held := ⟨after, rfl, settled inv held⟩

theorem Sound.active (sound : Sound invId before) (found : before.attempts.get attempt.id = some attempt)
    (isOpen : attempt.state.open = true) (held : before.invocation = some inv) : inv.state = .active := by
  obtain ⟨-, -, tells⟩ := sound.current_of_unfailed held found (unfailed_of_open isOpen)
  rw [tells, active_of_open isOpen]

theorem Sound.open_of_cancel (sound : Sound invId before) (proper : Proper before (.cancel invId reason))
    (filled : blank reason = false) (held : before.invocation = some inv)
    (unsettled : inv.state ≠ .completed ∧ inv.state ≠ .cancelled) (cur : inv.currentAttemptId = some attempt.id)
    (found : before.attempts.get attempt.id = some attempt) : attempt.state.open = true := by
  obtain ⟨unfailed, certain⟩ := proper filled inv attempt.id attempt held cur found
  obtain ⟨-, -, tells⟩ := sound.current_of_unfailed held found unfailed
  cases standing : attempt.state with
  | reserved => rfl
  | dispatching => rfl
  | streaming => rfl
  | providerCompleted => rfl
  | providerFailed => exact absurd standing unfailed
  | completionUncertain => exact absurd standing certain
  | canonicalCommitted =>
    rw [standing] at tells
    exact absurd tells unsettled.1
  | cancelled =>
    rw [standing] at tells
    exact absurd tells unsettled.2

theorem cancel_allowed (isOpen : standing.open = true) : .cancelled ∈ transitions standing := by
  cases standing <;> simp_all [transitions, AttemptState.open]

theorem Makes.follows (makes : Makes env drawn reached op before change out) (sound : Sound op.invocationId before)
    (generates : Generates env) (issued : Issued env drawn before) (proper : Proper before op) :
    Follows before (before.apply change) := by
  cases makes with
  | nothing joined => exact follows_refl before
  | accept absent =>
    refine { follows_refl before with settled := ?_ }
    intro inv held
    cases absent.symm.trans held
  | @dispatch _ attempt _ _ held active _ since _ drew _ _ reserved =>
    have fresh := fresh_attempt generates issued since drew
    have looked : ∀ attId, (before.attempts.set attempt.id attempt).get attId =
        if attId = attempt.id then some attempt else before.attempts.get attId :=
      fun _ => Record.get_set _
    refine { follows_refl before with attempts := ?_, reserved := ?_, settled := ?_ }
    · intro attId other found
      refine ⟨other, ?_, .inl rfl⟩
      refine (looked attId).trans ?_
      rw [if_neg, found]
      rintro rfl
      cases fresh.symm.trans found
    · intro attId other missing found
      have found := (looked attId).symm.trans found
      split at found
      · rw [← some.inj found]
        exact reserved
      · cases missing.symm.trans found
    · intro other held'
      cases held.symm.trans held'
      exact ⟨_, rfl, fun inactive => absurd active inactive⟩
  | @move inv _ updated now _ _ _ _ found _ allowed revises =>
    refine follows_revised (updateInvocation inv now
      (invocationStateForAttempt updated.state updated.recovery) none none) before.deltas revises found
      (.inr allowed) (fun _ => .inl rfl) ?_
    intro other held' inactive
    exact absurd (sound.active found (open_of_transition allowed) held') inactive
  | @append attempt updated delta found live streaming revises of =>
    cases held : before.invocation with
    | none =>
      have member := Record.mem_of_get found
      rw [sound.absent held] at member
      cases member
    | some inv =>
      have moves : updated.state = attempt.state ∨ updated.state ∈ transitions attempt.state := by
        rcases live with is | is
        · exact .inl (streaming.trans is.symm)
        · rw [streaming, is]
          exact .inr (mem_cons_self ..)
      have followed := follows_revised inv (before.apply { delta := some delta }).deltas revises
        found moves ?_ fun other held' _ => ?_
      · simpa [apply, held] using followed
      · intro attId
        by_cases same : attId = attempt.id
        · subst same
          refine .inr ⟨attempt, delta, found, live, ?_⟩
          simp [apply, of]
        · exact .inl (Function.update_of_ne (by rw [of]; exact same) _ _)
      · rw [some.inj (held.symm.trans held')]
  | @commit inv _ _ now messageId _ found completed done revises =>
    refine follows_revised (updateInvocation inv now .completed none (some messageId))
      before.deltas revises found (.inr ?_) (fun _ => .inl rfl) ?_
    · rw [completed, done]
      exact mem_cons_self ..
    · intro other held' inactive
      exact absurd (sound.active found (by rw [completed]; rfl) held') inactive
  | @withdraw inv now held incomplete unattempted =>
    refine { follows_refl before with settled := ?_ }
    intro other held'
    cases held.symm.trans held'
    refine ⟨_, rfl, fun inactive => ?_⟩
    have stands := sound.stands inv held
    unfold Stands at stands
    cases cur : inv.currentAttemptId with
    | some attId =>
      rw [cur] at stands
      obtain ⟨named, ⟨attempt, found, tells⟩, -⟩ := stands
      rw [unattempted attId attempt cur named found] at tells
      exact absurd tells incomplete
    | none =>
      rw [cur] at stands
      exact (stands.2.resolve_left inactive).symm
  | @cancel inv _ _ now _ called filled held open_ cur found cancelled revises =>
    rw [called] at proper
    have isOpen := sound.open_of_cancel proper filled held open_ cur found
    refine follows_revised (updateInvocation inv now .cancelled none none) before.deltas revises
      found (.inr ?_) (fun _ => .inl rfl) ?_
    · rw [cancelled]
      exact cancel_allowed isOpen
    · intro other held' inactive
      exact absurd (sound.active found isOpen held') inactive
  | @propose attempt proposal input called attempted tool found fresh open_ =>
    refine { follows_refl before with proposals := ?_ }
    intro key
    by_cases same : key = (proposal.attemptId, proposal.providerToolCallId)
    · subst same
      rw [called] at proper
      refine .inr ⟨attempt, found, open_.resolve_right fun committed => ?_⟩
      exact proper attempt (attempted ▸ found) committed (by rw [← attempted, ← tool]; exact fresh)
    · exact .inl (Function.update_of_ne same _ _)

end
end Applik8s.AI
