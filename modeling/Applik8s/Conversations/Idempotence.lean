import Applik8s.Conversations.Restarts

/-! An invocation that is executed again and again, by any number of processes that stop anywhere: what
comes of it is what one execution alone leaves, provided that every execution reads the frontier before
the first event is recorded, that no two of them close the run at once, and that what is stored keeps its
canonical text. -/
namespace Applik8s.Conversations
open Lib List Option Nat
open Program (exec_bind_ok)

section
variable {naming : Naming} {input : PersistenceInput} {store after : Store} {events : List Json} {ending : Ending}

def Ending.deed : Ending → Deed
  | .complete _ _ completedAt => .close .completed completedAt none
  | .terminate status reason terminatedAt => .close status terminatedAt (some reason)

def deedsOf (naming : Naming) (input : PersistenceInput) (events : List Json) (ending : Ending) :
    List Deed :=
  .converse :: ((normalizedMessages naming input).map .tell ++ .start :: (events.map .record ++
    ((ending.message input).toList.map .tell ++ [ending.deed])))

theorem ensureInputMessages_ok (bounded : Bounded store) (reckons : rev = store.revision input)
    (ran : (ensureInputMessages naming input msgs rev).exec (postgresStore jsonb) store = (.ok (), after))
    : Does naming jsonb input store (msgs.map .tell) after := by
  induction msgs generalizing store rev with
  | nil => exact (Prod.mk.inj ran).2.symm
  | cons _ _ ih =>
    obtain ⟨_, _, ran, later⟩ := exec_bind_ok.mp ran
    obtain ⟨able, rfl, reckons⟩ := ensureInputMessage_ok bounded reckons ran
    exact ⟨able, ih (bounded.doneTo _) reckons later⟩

theorem appendAll_ok (counted : edge = store.recorded input)
    (ran : (appendAll naming input events edge).exec (postgresStore jsonb) store = (.ok (), after))
    : Does naming jsonb input store (events.map .record) after := by
  induction events generalizing store edge with
  | nil => exact (Prod.mk.inj ran).2.symm
  | cons event rest ih =>
    obtain ⟨_, _, ran, later⟩ := exec_bind_ok.mp ran
    obtain ⟨able, rfl, rfl⟩ := append_ok counted ran
    refine ⟨able, ih ?_ later⟩
    have present : (store.run input.protocolRunId input.principalScope).isNone ≠ true := by
      have present : (store.run input.protocolRunId input.principalScope).isSome := able.1
      simpa using isSome_iff_ne_none.mp present
    subst counted
    unfold Deed.doneTo Store.appendRunEvent Store.recorded
    dsimp only
    rw [if_neg present, if_neg (not_not.mpr rfl)]
    simp

theorem finish_ok (ran : (finish naming input ending).exec (postgresStore jsonb) store = (.ok (), after)) :
    Does naming jsonb input store ((ending.message input).toList.map .tell ++ [ending.deed]) after := by
  cases ending with
  | complete =>
    obtain ⟨_, _, ran, later⟩ := exec_bind_ok.mp ran
    obtain ⟨told, rfl⟩ := ensureMessage_ok ran
    obtain ⟨closed, left⟩ := ensureRunStatus_ok later
    exact ⟨told, closed, left⟩
  | terminate =>
    obtain ⟨closed, left⟩ := ensureRunStatus_ok ran
    exact ⟨closed, left⟩

theorem start_stands (able : Able naming jsonb input store .start) :
    ∃ run, (Deed.start.doneTo naming jsonb input store).protocolRun input = some run := by
  unfold Able at able
  unfold Deed.doneTo
  dsimp only at able ⊢
  cases found : store.protocolRun input with
  | some run =>
    rw [isSome_some, if_pos rfl]
    exact ⟨run, found⟩
  | none =>
    rw [found] at able
    obtain ⟨_, ok⟩ := able
    obtain ⟨row, left, own, -⟩ := startRun_ok ok
    rw [if_neg (by simp), left]
    refine ⟨row, ?_⟩
    have here : Function.update store.runs (starting input).id (some row) input.protocolRunId =
        some row := Function.update_self ..
    unfold Store.protocolRun Store.run
    dsimp only
    rw [here, filter_eq_some_iff]
    exact ⟨rfl, decide_eq_true own⟩

theorem frontier_counts (held : store.protocolRun input = some row) :
    store.getRunEventFrontier input.protocolRunId input.principalScope = store.recorded input := by
  have held : store.run input.protocolRunId input.principalScope = some row := held
  unfold Store.getRunEventFrontier
  rw [held, if_neg (by simp)]
  rfl

theorem execute_ok (bounded : Bounded start)
    (ran : (execute naming input events ending).exec (postgresStore jsonb) start = (.ok (), final)) :
    blank input.principalScope = false ∧
      Does naming jsonb input start (deedsOf naming input events ending) final := by
  obtain ⟨_, begun, ran, later⟩ := exec_bind_ok.mp ran
  unfold begin at ran
  split at ran
  · cases ran
  next scoped_ =>
  refine ⟨Bool.not_eq_true _ ▸ scoped_, ?_⟩
  obtain ⟨_, _, ran, told⟩ := exec_bind_ok.mp ran
  obtain ⟨converses, rfl, held⟩ := ensureConversation_ok ran
  refine ⟨converses, ?_⟩
  obtain ⟨_, told, ran, started⟩ := exec_bind_ok.mp told
  refine does_append.mpr ⟨told, ensureInputMessages_ok (bounded.doneTo _) (Store.revision_of held).symm ran, ?_⟩
  obtain ⟨run, begun', ran, read⟩ := exec_bind_ok.mp started
  obtain ⟨starts, left⟩ := ensureRun_ok ran
  obtain ⟨counted, same⟩ := Prod.mk.inj read
  obtain rfl : begun' = begun := same
  refine ⟨starts, left ▸ ?_⟩
  obtain ⟨_, recorded, ran, finished⟩ := exec_bind_ok.mp later
  refine does_append.mpr ⟨recorded, appendAll_ok ?_ ran, finish_ok finished⟩
  obtain ⟨_, held⟩ := start_stands starts
  rw [← left] at held
  exact (Except.ok.inj counted).symm.trans (frontier_counts held)

end

section
variable {naming : Naming} {jsonb : Jsonb} {input : PersistenceInput} {start final : Store} {events : List Json}
  {ending : Ending}

theorem placed {deeds : List Deed} {α : Type} {items : List α} {deed : α → Deed} (before after : List Deed)
    {place : Nat} (whole : deeds = before ++ (items.map deed ++ after)) (reached : before.length = place) :
    ∀ index item, items[index]? = some item → deeds[place + index]? = some (deed item) := by
  intro index item among
  have within := (List.getElem?_eq_some_iff.mp among).1
  subst whole reached
  rw [List.getElem?_append_right (Nat.le_add_right _ _), Nat.add_sub_cancel_left,
    List.getElem?_append_left (by simpa using within), List.getElem?_map, among]
  rfl

/-- What the deeds of an execution need of what is stored. -/
structure Kept (naming : Naming) (jsonb : Jsonb) (input : PersistenceInput) (events : List Json)
    (ending : Ending) : Prop where
  messages : ∀ message ∈ normalizedMessages naming input, Faithful naming jsonb message.content
  events : ∀ event ∈ events, Faithful naming jsonb event
  ending : ∀ message ∈ ending.message input, Faithful naming jsonb message.content

def startedAt (naming : Naming) (input : PersistenceInput) : Nat :=
  1 + (normalizedMessages naming input).length + 1

theorem carries_begin (admitted : Admitted input) (filled : blank input.principalScope = false)
    (bounded : Bounded (path 0)) (follows : Follows naming jsonb input deeds path)
    (whole : deeds = .converse :: ((normalizedMessages naming input).map .tell ++ .start :: rest))
    (kept : ∀ msg ∈ normalizedMessages naming input, Faithful naming jsonb msg.content) :
    Carries jsonb path events (fun frontier place => startedAt naming input ≤ place ∧ (events = [] ∨ frontier =
        (path (startedAt naming input)).recorded input)) 0 (begin naming input) := by
  have converses : deeds[0]? = some .converse := by rw [whole]; rfl
  have tells := placed [.converse] _ whole rfl
  have starts : deeds[1 + (normalizedMessages naming input).length]? = some .start := by
    rw [whole, Nat.add_comm, List.getElem?_cons_succ, List.getElem?_append_right (by simp)]
    simp
  unfold begin
  rw [if_neg (by rw [filled]; decide)]
  refine treads_bind _ (carries_ensureConversation follows converses) ?_
  rintro _ _ ⟨since, low, high⟩
  refine treads_bind _ (carries_ensureInputMessages follows bounded tells kept since low high) ?_
  intro _ told since
  refine treads_bind _ (carries_ensureRun follows admitted starts since) ?_
  intro _ begun since
  intro later after undisturbed
  refine ⟨later, le_rfl, rfl, since.trans after, ?_⟩
  refine undisturbed.symm.imp_right fun none => ?_
  obtain ⟨_, held, -⟩ := path_run follows admitted starts (since.trans after)
  refine (frontier_counts held).trans ?_
  have kept : Extends input (path (startedAt naming input)) (path later) := follows.extends (since.trans after)
  have kept := kept.events
  rw [none, prefix_nil] at kept
  unfold Store.recorded
  rw [none, kept]

theorem carries_finish (before : List Deed) (follows : Follows naming jsonb input deeds path)
    (whole : deeds = before ++ ((ending.message input).toList.map .tell ++ [ending.deed]))
    (reached : before.length = turn) (first : deeds[0]? = some .converse) (past : 1 ≤ turn)
    (kept : ∀ msg ∈ ending.message input, Faithful naming jsonb msg.content) (since : turn ≤ place) :
    Carries jsonb path events (fun _ place => deeds.length ≤ place) place
      (finish naming input ending) := by
  have tells := placed before _ whole reached
  cases ending with
  | complete _ _ completedAt =>
    have told := tells 0 _ rfl
    have closes : deeds[turn + 1]? = some (.close .completed completedAt none) := by
      rw [whole, getElem?_append_right (by omega), reached]
      simp [Ending.message, Ending.deed]
    have last : deeds.length = turn + 1 + 1 := by
      rw [whole, length_append, reached]
      rfl
    refine treads_bind _ (carries_ensureMessage follows told
      (fun later after => path_conversation follows first (past.trans after)) (kept _ rfl) since) ?_
    intro _ between since
    exact carries_ensureRunStatus follows closes last since
  | terminate status reason terminatedAt =>
    have closes : deeds[turn]? = some (.close status terminatedAt (some reason)) := by
      rw [whole, getElem?_append_right (by omega), reached]
      simp [Ending.message, Ending.deed]
    have last : deeds.length = turn + 1 := by
      rw [whole, length_append, reached]
      rfl
    exact carries_ensureRunStatus follows closes last since

theorem carries_execute (admitted : Admitted input) (filled : blank input.principalScope = false)
    (bounded : Bounded (path 0)) (kept : Kept naming jsonb input events ending)
    (follows : Follows naming jsonb input (deedsOf naming input events ending) path) :
    Carries jsonb path events (fun _ place => (deedsOf naming input events ending).length ≤ place) 0
      (execute naming input events ending) := by
  refine treads_bind _ (carries_begin admitted filled bounded follows rfl kept.messages) ?_
  rintro _ _ ⟨since, counts⟩
  have records : ∀ index event, events[index]? = some event →
      (deedsOf naming input events ending)[startedAt naming input + index]? = some (.record event) :=
    placed (.converse :: ((normalizedMessages naming input).map .tell ++ [.start]))
      ((ending.message input).toList.map .tell ++ [ending.deed]) (by simp [deedsOf])
      (by simp [startedAt]; omega)
  refine treads_bind _ (carries_appendAll follows records kept.events counts since) ?_
  intro _ recorded since
  exact carries_finish (.converse :: ((normalizedMessages naming input).map .tell ++
      .start :: events.map .record)) follows (by simp [deedsOf]) (by simp [startedAt]; omega) rfl
    (by unfold startedAt; omega) kept.ending since

/-- Any number of processes that execute the invocation, from a store that holds what it holds. -/
abbrev Executions (naming : Naming) (jsonb : Jsonb) (input : PersistenceInput) (events : List Json)
    (ending : Ending) : Crowd ConversationStore Store Failure Unit Unit → CrowdEvent Unit Unit →
      Crowd ConversationStore Store Failure Unit Unit :=
  Crowd.advance (postgresStore jsonb).server fun _ => execute naming input events ending

/-- However often the invocation is executed, and wherever the executions stop: none of them fails, and
as soon as one has come to its end the store is, and stays, what one execution alone leaves. Every
frontier that is read is that of a run without events, and every run that is closed stands still open. -/
theorem executions_idempotent (admitted : Admitted input) (bounded : Bounded start)
    (kept : Kept naming jsonb input events ending)
    (alone : (execute naming input events ending).exec (postgresStore jsonb) start = (.ok (), final))
    {earlier later : List (CrowdEvent Unit Unit)}
    (each : EachStep (Executions naming jsonb input events ending)
      (Crowd.Permitted (Undisturbed events)) ⟨start, fun _ => none⟩ (earlier ++ later)) :
    (∀ caller operation failure,
      (runFrom (Executions naming jsonb input events ending) ⟨start, fun _ => none⟩ earlier).callers
        caller ≠ some ⟨operation, .throw failure⟩) ∧
    ((∃ caller operation, (runFrom (Executions naming jsonb input events ending) ⟨start, fun _ => none⟩ earlier).callers
        caller = some ⟨operation, .done ()⟩) →
      (runFrom (Executions naming jsonb input events ending) ⟨start, fun _ => none⟩
        (earlier ++ later)).world = final) := by
  obtain ⟨filled, does⟩ := execute_ok bounded alone
  obtain ⟨rfl, follows⟩ := does_path does
  have treads : ∀ _ : Unit, Carries jsonb _ events
      (fun _ place => (deedsOf naming input events ending).length ≤ place) 0 (execute naming input events ending) :=
    fun _ => carries_execute admitted filled bounded kept follows
  have begun : (⟨start, fun _ => none⟩ : Crowd ConversationStore Store Failure Unit Unit).OnPath
      (postgresStore jsonb) (pathOf naming jsonb input (deedsOf naming input events ending) start)
      (Undisturbed events) (fun _ place => (deedsOf naming input events ending).length ≤ place) 0 :=
    ⟨rfl, nofun⟩
  rw [eachStep_append] at each
  obtain ⟨_, -, on⟩ := begun.run treads each.1
  refine ⟨fun caller operation failure here => ?_, ?_⟩
  · obtain ⟨_, _, impossible⟩ := on.callers caller operation _ here
    exact impossible
  rintro ⟨caller, operation, here⟩
  obtain ⟨since, passed, ended⟩ := on.callers caller operation _ here
  obtain ⟨_, onward, on⟩ := on.run treads each.2
  have ended : (deedsOf naming input events ending).length ≤ since := ended
  rw [runFrom_append, on.world, follows.done (ended.trans (passed.trans onward))]

end

instance Undisturbed.decidable (events : List Json) (store : Store) (request : StoreCall) :
    Decidable (Undisturbed events store request) := by
  cases request <;> unfold Undisturbed <;> infer_instance

instance Undisturbed.decidablePermitted (events : List Json)
    (crowd : Crowd ConversationStore Store Failure Unit Unit) (event : CrowdEvent Unit Unit) :
    Decidable (crowd.Permitted (Undisturbed events) event) :=
  match event with
  | .start _ _ => isTrue nofun
  | .stop _ => isTrue nofun
  | .step caller () =>
    have := crowd.decideAsks caller (Undisturbed.decidable events crowd.world)
    decidable_of_iff (crowd.Asks caller (Undisturbed events crowd.world))
      ⟨fun asks other same => by cases same; exact asks, fun asks => asks caller rfl⟩

/-- Values of one member, and texts, are written as they are. -/
def plainNaming : Naming where
  canonicalJson
    | .object [(name, .string text)] => "\x7b\"" ++ name ++ "\":\"" ++ text ++ "\"\x7d"
    | .string text => "\"" ++ text ++ "\""
    | _ => "\x7b\x7d"
  sha256 _ := "e3b0c44298fc1c149afbf4c8996fb924"
  conversationTitle _ := none

def sampleInput : PersistenceInput where
  principalScope := "user:user-1"
  conversationId := "conversation-1"
  protocolRunId := "run-1"
  agentRunId := "agent-run-1"
  invocationId := "invocation-1"
  messages := [.object [("id", .string "message-1")]]
  startedAt := "2026-01-01T00:00:00.000Z"

def sampleEvents : List Json := [.object [("type", .string "RUN_STARTED")]]
def sampleEnding : Ending := .complete "message-2" (.string "Done.") "2026-01-01T00:00:01.000Z"

def sampleRun (steps : List (CrowdEvent Unit Unit)) :
    Crowd ConversationStore Store Failure Unit Unit :=
  runFrom (Executions plainNaming id sampleInput sampleEvents sampleEnding) ⟨.empty, fun _ => none⟩ steps

def sampleFinal : Store :=
  ((execute plainNaming sampleInput sampleEvents sampleEnding).exec (postgresStore id) .empty).2

/-- The first execution stops after it has begun the run, the second goes to its end. -/
def restarted : List (CrowdEvent Unit Unit) :=
  .start 1 () :: replicate 6 (.step 1 ()) ++ .stop 1 :: .start 2 () :: replicate 10 (.step 2 ())

theorem executions_idempotent_restarted : (sampleRun (restarted ++ [])).world = sampleFinal := by
  have alone : (execute plainNaming sampleInput sampleEvents sampleEnding).exec (postgresStore id)
      .empty = (.ok (), sampleFinal) := rfl
  have kept : Kept plainNaming id sampleInput sampleEvents sampleEnding :=
    ⟨fun _ _ => rfl, fun _ _ => rfl, fun _ _ => rfl⟩
  have each : EachStep (Executions plainNaming id sampleInput sampleEvents sampleEnding)
      (Crowd.Permitted (Undisturbed sampleEvents)) ⟨.empty, fun _ => none⟩ (restarted ++ []) := by
    decide +kernel
  have bounded : Bounded .empty := nofun
  exact (executions_idempotent ⟨by decide, by decide⟩ bounded kept alone each).2 ⟨2, (), rfl⟩

/-- The first execution stops after it has recorded the event, the second goes to its end. -/
def restartedLate : List (CrowdEvent Unit Unit) :=
  .start 1 () :: replicate 8 (.step 1 ()) ++ .stop 1 :: .start 2 () :: replicate 10 (.step 2 ())

/-- Both executions find the run still running, and both close it. -/
def closedTwice : List (CrowdEvent Unit Unit) :=
  .start 1 () :: .start 2 () :: replicate 7 (.step 1 ()) ++ replicate 4 (.step 2 ()) ++
    replicate 5 (.step 1 ()) ++ replicate 4 (.step 2 ()) ++ [.step 1 (), .step 2 ()]

/-- The restarted execution records the event once more; of two that close the run, one fails. -/
theorem executions_not_idempotent : ((sampleRun restartedLate).callers 2 = some ⟨(), .done ()⟩ ∧
      (sampleRun restartedLate).world.events "run-1" ≠ sampleFinal.events "run-1") ∧
    ∃ failure, (sampleRun closedTwice).callers 2 = some ⟨(), .throw failure⟩ :=
  ⟨⟨rfl, by decide +kernel⟩, _, rfl⟩

end Applik8s.Conversations
