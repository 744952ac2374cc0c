import Mathlib.Logic.Relation
import Applik8s.Lib.Json
import Applik8s.Lib.Program
import Applik8s.Lib.Run
import Applik8s.Platform

/-! The conversation store: `createPostgresApplicationConversationStore` of
`packages/conversations/src/postgres.ts`, as far as the agent persistence calls it. Every call is one
transaction. The time at which a run event was recorded is left out, for it is never read. -/
namespace Applik8s.Conversations
open Function (update update_of_ne)
open Lib

/-- `ApplicationConversationConflictError`, and any other error. -/
inductive Failure where
  | conflict (message : String)
  | plain (message : String)
  deriving DecidableEq

/-- A row of `applik8s_conversations`. -/
structure ConversationRecord where
  id : String
  principalScope : String
  title : Option String
  revision : Nat
  createdAt : String
  updatedAt : String

inductive Role where
  | system
  | user
  | assistant
  | tool
  deriving DecidableEq

/-- `ApplicationConversationMessageInput`; its state is never given. -/
structure MessageInput where
  id : String
  role : Role
  content : Json
  invocationId : Option String
  createdAt : String

/-- A row of `applik8s_conversation_messages`, committed as all of them are here. -/
structure MessageRecord where
  id : String
  conversationId : String
  revision : Nat
  role : Role
  content : Json
  invocationId : Option String
  createdAt : String
  deriving DecidableEq

inductive RunStatus where
  | running
  | interrupted
  | completed
  | failed
  | cancelled
  deriving DecidableEq

def RunStatus.text : RunStatus → String
  | .running => "running"
  | .interrupted => "interrupted"
  | .completed => "completed"
  | .failed => "failed"
  | .cancelled => "cancelled"

/-- `ApplicationConversationRunInput`. -/
structure RunInput where
  id : String
  conversationId : String
  principalScope : String
  agentRunId : Option String
  invocationId : Option String
  startedAt : String

/-- A row of `applik8s_conversation_runs`. -/
structure RunRecord where
  id : String
  conversationId : String
  principalScope : String
  status : RunStatus
  agentRunId : Option String
  invocationId : Option String
  startedAt : String
  updatedAt : String
  terminalReason : Option String
  deriving DecidableEq

/-- A row of `applik8s_conversation_run_events`; its sequence is its place in the run, from 1. -/
structure EventRecord where
  type : String
  payload : Json
  deriving DecidableEq

/-- The tables. The events of a run stand in their order. -/
structure Store where
  conversations : String → Option ConversationRecord
  messages : List MessageRecord
  runs : String → Option RunRecord
  events : String → List EventRecord

def Store.empty : Store := ⟨fun _ => none, [], fun _ => none, fun _ => []⟩

/-- The calls of `ApplicationConversationStore`. -/
inductive StoreCall where
  | createConversation (conversation : ConversationRecord)
  | getConversation (id principalScope : String)
  | getMessage (id conversationId principalScope : String)
  | appendMessage (conversationId principalScope : String) (expectedRevision : Nat)
      (message : MessageInput)
  | startRun (run : RunInput)
  | getRun (id principalScope : String)
  | transitionRun (runId principalScope : String) (status target : RunStatus) (updatedAt : String)
      (terminalReason : Option String)
  | appendRunEvent (runId principalScope : String) (expectedSequence : Nat) (event : EventRecord)
  | getRunEvent (runId principalScope : String) (sequence : Nat)
  | getRunEventFrontier (runId principalScope : String)

@[reducible] def StoreCall.Reply : StoreCall → Type
  | .createConversation _ => Except Failure ConversationRecord
  | .getConversation _ _ => Option ConversationRecord
  | .getMessage _ _ _ => Option MessageRecord
  | .appendMessage _ _ _ _ => Except Failure (ConversationRecord × MessageRecord)
  | .startRun _ => Except Failure RunRecord
  | .getRun _ _ => Option RunRecord
  | .transitionRun _ _ _ _ _ _ => Except Failure RunRecord
  | .appendRunEvent _ _ _ _ => Except Failure Nat
  | .getRunEvent _ _ _ => Option EventRecord
  | .getRunEventFrontier _ _ => Nat

def ConversationStore : Interface where
  Call := StoreCall
  Reply := StoreCall.Reply

section
/-- What the store gives back for a `jsonb` value. -/
abbrev Jsonb := Json → Json

variable (jsonb : Jsonb) (store : Store)

def Store.getConversation (id principalScope : String) : Option ConversationRecord :=
  (store.conversations id).filter (·.principalScope = principalScope)

def Store.createConversation (conversation : ConversationRecord) :
    Except Failure ConversationRecord × Store :=
  match store.conversations conversation.id with
  | some _ => (.error (.conflict s!"Conversation {conversation.id} already exists."), store)
  | none => (.ok conversation, { store with
      conversations := update store.conversations conversation.id (some conversation) })

def MessageRecord.read (message : MessageRecord) : MessageRecord :=
  { message with content := jsonb message.content }

def Store.getMessage (id conversationId principalScope : String) : Option MessageRecord :=
  if (store.getConversation conversationId principalScope).isNone then none
  else (store.messages.find? fun message =>
    message.id = id && message.conversationId = conversationId).map (MessageRecord.read jsonb)

/-- `appendMessage`: the revision is counted up and the message inserted, or neither. -/
def Store.appendMessage (conversationId principalScope : String) (expectedRevision : Nat)
    (message : MessageInput) : Except Failure (ConversationRecord × MessageRecord) × Store :=
  match (store.getConversation conversationId principalScope).filter
      (·.revision = expectedRevision) with
  | none =>
    (.error (.conflict (s!"Conversation {conversationId} is absent, outside the admitted scope, or " ++
      s!"no longer at revision {expectedRevision}.")), store)
  | some current =>
    let conversation :=
      { current with revision := current.revision + 1, updatedAt := message.createdAt }
    let row : MessageRecord :=
      { id := message.id
        conversationId
        revision := conversation.revision
        role := message.role
        content := message.content
        invocationId := message.invocationId
        createdAt := message.createdAt }
    if store.messages.any (·.id = message.id) then
      (.error (.conflict s!"Message {message.id} already exists."), store)
    else if store.messages.any fun other =>
        other.conversationId = conversationId && other.revision = conversation.revision then
      (.error (.plain "duplicate key value violates unique constraint"), store)
    else if message.id = "" then
      (.error (.plain "PostgreSQL returned an invalid conversation message row."), store)
    else
      (.ok (conversation, row.read jsonb), { store with
        conversations := update store.conversations conversationId (some conversation)
        messages := store.messages ++ [row] })

/-- An optional text column: what is empty reads as missing. -/
def RunRecord.read (run : RunRecord) : RunRecord :=
  { run with agentRunId := whenTruthy run.agentRunId, invocationId := whenTruthy run.invocationId }

def Store.startRun (run : RunInput) : Except Failure RunRecord × Store :=
  match store.getConversation run.conversationId run.principalScope, store.runs run.id with
  | some _, none =>
    let row : RunRecord :=
      { id := run.id
        conversationId := run.conversationId
        principalScope := run.principalScope
        status := .running
        agentRunId := run.agentRunId
        invocationId := run.invocationId
        startedAt := run.startedAt
        updatedAt := run.startedAt
        terminalReason := none }
    (.ok row.read, { store with runs := update store.runs run.id (some row) })
  | _, _ =>
    (.error (.conflict (s!"Run {run.id} already exists or its conversation is outside the admitted " ++
      "scope.")), store)

def Store.run (id principalScope : String) : Option RunRecord :=
  (store.runs id).filter (·.principalScope = principalScope)

/-- `assertRunTransition`. -/
def allowedTransitions : RunStatus → List RunStatus
  | .running => [.interrupted, .completed, .failed, .cancelled]
  | .interrupted => [.running, .failed, .cancelled]
  | .completed => []
  | .failed => []
  | .cancelled => []

variable (runId principalScope : String)

def Store.transitionRun (status target : RunStatus)
    (updatedAt : String) (terminalReason : Option String) : Except Failure RunRecord × Store :=
  if target ∉ allowedTransitions status then
    (.error (.conflict s!"Conversation run cannot transition from {status.text} to {target.text}."), store)
  else
    match (store.run runId principalScope).filter (·.status = status) with
    | none =>
      (.error (.conflict (s!"Run {runId} is absent, outside the admitted scope, or no longer " ++
        s!"{status.text}.")), store)
    | some run =>
      let row := { run with status := target, updatedAt, terminalReason }
      (.ok row.read, { store with runs := update store.runs runId (some row) })

def Store.appendRunEvent (expectedSequence : Nat)
    (event : EventRecord) : Except Failure Nat × Store :=
  if (store.run runId principalScope).isNone then
    (.error (.conflict s!"Run {runId} is absent or outside the admitted scope."), store)
  else if (store.events runId).length ≠ expectedSequence then
    (.error (.conflict s!"Run {runId} is no longer at event sequence {expectedSequence}."), store)
  else
    (.ok (expectedSequence + 1), { store with
      events := update store.events runId (store.events runId ++ [event]) })

def EventRecord.read (event : EventRecord) : EventRecord :=
  { event with payload := jsonb event.payload }

def Store.getRunEvent (sequence : Nat) : Option EventRecord :=
  if (store.run runId principalScope).isNone then none
  else
    match sequence with
    | 0 => none
    | place + 1 => (store.events runId)[place]?.map (EventRecord.read jsonb)

def Store.getRunEventFrontier : Nat :=
  if (store.run runId principalScope).isNone then 0 else (store.events runId).length

def postgresStore : Interpreter ConversationStore Store where
  answer
    | .createConversation conversation, store => store.createConversation conversation
    | .getConversation id principalScope, store => (store.getConversation id principalScope, store)
    | .getMessage id conversationId principalScope, store =>
      (store.getMessage jsonb id conversationId principalScope, store)
    | .appendMessage conversationId principalScope expectedRevision message, store =>
      store.appendMessage jsonb conversationId principalScope expectedRevision message
    | .startRun run, store => store.startRun run
    | .getRun id principalScope, store => ((store.run id principalScope).map RunRecord.read, store)
    | .transitionRun runId principalScope status target updatedAt terminalReason, store =>
      store.transitionRun runId principalScope status target updatedAt terminalReason
    | .appendRunEvent runId principalScope expectedSequence event, store =>
      store.appendRunEvent runId principalScope expectedSequence event
    | .getRunEvent runId principalScope sequence, store =>
      (store.getRunEvent jsonb runId principalScope sequence, store)
    | .getRunEventFrontier runId principalScope, store => (store.getRunEventFrontier runId principalScope, store)

end

/-! ### The store over any calls -/

section
open List Option

def StoreCall.scope : StoreCall → String
  | .createConversation conversation => conversation.principalScope
  | .startRun run => run.principalScope
  | .getConversation _ scope | .getMessage _ _ scope | .appendMessage _ scope _ _ | .getRun _ scope |
    .transitionRun _ scope _ _ _ _ | .appendRunEvent _ scope _ _ | .getRunEvent _ scope _ |
    .getRunEventFrontier _ scope => scope

variable (jsonb : Jsonb) (store : Store)

def Store.next (call : StoreCall) : Store := ((postgresStore jsonb).answer call store).2
def Store.transcript (id : String) : List MessageRecord := store.messages.filter (·.conversationId = id)

/-- Messages and events are only appended; conversations and runs stay whose they are, and runs move along their
transitions. What belongs to a spared scope stays as it is. -/
structure Store.Kept (spared : String → Prop) (earlier later : Store) : Prop where
  messages : earlier.messages <+: later.messages
  events : ∀ runId, earlier.events runId <+: later.events runId
  conversations : ∀ id, ∀ held ∈ earlier.conversations id, ∃ current ∈ later.conversations id,
    current.principalScope = held.principalScope ∧ held.revision ≤ current.revision ∧
      (spared held.principalScope → current = held ∧ later.transcript id = earlier.transcript id)
  runs : ∀ runId, ∀ held ∈ earlier.runs runId, ∃ current ∈ later.runs runId,
    current.principalScope = held.principalScope ∧
      Relation.ReflTransGen (fun status target => target ∈ allowedTransitions status) held.status current.status ∧
      (spared held.principalScope → current = held ∧ later.events runId = earlier.events runId)

variable {jsonb}

theorem Store.Kept.refl : store.Kept spared store :=
  ⟨prefix_refl _, fun _ => prefix_refl _, fun _ held there => ⟨held, there, rfl, le_rfl, fun _ => ⟨rfl, rfl⟩⟩,
    fun _ held there => ⟨held, there, rfl, .refl, fun _ => ⟨rfl, rfl⟩⟩⟩

theorem Store.Kept.trans {first second third : Store} (one : first.Kept spared second) (two : second.Kept others third) :
    first.Kept (fun scope => spared scope ∧ others scope) third := by
  refine ⟨one.messages.trans two.messages, fun runId => (one.events runId).trans (two.events runId),
    fun id held there => ?_, fun id held there => ?_⟩
  · obtain ⟨_, between, scope, grown, same⟩ := one.conversations id held there
    obtain ⟨current, present, scope', grown', same'⟩ := two.conversations id _ between
    refine ⟨current, present, scope'.trans scope, grown.trans grown', fun both => ?_⟩
    obtain ⟨rfl, kept⟩ := same both.1
    exact (same' both.2).imp_right (·.trans kept)
  · obtain ⟨_, between, scope, moved, same⟩ := one.runs id held there
    obtain ⟨current, present, scope', moved', same'⟩ := two.runs id _ between
    refine ⟨current, present, scope'.trans scope, moved.trans moved', fun both => ?_⟩
    obtain ⟨rfl, kept⟩ := same both.1
    exact (same' both.2).imp_right (·.trans kept)

private theorem exists_update {α : Type} {rows : String → Option α} {row : α} {related : String → α → α → Prop}
    (others : ∀ id ≠ key, ∀ held, related id held held) (fits : ∀ held ∈ rows key, related key held row) :
    ∀ id, ∀ held ∈ rows id, ∃ current ∈ update rows key (some row) id, related id held current := by
  intro id held there
  by_cases same : id = key
  · subst same
    exact ⟨row, by simp, fits held there⟩
  · exact ⟨held, by rwa [update_of_ne same], others id same held⟩

theorem next_kept (call : StoreCall) : store.Kept (call.scope ≠ ·) (store.next jsonb call) := by
  have unchanged : store.Kept (call.scope ≠ ·) store := .refl store
  cases call with
  | createConversation conversation =>
    simp only [Store.next, postgresStore, Store.createConversation]
    split
    · exact unchanged
    next absent =>
    refine { unchanged with conversations := exists_update (fun _ _ _ => ⟨rfl, le_rfl, fun _ => ⟨rfl, rfl⟩⟩) ?_ }
    simp [absent]
  | appendMessage conversationId scope expected message =>
    simp only [Store.next, postgresStore, Store.appendMessage]
    split
    · exact unchanged
    next found =>
    obtain ⟨own, within⟩ := filter_eq_some_iff.mp (filter_eq_some_iff.mp found).1
    split_ifs
    · exact unchanged
    · exact unchanged
    · exact unchanged
    refine { unchanged with
      messages := prefix_append _ _
      conversations := exists_update (fun id other held => ⟨rfl, le_rfl, fun _ => ⟨rfl, ?_⟩⟩) fun held there => ?_ }
    · simp [Store.transcript, other.symm]
    · cases own.symm.trans there
      exact ⟨rfl, Nat.le_succ _, fun apart => absurd (of_decide_eq_true within).symm apart⟩
  | startRun run =>
    simp only [Store.next, postgresStore, Store.startRun]
    split
    next absent =>
      refine { unchanged with runs := exists_update (fun _ _ _ => ⟨rfl, .refl, fun _ => ⟨rfl, rfl⟩⟩) ?_ }
      simp [absent]
    · exact unchanged
  | transitionRun runId scope status target updatedAt reason =>
    simp only [Store.next, postgresStore, Store.transitionRun]
    split
    · exact unchanged
    next allowed =>
    split
    · exact unchanged
    next found =>
    obtain ⟨found, from_⟩ := filter_eq_some_iff.mp found
    obtain ⟨own, within⟩ := filter_eq_some_iff.mp found
    refine { unchanged with
      runs := exists_update (fun _ _ _ => ⟨rfl, .refl, fun _ => ⟨rfl, rfl⟩⟩) fun held there => ?_ }
    cases own.symm.trans there
    refine ⟨rfl, .single ?_, fun apart => absurd (of_decide_eq_true within).symm apart⟩
    simpa [of_decide_eq_true from_] using allowed
  | appendRunEvent runId scope expected event =>
    simp only [Store.next, postgresStore, Store.appendRunEvent]
    split
    · exact unchanged
    next there =>
    split
    · exact unchanged
    obtain ⟨_, found⟩ := ne_none_iff_exists'.mp (mt isNone_iff_eq_none.mpr there)
    obtain ⟨own, within⟩ := filter_eq_some_iff.mp found
    refine { unchanged with events := fun id => ?_, runs := fun id held stored => ?_ }
    · by_cases same : id = runId
      · subst same
        simp
      · simp [update_of_ne same]
    · refine ⟨held, stored, rfl, .refl, fun apart => ⟨rfl, update_of_ne ?_ ..⟩⟩
      rintro rfl
      cases own.symm.trans stored
      exact apart (of_decide_eq_true within).symm
  | _ => exact unchanged

/-- Whatever calls are made of the store, by whomever: messages and events are only appended, a run that has ended
stays so, and what belongs to a scope in which no call acts stays as it is. -/
theorem store_kept_over_calls (jsonb : Jsonb) (store : Store) (calls : List StoreCall) :
    store.Kept (fun scope => ∀ call ∈ calls, call.scope ≠ scope) (runFrom (Store.next jsonb) store calls) := by
  induction calls generalizing store with
  | nil => exact .refl store
  | cons call rest ih =>
    simp only [forall_mem_cons]
    exact (next_kept store call).trans (ih _)

end
end Applik8s.Conversations
