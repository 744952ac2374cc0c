import Mathlib.Data.List.Infix
import Applik8s.Conversations.Persistence

/-! What an execution does to the store, deed by deed: it opens the conversation, tells each message,
starts the run, records each event and closes the run. A deed that has been done is left alone; it is
done, or found done, from any state that an execution succeeds from. -/
namespace Applik8s.Conversations
open Lib List Option Except

section
inductive Deed where
  | converse
  | tell (message : MessageInput)
  | start
  | record (event : Json)
  | close (status : RunStatus) (updatedAt : String) (terminalReason : Option String)

variable (naming : Naming) (jsonb : Jsonb) (input : PersistenceInput)

/-- The conversation that `ensureConversation` creates. -/
def opening : ConversationRecord where
  id := input.conversationId
  principalScope := input.principalScope
  title := whenTruthy (naming.conversationTitle input.messages)
  revision := 0
  createdAt := input.startedAt
  updatedAt := input.startedAt

/-- The run that `ensureRun` starts. -/
def starting : RunInput where
  id := input.protocolRunId
  conversationId := input.conversationId
  principalScope := input.principalScope
  agentRunId := some input.agentRunId
  invocationId := some input.invocationId
  startedAt := input.startedAt

/-- The conversation of the invocation, as its scope sees it. -/
def Store.conversation (store : Store) : Option ConversationRecord :=
  store.getConversation input.conversationId input.principalScope

def Store.revision (store : Store) : Nat := ((store.conversation input).map (·.revision)).getD 0

def Store.message (store : Store) (id : String) : Option MessageRecord :=
  store.getMessage jsonb id input.conversationId input.principalScope

def Store.protocolRun (store : Store) : Option RunRecord :=
  store.run input.protocolRunId input.principalScope

def recordOf (event : Json) : EventRecord :=
  ⟨match member event "type" with
    | some (.string type) => type
    | _ => "", event⟩

def Deed.doneTo (store : Store) : Deed → Store
  | .converse =>
    if (store.conversation input).isSome then store else (store.createConversation (opening naming input)).2
  | .tell message =>
    if (store.message jsonb input message.id).isSome then store
    else (store.appendMessage jsonb input.conversationId input.principalScope (store.revision input)
      message).2
  | .start =>
    if (store.protocolRun input).isSome then store else (store.startRun (starting input)).2
  | .record event => (store.appendRunEvent input.protocolRunId input.principalScope
      (store.events input.protocolRunId).length (recordOf event)).2
  | .close status updatedAt terminalReason =>
    if (store.protocolRun input).any (·.status = status) then store
    else (store.transitionRun input.protocolRunId input.principalScope .running status updatedAt
      (whenTruthy terminalReason)).2

def Able (store : Store) : Deed → Prop
  | .converse => (store.conversation input).isSome ∨
      store.conversations input.conversationId = none ∧ blank input.conversationId = false
  | .tell message =>
    match store.message jsonb input message.id with
    | some existing => assertSameMessage naming existing message = .ok ()
    | none => (store.conversation input).isSome ∧ ∃ appended, (store.appendMessage jsonb
        input.conversationId input.principalScope (store.revision input) message).1 = .ok appended
  | .start =>
    match store.protocolRun input with
    | some run => assertSameRun input run.read = .ok ()
    | none => ∃ started, (store.startRun (starting input)).1 = .ok started
  | .record event => (store.protocolRun input).isSome ∧
      requiredString (member event "type") "agent stream event.type" = .ok (recordOf event).type
  | .close status _ _ => ∃ run, store.protocolRun input = some run ∧
      (run.status = status ∨ run.status = .running ∧ status ∈ allowedTransitions .running)

def Does : Store → List Deed → Store → Prop
  | store, [], last => last = store
  | store, deed :: rest, last =>
    Able naming jsonb input store deed ∧ Does (deed.doneTo naming jsonb input store) rest last

variable {naming jsonb input}

theorem does_append : Does naming jsonb input store (earlier ++ later) last ↔ ∃ between,
      Does naming jsonb input store earlier between ∧ Does naming jsonb input between later last := by
  induction earlier generalizing store with
  | nil => simp [Does]
  | cons deed rest ih => simp [cons_append, Does, ih, and_assoc, exists_and_left]

end

open Store (appendMessage appendRunEvent conversation getMessage message)

section
variable {store : Store} {conversationId : String} {revision : Nat} {message : MessageInput}

def appendedRow (conversationId : String) (revision : Nat) (message : MessageInput) : MessageRecord where
  id := message.id
  conversationId := conversationId
  revision := revision + 1
  role := message.role
  content := message.content
  invocationId := message.invocationId
  createdAt := message.createdAt

theorem appendMessage_ok (ok : (store.appendMessage jsonb conversationId principalScope rev msg).1 = .ok appended) :
    ∃ cur, store.getConversation conversationId principalScope = some cur ∧
      cur.revision = rev ∧ (∀ other ∈ store.messages, other.id ≠ msg.id) ∧
      appended.1 = { cur with revision := rev + 1, updatedAt := msg.createdAt } ∧
      (store.appendMessage jsonb conversationId principalScope rev msg).2 =
        { store with
          conversations := Function.update store.conversations conversationId (some appended.1)
          messages := store.messages ++ [appendedRow conversationId rev msg] } := by
  unfold appendMessage at ok ⊢
  cases found : store.getConversation conversationId principalScope with
  | none =>
    rw [found] at ok
    cases ok
  | some cur =>
    rw [found] at ok
    by_cases same : cur.revision = rev
    · simp only [Option.filter, same, decide_true, if_true] at ok ⊢
      split at ok
      · cases ok
      next fresh =>
      split at ok
      · cases ok
      next free =>
      split at ok
      · cases ok
      next named =>
      rw [if_neg fresh, if_neg free, if_neg named]
      cases ok
      refine ⟨cur, rfl, same, ?_, rfl, rfl⟩
      intro other among is
      exact fresh (any_eq_true.mpr ⟨other, among, decide_eq_true is⟩)
    · simp [Option.filter, same] at ok

theorem appendMessage_present (present : ∃ other ∈ store.messages, other.id = msg.id) :
    ∃ text, store.appendMessage jsonb conversationId principalScope rev msg =
      (.error (.conflict text), store) := by
  unfold appendMessage
  split
  · exact ⟨_, rfl⟩
  obtain ⟨other, among, is⟩ := present
  rw [if_pos (any_eq_true.mpr ⟨other, among, decide_eq_true is⟩)]
  exact ⟨_, rfl⟩

theorem appendMessage_refused
    (refused : (store.appendMessage jsonb conversationId principalScope rev msg).1 = .error err) :
    store.appendMessage jsonb conversationId principalScope rev msg = (.error err, store) := by
  unfold appendMessage at refused ⊢
  split at refused
  · exact Prod.ext refused rfl
  next cur _ =>
  by_cases taken : store.messages.any (·.id = msg.id) = true
  · rw [if_pos taken] at refused ⊢
    exact Prod.ext refused rfl
  rw [if_neg taken] at refused ⊢
  by_cases clash : (store.messages.any fun other =>
      other.conversationId = conversationId && other.revision = cur.revision + 1) = true
  · rw [if_pos clash] at refused ⊢
    exact Prod.ext refused rfl
  rw [if_neg clash] at refused ⊢
  by_cases empty : msg.id = ""
  · rw [if_pos empty] at refused ⊢
    exact Prod.ext refused rfl
  · rw [if_neg empty] at refused
    cases refused

end

open Deed (doneTo tell)

section
variable {input : PersistenceInput} {store after : Store}

section
variable {α : Type}

@[simp] theorem exec_createConversation {next : Except Failure ConversationRecord → StoreProgram α} :
    (ask (.createConversation conv) >>= next).exec (postgresStore jsonb) store =
      (next (store.createConversation conv).1).exec (postgresStore jsonb) (store.createConversation conv).2 := rfl

@[simp] theorem exec_getConversation {id : String} {next : Option ConversationRecord → StoreProgram α} :
    (ask (.getConversation id principalScope) >>= next).exec (postgresStore jsonb) store =
      (next (store.getConversation id principalScope)).exec (postgresStore jsonb) store := rfl

@[simp] theorem exec_getMessage {id : String} {next : Option MessageRecord → StoreProgram α} :
    (ask (.getMessage id conversationId principalScope) >>= next).exec (postgresStore jsonb) store =
      (next (store.getMessage jsonb id conversationId principalScope)).exec (postgresStore jsonb)
        store := rfl

@[simp] theorem exec_appendMessage {next : Except Failure (ConversationRecord × MessageRecord) → StoreProgram α} :
    (ask (.appendMessage conversationId principalScope rev msg) >>= next).exec (postgresStore jsonb) store =
      (next (store.appendMessage jsonb conversationId principalScope rev msg).1).exec (postgresStore jsonb)
        (store.appendMessage jsonb conversationId principalScope rev msg).2 := rfl

variable {next : Except Failure RunRecord → StoreProgram α}

@[simp] theorem exec_startRun :
    (ask (.startRun new) >>= next).exec (postgresStore jsonb) store =
      (next (store.startRun new).1).exec (postgresStore jsonb) (store.startRun new).2 := rfl

@[simp] theorem exec_getRun {id : String} {next : Option RunRecord → StoreProgram α} :
    (ask (.getRun id principalScope) >>= next).exec (postgresStore jsonb) store =
      (next ((store.run id principalScope).map RunRecord.read)).exec (postgresStore jsonb) store := rfl

@[simp] theorem exec_transitionRun :
    (ask (.transitionRun runId principalScope status target updatedAt terminalReason) >>= next).exec
        (postgresStore jsonb) store =
      (next (store.transitionRun runId principalScope status target updatedAt terminalReason).1).exec
        (postgresStore jsonb)
        (store.transitionRun runId principalScope status target updatedAt terminalReason).2 := rfl

@[simp] theorem exec_appendRunEvent {next : Except Failure Nat → StoreProgram α} :
    (ask (.appendRunEvent runId principalScope expectedSequence event) >>= next).exec (postgresStore jsonb) store =
      (next (store.appendRunEvent runId principalScope expectedSequence event).1).exec (postgresStore jsonb)
        (store.appendRunEvent runId principalScope expectedSequence event).2 := rfl

@[simp] theorem exec_getRunEvent {next : Option EventRecord → StoreProgram α} :
    (ask (.getRunEvent runId principalScope seq) >>= next).exec (postgresStore jsonb) store =
      (next (store.getRunEvent jsonb runId principalScope seq)).exec (postgresStore jsonb)
        store := rfl

end

theorem requiredString_ok (given : requiredString value field = .ok text)
    : value = some (.string text) ∧ blank text = false := by
  unfold requiredString at given
  split at given
  · split at given
    · cases given
    · next filled =>
      rw [ok.inj given] at filled ⊢
      exact ⟨rfl, Bool.not_eq_true _ ▸ filled⟩
  · cases given

theorem conversation_created (naming : Naming) (absent : store.conversations input.conversationId = none) :
    store.createConversation (opening naming input) = (.ok (opening naming input), { store with
      conversations := Function.update store.conversations input.conversationId (some (opening naming input)) }) := by
  unfold Store.createConversation
  have absent : store.conversations (opening naming input).id = none := absent
  rw [absent]
  rfl

theorem conversation_opened (naming : Naming) (absent : store.conversations input.conversationId = none) :
    (store.createConversation (opening naming input)).2.conversation input = some (opening naming input) := by
  rw [conversation_created naming absent]
  simp [conversation, Store.getConversation, opening, Option.filter]

variable {conversation : ConversationRecord}

theorem ensureConversation_ok
    (ran : (ensureConversation naming input).exec (postgresStore jsonb) store = (.ok conv, after)) :
    Able naming jsonb input store .converse ∧ after = Deed.converse.doneTo naming jsonb input store ∧
      after.conversation input = some conv := by
  unfold ensureConversation at ran
  rw [exec_getConversation] at ran
  unfold Able doneTo conversation
  cases found : store.getConversation input.conversationId input.principalScope with
  | some =>
    rw [found] at ran
    obtain ⟨same, rfl⟩ := Prod.mk.inj ran
    cases same
    exact ⟨.inl rfl, rfl, found⟩
  | none =>
    rw [found] at ran
    obtain ⟨id, named, ran⟩ := Program.exec_check_bind_ok.mp ran
    obtain ⟨is, filled⟩ := requiredString_ok named
    cases some.inj is
    have ran : (ask (.createConversation (opening naming input)) >>= _).exec (postgresStore jsonb) store = _ := ran
    rw [exec_createConversation] at ran
    cases held : store.conversations input.conversationId with
    | none =>
      have opened := conversation_opened naming held
      rw [conversation_created naming held] at ran opened ⊢
      obtain ⟨same, rfl⟩ := Prod.mk.inj ran
      cases same
      exact ⟨.inr ⟨rfl, filled⟩, rfl, opened⟩
    | some other =>
      have refused : store.createConversation (opening naming input) =
          (.error (.conflict s!"Conversation {input.conversationId} already exists."), store) := by
        unfold Store.createConversation
        have held : store.conversations (opening naming input).id = some other := held
        rw [held]
        rfl
      rw [refused] at ran
      rw [exec_getConversation, found] at ran
      cases ran

/-- No message is revised further than its conversation, which is there. -/
def Bounded (store : Store) : Prop := ∀ message ∈ store.messages, ∃ conversation,
  store.conversations message.conversationId = some conversation ∧ message.revision ≤ conversation.revision

theorem Store.revision_of (held : store.conversation input = some conv) : store.revision input = conv.revision := by
  unfold Store.revision
  rw [held]
  rfl

theorem Store.message_some {id : String} (found : store.message jsonb input id = some existing) :
    ∃ conv row, store.conversation input = some conv ∧ row ∈ store.messages ∧
      row.id = id ∧ row.conversationId = input.conversationId ∧ row.read jsonb = existing := by
  unfold message getMessage at found
  split at found
  · cases found
  next present =>
  obtain ⟨row, is, rfl⟩ := map_eq_some_iff.mp found
  have fits := find?_some is
  simp only [Bool.and_eq_true, decide_eq_true_eq] at fits
  rw [isNone_iff_eq_none, ← ne_eq, ne_none_iff_exists'] at present
  obtain ⟨conv, held⟩ := present
  exact ⟨conv, row, held, mem_of_find?_eq_some is, fits.1, fits.2, rfl⟩

theorem Store.getConversation_some {id : String} (held : store.getConversation id principalScope = some conv) :
    store.conversations id = some conv ∧ conv.principalScope = principalScope := by
  obtain ⟨there, admitted⟩ := filter_eq_some_iff.mp held
  exact ⟨there, of_decide_eq_true admitted⟩

theorem Bounded.message_le {id : String} (bounded : Bounded store)
    (found : store.message jsonb input id = some existing) : existing.revision ≤ store.revision input := by
  obtain ⟨_, row, held, among, -, own, rfl⟩ := Store.message_some found
  obtain ⟨_, there, bound⟩ := bounded row among
  rw [own, (Store.getConversation_some held).1] at there
  cases there
  rw [Store.revision_of held]
  exact bound

theorem conversation_appended
    (ok : (store.appendMessage jsonb input.conversationId input.principalScope rev msg).1 = .ok appended) :
    (store.appendMessage jsonb input.conversationId input.principalScope rev msg).2.conversation
      input = some appended.1 ∧ appended.1.revision = rev + 1 ∧ store.revision input = rev := by
  obtain ⟨_, held, rfl, -, is, left⟩ := appendMessage_ok ok
  rw [left]
  refine ⟨?_, by rw [is], Store.revision_of held⟩
  have admitted := (Store.getConversation_some held).2
  unfold conversation Store.getConversation
  dsimp only
  rw [Function.update_self, is]
  simp [Option.filter, admitted]

theorem message_appended
    (ok : (store.appendMessage jsonb input.conversationId input.principalScope rev msg).1 = .ok appended) :
    (store.appendMessage jsonb input.conversationId input.principalScope rev msg).2.message
      jsonb input msg.id = some ((appendedRow input.conversationId rev msg).read jsonb) := by
  obtain ⟨held, -⟩ := conversation_appended ok
  obtain ⟨_, -, -, fresh, -, left⟩ := appendMessage_ok ok
  unfold conversation at held
  unfold message getMessage
  rw [held, left]
  have none : store.messages.find? (fun other =>
      other.id = msg.id && other.conversationId = input.conversationId) = none := by
    rw [find?_eq_none]
    intro other among
    simp [fresh other among]
  rw [find?_append, none]
  simp [appendedRow]

theorem ensureInputMessage_ok (bounded : Bounded store) (reckons : rev = store.revision input)
    (ran : (ensureInputMessage naming input msg rev).exec (postgresStore jsonb) store = (.ok reached, after))
    : Able naming jsonb input store (.tell msg) ∧
      after = (tell msg).doneTo naming jsonb input store ∧ reached = after.revision input := by
  subst reckons
  unfold ensureInputMessage at ran
  rw [exec_getMessage] at ran
  unfold Able doneTo
  dsimp only
  cases found : store.message jsonb input msg.id with
  | some existing =>
    have found' : store.getMessage jsonb msg.id input.conversationId input.principalScope = some existing := found
    rw [found'] at ran
    obtain ⟨_, same, ran⟩ := Program.exec_check_bind_ok.mp ran
    obtain ⟨is, rfl⟩ := Prod.mk.inj ran
    refine ⟨same, rfl, ?_⟩
    rw [← ok.inj is]
    exact max_eq_left (bounded.message_le found)
  | none =>
    have found' : store.getMessage jsonb msg.id input.conversationId input.principalScope = none := found
    rw [found'] at ran
    rw [exec_appendMessage] at ran
    cases res : (store.appendMessage jsonb input.conversationId input.principalScope
        (store.revision input) msg).1 with
    | ok appended =>
      rw [res] at ran
      obtain ⟨is, rfl⟩ := Prod.mk.inj ran
      obtain ⟨held, -, -⟩ := conversation_appended res
      obtain ⟨_, there, -⟩ := appendMessage_ok res
      refine ⟨⟨?_, appended, rfl⟩, rfl, ?_⟩
      · unfold conversation
        rw [there]
        rfl
      · rw [Store.revision_of held]
        exact (ok.inj is).symm
    | error err =>
      have refused := appendMessage_refused res
      rw [refused] at ran
      cases err with
      | plain text => cases ran
      | conflict text =>
        rw [exec_getMessage, found'] at ran
        rw [exec_getConversation] at ran
        cases held : store.getConversation input.conversationId input.principalScope with
        | none =>
          rw [held] at ran
          cases ran
        | some conv =>
          rw [held] at ran
          have same : conv.revision = store.revision input := (Store.revision_of held).symm
          rw [exec_appendMessage, same, refused] at ran
          cases ran

theorem ensureMessage_ok (ran : (ensureMessage naming input msg).exec (postgresStore jsonb) store = (.ok (), after)) :
    Able naming jsonb input store (.tell msg) ∧ after = (tell msg).doneTo naming jsonb input store := by
  unfold ensureMessage at ran
  rw [exec_getMessage] at ran
  unfold Able doneTo
  dsimp only
  cases found : store.message jsonb input msg.id with
  | some existing =>
    have found' : store.getMessage jsonb msg.id input.conversationId input.principalScope = some existing := found
    rw [found'] at ran
    rw [Program.exec_check] at ran
    obtain ⟨same, rfl⟩ := Prod.mk.inj ran
    exact ⟨same, rfl⟩
  | none =>
    have found' : store.getMessage jsonb msg.id input.conversationId input.principalScope = none := found
    rw [found'] at ran
    rw [exec_getConversation] at ran
    cases held : store.getConversation input.conversationId input.principalScope with
    | none =>
      rw [held] at ran
      cases ran
    | some conv =>
      rw [held] at ran
      have reckons : store.revision input = conv.revision := Store.revision_of held
      rw [exec_appendMessage, ← reckons] at ran
      have there : (store.conversation input).isSome := isSome_iff_exists.mpr ⟨_, held⟩
      cases res : (store.appendMessage jsonb input.conversationId input.principalScope
          (store.revision input) msg).1 with
      | ok appended =>
        rw [res] at ran
        exact ⟨⟨there, appended, rfl⟩, (Prod.mk.inj ran).2.symm⟩
      | error err =>
        rw [appendMessage_refused res] at ran
        cases err with
        | plain text => cases ran
        | conflict text =>
          rw [exec_getMessage, found'] at ran
          cases ran

theorem startRun_refused (refused : (store.startRun new).1 = .error err) :
    (∃ text, err = .conflict text) ∧ (store.startRun new).2 = store := by
  unfold Store.startRun at refused ⊢
  split at refused
  · cases refused
  · exact ⟨⟨_, (Except.error.inj refused).symm⟩, rfl⟩

theorem ensureRun_ok (ran : (ensureRun input).exec (postgresStore jsonb) store = (.ok row, after)) :
    Able naming jsonb input store .start ∧ after = Deed.start.doneTo naming jsonb input store := by
  unfold ensureRun at ran
  rw [exec_getRun] at ran
  unfold Able doneTo
  cases found : store.protocolRun input with
  | some existing =>
    have found' : store.run input.protocolRunId input.principalScope = some existing := found
    rw [found'] at ran
    obtain ⟨_, same, ran⟩ := Program.exec_check_bind_ok.mp ran
    exact ⟨same, (Prod.mk.inj ran).2.symm⟩
  | none =>
    have found' : store.run input.protocolRunId input.principalScope = none := found
    rw [found'] at ran
    have ran : (ask (.startRun (starting input)) >>= _).exec (postgresStore jsonb) store = _ := ran
    rw [exec_startRun] at ran
    cases res : (store.startRun (starting input)).1 with
    | ok started =>
      rw [res] at ran
      exact ⟨⟨started, rfl⟩, (Prod.mk.inj ran).2.symm⟩
    | error =>
      obtain ⟨⟨_, rfl⟩, same⟩ := startRun_refused res
      rw [res, same] at ran
      rw [exec_getRun, found'] at ran
      cases ran

def Store.recorded (input : PersistenceInput) (store : Store) : Nat :=
  (store.events input.protocolRunId).length

theorem appendRunEvent_ok
    (ok : (store.appendRunEvent input.protocolRunId input.principalScope edge event).1 = .ok seq) :
    (store.protocolRun input).isSome ∧ store.recorded input = edge ∧ seq = edge + 1 := by
  unfold appendRunEvent at ok
  split at ok
  · cases ok
  next present =>
  split at ok
  · cases ok
  next counted =>
  rw [not_not] at counted
  refine ⟨?_, counted, (Except.ok.inj ok).symm⟩
  rw [isNone_iff_eq_none, ← ne_eq, ne_none_iff_isSome] at present
  exact present

theorem append_ok (counted : edge = store.recorded input)
    (ran : (append naming input event edge).exec (postgresStore jsonb) store = (.ok reached, after)) :
    Able naming jsonb input store (.record event) ∧
      after = (Deed.record event).doneTo naming jsonb input store ∧ reached = edge + 1 := by
  subst counted
  obtain ⟨type, typed, ran⟩ := Program.exec_check_bind_ok.mp ran
  have is : type = (recordOf event).type := by
    unfold recordOf
    rw [(requiredString_ok typed).1]
  rw [exec_appendRunEvent] at ran
  have same : (⟨type, event⟩ : EventRecord) = recordOf event := by rw [is]; rfl
  rw [same] at ran
  unfold Able doneTo
  cases res : (store.appendRunEvent input.protocolRunId input.principalScope
      (store.recorded input) (recordOf event)).1 with
  | ok =>
    rw [res] at ran
    obtain ⟨there, -, rfl⟩ := appendRunEvent_ok res
    obtain ⟨reached, rfl⟩ := Prod.mk.inj ran
    exact ⟨⟨there, is ▸ typed⟩, rfl, (ok.inj reached).symm⟩
  | error =>
    have missing : (store.run input.protocolRunId input.principalScope).isNone := by
      by_contra present
      unfold appendRunEvent Store.recorded at res
      rw [if_neg present] at res
      simp at res
    have refused : store.appendRunEvent input.protocolRunId input.principalScope (store.recorded input)
        (recordOf event) = (.error (.conflict
          s!"Run {input.protocolRunId} is absent or outside the admitted scope."), store) := by
      unfold appendRunEvent
      rw [if_pos missing]
    rw [refused] at ran
    rw [exec_getRunEvent, Store.getRunEvent, if_pos missing] at ran
    cases ran

theorem ensureRunStatus_ok
    (ran : (ensureRunStatus input status updatedAt terminalReason).exec (postgresStore jsonb) store = (.ok (), after))
    : Able naming jsonb input store (.close status updatedAt terminalReason) ∧
      after = (Deed.close status updatedAt terminalReason).doneTo naming jsonb input store := by
  unfold ensureRunStatus at ran
  rw [exec_getRun] at ran
  unfold Able doneTo
  dsimp only
  cases found : store.protocolRun input with
  | none =>
    have found' : store.run input.protocolRunId input.principalScope = none := found
    rw [found'] at ran
    cases ran
  | some run =>
    have found' : store.run input.protocolRunId input.principalScope = some run := found
    rw [found'] at ran
    dsimp only [map_some, RunRecord.read] at ran
    by_cases same : run.status = status
    · rw [if_pos same] at ran
      refine ⟨⟨run, rfl, .inl same⟩, ?_⟩
      rw [any_some, if_pos (decide_eq_true same)]
      exact (Prod.mk.inj ran).2.symm
    rw [if_neg same] at ran
    by_cases running : run.status = .running
    · rw [if_neg (not_not.mpr running)] at ran
      have ran : (ask (.transitionRun input.protocolRunId input.principalScope .running status updatedAt
        (whenTruthy terminalReason)) >>= _).exec (postgresStore jsonb) store = _ := ran
      rw [exec_transitionRun] at ran
      rw [any_some, if_neg (by simpa using same)]
      refine ⟨⟨run, rfl, .inr ⟨running, ?_⟩⟩, ?_⟩
      · by_contra forbidden
        unfold Store.transitionRun at ran
        rw [if_pos forbidden] at ran
        cases ran
      cases res : (store.transitionRun input.protocolRunId input.principalScope .running status
          updatedAt (whenTruthy terminalReason)).1 with
      | ok =>
        rw [res] at ran
        exact (Prod.mk.inj ran).2.symm
      | error =>
        rw [res] at ran
        cases ran
    · rw [if_pos running] at ran
      cases ran

theorem Bounded.answer (bounded : Bounded store) (jsonb : Jsonb) (req : StoreCall) :
    Bounded ((postgresStore jsonb).answer req store).2 := by
  cases req with
  | createConversation =>
    dsimp only [postgresStore]
    unfold Store.createConversation
    split
    · exact bounded
    next absent =>
    intro msg among
    obtain ⟨held, there, bound⟩ := bounded msg among
    refine ⟨held, (Function.update_of_ne ?_ _ _).trans there, bound⟩
    intro same
    rw [same, absent] at there
    cases there
  | appendMessage conversationId principalScope expectedRevision msg =>
    dsimp only [postgresStore]
    cases res : (store.appendMessage jsonb conversationId principalScope expectedRevision msg).1 with
    | error =>
      rw [appendMessage_refused res]
      exact bounded
    | ok appended =>
      obtain ⟨_, held, _, -, is, left⟩ := appendMessage_ok res
      have there := (Store.getConversation_some held).1
      rw [left]
      have current_ : Function.update store.conversations conversationId (some appended.1)
          conversationId = some appended.1 := Function.update_self ..
      intro other among
      rcases mem_append.mp among with before | last
      · obtain ⟨conv, there', bound⟩ := bounded other before
        by_cases same : other.conversationId = conversationId
        · rw [same] at there' ⊢
          refine ⟨appended.1, current_, ?_⟩
          cases there.symm.trans there'
          rw [is]
          dsimp only
          omega
        · exact ⟨conv, (Function.update_of_ne same _ _).trans there', bound⟩
      · obtain rfl := mem_singleton.mp last
        refine ⟨appended.1, current_, ?_⟩
        rw [is]
        exact le_rfl
  | startRun run =>
    dsimp only [postgresStore]
    unfold Store.startRun
    split <;> exact bounded
  | transitionRun =>
    dsimp only [postgresStore]
    unfold Store.transitionRun
    split
    · exact bounded
    split <;> exact bounded
  | appendRunEvent =>
    dsimp only [postgresStore]
    unfold Store.appendRunEvent
    split
    · exact bounded
    split <;> exact bounded
  | getConversation => exact bounded
  | getMessage => exact bounded
  | getRun => exact bounded
  | getRunEvent => exact bounded
  | getRunEventFrontier => exact bounded

theorem Bounded.doneTo (bounded : Bounded store) (deed : Deed) : Bounded (deed.doneTo naming jsonb input store) := by
  cases deed with
  | converse =>
    unfold Deed.doneTo
    dsimp only
    split
    · exact bounded
    · exact bounded.answer jsonb (.createConversation (opening naming input))
  | tell msg =>
    unfold Deed.doneTo
    dsimp only
    split
    · exact bounded
    · exact bounded.answer jsonb (.appendMessage input.conversationId input.principalScope (store.revision input) msg)
  | start =>
    unfold Deed.doneTo
    dsimp only
    split
    · exact bounded
    · exact bounded.answer jsonb (.startRun (starting input))
  | record event =>
    exact bounded.answer jsonb (.appendRunEvent input.protocolRunId input.principalScope
      (store.events input.protocolRunId).length (recordOf event))
  | close status updatedAt terminalReason =>
    unfold Deed.doneTo
    dsimp only
    split
    · exact bounded
    · exact bounded.answer jsonb (.transitionRun input.protocolRunId input.principalScope
        .running status updatedAt (whenTruthy terminalReason))

end
end Applik8s.Conversations
