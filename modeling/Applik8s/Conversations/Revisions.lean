import Applik8s.Conversations.Store
import Applik8s.Lib.Run

/-! Whether a conversation's revision identifies its transcript. Both stores count the revision up
with each appended message, but `replaceMessages` sets it to the number of the messages it writes:
it falls to a shorter transcript's, and a transcript of the same length takes it over. A writer who
still holds that revision then appends to messages it never saw. -/
namespace Applik8s.Conversations
open Function (update update_of_ne update_self)
open Lib List Nat

section
/-- The two stores. The one of `packages/conversations/src/memory.ts` has its messages in one list too,
each under its conversation. -/
inductive Backend where
  | postgres (jsonb : Jsonb)
  | memory

inductive Call where
  | createConversation (conversation : ConversationRecord)
  | appendMessage (conversationId principalScope : String) (expectedRevision : Nat) (message : MessageInput)
  | replaceMessages (conversationId principalScope : String) (messages : List MessageInput) (updatedAt : String)

variable (backend : Backend) (store : Store) (conversationId principalScope : String) (messages : List MessageInput)

/-- What a read makes of a row. -/
def Backend.read : Backend → MessageRecord → MessageRecord
  | .postgres jsonb => MessageRecord.read jsonb
  | .memory => id

def Backend.row (revision : Nat) (message : MessageInput) : MessageRecord :=
  { id := message.id
    conversationId
    revision
    role := message.role
    content := message.content
    invocationId := match backend with
      | .postgres _ => message.invocationId
      | .memory => whenTruthy message.invocationId
    createdAt := message.createdAt }

/-- `appendMessage` of the memory store. -/
def Store.appendInMemory (expectedRevision : Nat) (message : MessageInput) : Option Failure × Store :=
  match (store.getConversation conversationId principalScope).filter (·.revision = expectedRevision) with
  | none =>
    (some (.conflict (s!"Conversation {conversationId} is absent, outside the admitted scope, or " ++
      s!"no longer at revision {expectedRevision}.")), store)
  | some current =>
    let conversation :=
      { current with revision := current.revision + 1, updatedAt := message.createdAt }
    if store.messages.any fun other => other.conversationId = conversationId && other.id = message.id then
      (some (.conflict s!"Message {message.id} already exists."), store)
    else
      (none, { store with
        conversations := update store.conversations conversationId (some conversation)
        messages := store.messages ++ [Backend.memory.row conversationId conversation.revision message] })

/-- The first message whose id another one before it has. -/
def repeatedMessage (identifiers : List String) : List MessageInput → Option MessageInput
  | [] => none
  | message :: rest =>
    if message.id ∈ identifiers then some message else repeatedMessage (message.id :: identifiers) rest

/-- Why `replaceMessages` would fail. In PostgreSQL a message's id is the table's key. -/
def Store.replacementRefusal : Option Failure :=
  if (store.getConversation conversationId principalScope).isNone then
    some (.conflict s!"Conversation {conversationId} is absent or outside the admitted scope.")
  else
    match repeatedMessage [] messages, backend with
    | some message, _ =>
      some (.conflict s!"Message {message.id} occurs more than once in the authoritative transcript.")
    | none, .postgres _ =>
      if store.messages.any fun other => other.conversationId ≠ conversationId && messages.any (·.id = other.id) then
        some (.plain "duplicate key value violates unique constraint")
      else none
    | none, .memory => none

/-- The rows of a replacement, numbered from 1. -/
def replacement : List MessageRecord :=
  (messages.zipIdx 1).map fun (message, revision) => backend.row conversationId revision message

def Store.replaceMessages (updatedAt : String) : Option Failure × Store :=
  match store.replacementRefusal backend conversationId principalScope messages with
  | some failure => (some failure, store)
  | none =>
    (none, { store with
      conversations := update store.conversations conversationId ((store.conversations conversationId).map
        fun conversation => { conversation with revision := messages.length, updatedAt })
      messages := store.messages.filter (·.conversationId ≠ conversationId) ++
        replacement backend conversationId messages })

def failureOf {α : Type} (answer : Except Failure α × Store) : Option Failure × Store :=
  (match answer.1 with | .ok _ => none | .error failure => some failure, answer.2)

/-- Why a call failed, if it did, and what it left. -/
def Backend.answer : Call → Option Failure × Store
  | .createConversation conversation => failureOf (store.createConversation conversation)
  | .appendMessage conversationId principalScope expectedRevision message =>
    match backend with
    | .postgres jsonb => failureOf (store.appendMessage jsonb conversationId principalScope expectedRevision message)
    | .memory => store.appendInMemory conversationId principalScope expectedRevision message
  | .replaceMessages conversationId principalScope messages updatedAt =>
    store.replaceMessages backend conversationId principalScope messages updatedAt

def Backend.next (call : Call) : Store := (backend.answer store call).2
def Backend.reached (calls : List Call) : Store := runFrom backend.next .empty calls

end

section
/-- What an observer sees of a conversation. -/
structure Thread where
  revision : Nat
  messages : List MessageRecord
  deriving DecidableEq

variable (backend : Backend)

def Store.thread (store : Store) (id : String) : Option Thread :=
  (store.conversations id).map fun conversation =>
    ⟨conversation.revision, (store.messages.filter (·.conversationId = id)).map backend.read⟩

/-- A new conversation is at revision 0. What replaces a transcript has more messages than its
revision, or is that transcript as it stands. -/
def Backend.Spares (store : Store) : Call → Prop
  | .createConversation conversation => conversation.revision = 0
  | .appendMessage _ _ _ _ => True
  | .replaceMessages id scope messages _ => store.replacementRefusal backend id scope messages = none →
    ∀ thread ∈ store.thread backend id, thread.revision < messages.length ∨
      thread.messages = (replacement backend id messages).map backend.read

/-- What holds of two states of a run, one before the other: messages are numbered 1 to the revision,
no revision fell, and whoever appends with the earlier revision extends the earlier transcript. -/
structure Backend.Identifies (earlier later : Store) : Prop where
  ordered : ∀ id, ∀ thread ∈ later.thread backend id, thread.messages.map (·.revision) = List.range' 1 thread.revision
  grows : ∀ id, ∀ thread ∈ earlier.thread backend id, ∃ after ∈ later.thread backend id,
    thread.revision ≤ after.revision
  extended : ∀ id scope message, ∀ thread ∈ earlier.thread backend id,
    (backend.answer later (.appendMessage id scope thread.revision message)).1 = none →
      ∃ row, (backend.next later (.appendMessage id scope thread.revision message)).thread backend id =
        some ⟨thread.revision + 1, thread.messages ++ [row]⟩

/-- What a call that went through made of the threads. -/
inductive Effect (before after : Store) : Call → Prop where
  | created {conversation : ConversationRecord} (absent : before.thread backend conversation.id = none)
      (made : after.thread backend =
        update (before.thread backend) conversation.id (some ⟨conversation.revision, []⟩)) :
      Effect before after (.createConversation conversation)
  | appended {id scope : String} {message : MessageInput} {thread : Thread} (row : MessageRecord)
      (held : before.thread backend id = some thread) (counted : row.revision = thread.revision + 1)
      (made : after.thread backend =
        update (before.thread backend) id (some ⟨thread.revision + 1, thread.messages ++ [row]⟩)) :
      Effect before after (.appendMessage id scope thread.revision message)
  | replaced {id scope updatedAt : String} {messages : List MessageInput}
      (admitted : before.replacementRefusal backend id scope messages = none)
      (made : after.thread backend = update (before.thread backend) id
        (some ⟨messages.length, (replacement backend id messages).map backend.read⟩)) :
      Effect before after (.replaceMessages id scope messages updatedAt)

end

section
variable {backend : Backend} {store : Store}

/-- No message is without its conversation. -/
def Store.Housed (store : Store) : Prop :=
  ∀ message ∈ store.messages, (store.conversations message.conversationId).isSome

private theorem read_revision (row : MessageRecord) : (backend.read row).revision = row.revision := by
  cases backend <;> rfl

private theorem replacement_numbered (id : String) (messages : List MessageInput) :
    ((replacement backend id messages).map backend.read).map (·.revision) = List.range' 1 messages.length := by
  rw [map_map, replacement, map_map, ← zipIdx_map_snd]
  exact map_congr_left fun _ _ => read_revision _

private theorem Store.thread_of_update {after : Store} {id : String}
    (conversations : after.conversations = update store.conversations id (some conv))
    (others : ∀ other, other ≠ id → after.messages.filter (·.conversationId = other) = store.messages.filter (·.conversationId = other))
    : after.thread backend = update (store.thread backend) id
      (some ⟨conv.revision, (after.messages.filter (·.conversationId = id)).map backend.read⟩) := by
  funext other
  by_cases same : other = id
  · subst same
    simp [Store.thread, conversations]
  · simp [Store.thread, conversations, update_of_ne same, others other same]

private theorem Store.Housed.of_update {after : Store} {id : String} (housed : store.Housed)
    (conversations : after.conversations = update store.conversations id (some conv))
    (messages : ∀ msg ∈ after.messages, msg ∈ store.messages ∨ msg.conversationId = id) : after.Housed := by
  intro msg member
  rw [conversations]
  by_cases same : msg.conversationId = id
  · simp [same]
  · rw [update_of_ne same]
    exact housed msg ((messages msg member).resolve_right same)

private theorem appended_effect {id scope : String} {expectedRevision : Nat} {msg : MessageInput}
    {cur conv : ConversationRecord} {row : MessageRecord} {after : Store} (housed : store.Housed)
    (found : (store.getConversation id scope).filter (·.revision = expectedRevision) = some cur)
    (counted : conv.revision = cur.revision + 1) (numbered : row.revision = conv.revision)
    (placed : row.conversationId = id)
    (made : after = { store with
      conversations := update store.conversations id (some conv)
      messages := store.messages ++ [row] }) :
    Effect backend store after (.appendMessage id scope expectedRevision msg) ∧ after.Housed := by
  subst made
  obtain ⟨found, expected⟩ := Option.filter_eq_some_iff.mp found
  have held := (Option.filter_eq_some_iff.mp found).1
  cases of_decide_eq_true expected
  refine ⟨?_, housed.of_update rfl (by simp +contextual [or_imp, placed])⟩
  refine .appended (backend.read row) (show _ = some ⟨cur.revision, _⟩ by rw [Store.thread, held]; rfl) ?_ ?_
  · rw [read_revision, numbered, counted]
  · rw [Store.thread_of_update rfl fun other different => by simp [placed, different.symm]]
    simp [placed, counted]

/-- What a call does: it fails and leaves the store, or has its effect. -/
theorem answer_cases (housed : store.Housed) :
    ((backend.answer store call).1 ≠ none ∧ backend.next store call = store) ∨
      (Effect backend store (backend.next store call) call ∧ (backend.next store call).Housed) := by
  unfold Backend.next
  cases call with
  | createConversation conv =>
    simp only [Backend.answer, failureOf, Store.createConversation]
    cases found : store.conversations conv.id with
    | some _ => exact .inl ⟨by simp, rfl⟩
    | none =>
      have fresh : store.messages.filter (·.conversationId = conv.id) = [] := by
        refine filter_eq_nil_iff.mpr fun msg member same => ?_
        have housing := housed msg member
        simp [of_decide_eq_true same, found] at housing
      have seen : Store.thread backend { store with
          conversations := update store.conversations conv.id (some conv) } = update _ _ _ :=
        Store.thread_of_update rfl fun _ _ => rfl
      refine .inr ⟨.created (by rw [Store.thread, found]; rfl) ?_, housed.of_update rfl fun _ member => .inl member⟩
      simpa [fresh] using seen
  | appendMessage id scope expectedRevision msg =>
    cases backend with
    | postgres jsonb =>
      simp only [Backend.answer, failureOf, Store.appendMessage]
      cases found : (store.getConversation id scope).filter (·.revision = expectedRevision) with
      | none => exact .inl ⟨by simp, rfl⟩
      | some cur =>
        dsimp only
        split_ifs
        · exact .inl ⟨by simp, rfl⟩
        · exact .inl ⟨by simp, rfl⟩
        · exact .inl ⟨by simp, rfl⟩
        · exact .inr (appended_effect housed found rfl rfl rfl rfl)
    | memory =>
      simp only [Backend.answer, Store.appendInMemory]
      cases found : (store.getConversation id scope).filter (·.revision = expectedRevision) with
      | none => exact .inl ⟨by simp, rfl⟩
      | some cur =>
        split_ifs
        · exact .inl ⟨by simp, rfl⟩
        · exact .inr (appended_effect housed found rfl rfl rfl rfl)
  | replaceMessages id scope messages updatedAt =>
    simp only [Backend.answer, Store.replaceMessages]
    cases refusal : store.replacementRefusal backend id scope messages with
    | some _ => exact .inl ⟨by simp, rfl⟩
    | none =>
      obtain ⟨cur, found⟩ : ∃ cur, store.conversations id = some cur := by
        unfold Store.replacementRefusal at refusal
        cases held : store.conversations id with
        | none => simp [Store.getConversation, held] at refusal
        | some cur => exact ⟨cur, rfl⟩
      have placed : ∀ row ∈ replacement backend id messages, row.conversationId = id := fun _ member => by
        obtain ⟨_, _, rfl⟩ := mem_map.mp member
        rfl
      refine .inr ⟨.replaced refusal ?_, housed.of_update (by rw [found]; rfl) fun row member => ?_⟩
      · rw [Store.thread_of_update (by rw [found]; rfl) fun other different => ?_]
        · simp [filter_filter, filter_eq_self.mpr fun row member => decide_eq_true (placed row member)]
        · have elsewhere : (replacement backend id messages).filter (·.conversationId = other) = [] :=
            filter_eq_nil_iff.mpr fun row member => by simp [placed row member, different.symm]
          simp only [filter_append, filter_filter, elsewhere, append_nil]
          exact filter_congr fun row _ => by by_cases same : row.conversationId = other <;> simp [same, different]
      · exact (mem_append.mp member).imp (fun kept => (mem_filter.mp kept).1) (placed row)

end

section
variable {backend : Backend} {store : Store}

/-- The transcripts are numbered, and each belongs to a conversation. -/
private def Sound (backend : Backend) (store : Store) : Prop :=
  store.Housed ∧ ∀ id, ∀ thread ∈ store.thread backend id,
    thread.messages.map (·.revision) = List.range' 1 thread.revision

/-- A thread is where it was, or at a revision it never had. -/
private def Advances (backend : Backend) (before after : Store) : Prop :=
  ∀ id, ∀ thread ∈ before.thread backend id, ∃ reached ∈ after.thread backend id,
    thread.revision < reached.revision ∨ reached = thread

private theorem Advances.refl (store : Store) : Advances backend store store :=
  fun _ thread held => ⟨thread, held, .inr rfl⟩

private theorem Advances.trans {first second third : Store} (one : Advances backend first second)
    (two : Advances backend second third) : Advances backend first third := by
  intro id thread held
  obtain ⟨between, there, step⟩ := one id thread held
  obtain ⟨reached, last, steps⟩ := two id between there
  refine ⟨reached, last, ?_⟩
  rcases step with step | rfl
  · rcases steps with steps | rfl
    · exact .inl (step.trans steps)
    · exact .inl step
  · exact steps

/-- One conversation was given a numbered thread at a revision it never had, or its own again. -/
private theorem Sound.of_update {after : Store} {id : String} {given : Thread} (sound : Sound backend store)
    (housed : after.Housed) (made : after.thread backend = update (store.thread backend) id (some given))
    (numbered : given.messages.map (·.revision) = List.range' 1 given.revision)
    (advances : ∀ thread ∈ store.thread backend id, thread.revision < given.revision ∨ given = thread) :
    Sound backend after ∧ Advances backend store after := by
  refine ⟨⟨housed, fun other thread held => ?_⟩, fun other thread held => ?_⟩ <;> by_cases same : other = id
  · subst same
    cases (congrFun made other).symm.trans held |>.symm.trans (update_self ..)
    exact numbered
  · rw [made, update_of_ne same] at held
    exact sound.2 other thread held
  · subst same
    exact ⟨given, by rw [made, update_self]; rfl, advances thread held⟩
  · exact ⟨thread, by rwa [made, update_of_ne same], .inr rfl⟩

private theorem Sound.next {call : Call} (sound : Sound backend store) (spares : backend.Spares store call) :
    Sound backend (backend.next store call) ∧ Advances backend store (backend.next store call) := by
  rcases answer_cases sound.1 with ⟨_, same⟩ | ⟨effect, housed⟩
  · rw [same]
    exact ⟨sound, .refl store⟩
  cases effect with
  | created absent made =>
    refine sound.of_update housed made (by rw [show _ = 0 from spares]; rfl) fun thread held => ?_
    simp [absent] at held
  | @appended id _ _ thread row held counted made =>
    refine sound.of_update housed made ?_ fun other now => .inl ?_
    · simp [sound.2 id thread held, counted, List.range'_concat, Nat.add_comm]
    · cases held.symm.trans now
      exact lt_succ_self _
  | @replaced id scope _ messages admitted made =>
    have numbered := @replacement_numbered backend id messages
    refine sound.of_update housed made numbered fun other now => ?_
    refine (spares admitted other now).imp_right fun same => ?_
    have numbers := sound.2 id other now
    rw [same, numbered] at numbers
    have rev : messages.length = other.revision := by simpa using congrArg List.length numbers
    rw [← same, rev]

private theorem Advances.identifies {before after : Store} (advances : Advances backend before after)
    (sound : Sound backend after) : backend.Identifies before after := by
  refine ⟨sound.2, fun id thread held => ?_, fun id scope msg thread held accepted => ?_⟩
  · obtain ⟨reached, there, later | rfl⟩ := advances id thread held
    · exact ⟨reached, there, le_of_lt later⟩
    · exact ⟨reached, there, le_refl _⟩
  obtain ⟨_, there, advanced⟩ := advances id thread held
  obtain ⟨effect, _⟩ := (answer_cases sound.1).resolve_left fun refused => refused.1 accepted
  generalize counted : thread.revision = rev at effect ⊢
  cases effect with
  | @appended _ _ _ present row now _ made =>
    cases there.symm.trans now
    rcases advanced with _ | rfl
    · omega
    · exact ⟨row, by rw [made, update_self]⟩

/-- In a run whose replacements are longer than what they replace, or leave it as it is, a revision
identifies a transcript. -/
theorem identifies_of_spared {earlier later : List Call}
    (spared : EachStep backend.next backend.Spares .empty (earlier ++ later)) :
    backend.Identifies (backend.reached earlier) (backend.reached (earlier ++ later)) := by
  have empty : Sound backend .empty := ⟨nofun, nofun⟩
  have step : ∀ store call, Sound backend store → backend.Spares store call → Sound backend (backend.next store call) :=
    fun _ _ sound spares => (sound.next spares).1
  obtain ⟨_, rest⟩ := eachStep_append.mp (eachStep_of_steps (Sound backend) step empty spared)
  have advances := relates_of_steps (Advances backend) .refl .trans (fun _ _ met => (met.1.next met.2).2) rest
  have sound := invariant_of_steps (Sound backend) step empty spared
  unfold Backend.reached
  rw [runFrom_append] at sound ⊢
  exact advances.identifies sound

private def initial : Call := .createConversation ⟨"thread", "workspace", none, 0, "2026-08-17", "2026-08-17"⟩
private def message (id : String) : MessageInput := ⟨id, .user, .string id, none, "2026-08-17"⟩

private def appending (expectedRevision : Nat) (id : String) : Call :=
  .appendMessage "thread" "workspace" expectedRevision (message id)

private def replacing (ids : List String) : Call :=
  .replaceMessages "thread" "workspace" (ids.map message) "2026-08-18"

/-- A longer transcript replaces the first message, and the run goes on. -/
theorem identifies_where_longer : EachStep Backend.memory.next Backend.memory.Spares .empty
        ([initial, appending 0 "first"] ++ [replacing ["first", "second"], appending 2 "third"]) ∧
      Backend.memory.Identifies (Backend.memory.reached [initial, appending 0 "first"]) (Backend.memory.reached
          ([initial, appending 0 "first"] ++ [replacing ["first", "second"], appending 2 "third"])) := by
  have spared : EachStep Backend.memory.next Backend.memory.Spares .empty
      ([initial, appending 0 "first"] ++ [replacing ["first", "second"], appending 2 "third"]) :=
    ⟨rfl, trivial, fun _ _ held => .inl (by cases held; decide), trivial, trivial⟩
  exact ⟨spared, identifies_of_spared spared⟩

/-- Another message takes the place of the only one: who read the first at revision 1 appends to the
second. -/
theorem replaced_revision_reused : ¬ ∃ backend : Backend, ∀ earlier later : List Call,
      (∀ conversation, .createConversation conversation ∈ earlier ++ later → conversation.revision = 0) →
        backend.Identifies (backend.reached earlier) (backend.reached (earlier ++ later)) := by
  rintro ⟨backend, identifies⟩
  have opened : ∀ conversation, .createConversation conversation ∈
      [initial, appending 0 "first"] ++ [replacing ["second"]] → conversation.revision = 0 := by
    simp [initial, appending, replacing]
  obtain ⟨row, seen⟩ := (identifies _ _ opened).extended "thread" "workspace" (message "third")
    ⟨1, [backend.read (backend.row "thread" 1 (message "first"))]⟩ (by cases backend <;> rfl) (by cases backend <;> rfl)
  have ids : some ["second", "third"] = some ["first", row.id] := by
    cases backend <;> exact congrArg (Option.map fun thread => thread.messages.map (·.id)) seen
  simp at ids

end
end Applik8s.Conversations
