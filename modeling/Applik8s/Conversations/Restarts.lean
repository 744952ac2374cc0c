import Applik8s.Conversations.Deeds
import Applik8s.Lib.Path

/-! Executions of one invocation, any number of them, each going as far as it goes. The stores that a
single undisturbed execution goes through are a path; every execution carries the store forward on it,
as long as the frontier is read before the first event is recorded and no two executions close the run
at once. -/
namespace Applik8s.Conversations
open Function (update update_self)
open Lib List Option Nat
open Store (appendRunEvent conversation message protocolRun recorded revision_of startRun)
open Deed (doneTo)

section
variable {naming : Naming} {jsonb : Jsonb} {input : PersistenceInput} {store : Store} {deeds : List Deed}
  {place : Nat} {deed : Deed}

structure Extends (input : PersistenceInput) (store later : Store) : Prop where
  conversation : ∀ conversation, store.conversation input = some conversation →
    ∃ extended, later.conversation input = some extended ∧ conversation.revision ≤ extended.revision
  messages : store.messages <+: later.messages
  run : ∀ run, store.protocolRun input = some run → ∃ extended,
    later.protocolRun input = some extended ∧ extended.conversationId = run.conversationId ∧
      extended.agentRunId = run.agentRunId ∧ extended.invocationId = run.invocationId
  events : store.events input.protocolRunId <+: later.events input.protocolRunId

theorem extends_refl (store : Store) : Extends input store store where
  conversation conv held := ⟨conv, held, le_rfl⟩
  messages := prefix_rfl
  run run held := ⟨run, held, rfl, rfl, rfl⟩
  events := prefix_rfl

theorem Extends.trans {middle later : Store} (first : Extends input store middle)
    (second : Extends input middle later) : Extends input store later where
  conversation conv held := by
    obtain ⟨between, held, low⟩ := first.conversation conv held
    obtain ⟨extended, held, high⟩ := second.conversation between held
    exact ⟨extended, held, low.trans high⟩
  messages := first.messages.trans second.messages
  run run held := by
    obtain ⟨between, held, conv, agentRun, inv⟩ := first.run run held
    obtain ⟨extended, held, conversation', agentRun', invocation'⟩ := second.run between held
    exact ⟨extended, held, conversation'.trans conv, agentRun'.trans agentRun, invocation'.trans inv⟩
  events := first.events.trans second.events

theorem Deed.extends (deed : Deed) (store : Store) : Extends input store (deed.doneTo naming jsonb input store) := by
  cases deed with
  | converse =>
    unfold doneTo
    dsimp only
    split
    · exact extends_refl store
    next absent =>
    unfold Store.createConversation
    split
    · exact extends_refl store
    refine { extends_refl store with conversation := ?_ }
    intro conv held
    rw [held] at absent
    exact absurd rfl absent
  | tell msg =>
    unfold doneTo
    dsimp only
    split
    · exact extends_refl store
    cases res : (store.appendMessage jsonb input.conversationId input.principalScope
        (store.revision input) msg).1 with
    | error =>
      rw [appendMessage_refused res]
      exact extends_refl store
    | ok appended =>
      obtain ⟨held, counted, -⟩ := conversation_appended res
      obtain ⟨_, -, -, -, -, left⟩ := appendMessage_ok res
      constructor
      · intro conv there
        refine ⟨appended.1, held, ?_⟩
        rw [counted, revision_of there]
        exact le_succ _
      · rw [left]
        exact prefix_append _ _
      · rw [left]
        exact (extends_refl store).run
      · rw [left]
  | start =>
    unfold doneTo
    dsimp only
    split
    · exact extends_refl store
    next absent =>
    unfold startRun
    split
    · refine { extends_refl store with run := ?_ }
      intro run held
      rw [held] at absent
      exact absurd rfl absent
    · exact extends_refl store
  | record event =>
    unfold doneTo appendRunEvent
    dsimp only
    split
    · exact extends_refl store
    split
    · exact extends_refl store
    refine { extends_refl store with events := ?_ }
    dsimp only
    rw [update_self]
    exact prefix_append _ _
  | close status updatedAt terminalReason =>
    unfold doneTo
    dsimp only
    split
    · exact extends_refl store
    unfold Store.transitionRun
    split
    · exact extends_refl store
    split
    · exact extends_refl store
    next run held =>
    refine { extends_refl store with run := ?_ }
    intro other there
    obtain ⟨held, -⟩ := filter_eq_some_iff.mp held
    obtain rfl := some.inj (there.symm.trans held)
    refine ⟨{ other with status, updatedAt, terminalReason := whenTruthy terminalReason }, ?_, rfl, rfl,
      rfl⟩
    obtain ⟨-, own⟩ := filter_eq_some_iff.mp held
    unfold protocolRun Store.run
    dsimp only
    rw [update_self]
    rw [filter_eq_some_iff]
    exact ⟨rfl, own⟩

/-- The stores that an undisturbed execution goes through. -/
def pathOf (naming : Naming) (jsonb : Jsonb) (input : PersistenceInput) (deeds : List Deed)
    (start : Store) (place : Nat) : Store :=
  (deeds.take place).foldl (Deed.doneTo naming jsonb input) start

/-- The deeds can be done one after the other along the stores. -/
structure Follows (naming : Naming) (jsonb : Jsonb) (input : PersistenceInput) (deeds : List Deed)
    (path : Nat → Store) : Prop where
  able : ∀ {place deed}, deeds[place]? = some deed → Able naming jsonb input (path place) deed
  step : ∀ {place deed}, deeds[place]? = some deed → path (place + 1) = deed.doneTo naming jsonb input (path place)
  done : ∀ {place}, deeds.length ≤ place → path place = path deeds.length

theorem Follows.extends (follows : Follows naming jsonb input deeds path) (before : earlier ≤ later)
    : Extends input (path earlier) (path later) := by
  induction later, before using le_induction with
  | base => exact extends_refl _
  | succ later before ih =>
    refine ih.trans ?_
    cases there : deeds[later]? with
    | none =>
      have done := getElem?_eq_none_iff.mp there
      rw [follows.done done, follows.done (le_succ_of_le done)]
      exact extends_refl _
    | some deed =>
      rw [follows.step there]
      exact deed.extends _

theorem does_path (does : Does naming jsonb input store deeds last) :
    last = pathOf naming jsonb input deeds store deeds.length ∧
      Follows naming jsonb input deeds (pathOf naming jsonb input deeds store) := by
  have each : last = pathOf naming jsonb input deeds store deeds.length ∧ ∀ place deed, deeds[place]? = some deed →
      Able naming jsonb input (pathOf naming jsonb input deeds store place) deed := by
    induction deeds generalizing store with
    | nil => exact ⟨does, fun _ _ there => by simp at there⟩
    | cons first rest ih =>
      obtain ⟨able, later⟩ := does
      obtain ⟨ends, each⟩ := ih later
      refine ⟨ends, fun place deed there => ?_⟩
      cases place with
      | zero =>
        cases there
        exact able
      | succ place => exact each place deed there
  refine ⟨each.1, fun there => each.2 _ _ there, fun there => ?_, fun done => ?_⟩ <;> unfold pathOf
  · rw [take_add_one, there, foldl_append]
    rfl
  · rw [take_of_length_le done, take_length]

theorem Extends.revision (extends_ : Extends input store later) : store.revision input ≤ later.revision input := by
  cases held : store.conversation input with
  | none => simp [Store.revision, held]
  | some conv =>
    obtain ⟨_, held', low⟩ := extends_.conversation conv held
    rw [revision_of held, revision_of held']
    exact low

end

section
/-- What an execution asks is not disturbed: the frontier is read before anything is recorded, or
nothing is to be recorded, and the run that is closed has not been closed since. -/
def Undisturbed (events : List Json) (store : Store) : StoreCall → Prop
  | .getRunEventFrontier runId _ => store.events runId = [] ∨ events = []
  | .transitionRun runId principalScope status _ _ _ => (store.run runId principalScope).any (·.status = status)
  | _ => True

variable {naming : Naming} {jsonb : Jsonb} {input : PersistenceInput} {path : Nat → Store}
  {deeds : List Deed} {events : List Json}

/-- A program that carries the store forward on a path. -/
abbrev Carries {α : Type} (jsonb : Jsonb) (path : Nat → Store) (events : List Json) (post : α → Nat → Prop) (place : Nat)
    (program : StoreProgram α) : Prop :=
  Treads (postgresStore jsonb) path (Undisturbed events) post place program

theorem carries_read {α : Type} {post : α → Nat → Prop} {place : Nat} {req : StoreCall}
    {next : req.Reply → StoreProgram α} (still : ∀ store, ((postgresStore jsonb).answer req store).2 = store)
    (rest : ∀ later, place ≤ later → Undisturbed events (path later) req → ∃ reached, later ≤ reached ∧ path later =
        path reached ∧ Carries jsonb path events post reached
        (next ((postgresStore jsonb).answer req (path later)).1)) :
    Carries jsonb path events post place (ask req >>= next) := by
  intro later since permitted
  obtain ⟨reached, further, same, carries⟩ := rest later since permitted
  exact ⟨reached, further, (still _).trans same, carries⟩

theorem Extends.message {id : String} (extends_ : Extends input store later)
    (found : store.message jsonb input id = some existing) : later.message jsonb input id = some existing := by
  obtain ⟨conv, -, held, -⟩ := Store.message_some found
  obtain ⟨_, held', -⟩ := extends_.conversation conv held
  unfold Store.conversation at held held'
  unfold Store.message Store.getMessage at found ⊢
  rw [held] at found
  rw [held']
  obtain ⟨row, is, rfl⟩ := map_eq_some_iff.mp found
  exact map_eq_some_iff.mpr ⟨row, extends_.messages.find?_eq_some is, rfl⟩

def Faithful (naming : Naming) (jsonb : Jsonb) (value : Json) : Prop :=
  naming.canonicalJson (jsonb value) = naming.canonicalJson value

/-- A message that has been told, and what its revision says. -/
structure Told (naming : Naming) (jsonb : Jsonb) (input : PersistenceInput) (path : Nat → Store) (turn : Nat) (message : MessageInput) (existing : MessageRecord) : Prop where
  same : assertSameMessage naming existing message = .ok ()
  found : (path (turn + 1)).message jsonb input message.id = some existing
  reckons : (path (turn + 1)).revision input = (path turn).revision input ∨
    existing.revision = (path (turn + 1)).revision input

/-- An admitted invocation is named, and so is its agent run. -/
def Admitted (input : PersistenceInput) : Prop :=
  blank input.agentRunId = false ∧ blank input.invocationId = false

theorem whenTruthy_named (named : blank text = false) : whenTruthy (some text) = some text := by
  have filled : text ≠ "" := by
    rintro rfl
    simp [blank] at named
  simp [whenTruthy, truthy, filled]

theorem assertSameRun_extends {run extended : RunRecord} (same : assertSameRun input run.read = .ok ())
    (conv : extended.conversationId = run.conversationId) (agentRun : extended.agentRunId = run.agentRunId)
    (inv : extended.invocationId = run.invocationId) : assertSameRun input extended.read = .ok () := by
  unfold assertSameRun RunRecord.read at same ⊢
  rw [conv, agentRun, inv]
  exact same

theorem startRun_ok {store : Store} (ok : (store.startRun new).1 = .ok started) : ∃ row : RunRecord,
      (store.startRun new).2 = { store with runs := update store.runs new.id (some row) } ∧
      row.principalScope = new.principalScope ∧ row.conversationId = new.conversationId ∧
      row.agentRunId = new.agentRunId ∧ row.invocationId = new.invocationId := by
  unfold startRun at ok ⊢
  split at ok
  · exact ⟨_, rfl, rfl, rfl, rfl, rfl⟩
  · cases ok

theorem transitionRun_ok {store : Store} (updatedAt : String) (terminalReason : Option String)
    (held : store.protocolRun input = some old) (running : old.status = .running)
    (allowed : status ∈ allowedTransitions .running) : ∃ row : RunRecord, row.status = status ∧
      store.transitionRun input.protocolRunId input.principalScope .running status updatedAt
        terminalReason = (.ok row.read, { store with
          runs := update store.runs input.protocolRunId (some row) }) ∧
      (store.transitionRun input.protocolRunId input.principalScope .running status updatedAt
        terminalReason).2.protocolRun input = some row := by
  have held' : store.run input.protocolRunId input.principalScope = some old := held
  have own := (filter_eq_some_iff.mp held').2
  have is : store.transitionRun input.protocolRunId input.principalScope .running status updatedAt
      terminalReason = (.ok { old with status, updatedAt, terminalReason : RunRecord }.read, { store with
        runs := update store.runs input.protocolRunId
          (some { old with status, updatedAt, terminalReason }) }) := by
    unfold Store.transitionRun
    rw [if_neg (not_not.mpr allowed), held']
    simp [Option.filter, running]
  refine ⟨_, rfl, is, ?_⟩
  rw [is]
  unfold protocolRun Store.run
  dsimp only
  rw [update_self, filter_eq_some_iff]
  exact ⟨rfl, own⟩

variable (follows : Follows naming jsonb input deeds path)
include follows

theorem path_conversation (there : deeds[0]? = some .converse) (opened : 1 ≤ place) : ∃ conv,
      (path place).conversation input = some conv := by
  have first : ((path 1).conversation input).isSome := by
    rw [follows.step there]
    unfold doneTo
    dsimp only
    split
    · assumption
    next absent =>
    rw [conversation_opened naming ((follows.able there).resolve_left absent).1]
    rfl
  obtain ⟨conv, held⟩ := isSome_iff_exists.mp first
  obtain ⟨extended, held, -⟩ := (follows.extends opened).conversation conv held
  exact ⟨extended, held⟩

theorem carries_ensureConversation (there : deeds[0]? = some .converse) :
    Carries jsonb path events (fun conv place => 1 ≤ place ∧ (path 1).revision input ≤ conv.revision ∧
      conv.revision ≤ (path place).revision input) 0
      (ensureConversation naming input) := by
  have found : ∀ later, 1 ≤ later → ∃ conv, (path later).getConversation input.conversationId
        input.principalScope = some conv ∧
      (path 1).revision input ≤ conv.revision ∧
      conv.revision ≤ (path later).revision input := by
    intro later opened
    obtain ⟨conv, held⟩ := path_conversation follows there opened
    have reads := revision_of held
    exact ⟨conv, held, reads ▸ (follows.extends opened).revision, reads.ge⟩
  refine carries_read (fun _ => rfl) fun later _ _ => ?_
  dsimp only [postgresStore]
  by_cases opened : 1 ≤ later
  · obtain ⟨conv, held, low, high⟩ := found later opened
    rw [held]
    exact ⟨later, le_rfl, rfl, opened, low, high⟩
  obtain rfl : later = 0 := by omega
  have done := follows.step there
  cases held : (path 0).getConversation input.conversationId
      input.principalScope with
  | some =>
    have same : path 0 = path 1 := by
      rw [done]
      unfold doneTo conversation
      rw [held]
      rfl
    obtain ⟨again, held', low, high⟩ := found 1 le_rfl
    rw [← same, held] at held'
    cases held'
    exact ⟨1, zero_le _, same, le_rfl, low, high⟩
  | none =>
    have absent := (follows.able there).resolve_left (by unfold conversation; rw [held]; simp)
    refine ⟨0, le_rfl, rfl, ?_⟩
    have named : requiredString (some (.string input.conversationId)) "conversationId" =
        .ok input.conversationId := by
      unfold requiredString
      dsimp only
      rw [if_neg (by rw [absent.2]; decide)]
    refine treads_check_bind named ?_
    change Carries jsonb path events _ 0 (ask (.createConversation (opening naming input)) >>= _)
    intro later _ _
    by_cases opened : 1 ≤ later
    · obtain ⟨conv, held', -⟩ := found later opened
      have refused : (path later).createConversation (opening naming input) = (.error (.conflict
            s!"Conversation {input.conversationId} already exists."),
          path later) := by
        unfold Store.createConversation
        have taken : (path later).conversations
            (opening naming input).id = some conv := (Store.getConversation_some held').1
        rw [taken]
        rfl
      dsimp only [postgresStore]
      rw [refused]
      refine ⟨later, le_rfl, rfl, ?_⟩
      refine carries_read (fun _ => rfl) fun again since _ => ?_
      dsimp only [postgresStore]
      obtain ⟨_, held', low, high⟩ := found again (opened.trans since)
      rw [held']
      exact ⟨again, le_rfl, rfl, opened.trans since, low, high⟩
    obtain rfl : later = 0 := by omega
    have created := conversation_created naming absent.1
    have left : ((path 0).createConversation (opening naming input)).2 =
        path 1 := by
      rw [done]
      unfold doneTo conversation
      rw [held]
      rfl
    refine ⟨1, zero_le _, left, ?_⟩
    dsimp only [postgresStore]
    have opened := conversation_opened naming absent.1
    rw [left] at opened
    have reads := revision_of opened
    rw [created]
    exact ⟨le_rfl, reads.le, reads.ge⟩

theorem path_bounded (bounded : Bounded (path 0)) (place : Nat) : Bounded (path place) := by
  induction place with
  | zero => exact bounded
  | succ place ih =>
    cases there : deeds[place]? with
    | none =>
      have done := getElem?_eq_none_iff.mp there
      rwa [follows.done (le_succ_of_le done), ← follows.done done]
    | some deed =>
      rw [follows.step there]
      exact ih.doneTo deed

theorem told_of_path (there : deeds[turn]? = some (.tell msg)) (faithful : Faithful naming jsonb msg.content) :
    ∃ existing, Told naming jsonb input path turn msg existing := by
  have done := follows.step there
  have able := follows.able there
  unfold Able at able
  unfold doneTo at done
  dsimp only at able done
  cases found : (path turn).message jsonb input msg.id with
  | some existing =>
    rw [found] at able done
    rw [isSome_some, if_pos rfl] at done
    exact ⟨existing, able, by rw [done]; exact found, .inl (by rw [done])⟩
  | none =>
    rw [found] at able done
    obtain ⟨-, _, ok⟩ := able
    rw [if_neg (by simp)] at done
    obtain ⟨held, counted, -⟩ := conversation_appended ok
    refine ⟨_, ?_, done ▸ message_appended ok, .inr ?_⟩
    · have faithful : naming.canonicalJson (jsonb msg.content) = naming.canonicalJson msg.content := faithful
      simp [assertSameMessage, appendedRow, MessageRecord.read, faithful]
    · rw [done, revision_of held, counted]
      rfl

variable {turn : Nat} {msg : MessageInput} {existing : MessageRecord}

section
variable (told : Told naming jsonb input path turn msg existing)
include told

theorem Told.later {later : Nat} (passed : turn + 1 ≤ later) :
    (path later).getMessage jsonb msg.id input.conversationId input.principalScope = some existing :=
  (follows.extends passed).message told.found

theorem Told.refused {later : Nat} (passed : turn + 1 ≤ later) (rev : Nat) :
    ∃ text, (path later).appendMessage jsonb input.conversationId input.principalScope rev msg =
        (.error (.conflict text), path later) := by
  obtain ⟨-, row, -, among, named, -⟩ := Store.message_some (told.later follows passed)
  exact appendMessage_present ⟨row, among, named⟩

theorem Told.revision {later : Nat} (bounded : Bounded (path 0)) (passed : turn + 1 ≤ later)
    (low : (path turn).revision input ≤ rev) (high : rev ≤ (path later).revision input) :
    (path (turn + 1)).revision input ≤ max rev existing.revision ∧
      max rev existing.revision ≤ (path later).revision input := by
  refine ⟨?_, max_le high ((path_bounded follows bounded later).message_le (told.later follows passed))⟩
  rcases told.reckons with same | is
  · rw [same]
    exact low.trans (le_max_left _ _)
  · rw [← is]
    exact le_max_right _ _

end

theorem append_path (there : deeds[turn]? = some (.tell msg)) (absent : (path turn).message jsonb input msg.id = none) :
    ∃ appended, (path turn).appendMessage jsonb input.conversationId
        input.principalScope ((path turn).revision input) msg = (.ok appended, path (turn + 1)) ∧
      appended.1.revision = (path (turn + 1)).revision input := by
  have done := follows.step there
  have able := follows.able there
  unfold Able at able
  unfold doneTo at done
  dsimp only at able done
  rw [absent] at able done
  obtain ⟨-, appended, ok⟩ := able
  rw [if_neg (by simp)] at done
  refine ⟨appended, Prod.ext ok done.symm, ?_⟩
  obtain ⟨held, -⟩ := conversation_appended ok
  rw [done, revision_of held]

theorem path_told (there : deeds[turn]? = some (.tell msg))
    (present : (path turn).getMessage jsonb msg.id input.conversationId input.principalScope = some found) :
    path turn = path (turn + 1) := by
  rw [follows.step there]
  unfold doneTo message
  dsimp only
  rw [present]
  rfl

theorem carries_ensureInputMessage (there : deeds[turn]? = some (.tell msg))
    (faithful : Faithful naming jsonb msg.content) (bounded : Bounded (path 0)) (since : turn ≤ place)
    (low : (path turn).revision input ≤ rev) (high : rev ≤ (path place).revision input) :
    Carries jsonb path events (fun reached place => turn + 1 ≤ place ∧ (path (turn + 1)).revision input ≤ reached ∧
      reached ≤ (path place).revision input) place
      (ensureInputMessage naming input msg rev) := by
  obtain ⟨existing, told⟩ := told_of_path follows there faithful
  have finds : ∀ later, turn + 1 ≤ later → place ≤ later →
      Carries jsonb path events (fun reached place => turn + 1 ≤ place ∧ (path (turn + 1)).revision input ≤ reached ∧
        reached ≤ (path place).revision input) later
        (Program.check (assertSameMessage naming existing msg) >>= fun _ =>
          pure (max rev existing.revision)) := by
    intro later passed after
    refine treads_check_bind told.same ?_
    exact ⟨passed, told.revision follows bounded passed low (high.trans (follows.extends after).revision)⟩
  refine carries_read (fun _ => rfl) fun later after _ => ?_
  dsimp only [postgresStore]
  by_cases passed : turn + 1 ≤ later
  · rw [told.later follows passed]
    exact ⟨later, le_rfl, rfl, finds later passed after⟩
  obtain rfl : later = turn := by omega
  obtain rfl : place = later := by omega
  cases absent : (path place).getMessage jsonb msg.id
      input.conversationId input.principalScope with
  | some other =>
    have same := path_told follows there absent
    have found := told.later follows le_rfl
    rw [← same, absent] at found
    cases found
    exact ⟨place + 1, le_succ _, same, finds _ le_rfl (le_succ _)⟩
  | none =>
    refine ⟨place, le_rfl, rfl, ?_⟩
    obtain rfl : rev = (path place).revision input := by omega
    intro later after _
    dsimp only [postgresStore]
    by_cases passed : place + 1 ≤ later
    · obtain ⟨_, refused⟩ := told.refused follows passed ((path place).revision input)
      rw [refused]
      refine ⟨later, le_rfl, rfl, ?_⟩
      refine carries_read (fun _ => rfl) fun again since _ => ?_
      dsimp only [postgresStore]
      rw [told.later follows (passed.trans since)]
      exact ⟨again, le_rfl, rfl, finds again (passed.trans since) (after.trans since)⟩
    · obtain rfl : later = place := by omega
      obtain ⟨_, appends, counts⟩ := append_path follows there absent
      rw [appends]
      exact ⟨later + 1, le_succ _, rfl, le_rfl, counts.ge, counts.le⟩

theorem carries_ensureInputMessages (bounded : Bounded (path 0))
    (there : ∀ index msg, msgs[index]? = some msg → deeds[turn + index]? = some (.tell msg))
    (faithful : ∀ msg ∈ msgs, Faithful naming jsonb msg.content) (since : turn ≤ place)
    (low : (path turn).revision input ≤ rev) (high : rev ≤ (path place).revision input) :
    Carries jsonb path events (fun _ place => turn + msgs.length ≤ place) place
      (ensureInputMessages naming input msgs rev) := by
  induction msgs generalizing turn place rev with
  | nil => exact since
  | cons msg rest ih =>
    have here := there 0 msg rfl
    refine treads_bind _ (carries_ensureInputMessage follows here
      (faithful msg mem_cons_self) bounded since low high) ?_
    rintro _ _ ⟨passed, low, high⟩
    have later : ∀ index msg, rest[index]? = some msg → deeds[turn + 1 + index]? = some (.tell msg) := by
      intro index msg among
      rw [Nat.add_right_comm]
      exact there (index + 1) msg among
    have carries := ih later (fun msg among => faithful msg (mem_cons_of_mem _ among)) passed low high
    rwa [Nat.add_right_comm] at carries

theorem carries_ensureMessage (there : deeds[turn]? = some (.tell msg))
    (opened : ∀ later, turn ≤ later → ∃ conv, (path later).conversation input = some conv)
    (faithful : Faithful naming jsonb msg.content) (since : turn ≤ place) :
    Carries jsonb path events (fun _ place => turn + 1 ≤ place) place
      (ensureMessage naming input msg) := by
  obtain ⟨existing, told⟩ := told_of_path follows there faithful
  have finds : ∀ later, turn + 1 ≤ later → Carries jsonb path events (fun _ place => turn + 1 ≤ place) later
        (Program.check (assertSameMessage naming existing msg)) :=
    fun later passed => treads_check told.same passed
  refine carries_read (fun _ => rfl) fun later after _ => ?_
  dsimp only [postgresStore]
  by_cases passed : turn + 1 ≤ later
  · rw [told.later follows passed]
    exact ⟨later, le_rfl, rfl, finds later passed⟩
  obtain rfl : later = turn := by omega
  cases absent : (path later).getMessage jsonb msg.id
      input.conversationId input.principalScope with
  | some other =>
    have same := path_told follows there absent
    have found := told.later follows le_rfl
    rw [← same, absent] at found
    cases found
    exact ⟨later + 1, le_succ _, same, finds _ le_rfl⟩
  | none =>
    refine ⟨later, le_rfl, rfl, ?_⟩
    refine carries_read (fun _ => rfl) fun again since' _ => ?_
    dsimp only [postgresStore]
    obtain ⟨conv, held⟩ := opened again since'
    have held' : (path again).getConversation input.conversationId input.principalScope = some conv := held
    rw [held']
    refine ⟨again, le_rfl, rfl, ?_⟩
    intro finally_ after' _
    dsimp only [postgresStore]
    by_cases passed' : later + 1 ≤ finally_
    · obtain ⟨_, refused⟩ := told.refused follows passed' conv.revision
      rw [refused]
      refine ⟨finally_, le_rfl, rfl, ?_⟩
      refine carries_read (fun _ => rfl) fun last since'' _ => ?_
      dsimp only [postgresStore]
      rw [told.later follows (passed'.trans since'')]
      exact ⟨last, le_rfl, rfl, finds last (passed'.trans since'')⟩
    · obtain rfl : again = later := by omega
      obtain rfl : finally_ = again := by omega
      obtain ⟨_, appends, -⟩ := append_path follows there absent
      rw [revision_of held] at appends
      rw [appends]
      exact ⟨finally_ + 1, le_succ _, rfl, le_rfl⟩

theorem path_run (admitted : Admitted input) (there : deeds[turn]? = some .start) (passed : turn + 1 ≤ later)
    : ∃ run, (path later).protocolRun input = some run ∧
      assertSameRun input run.read = .ok () := by
  have first : ∃ run, (path (turn + 1)).protocolRun input = some run ∧
      assertSameRun input run.read = .ok () := by
    rw [follows.step there]
    have able := follows.able there
    unfold Able at able
    unfold doneTo
    dsimp only at able ⊢
    cases found : (path turn).protocolRun input with
    | some run =>
      rw [found] at able
      rw [isSome_some, if_pos rfl]
      exact ⟨run, found, able⟩
    | none =>
      rw [found] at able
      obtain ⟨_, ok⟩ := able
      obtain ⟨row, left, admittedTo, conv, agentRun, inv⟩ := startRun_ok ok
      rw [if_neg (by simp), left]
      refine ⟨row, ?_, ?_⟩
      · unfold protocolRun Store.run
        have here : update (path turn).runs
            (starting input).id (some row) input.protocolRunId = some row := update_self ..
        dsimp only
        rw [here, filter_eq_some_iff]
        exact ⟨rfl, decide_eq_true admittedTo⟩
      · unfold assertSameRun RunRecord.read
        rw [conv, agentRun, inv]
        simp [starting, whenTruthy_named admitted.1, whenTruthy_named admitted.2]
  obtain ⟨run, held, same⟩ := first
  obtain ⟨extended, held', conv, agentRun, inv⟩ := (follows.extends passed).run run held
  exact ⟨extended, held', assertSameRun_extends same conv agentRun inv⟩

theorem carries_ensureRun (admitted : Admitted input) (there : deeds[turn]? = some .start) (since : turn ≤ place) :
    Carries jsonb path events (fun _ place => turn + 1 ≤ place) place (ensureRun input) := by
  have stands : ∀ later, turn + 1 ≤ later → ∃ run, (path later).run input.protocolRunId input.principalScope =
        some run ∧ assertSameRun input run.read = .ok () :=
    fun later passed => path_run follows admitted there passed
  have finds : ∀ (run : RunRecord) later, turn + 1 ≤ later → assertSameRun input run = .ok () →
      Carries jsonb path events (fun _ place => turn + 1 ≤ place) later
        (Program.check (assertSameRun input run) >>= fun _ => pure run) :=
    fun run later passed same => treads_check_bind same passed
  have done := follows.step there
  refine carries_read (fun _ => rfl) fun later after _ => ?_
  dsimp only [postgresStore]
  by_cases passed : turn + 1 ≤ later
  · obtain ⟨run, held, same⟩ := stands later passed
    rw [held]
    exact ⟨later, le_rfl, rfl, finds _ later passed same⟩
  obtain rfl : later = turn := by omega
  have able := follows.able there
  unfold Able at able
  unfold doneTo at done
  dsimp only at able done
  cases found : (path later).run input.protocolRunId
      input.principalScope with
  | some run =>
    have found' : (path later).protocolRun input = some run := found
    rw [found'] at able done
    rw [isSome_some, if_pos rfl] at done
    exact ⟨later + 1, le_succ _, done.symm, finds _ _ le_rfl able⟩
  | none =>
    have found' : (path later).protocolRun input = none := found
    rw [found'] at able done
    rw [if_neg (by simp)] at done
    refine ⟨later, le_rfl, rfl, ?_⟩
    change Carries jsonb path events _ later (ask (.startRun (starting input)) >>= _)
    intro again after' _
    dsimp only [postgresStore]
    by_cases passed' : later + 1 ≤ again
    · obtain ⟨run, held, -⟩ := stands again passed'
      have refused : ∃ text, (path again).startRun (starting input) =
          (.error (.conflict text), path again) := by
        have taken : (path again).runs (starting input).id =
            some run := (filter_eq_some_iff.mp held).1
        unfold startRun
        rw [taken]
        cases (path again).getConversation
          (starting input).conversationId (starting input).principalScope <;> exact ⟨_, rfl⟩
      obtain ⟨_, refused⟩ := refused
      rw [refused]
      refine ⟨again, le_rfl, rfl, ?_⟩
      refine carries_read (fun _ => rfl) fun last since' _ => ?_
      dsimp only [postgresStore]
      obtain ⟨_, held', same⟩ := stands last (passed'.trans since')
      rw [held']
      exact ⟨last, le_rfl, rfl, finds _ last (passed'.trans since') same⟩
    · obtain rfl : again = later := by omega
      obtain ⟨_, ok⟩ := able
      refine ⟨again + 1, le_succ _, done.symm, ?_⟩
      rw [ok]
      exact le_rfl

theorem path_recorded (there : deeds[turn]? = some (.record event)) :
    (path turn).appendRunEvent input.protocolRunId input.principalScope ((path turn).recorded input) (recordOf event) =
      (.ok ((path turn).recorded input + 1), path (turn + 1)) ∧
    (path (turn + 1)).events input.protocolRunId =
      (path turn).events input.protocolRunId ++ [recordOf event] := by
  have present : ((path turn).run input.protocolRunId
      input.principalScope).isNone ≠ true := by
    obtain ⟨run, held⟩ := isSome_iff_exists.mp (follows.able there).1
    have held : (path turn).run input.protocolRunId input.principalScope = some run := held
    rw [held]
    simp
  have ok : (path turn).appendRunEvent input.protocolRunId input.principalScope ((path turn).recorded input)
      (recordOf event) = (.ok ((path turn).recorded input + 1),
        { path turn with
          events := update (path turn).events input.protocolRunId ((path turn).events
              input.protocolRunId ++ [recordOf event]) }) := by
    unfold appendRunEvent
    rw [if_neg present]
    simp [recorded]
  have done : path (turn + 1) = _ :=
    (follows.step there).trans (congrArg Prod.snd ok)
  refine ⟨ok.trans (Prod.ext rfl done.symm), ?_⟩
  rw [done]
  exact update_self ..

theorem carries_append (there : deeds[turn]? = some (.record event)) (faithful : Faithful naming jsonb event)
    (since : turn ≤ place) : Carries jsonb path events
      (fun reached place => turn + 1 ≤ place ∧ reached = (path (turn + 1)).recorded input) place
      (append naming input event ((path turn).recorded input)) := by
  obtain ⟨appends, left⟩ := path_recorded follows there
  have counts : (path (turn + 1)).recorded input =
      (path turn).recorded input + 1 := by
    unfold recorded
    rw [left, length_append, length_singleton]
  have stands : ∀ later, turn + 1 ≤ later → ((path later).run input.protocolRunId input.principalScope).isNone ≠ true ∧
      (path turn).recorded input < (path later).recorded input ∧
      ((path later).events input.protocolRunId)[(path turn).recorded input]? = some (recordOf event) := by
    intro later passed
    have kept : Extends input (path (turn + 1)) (path later) := follows.extends passed
    have kept' : Extends input (path turn) (path later) := follows.extends (le_of_succ_le passed)
    refine ⟨?_, ?_, ?_⟩
    · obtain ⟨run, held⟩ := isSome_iff_exists.mp (follows.able there).1
      obtain ⟨extended, held, -⟩ := kept'.run run held
      have held : (path later).run input.protocolRunId input.principalScope = some extended := held
      rw [held]
      simp
    · have := kept.events.length_le
      unfold recorded at counts ⊢
      omega
    · obtain ⟨_, is⟩ := kept.events
      rw [← is, left, List.append_assoc, recorded, List.getElem?_append_right le_rfl, Nat.sub_self]
      rfl
  refine treads_check_bind (follows.able there).2 ?_
  intro later after _
  dsimp only [postgresStore]
  by_cases passed : turn + 1 ≤ later
  · obtain ⟨present, ahead, -⟩ := stands later passed
    have refused : ∃ text, (path later).appendRunEvent input.protocolRunId input.principalScope
        ((path turn).recorded input) ⟨(recordOf event).type, event⟩ =
        (.error (.conflict text), path later) := by
      have counted : ((path later).events input.protocolRunId).length ≠ (path turn).recorded input := ahead.ne'
      unfold appendRunEvent
      rw [if_neg present, if_pos counted]
      exact ⟨_, rfl⟩
    obtain ⟨_, refused⟩ := refused
    rw [refused]
    refine ⟨later, le_rfl, rfl, ?_⟩
    refine carries_read (fun _ => rfl) fun again since' _ => ?_
    obtain ⟨present, -, there⟩ := stands again (passed.trans since')
    have found : (path again).getRunEvent jsonb input.protocolRunId
        input.principalScope ((path turn).recorded input + 1) =
        some ((recordOf event).read jsonb) := by
      unfold Store.getRunEvent
      rw [if_neg present]
      dsimp only
      rw [there]
      rfl
    dsimp only [postgresStore]
    rw [found]
    refine ⟨again, le_rfl, rfl, ?_⟩
    have faithful : naming.canonicalJson (jsonb event) = naming.canonicalJson event := faithful
    have same : ¬ ((decide (((recordOf event).read jsonb).type ≠ (recordOf event).type) ||
        decide (naming.canonicalJson ((recordOf event).read jsonb).payload ≠
          naming.canonicalJson event)) = true) := by
      simp [EventRecord.read, recordOf, faithful]
    dsimp only
    rw [if_neg same]
    exact ⟨passed.trans since', counts.symm⟩
  · obtain rfl : later = turn := by omega
    have appends : (path later).appendRunEvent input.protocolRunId input.principalScope ((path later).recorded input)
        ⟨(recordOf event).type, event⟩ = _ := appends
    rw [appends]
    exact ⟨later + 1, le_succ _, rfl, le_rfl, counts.symm⟩

theorem carries_appendAll
    (there : ∀ index event, emitted[index]? = some event → deeds[turn + index]? = some (.record event))
    (faithful : ∀ event ∈ emitted, Faithful naming jsonb event)
    (counts : emitted = [] ∨ edge = (path turn).recorded input) (since : turn ≤ place) :
    Carries jsonb path events (fun _ place => turn + emitted.length ≤ place) place
      (appendAll naming input emitted edge) := by
  induction emitted generalizing turn place edge with
  | nil => exact since
  | cons event rest ih =>
    obtain rfl := counts.resolve_left (by simp)
    have here := there 0 event rfl
    refine treads_bind _ (carries_append follows here (faithful event mem_cons_self) since) ?_
    rintro _ _ ⟨passed, counts⟩
    have later : ∀ index event, rest[index]? = some event → deeds[turn + 1 + index]? = some (.record event) := by
      intro index event among
      rw [Nat.add_right_comm]
      exact there (index + 1) event among
    have carries := ih later (fun event among => faithful event (mem_cons_of_mem _ among)) (.inr counts) passed
    rwa [Nat.add_right_comm] at carries

theorem carries_ensureRunStatus (there : deeds[turn]? = some (.close status updatedAt terminalReason))
    (last : deeds.length = turn + 1) (since : turn ≤ place) :
    Carries jsonb path events (fun _ place => deeds.length ≤ place) place
      (ensureRunStatus input status updatedAt terminalReason) := by
  have done := follows.step there
  obtain ⟨run, held, standing⟩ := follows.able there
  unfold doneTo at done
  dsimp only at done
  have closed : ∃ row, (path (turn + 1)).protocolRun input =
      some row ∧ row.status = status := by
    rw [done, held]
    by_cases same : run.status = status
    · rw [any_some, if_pos (decide_eq_true same)]
      exact ⟨run, held, same⟩
    obtain ⟨running, allowed⟩ := standing.resolve_left same
    obtain ⟨row, is, -, left⟩ := transitionRun_ok updatedAt (whenTruthy terminalReason) held running allowed
    rw [any_some, if_neg (by simpa using same)]
    exact ⟨row, left, is⟩
  have stands : ∀ later, turn + 1 ≤ later → ∃ row, (path later).run input.protocolRunId input.principalScope =
        some row ∧ row.status = status := by
    intro later passed
    rw [follows.done (last ▸ passed), last]
    exact closed
  refine carries_read (fun _ => rfl) fun later after _ => ?_
  dsimp only [postgresStore]
  by_cases passed : turn + 1 ≤ later
  · obtain ⟨row, held', is⟩ := stands later passed
    rw [held']
    dsimp only [map_some, RunRecord.read]
    rw [if_pos is]
    exact ⟨later, le_rfl, rfl, last ▸ passed⟩
  obtain rfl : later = turn := by omega
  have held' : (path later).run input.protocolRunId input.principalScope = some run := held
  rw [held']
  dsimp only [map_some, RunRecord.read]
  by_cases same : run.status = status
  · rw [if_pos same]
    rw [held, any_some, if_pos (decide_eq_true same)] at done
    exact ⟨later + 1, le_succ _, done.symm, last.le⟩
  obtain ⟨running, allowed⟩ := standing.resolve_left same
  rw [if_neg same, if_neg (not_not.mpr running)]
  rw [held, any_some, if_neg (by simpa using same)] at done
  refine ⟨later, le_rfl, rfl, ?_⟩
  intro again after' undisturbed
  dsimp only [postgresStore]
  by_cases passed' : later + 1 ≤ again
  · obtain ⟨row, held', is⟩ := stands again passed'
    unfold Undisturbed at undisturbed
    dsimp only at undisturbed
    rw [held', any_some, decide_eq_true_eq, is] at undisturbed
    exact absurd (running.trans undisturbed.symm) same
  · obtain rfl : again = later := by omega
    obtain ⟨_, -, is, -⟩ := transitionRun_ok updatedAt (whenTruthy terminalReason) held running allowed
    refine ⟨again + 1, le_succ _, done.symm, ?_⟩
    rw [is]
    exact last.le

end
end Applik8s.Conversations
