import Applik8s.Conversations.Store
import Applik8s.Lib.Record

/-! `createApplicationAIAgentConversationPersistence` of
`packages/conversations/src/agent-persistence.ts`: what one execution of an admitted invocation asks of
the conversation store, from `begin` over its run events to `complete` or `terminate`. -/
namespace Applik8s.Conversations
open Lib

section
/-- `ApplicationAIAgentPersistenceInput`, with the durable scope that its principal and context
resolve to. -/
structure PersistenceInput where
  principalScope : String
  conversationId : String
  protocolRunId : String
  agentRunId : String
  invocationId : String
  messages : List Json
  startedAt : String

/-- How values are told apart and named: `canonicalJson`, the SHA-256 of the texts it is updated with,
and `conversationTitle`. -/
structure Naming where
  canonicalJson : Json → String
  sha256 : List String → String
  conversationTitle : List Json → Option String

/-- `jsonObjectOrUndefined(value)?.[name]`. -/
def member (value : Json) (name : String) : Option Json :=
  match value with
  | .object members => Record.get members name
  | _ => none

/-- `messageRole`. -/
def messageRole : Option Json → Role
  | some (.string "system") => .system
  | some (.string "assistant") => .assistant
  | some (.string "tool") => .tool
  | _ => .user

/-- `record.id`, if it is a text that is not blank. -/
def explicitId (value : Json) : Option String :=
  match member value "id" with
  | some (.string id) => if blank id then none else some id
  | _ => none

variable (naming : Naming) (input : PersistenceInput)

/-- `normalizedInputMessage`. -/
def normalizedInputMessage (index : Nat) (value : Json) : MessageInput where
  id := (explicitId value).getD ("input_" ++ naming.sha256 [input.conversationId, "\x00", toString index, "\x00",
      naming.canonicalJson value])
  role := messageRole (member value "role")
  content := value
  invocationId := some input.invocationId
  createdAt := input.startedAt

def normalizedMessages : List MessageInput :=
  input.messages.mapIdx (normalizedInputMessage naming input)

/-- How an execution ends: with `complete`, or with `terminate`. -/
inductive Ending where
  | complete (messageId : String) (content : Json) (completedAt : String)
  | terminate (status : RunStatus) (reason terminatedAt : String)

def Ending.status : Ending → RunStatus
  | .complete _ _ _ => .completed
  | .terminate status _ _ => status

end

section
abbrev StoreProgram (α : Type) := Program ConversationStore Failure α

def ask (request : StoreCall) : StoreProgram request.Reply := .call request .done

/-- `requiredString`. -/
def requiredString (value : Option Json) (field : String) : Except Failure String :=
  match value with
  | some (.string text) =>
    if blank text then
      .error (.plain s!"Application AI conversation persistence requires {field}.")
    else .ok text
  | _ => .error (.plain s!"Application AI conversation persistence requires {field}.")

variable (naming : Naming) (input : PersistenceInput)

/-- `assertSameMessage`. -/
def assertSameMessage (existing : MessageRecord) (expected : MessageInput) : Except Failure Unit :=
  if existing.id ≠ expected.id || existing.role ≠ expected.role
      || naming.canonicalJson existing.content ≠ naming.canonicalJson expected.content then
    .error (.conflict s!"Message {expected.id} was reused with different durable content.")
  else .ok ()

/-- `assertSameRun`. -/
def assertSameRun (run : RunRecord) : Except Failure Unit :=
  if run.conversationId ≠ input.conversationId || run.agentRunId ≠ some input.agentRunId
      || run.invocationId ≠ some input.invocationId then
    .error (.conflict s!"Run {input.protocolRunId} was reused for another conversation or invocation.")
  else .ok ()

def ensureConversation : StoreProgram ConversationRecord := do
  match ← ask (.getConversation input.conversationId input.principalScope) with
  | some existing => return existing
  | none =>
    let id ← Program.check (requiredString (some (.string input.conversationId)) "conversationId")
    match ← ask (.createConversation
        { id
          principalScope := input.principalScope
          title := whenTruthy (naming.conversationTitle input.messages)
          revision := 0
          createdAt := input.startedAt
          updatedAt := input.startedAt }) with
    | .ok created => return created
    | .error (.plain message) => .throw (.plain message)
    | .error (.conflict _) =>
      match ← ask (.getConversation input.conversationId input.principalScope) with
      | some raced => return raced
      | none => .throw (.conflict (s!"Conversation {input.conversationId} already belongs to " ++
          "another admitted principal scope."))

/-- One round of `ensureInputMessages`, with the revision it reckons with. -/
def ensureInputMessage (message : MessageInput) (revision : Nat) : StoreProgram Nat := do
  let append (revision : Nat) := ask (.appendMessage input.conversationId input.principalScope revision
    message)
  match ← ask (.getMessage message.id input.conversationId input.principalScope) with
  | some existing =>
    Program.check (assertSameMessage naming existing message)
    return max revision existing.revision
  | none =>
    match ← append revision with
    | .ok appended => return appended.1.revision
    | .error (.plain text) => .throw (.plain text)
    | .error (.conflict text) =>
      match ← ask (.getMessage message.id input.conversationId input.principalScope) with
      | some raced =>
        Program.check (assertSameMessage naming raced message)
        return max revision raced.revision
      | none =>
        match ← ask (.getConversation input.conversationId input.principalScope) with
        | none => .throw (.conflict text)
        | some conversation =>
          match ← append conversation.revision with
          | .ok appended => return appended.1.revision
          | .error failure => .throw failure

def ensureInputMessages : List MessageInput → Nat → StoreProgram Unit
  | [], _ => return ()
  | message :: rest, revision => do
    ensureInputMessages rest (← ensureInputMessage naming input message revision)

def ensureRun : StoreProgram RunRecord := do
  match ← ask (.getRun input.protocolRunId input.principalScope) with
  | some existing =>
    Program.check (assertSameRun input existing)
    return existing
  | none =>
    match ← ask (.startRun
        { id := input.protocolRunId
          conversationId := input.conversationId
          principalScope := input.principalScope
          agentRunId := some input.agentRunId
          invocationId := some input.invocationId
          startedAt := input.startedAt }) with
    | .ok started => return started
    | .error (.plain message) => .throw (.plain message)
    | .error (.conflict message) =>
      match ← ask (.getRun input.protocolRunId input.principalScope) with
      | none => .throw (.conflict message)
      | some raced =>
        Program.check (assertSameRun input raced)
        return raced

/-- `begin`: the run is given back with its frontier. -/
def begin : StoreProgram Nat := do
  if blank input.principalScope then
    .throw (.plain "Agent conversation persistence resolved an empty durable scope.")
  else
    let conversation ← ensureConversation naming input
    ensureInputMessages naming input (normalizedMessages naming input) conversation.revision
    let _ ← ensureRun input
    ask (.getRunEventFrontier input.protocolRunId input.principalScope)

/-- `append`, with the frontier before and after it. -/
def append (event : Json) (frontier : Nat) : StoreProgram Nat := do
  let type ← Program.check (requiredString (member event "type") "agent stream event.type")
  match ← ask (.appendRunEvent input.protocolRunId input.principalScope frontier ⟨type, event⟩) with
  | .ok sequence => return sequence
  | .error (.plain message) => .throw (.plain message)
  | .error (.conflict message) =>
    match ← ask (.getRunEvent input.protocolRunId input.principalScope (frontier + 1)) with
    | none => .throw (.conflict message)
    | some existing =>
      if existing.type ≠ type
          || naming.canonicalJson existing.payload ≠ naming.canonicalJson event then
        .throw (.conflict message)
      else return frontier + 1

def appendAll : List Json → Nat → StoreProgram Unit
  | [], _ => return ()
  | event :: rest, sequence => do appendAll rest (← append naming input event sequence)

def ensureMessage (message : MessageInput) : StoreProgram Unit := do
  match ← ask (.getMessage message.id input.conversationId input.principalScope) with
  | some existing => Program.check (assertSameMessage naming existing message)
  | none =>
    match ← ask (.getConversation input.conversationId input.principalScope) with
    | none => .throw (.conflict (s!"Conversation {input.conversationId} disappeared before message " ++
        s!"{message.id} could be committed."))
    | some conversation =>
      match ← ask (.appendMessage input.conversationId input.principalScope conversation.revision
          message) with
      | .ok _ => return ()
      | .error (.plain text) => .throw (.plain text)
      | .error (.conflict text) =>
        match ← ask (.getMessage message.id input.conversationId input.principalScope) with
        | none => .throw (.conflict text)
        | some raced => Program.check (assertSameMessage naming raced message)

def ensureRunStatus (status : RunStatus) (updatedAt : String) (terminalReason : Option String) :
    StoreProgram Unit := do
  match ← ask (.getRun input.protocolRunId input.principalScope) with
  | none => .throw (.conflict
      s!"Run {input.protocolRunId} disappeared before terminal persistence.")
  | some run =>
    if run.status = status then return ()
    else if run.status ≠ .running then
      .throw (.conflict (s!"Run {input.protocolRunId} is already {run.status.text}; it cannot become " ++
        s!"{status.text}."))
    else
      match ← ask (.transitionRun input.protocolRunId input.principalScope .running status updatedAt
          (whenTruthy terminalReason)) with
      | .ok _ => return ()
      | .error failure => .throw failure

/-- The message that `complete` stores. -/
def Ending.message (input : PersistenceInput) : Ending → Option MessageInput
  | .complete messageId content completedAt => some
    { id := messageId, role := .assistant, content, invocationId := some input.invocationId
      createdAt := completedAt }
  | .terminate _ _ _ => none

/-- `complete`, or `terminate`. -/
def finish (ending : Ending) : StoreProgram Unit := do
  match ending with
  | .complete messageId content completedAt =>
    ensureMessage naming input
      { id := messageId, role := .assistant, content, invocationId := some input.invocationId
        createdAt := completedAt }
    ensureRunStatus input .completed completedAt none
  | .terminate status reason terminatedAt => ensureRunStatus input status terminatedAt (some reason)

/-- One execution of an invocation: it is begun, emits its events and ends. -/
def execute (events : List Json) (ending : Ending) : StoreProgram Unit := do
  let frontier ← begin naming input
  appendAll naming input events frontier
  finish naming input ending

end
end Applik8s.Conversations
