import Applik8s.Lib.Turns
import Applik8s.Signals.Records

/-! `createMemoryApplicationSignalStore`. The mutating methods go through one queue
(`mutate`), so they run one after the other in the order they were called; each gives
way where it awaits a callback, and then only reads and acknowledgements of the outbox
can come in between. -/
namespace Applik8s.Signals
open Lib

structure MemoryStore where
  byId : Table StoredInstance
  byOccurrence : String → Option String
  /-- The winning action under `${id}\0${idempotencyKey}`. -/
  resolutionKeys : String → Option String
  outbox : Table OutboxFact
  /-- Every fact ever put into the outbox, acknowledged or not, in order. The store
  itself does not keep it. -/
  emitted : List OutboxFact

def MemoryStore.empty : MemoryStore := ⟨.empty, fun _ => none, fun _ => none, .empty, []⟩

inductive MemoryCall where
  | occurrence (key : String)
  | instanceOf (id : String)
  | instances
  | resolution (key : String)
  | setOccurrence (key id : String)
  | setInstance (signal : StoredInstance)
  | setResolution (key action : String)
  | setFact (fact : OutboxFact)
  /-- The await of a callback. -/
  | pause

def MemoryCall.Reply : MemoryCall → Type
  | .occurrence _ => Option String
  | .instanceOf _ => Option StoredInstance
  | .instances => List StoredInstance
  | .resolution _ => Option String
  | _ => Unit

abbrev MemoryInterface : Interface := ⟨MemoryCall, MemoryCall.Reply⟩
abbrev MemoryProgram := Program MemoryInterface Failure

def MemoryStore.answer : (request : MemoryCall) → MemoryStore → request.Reply × MemoryStore
  | .occurrence key, store => (store.byOccurrence key, store)
  | .instanceOf id, store => (store.byId.find? id, store)
  | .instances, store => (store.byId.rows, store)
  | .resolution key, store => (store.resolutionKeys key, store)
  | .setOccurrence key id, store =>
    ((), { store with byOccurrence := Function.update store.byOccurrence key (some id) })
  | .setInstance signal, store => ((), { store with byId := store.byId.put signal })
  | .setResolution key action, store =>
    ((), { store with resolutionKeys := Function.update store.resolutionKeys key (some action) })
  | .setFact fact, store => ((), { store with outbox := store.outbox.put fact, emitted := store.emitted ++ [fact] })
  | .pause, store => ((), store)

/-- `acknowledgeOutbox`. -/
def MemoryStore.acknowledge (ids : List String) (store : MemoryStore) : MemoryStore :=
  { store with outbox := ids.foldl Table.remove store.outbox }

/-- `pendingOutbox`. -/
def MemoryStore.pendingOutbox (limit : Int) (store : MemoryStore) : Except Failure (List OutboxFact) :=
  if limit < 1 then .error (.error "Signal outbox limit must be a positive safe integer.")
  else .ok (store.outbox.rows.take limit.toNat)

/-- The store's methods take turns; acknowledgements come at any time. -/
def memoryFloor : Floor MemoryInterface MemoryStore (List String) where
  answer := MemoryStore.answer
  yields
    | .pause => true
    | _ => false
  disturb := MemoryStore.acknowledge

namespace Memory
variable (host : Host) (key : String) (request : ResolutionRequest)

def occurrence : MemoryProgram (Option String) := .call (.occurrence key) .done
def instanceOf (id : String) : MemoryProgram (Option StoredInstance) := .call (.instanceOf id) .done
def instances : MemoryProgram (List StoredInstance) := .call .instances .done
def resolution : MemoryProgram (Option String) := .call (.resolution key) .done
def setOccurrence (key id : String) : MemoryProgram Unit := .call (.setOccurrence key id) .done
def setInstance (signal : StoredInstance) : MemoryProgram Unit := .call (.setInstance signal) .done
def setResolution (key action : String) : MemoryProgram Unit := .call (.setResolution key action) .done
def setFact (fact : OutboxFact) : MemoryProgram Unit := .call (.setFact fact) .done

/-- `await callback(...)`, with what the callback came to. -/
def await {α : Type} (outcome : Except Failure α) : MemoryProgram α :=
  .call .pause fun _ => .check outcome

def issue (request : IssueRequest) (authorize : IssueAuthorizer) : MemoryProgram Answer := do
  match whenTruthy (← occurrence request.occurrenceKey) with
  | some previousId =>
    match ← instanceOf previousId with
    | none => .throw (.error s!"Signal occurrence {request.occurrenceKey} is corrupt.")
    | some previous => return .issued previous true
  | none =>
    let id := signalIdOf host request.occurrenceKey
    let authorizedReceipt ← await (authorize request id)
    let signal := issuedInstance request id authorizedReceipt
    setOccurrence request.occurrenceKey id
    setInstance signal
    setFact (issuedFact host signal)
    return .issued signal false

/-- The key of a resolution in `resolutionKeys`. -/
def resolutionKey : String :=
  request.id ++ "\x00" ++ request.idempotencyKey

def resolve (authorize : Option ResolutionAuthorizer)
    (finalize : TerminalFinalizer) : MemoryProgram Answer := do
  let previousResolution ← resolution (resolutionKey request)
  match ← instanceOf request.id with
  | none => .throw (.error s!"Signal {request.id} does not exist.")
  | some current =>
    match whenTruthy previousResolution with
    | some action => return .resolved current (if action = request.action then .idempotent else .terminal)
    | none =>
      if current.terminal.isSome then return .resolved current .terminal
      else if request.action ∉ current.actions then
        .throw (.error s!"Signal {request.id} does not declare action {request.action}.")
      else
        let receipt ← match authorize with
          | some authorize => await (authorize request current)
          | none => pure request.receipt
        match receipt with
        | none => .throw (.error s!"Signal {request.id} resolution requires an authorization receipt.")
        | some receipt =>
          await (finalize current (.resolved request.action request.actor receipt request.decidedAt))
          let next := current.decidedBy request receipt
          setInstance next
          setResolution (resolutionKey request) request.action
          setFact (resolvedFact host current request.action request.decidedAt)
          return .resolved next .none

def expireOne (id expiredAt : String) (finalize : TerminalFinalizer) :
    MemoryProgram Answer := do
  match ← instanceOf id with
  | none => .throw (.error s!"Signal {id} does not exist.")
  | some current =>
    if current.terminal.isSome then return .expired current true
    else
      await (finalize current (.expired expiredAt))
      let next := current.lapsedAt expiredAt
      setInstance next
      setFact (expiredFact host current expiredAt)
      return .expired next false

def sweepsFirst (left right : StoredInstance) : Bool :=
  host.localeLess left.expiresAt right.expiresAt ||
    (!host.localeLess right.expiresAt left.expiresAt && !host.localeLess right.id left.id)

/-- The signals due at `now`, compared as texts. -/
def dueSignals (now : String) (limit : Int) (instances : List StoredInstance) :
    List StoredInstance :=
  ((instances.filter fun signal => signal.terminal.isNone && !stringLess now signal.expiresAt).insertionSort
    (sweepsFirst host · ·)).take limit.toNat

def expireDue (now : String) (limit : Int) (finalize : TerminalFinalizer) :
    MemoryProgram Answer := do
  .check (assertSignalBatchSize limit)
  let due := dueSignals host now limit (← instances)
  Program.forEach due fun signal => do
    let _ ← expireOne host signal.id now finalize
  return .swept (due.map StoredInstance.id)

end Memory

def Operation.inMemory (host : Host) : Operation → MemoryProgram Answer
  | .issue request authorize => Memory.issue host request authorize
  | .resolve request authorize finalize => Memory.resolve host request authorize finalize
  | .expire id expiredAt finalize => Memory.expireOne host id expiredAt finalize
  | .expireDue now limit finalize => Memory.expireDue host now limit finalize

abbrev MemoryDesk := Desk MemoryInterface MemoryStore Failure Answer Operation
abbrev MemoryEvent := DeskEvent Operation (List String)

def MemoryDesk.advance (host : Host) (desk : MemoryDesk) (event : MemoryEvent) : MemoryDesk :=
  Desk.advance memoryFloor (Operation.inMemory host) desk event

/-- `createMemoryApplicationSignalStore()`. -/
def MemoryDesk.fresh : MemoryDesk := { world := .empty }

end Applik8s.Signals
