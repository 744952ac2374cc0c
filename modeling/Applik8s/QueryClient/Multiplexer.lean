import Applik8s.Platform
import Applik8s.Lib.Json
import Applik8s.Lib.Run

/-! `createHttpQueryMultiplexer` of `http-transport.ts`: all subscriptions share one request, which is opened
anew when they change. Every step is what the program does between two awaits; callbacks call back in the
middle of one. -/
namespace Applik8s.QueryClient
open Function (update)

def member (name : String) : Json → Option Json
  | .object members => members.lookup name
  | _ => none

/-- `String` of a value, as far as a name can come of it. -/
def nameText : Json → String
  | .string text => text
  | .array [item] => nameText item
  | _ => ""

def isSafeInteger : Option Json → Option Int
  | some (.number value) => if value.den = 1 ∧ value.num.natAbs ≤ 9007199254740991 then some value.num else none
  | _ => none

def holds : Option Json → Bool
  | none | some .null | some (.boolean false) => false
  | some (.number value) => value ≠ 0
  | some (.string text) => text ≠ ""
  | some _ => true

def isString : Option Json → Bool
  | some (.string _) => true
  | _ => false

def frameErrors : List String :=
  ["forbidden", "subscription_limit", "projection_unavailable", "invalid_request", "not_found", "internal_error"]

def validMultiplexFrame (value : Json) : Bool :=
  member "protocol" value = some (.string "applik8s.query-multiplex/v1alpha1") &&
    isString (member "subscriptionId" value) &&
    (if member "kind" value = some (.string "event") then holds (member "event" value)
    else member "kind" value = some (.string "error") &&
      frameErrors.contains (nameText ((member "error" value).getD .null)) &&
      (member "retryAfterSeconds" value = none ||
        match isSafeInteger (member "retryAfterSeconds" value) with
        | some seconds => 0 < seconds
        | none => false))

def validQueryEvent (event : Json) (query : String) : Bool :=
  member "protocol" event = some (.string "applik8s.query/v1alpha1") &&
    member "query" event = some (.string query) && isString (member "id" event) &&
    (member "kind" event = some (.string "reset") ||
      (member "kind" event = some (.string "invalidate") || member "kind" event = some (.string "keepalive")) &&
        isString (member "cursor" event) &&
        match isSafeInteger (member "sequence" event) with
        | some sequence => 0 ≤ sequence
        | none => false)

/-- The cursor to go on from after an event, unless it is a reset. -/
def cursorOf (event : Json) : Option String :=
  if member "kind" event = some (.string "reset") then none
  else match member "cursor" event with
    | some (.string cursor) => some cursor
    | _ => none

def frameFailure (query : String) (frame : Json) : String :=
  let retry := match isSafeInteger (member "retryAfterSeconds" frame) with
    | some seconds => s!"; retry after {seconds}s"
    | none => ""
  let error := nameText ((member "error" frame).getD .null)
  s!"Subscription for {query} failed: {error}{retry}."

/-- `HttpMultiplexSubscription`, which `subscriptions` holds under its id. -/
structure Subscription where
  query : String
  input : Json
  cursor : String
  deriving DecidableEq

def idText (id : Nat) : String := s!"subscription-{id}"

inductive Phase where
  | headers
  | requested
  | streaming
  deriving DecidableEq

/-- A call of `run` that has not completed. -/
structure Request where
  included : List Nat
  phase : Phase
  aborted : Bool
  deriving DecidableEq

/-- Where `reconcile` is, from its start until its `finally`. -/
inductive Reconciling where
  | waiting (previous revision : Nat)
  | finished
  deriving DecidableEq

/-- What a subscription has been told, when it came, and when its signal was aborted. -/
inductive Notice where
  | subscribed (id : Nat) (cursor : String)
  | event (id : Nat) (event : Json)
  | error (id : Nat) (message : String)
  | aborted (id : Nat)

structure Sent where
  id : Nat
  subscription : Subscription
  deriving DecidableEq

/-- The state of a multiplexer. Requests are numbered as their controllers are made; `objects` are the
subscriptions that were ever made, `live` those of the map in its order. -/
structure Multiplexer where
  live : List Nat := []
  objects : Nat → Subscription := fun _ => ⟨"", .null, ""⟩
  lastId : Nat := 0
  active : Option Nat := none
  requests : Nat → Option Request := fun _ => none
  made : Nat := 0
  restartQueued : Bool := false
  restartRevision : Nat := 0
  reconciledRevision : Nat := 0
  reconciling : Option Reconciling := none
  history : List Notice := []

section
inductive Call where
  | subscribe (query : String) (input : Json) (cursor : String) (aborted : Bool)
  | abort (id : Nat)

variable (multiplexer : Multiplexer)

namespace Multiplexer

def scheduleRestart : Multiplexer :=
  { multiplexer with restartRevision := multiplexer.restartRevision + 1, restartQueued := true }

def subscribe (query : String) (input : Json) (cursor : String) (aborted : Bool) : Multiplexer :=
  if aborted then multiplexer
  else
    let id := multiplexer.lastId + 1
    scheduleRestart { multiplexer with
      lastId := id
      objects := update multiplexer.objects id ⟨query, input, cursor⟩
      live := multiplexer.live ++ [id]
      history := multiplexer.history ++ [.subscribed id cursor] }

def abort (id : Nat) : Multiplexer :=
  if id ∈ multiplexer.live then
    scheduleRestart { multiplexer with
      live := multiplexer.live.erase id
      history := multiplexer.history ++ [.aborted id] }
  else multiplexer

def perform (multiplexer : Multiplexer) : Call → Multiplexer
  | .subscribe query input cursor aborted => multiplexer.subscribe query input cursor aborted
  | .abort id => multiplexer.abort id

def performAll (calls : List Call) : Multiplexer := calls.foldl perform multiplexer

/-- `fail`, and what the callback `onError` calls. -/
def fail (id : Nat) (message : String) (reaction : List Call) : Multiplexer :=
  if id ∈ multiplexer.live then
    performAll { multiplexer with
      live := multiplexer.live.erase id
      history := multiplexer.history ++ [.error id message] } reaction
  else multiplexer

def failIncluded (message : String) (reactions : Nat → List Call) (multiplexer : Multiplexer)
    (included : List Nat) : Multiplexer :=
  included.foldl (fun multiplexer id => multiplexer.fail id message (reactions id)) multiplexer

end Multiplexer
end

section
variable (multiplexer : Multiplexer)

/-- `reconcile` comes to its end when nothing has changed since, else it aborts what it has opened. -/
def Multiplexer.goOn : Multiplexer :=
  if multiplexer.reconciledRevision = multiplexer.restartRevision then
    { multiplexer with reconciling := some .finished }
  else
    match multiplexer.active with
    | some previous => { multiplexer with
        requests := update multiplexer.requests previous
          ((multiplexer.requests previous).map fun request => { request with aborted := true })
        reconciling := some (.waiting previous multiplexer.restartRevision) }
    | none => multiplexer

/-- `reconcile` opens a request of all subscriptions, if there are any; its headers may call back. -/
def Multiplexer.launch (reaction : List Call) : Multiplexer :=
  if multiplexer.live = [] then
    { multiplexer with
      reconciledRevision := multiplexer.restartRevision, active := none, reconciling := some .finished }
  else
    let controller := multiplexer.made
    let opened := Multiplexer.performAll { multiplexer with
      reconciledRevision := multiplexer.restartRevision
      requests := update multiplexer.requests controller (some ⟨multiplexer.live, .headers, false⟩)
      made := controller + 1 } reaction
    Multiplexer.goOn { opened with active := some controller }

/-- One turn of the loop of `reconcile`, up to its first await or its end. -/
def Multiplexer.reconcile (reaction : List Call) : Multiplexer :=
  if multiplexer.reconciledRevision = multiplexer.restartRevision then
    { multiplexer with reconciling := some .finished }
  else
    match multiplexer.active with
    | some _ => multiplexer.goOn
    | none => multiplexer.launch reaction

/-- `await previous.completed` returns. -/
def Multiplexer.resume (reaction : List Call) : Multiplexer :=
  match multiplexer.reconciling with
  | some (.waiting previous revision) =>
    if (multiplexer.requests previous).isSome then multiplexer
    else if revision = multiplexer.restartRevision then multiplexer.launch reaction
    else multiplexer.reconcile reaction
  | _ => multiplexer

def Multiplexer.microtask (reaction : List Call) : Multiplexer :=
  if multiplexer.restartQueued then
    let taken := { multiplexer with restartQueued := false }
    match multiplexer.reconciling with
    | none => taken.reconcile reaction
    | some _ => taken
  else multiplexer

/-- The `finally` of `reconcile`. -/
def Multiplexer.settle : Multiplexer :=
  match multiplexer.reconciling with
  | some .finished => { multiplexer with
      reconciling := none
      restartQueued := multiplexer.restartQueued || multiplexer.restartRevision ≠ multiplexer.reconciledRevision }
  | _ => multiplexer

end

section
variable (multiplexer : Multiplexer) (controller : Nat) (request : Request)

namespace Multiplexer

def setPhase (phase : Phase) : Multiplexer :=
  { multiplexer with
    requests := update multiplexer.requests controller (some { request with phase }) }

/-- The body of a request: its subscriptions as they are when its headers are known. -/
def body : List Sent :=
  request.included.map fun id => ⟨id, multiplexer.objects id⟩

/-- A request goes on: it is sent, or its response has come. -/
def proceed (before after : Phase) : Multiplexer :=
  match multiplexer.requests controller with
  | some request => if request.phase = before then multiplexer.setPhase controller request after else multiplexer
  | none => multiplexer

def deliver (id : Nat) (event : Json) (reaction : List Call) : Multiplexer :=
  let subscription := multiplexer.objects id
  let cursor := (cursorOf event).getD subscription.cursor
  performAll { multiplexer with
    objects := update multiplexer.objects id { subscription with cursor }
    history := multiplexer.history ++ [.event id event] } reaction

/-- The subscription that a frame is for, if it is live and of this request. -/
def addressee (frame : Json) : Option Nat :=
  (multiplexer.live.find? fun id => member "subscriptionId" frame = some (.string (idText id))).filter
    (· ∈ request.included)

def take (frame : Json) (reactions : Nat → List Call) : Multiplexer :=
  match multiplexer.addressee request frame with
  | none => multiplexer
  | some id =>
    let query := (multiplexer.objects id).query
    if member "kind" frame = some (.string "error") then
      multiplexer.fail id (frameFailure query frame) (reactions id)
    else
      let event := (member "event" frame).getD .null
      if !validQueryEvent event query then
        multiplexer.fail id s!"Subscription event for {query} violates the Applik8s query protocol." (reactions id)
      else multiplexer.deliver id event (reactions id)

/-- The end of `run`, with the error that its included subscriptions get unless it was aborted. -/
def finish (message : String) (reactions : Nat → List Call) : Multiplexer :=
  match multiplexer.requests controller with
  | none => multiplexer
  | some request =>
    let told :=
      if !request.aborted && multiplexer.active = some controller then
        multiplexer.failIncluded message reactions request.included
      else multiplexer
    { told with
      requests := update told.requests controller none
      active := if told.active = some controller then none else told.active }

/-- What `sseData` yields and `JSON.parse` reads: a frame, or a text that is none and ends the request. -/
def receive (data : Except String Json) (reactions : Nat → List Call) :
    Multiplexer :=
  match multiplexer.requests controller with
  | some request =>
    if request.phase = .streaming then
      match data with
      | .error message => multiplexer.finish controller message reactions
      | .ok frame =>
        if validMultiplexFrame frame then multiplexer.take request frame reactions
        else multiplexer.finish controller
          "Multiplexed query subscription frame violates the Applik8s protocol." reactions
    else multiplexer
  | none => multiplexer

end Multiplexer
end

/-- The steps; what callbacks call in return is given with them. -/
inductive Event where
  | call (call : Call)
  | microtask (reaction : List Call)
  | resume (reaction : List Call)
  | settle
  | send (controller : Nat)
  | respond (controller : Nat)
  | receive (controller : Nat) (data : Except String Json) (reactions : Nat → List Call)
  | finish (controller : Nat) (message : String) (reactions : Nat → List Call)

def Multiplexer.next (multiplexer : Multiplexer) : Event → Multiplexer
  | .call call => multiplexer.perform call
  | .microtask reaction => multiplexer.microtask reaction
  | .resume reaction => multiplexer.resume reaction
  | .settle => multiplexer.settle
  | .send controller => multiplexer.proceed controller .headers .requested
  | .respond controller => multiplexer.proceed controller .requested .streaming
  | .receive controller data reactions => multiplexer.receive controller data reactions
  | .finish controller message reactions => multiplexer.finish controller message reactions

end Applik8s.QueryClient
