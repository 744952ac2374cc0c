import Applik8s.Lib.Run
import Mathlib.Logic.Function.Basic

/-! One entry of `ApplicationQueryClient` in `store.ts`, and a server that is a log of changes. A step is what
the program does between two awaits. Values and cursors are opaque to the client; how many changes they stand
for only the server knows. -/
namespace Applik8s.QueryStore
open Function (update)

section
inductive Phase where
  | idle
  | loading
  | ready
  | reconnecting
  | error
  deriving DecidableEq

structure QueryState (Value Cursor : Type) where
  phase : Phase := .idle
  value : Option Value := none
  cursor : Option Cursor := none
  error : Option String := none
  stale : Bool := true
  revision : Nat := 0

/-- What `entry.refresh` stands for: a snapshot is awaited, or all is done but its `finally`. -/
inductive Refresh (Cursor : Type) where
  | requested (epoch : Nat) (eventCursor : Option Cursor)
  | settled

structure StoreEntry (Value Cursor : Type) where
  query : String
  inputKey : String
  listeners : List Nat := []
  seenEvents : List String := []
  state : QueryState Value Cursor := {}
  controller : Option Nat := none
  refresh : Option (Refresh Cursor) := none
  lastEventSequence : Nat := 0
  reconnectTimer : Option Nat := none
  snapshotGeneratedAt : Int := 0
  invalidationEpoch : Nat := 0
  activated : Bool := false

structure Snapshot (Value Cursor : Type) where
  query : String
  inputKey : String
  value : Value
  cursor : Cursor
  generatedAt : Int

inductive QueryEvent (Cursor : Type) where
  | invalidate (id query : String) (sequence : Nat) (cursor : Cursor)
  | keepalive (id query : String) (sequence : Nat) (cursor : Cursor)
  | reset (id query : String)

variable {Value Cursor : Type}

def QueryEvent.id : QueryEvent Cursor → String
  | .invalidate id _ _ _ | .keepalive id _ _ _ | .reset id _ => id

def QueryEvent.query : QueryEvent Cursor → String
  | .invalidate _ query _ _ | .keepalive _ query _ _ | .reset _ query => query

def QueryEvent.sequence : QueryEvent Cursor → Option Nat
  | .invalidate _ _ sequence _ | .keepalive _ _ sequence _ => some sequence
  | .reset _ _ => none

/-- What the two kinds of timers that share the slot `reconnectTimer` do. -/
inductive Timer where
  | snapshotRefresh
  | reconnect
  deriving DecidableEq

/-- How many changes a value reflects, where in the log a cursor is, and the id of an invalidate. -/
structure Server (Value Cursor : Type) where
  reflects : Value → Nat
  position : Cursor → Nat
  identify : Cursor → String
  distinct : ∀ one other, identify one = identify other → position one = position other

/-- An entry with its timers and controllers; beside it the server: the open streams with the position each
has delivered to, how many changes are committed and were when the last snapshot was requested, and up to
which change the entry was sent an invalidate or a reset. -/
structure World (Value Cursor : Type) where
  entry : StoreEntry Value Cursor
  timers : Nat → Option Timer := fun _ => none
  timersSet : Nat := 0
  aborted : List Nat := []
  controllers : Nat := 0
  streams : Nat → Option Nat := fun _ => none
  committed : Nat := 0
  since : Nat := 0
  told : Nat := 0

end

variable {Value Cursor : Type} (server : Server Value Cursor) (world : World Value Cursor)

/-- `setTimeout`, noted in `reconnectTimer`. -/
def World.setTimer (timer : Timer) : World Value Cursor :=
  { world with
    timers := update world.timers world.timersSet (some timer)
    timersSet := world.timersSet + 1
    entry := { world.entry with reconnectTimer := some world.timersSet } }

def World.clearTimer : World Value Cursor :=
  match world.entry.reconnectTimer with
  | some timer => { world with
      timers := update world.timers timer none
      entry := { world.entry with reconnectTimer := none } }
  | none => world

/-- `#scheduleSnapshotRefresh` -/
def World.scheduleSnapshotRefresh : World Value Cursor :=
  if world.entry.listeners = [] ∨ world.entry.reconnectTimer ≠ none then world
  else world.setTimer .snapshotRefresh

/-- `#connect` -/
def World.connect : World Value Cursor :=
  match world.entry.controller, world.entry.state.cursor with
  | none, some cursor =>
    if world.entry.listeners = [] then world
    else { world with
      controllers := world.controllers + 1
      streams := update world.streams world.controllers (some (server.position cursor))
      entry := { world.entry with controller := some world.controllers } }
  | _, _ => world

/-- `entry.controller?.abort()`, after which the transport delivers nothing more. -/
def World.abort : World Value Cursor :=
  match world.entry.controller with
  | some controller => { world with
      aborted := controller :: world.aborted
      streams := update world.streams controller none
      entry := { world.entry with controller := none } }
  | none => world

/-- `#disconnect` -/
def World.disconnect : World Value Cursor := world.abort.clearTimer

/-- `#subscriptionError`, of a stream that is over. -/
def World.subscriptionError (controller : Nat) (message : String) : World Value Cursor :=
  if controller ∈ world.aborted ∨ world.entry.controller ≠ some controller then world
  else
    let state := world.entry.state
    World.setTimer { world with entry := { world.entry with
      controller := none
      state := { state with
        phase := .reconnecting, stale := true, error := some message, revision := state.revision + 1 } } }
      .reconnect

/-- One turn of the loop of `#refresh`, up to its await. -/
def World.request : World Value Cursor :=
  { world with
    since := world.committed
    entry := { world.entry with
      refresh := some (.requested world.entry.invalidationEpoch world.entry.state.cursor) } }

/-- `#refresh` -/
def World.refresh : World Value Cursor :=
  match world.entry.refresh with
  | some _ => world
  | none =>
    let cleared := world.clearTimer
    let state := cleared.entry.state
    World.request { cleared with entry := { cleared.entry with state := { state with
      phase := if state.value.isNone then .loading else .ready
      stale := true
      error := none
      revision := state.revision + 1 } } }

variable (entry : StoreEntry Value Cursor) (snapshot : Snapshot Value Cursor)

def StoreEntry.identify :
    Except String (Snapshot Value Cursor) → Except String (Snapshot Value Cursor)
  | .error message => .error message
  | .ok snapshot =>
    if snapshot.query ≠ entry.query ∨ snapshot.inputKey ≠ entry.inputKey then
      .error "Application query snapshot identity does not match the requested query/input."
    else .ok snapshot

/-- The `catch` of `#refresh`. -/
def World.fail (message : String) : World Value Cursor :=
  let state := world.entry.state
  World.scheduleSnapshotRefresh { world with entry := { world.entry with
    refresh := some .settled
    state := { state with
      phase := if world.entry.listeners = [] then .error else .reconnecting
      stale := true
      error := some message
      revision := state.revision + 1 } } }

/-- A snapshot of the awaited epoch ends the loop, another one goes round. -/
def World.store (epoch : Nat) (eventCursor : Option Cursor) :
    World Value Cursor :=
  let state := world.entry.state
  let superseded := world.entry.invalidationEpoch ≠ epoch
  let stored := { world with entry := { world.entry with
    state := {
      phase := .ready
      value := some snapshot.value
      cursor := if superseded then (state.cursor.or eventCursor).or (some snapshot.cursor)
        else some snapshot.cursor
      stale := superseded
      revision := state.revision + 1 }
    snapshotGeneratedAt := snapshot.generatedAt } }
  if superseded then stored.request
  else World.connect server { stored with entry := { stored.entry with refresh := some .settled } }

def World.respond (result : Except String (Snapshot Value Cursor)) : World Value Cursor :=
  match world.entry.refresh with
  | some (.requested epoch eventCursor) =>
    match world.entry.identify result with
    | .error message => world.fail message
    | .ok snapshot => world.store server snapshot epoch eventCursor
  | _ => world

/-- The `finally` of `#refresh`. -/
def World.settle : World Value Cursor :=
  match world.entry.refresh with
  | some .settled => { world with entry := { world.entry with refresh := none } }
  | _ => world

def StoreEntry.hydrates : Bool :=
  snapshot.query = entry.query && snapshot.inputKey = entry.inputKey &&
    !(entry.state.phase = .ready && snapshot.generatedAt ≤ entry.snapshotGeneratedAt)

def World.hydrate : World Value Cursor :=
  if world.entry.hydrates snapshot then
    { world with entry := { world.entry with
      state := {
        phase := .ready
        value := some snapshot.value
        cursor := some snapshot.cursor
        stale := false
        revision := world.entry.state.revision + 1 }
      snapshotGeneratedAt := snapshot.generatedAt } }
  else world

def StoreEntry.ignores (event : QueryEvent Cursor) : Bool :=
  event.query ≠ entry.query || entry.seenEvents.contains event.id ||
    match event.sequence with
    | some sequence => sequence < entry.lastEventSequence
    | none => false

def StoreEntry.note (event : QueryEvent Cursor) :
    StoreEntry Value Cursor :=
  let seenEvents := entry.seenEvents ++ [event.id]
  { entry with
    lastEventSequence := event.sequence.getD entry.lastEventSequence
    seenEvents := if seenEvents.length > 1000 then seenEvents.tail else seenEvents }

def QueryState.advance (state : QueryState Value Cursor) (cursor : Cursor) (stale : Bool) :
    QueryState Value Cursor :=
  { state with phase := .ready, cursor := some cursor, error := none, stale, revision := state.revision + 1 }

/-- `#event` -/
def World.event (event : QueryEvent Cursor) : World Value Cursor :=
  if world.entry.ignores event then world
  else
    let entry := world.entry.note event
    match event with
    | .reset _ _ =>
      World.refresh (World.disconnect { world with entry := { entry with
        invalidationEpoch := entry.invalidationEpoch + 1
        state := { entry.state with cursor := none, stale := true, revision := entry.state.revision + 1 } } })
    | .invalidate _ _ _ cursor =>
      World.refresh { world with entry := { entry with
        invalidationEpoch := entry.invalidationEpoch + 1
        state := entry.state.advance cursor true } }
    | .keepalive _ _ _ cursor =>
      { world with entry := { entry with state := entry.state.advance cursor entry.refresh.isSome } }

/-- `subscribe` of the store of an entry. -/
def World.subscribe (listener : Nat) : World Value Cursor :=
  let entry := world.entry
  let reactivating := entry.activated && entry.listeners = []
  let added := { world with entry := { entry with
    listeners := entry.listeners.insert listener, activated := true } }
  if entry.state.phase = .idle then added.refresh
  else if reactivating then added.refresh
  else added.connect server

def World.unsubscribe (listener : Nat) : World Value Cursor :=
  let left := { world with entry := { world.entry with listeners := world.entry.listeners.erase listener } }
  if left.entry.listeners = [] then left.disconnect else left

/-- The steps of the client and the server. With a reset comes up to which change it stands for. -/
inductive Step (Value Cursor : Type) where
  | commit
  | subscribe (listener : Nat)
  | unsubscribe (listener : Nat)
  | refresh
  | hydrate (snapshot : Snapshot Value Cursor)
  | respond (result : Except String (Snapshot Value Cursor))
  | settle
  | event (controller : Nat) (event : QueryEvent Cursor) (upTo : Nat)
  | subscriptionError (controller : Nat) (message : String)
  | fire (timer : Nat)

def World.fire (timer : Nat) : World Value Cursor :=
  let fired := { world with
    timers := update world.timers timer none
    entry := { world.entry with reconnectTimer := none } }
  match world.timers timer with
  | some .snapshotRefresh => fired.refresh
  | some .reconnect => fired.connect server
  | none => world

/-- Which position an event brings a stream to, and up to which change it tells of changes. -/
def World.receive (controller upTo : Nat) : QueryEvent Cursor → World Value Cursor
  | .invalidate _ _ _ cursor => { world with
      told := max world.told (server.position cursor)
      streams := update world.streams controller (some (server.position cursor)) }
  | .reset _ _ => { world with told := max world.told upTo }
  | .keepalive _ _ _ _ => world

def World.next (world : World Value Cursor) : Step Value Cursor → World Value Cursor
  | .commit => { world with committed := world.committed + 1 }
  | .subscribe listener => world.subscribe server listener
  | .unsubscribe listener => world.unsubscribe listener
  | .refresh => world.refresh
  | .hydrate snapshot => world.hydrate snapshot
  | .respond result => world.respond server result
  | .settle => world.settle
  | .event controller event upTo =>
    match world.streams controller with
    | some _ => (world.receive server controller upTo event).event event
    | none => world
  | .subscriptionError controller message =>
    World.subscriptionError { world with streams := update world.streams controller none } controller message
  | .fire timer => world.fire server timer

end Applik8s.QueryStore
