import Applik8s.Lib.Program
import Applik8s.Lib.Window

/-! Public stream subscriptions: `createApplicationAuthorizedReplayableStream` and
`createApplicationStreamSubscriptionGateway` of `packages/applik8s/src/stream-subscription-gateway.ts`,
over the PostgreSQL stream of `stream-runtime-postgres.ts`. Of a cursor only its sequence is kept: a
request whose cursor, identity or authority is refused changes nothing. -/
namespace Applik8s.Streams
open Lib List
variable {Payload : Type}

section
/-- `ApplicationStreamEnvelope`: what is carried beside the sequence is read by nobody here. -/
structure Envelope (Payload : Type) where
  sequence : Nat
  payload : Payload
  deriving DecidableEq

/-- A stream as it has been written: all its events, the last of which that retention has deleted
stands at the floor. -/
structure Log (Payload : Type) where
  events : List (Envelope Payload)
  floor : Nat
  ascending : Ascending Envelope.sequence events
  positive : ∀ event ∈ events, 0 < event.sequence
  deleted : floor ≤ lastNumber Envelope.sequence events

def Log.empty : Log Payload where
  events := []
  floor := 0
  ascending := .nil
  positive := nofun
  deleted := Nat.le.refl

variable (log : Log Payload)

def Log.last : Nat := lastNumber Envelope.sequence log.events
def Log.retained : List (Envelope Payload) := log.events.filter (log.floor < ·.sequence)

/-- An event is recorded, under a sequence beyond all there are. -/
def Log.append (event : Envelope Payload) : Log Payload :=
  if fresh : log.last < event.sequence then
    { events := log.events ++ [event]
      floor := log.floor
      ascending := pairwise_append.mpr ⟨log.ascending, pairwise_singleton .., fun other among _ is =>
        Nat.lt_of_le_of_lt (log.ascending.le_lastNumber among) (mem_singleton.mp is ▸ fresh)⟩
      positive := fun other among => (mem_append.mp among).elim (log.positive other) fun is =>
        Nat.zero_lt_of_lt (mem_singleton.mp is ▸ fresh)
      deleted := by
        rw [lastNumber_append_singleton]
        exact Nat.le_trans log.deleted (Nat.le_of_lt fresh) }
  else log

def Log.retain (through : Nat) : Log Payload where
  events := log.events
  floor := max log.floor (lastNumber Envelope.sequence (log.events.filter (·.sequence ≤ through)))
  ascending := log.ascending
  positive := log.positive
  deleted := by
    refine Nat.max_le.mpr ⟨log.deleted, ?_⟩
    unfold lastNumber
    cases found : (log.events.filter (·.sequence ≤ through)).getLast? with
    | none => exact Nat.zero_le _
    | some event => exact log.ascending.le_lastNumber (mem_filter.mp (mem_of_getLast? found)).1

/-- `ApplicationReplayPage`. -/
structure Page (Payload : Type) where
  items : List (Envelope Payload)
  nextSequence : Nat
  exhausted : Bool
  retentionFloor : Nat

abbrev Source (Payload : Type) := Log Payload → Nat → Nat → Page Payload

/-- `read` of `createPostgresApplicationStream`, for a limit it takes: floor and rows are read under
the lock that retention takes. -/
def postgresRead : Source Payload := fun log afterSequence limit =>
  let rows := (log.retained.filter (afterSequence < ·.sequence)).take (limit + 1)
  let items := rows.take limit
  { items
    nextSequence := (items.getLast?.map (·.sequence)).getD afterSequence
    exhausted := rows.length ≤ limit
    retentionFloor := log.floor }

/-- The read contract: a page holds what is retained from the sequence it was asked for to the one it
names next, it goes no further than the stream does, and it is exhausted, or has items, or both. -/
structure ReadContract (read : Source Payload) : Prop where
  forward : ∀ log after limit, after ≤ (read log after limit).nextSequence
  within : ∀ log after limit, (read log after limit).nextSequence ≤ max after log.last
  covers : ∀ log after limit, (read log after limit).items =
    window Envelope.sequence after (read log after limit).nextSequence log.retained
  bounded : ∀ log after limit, (read log after limit).items.length ≤ limit
  floor : ∀ log after limit, (read log after limit).retentionFloor = log.floor
  exhausted : ∀ log after limit, (read log after limit).exhausted = true →
    ∀ event ∈ log.retained, event.sequence ≤ (read log after limit).nextSequence
  advances : ∀ log after limit, 0 < limit → (read log after limit).exhausted = false → (read log after limit).items ≠ []

end

section
structure ReadCall where
  afterSequence : Nat
  limit : Nat

def Replay (Payload : Type) : Interface where
  Call := ReadCall
  Reply _ := Page Payload

abbrev ReadProgram (Payload : Type) := Program (Replay Payload) String (Page Payload)

/-- The loop of the authorized stream: the pages left to scan, and what has been found so far. -/
def scan (authorize : Envelope Payload → Bool) (limit : Nat) : (pages cursor retentionFloor : Nat) →
    (exhausted : Bool) → (items : List (Envelope Payload)) → ReadProgram Payload
  | 0, cursor, retentionFloor, exhausted, items => .done ⟨items, cursor, exhausted, retentionFloor⟩
  | pages + 1, cursor, retentionFloor, exhausted, items =>
    if items.length < limit && !exhausted then
      .call ⟨cursor, max 1 (limit - items.length)⟩ fun page =>
        if page.items.isEmpty && !page.exhausted then
          .throw "Authorized stream source did not advance its cursor."
        else scan authorize limit pages page.nextSequence (max retentionFloor page.retentionFloor)
          page.exhausted (items ++ page.items.filter authorize)
    else .done ⟨items, cursor, exhausted, retentionFloor⟩

/-- A subscription's runtime binding, and the bounds of its gateway. Its source is opened as it is, or
behind `createApplicationAuthorizedReplayableStream`. -/
structure Subscription (Payload : Type) where
  authorize : Option (Envelope Payload → Bool)
  maxScanPages : Nat := 20
  pageSize : Nat := 100
  scanned : 1 ≤ maxScanPages ∧ maxScanPages ≤ 100 := by decide
  paged : 1 ≤ pageSize ∧ pageSize ≤ 1000 := by decide

variable (subscription : Subscription Payload)

def Subscription.visible (event : Envelope Payload) : Bool :=
  match subscription.authorize with
  | some authorize => authorize event
  | none => true

/-- `read` of the stream that the subscription opens. -/
def Subscription.read (afterSequence limit : Nat) : ReadProgram Payload :=
  match subscription.authorize with
  | some authorize => scan authorize limit subscription.maxScanPages afterSequence 0 false []
  | none => .call ⟨afterSequence, limit⟩ .done

end

section
inductive Message (Payload : Type) where
  | replay (items : List (Envelope Payload)) (cursor : Nat) (exhausted : Bool) (retentionFloor : Nat)
  | events (items : List (Envelope Payload)) (cursor : Nat)
  | keepalive (cursor : Nat)
  | reset

def retentionGap (sequence : Nat) (page : Page Payload) : Bool :=
  0 < sequence && sequence < page.retentionFloor

/-- The reply to `replay`, and the sequence that it leads to. -/
def replayed (sequence : Nat) (page : Page Payload) : Message Payload × Nat :=
  if retentionGap sequence page then (.reset, sequence)
  else (.replay page.items page.nextSequence page.exhausted page.retentionFloor, page.nextSequence)

/-- A round of `subscribe` once its page is read: what is sent, and where the next round starts. -/
def round (current : Nat) (page : Page Payload) (heartbeatDue : Bool) :
    Option (Message Payload) × Option Nat :=
  if retentionGap current page then (some .reset, none)
  else if page.items.length > 0 then
    (some (.events page.items page.nextSequence), some page.nextSequence)
  else if heartbeatDue then (some (.keepalive current), some current)
  else (none, some current)

inductive Operation where
  | replay (limit : Nat)
  | subscribe
  deriving DecidableEq

inductive Stage (Payload : Type) where
  | waiting
  | reading (program : ReadProgram Payload)
  | ended

/-- A request that is answered: where it has got, and what is on its way to the client. -/
structure Session (Payload : Type) where
  operation : Operation
  current : Nat
  stage : Stage Payload
  pending : List (Message Payload)

variable (subscription : Subscription Payload) (read : Source Payload) (log : Log Payload)

def Session.proceed (heartbeatDue : Bool) (session : Session Payload) : Session Payload :=
  match session.stage with
  | .ended => session
  | .waiting =>
    let limit := match session.operation with
      | .replay limit => limit
      | .subscribe => subscription.pageSize
    { session with stage := .reading (subscription.read session.current limit) }
  | .reading (.call request next) =>
    { session with stage := .reading (next (read log request.afterSequence request.limit)) }
  | .reading (.throw _) => { session with stage := .ended }
  | .reading (.done page) =>
    match session.operation with
    | .replay _ =>
      { session with
        current := (replayed session.current page).2
        pending := session.pending ++ [(replayed session.current page).1]
        stage := .ended }
    | .subscribe =>
      match round session.current page heartbeatDue with
      | (message, some current) =>
        { session with current, pending := session.pending ++ message.toList, stage := .waiting }
      | (message, none) => { session with pending := session.pending ++ message.toList, stage := .ended }

end
end Applik8s.Streams
