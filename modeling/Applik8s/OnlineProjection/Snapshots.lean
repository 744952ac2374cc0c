import Applik8s.OnlineProjection.Continuity
import Applik8s.OnlineProjection.Pagination

/-! Snapshots of an online projection: `snapshot` reads the revision, lets an operation read, and reads the revision
again until both are the same. Its commands and those of the live runs come in any order. -/
namespace Applik8s.OnlineProjection
open Lib Valkey
open Program (collect)

/-! ### The reader's commands -/

/-- What the reader asks for; a checkpoint that is not there counts as 0. -/
inductive Read where
  | active | checkpoint | rebuilding
  | range (generation partition : String) (start stop : Nat)
  | value (generation partition member : String)
deriving DecidableEq

@[reducible] def Read.Answer : Read → Type
  | .active | .rebuilding | .value .. => Option String
  | .checkpoint => Int
  | .range .. => List Scored

@[reducible] def Reads : Interface where
  Call := Read
  Reply read := Except String read.Answer

abbrev Reading (α : Type) := Program Reads String α

def look (read : Read) : Reading read.Answer :=
  .call read fun reply => .check reply

variable {Value α : Type} (reader : Reader Value)

/-- What `revision` makes of its two answers. -/
def Reader.revisionOf (active : Option String) (checkpoint : Int) : Except String String :=
  match active with
  | none | some "" =>
    .error ("Online projection " ++ reader.projection ++ " is unavailable because it has no active generation. " ++
      "Initialize or rebuild the projection and retry.")
  | some generation =>
    if checkpoint < 0 ∨ maxSafeInteger < checkpoint then .error "Valkey online projection checkpoint is invalid."
    else .ok (generation ++ ":" ++ String.ofList (decimal checkpoint))

/-- `revision`, with its commands one after the other. -/
def Reader.readRevision : Reading String := do
  let active ← look .active
  let checkpoint ← look .checkpoint
  .check (reader.revisionOf active checkpoint)

def Reader.item : Option String → Except String Value
  | none => .error ("Valkey online projection " ++ reader.projection ++ " lost a selected projection value.")
  | some value => reader.readValue value

/-- The candidates of a page, in the order they are selected in. -/
def Reader.readCandidates (generation : String) (partitions : List String) (offsets : List Nat) (limit : Nat) :
    Reading (List Candidate) := do
  let windows ← collect partitions.zipIdx fun (partition, index) => do
    let entries ← look (.range generation partition (offsets.getD index 0) (offsets.getD index 0 + limit))
    pure (candidatesOf partition index entries)
  pure (windows.flatten.insertionSort reader.collation.Ahead)

def Reader.readItems (generation : String) (selected : List Candidate) : Reading (List Value) := do
  let values ← collect selected fun candidate => look (.value generation candidate.partition candidate.member)
  .check (values.mapM reader.item)

/-- `page`, command by command. -/
def Reader.readPage (options : PageOptions) : Reading (Page Value) := do
  let partitions ← .check (normalizePagePartitions options)
  if options.limit < 1 ∨ 500 < options.limit then
    .throw "Valkey online projection page limit must be between 1 and 500."
  else
    let limit := options.limit.toNat
    let currentRevision ← reader.readRevision
    let offsets ← .check (decodeCursor options.cursor currentRevision partitions)
    let (generation, checkpoint) := splitRevision currentRevision
    let rebuilding ← look .rebuilding
    let candidates ← reader.readCandidates generation partitions offsets limit
    let selected := candidates.take limit
    let items ← reader.readItems generation selected
    let cursor ← .check (if candidates.length > limit then
        some <$> encodeCursor currentRevision partitions (nextOffsets offsets selected)
      else .ok none)
    pure { items, selected, cursor, generation, eventWatermark := checkpoint, rebuilding := truthy rebuilding }

/-! ### Reading while live runs write -/

variable {Payload Row : Type}

/-- The members of a sorted set with their scores, the highest first. -/
def Stored.scored (stored : Stored) : List Scored :=
  (stored.order.map fun (member, score) => Scored.mk member score).insertionSort Scored.Precedes

def World.look (world : World Payload Row) : (read : Read) → read.Answer
  | .active => world.active
  | .checkpoint => world.checkpointSequence
  | .rebuilding => world.rebuilding
  | .range generation partition start stop =>
    (((world.generations generation).rows partition).scored.drop start).take (stop + 1 - start)
  | .value generation partition member => ((world.generations generation).rows partition).values.get member

/-- The two commands of a revision, which are sent together: those that are answered. -/
structure Revising where
  active : Option (Option String) := none
  checkpoint : Option Int := none

def Revising.revision (asked : Revising) : Option (Except String String) :=
  match asked.active, asked.checkpoint with
  | some active, some checkpoint => some (reader.revisionOf active checkpoint)
  | _, _ => none

/-- What the operation of an attempt has met: the keys when it began and at each of its reads, and whether it met a
write that was under way. -/
structure Seen (Payload Row : Type) where
  start : World Payload Row
  worlds : List (World Payload Row) := []
  disturbed : Bool

/-- Where `snapshot` is, on one of its attempts. -/
inductive Stage (Payload Row α : Type) where
  | opening (tried : Nat) (asked : Revising)
  | operating (tried : Nat) (before : String) (operation : Reading α) (seen : Seen Payload Row)
  | closing (tried : Nat) (before : String) (value : α) (asked : Revising) (seen : Seen Payload Row)
  | returned (value : α) (revision : String) (seen : Seen Payload Row)
  | failed (message : String)

/-- The operation goes on to its next read, or to its end. -/
def Stage.operate (tried : Nat) (before : String) (seen : Seen Payload Row) : Reading α → Stage Payload Row α
  | .done value => .closing tried before value {} seen
  | .throw message => .failed message
  | .call read next => .operating tried before (.call read next) seen

/-- A row of an event above the checkpoint has been applied to the active generation. -/
def World.ahead (world : World Payload Row) : Bool :=
  world.active.any fun generation => (world.applied generation).any (world.checkpointSequence < ·.sequence)

/-- `snapshotAttempts`, and the operation that is passed to `snapshot`. -/
structure SnapshotOptions (α : Type) where
  attempts : Nat := 3
  operation : Reading α

variable (snapshot : SnapshotOptions α)

def Stage.revise (world : World Payload Row) (learn : Revising → Revising) :
    Stage Payload Row α → Stage Payload Row α
  | .opening tried asked =>
    match (learn asked).revision reader with
    | none => .opening tried (learn asked)
    | some (.error message) => .failed message
    | some (.ok before) => .operate tried before { start := world, disturbed := world.ahead } snapshot.operation
  | .closing tried before value asked seen =>
    match (learn asked).revision reader with
    | none => .closing tried before value (learn asked) seen
    | some (.error message) => .failed message
    | some (.ok after) =>
      if before = after then .returned value after seen
      else if tried < snapshot.attempts then .opening (tried + 1) {}
      else .failed ("Valkey online projection " ++ reader.projection ++ " changed during " ++
        toString snapshot.attempts ++ " bounded snapshot attempts.")
  | stage => stage

def Stage.read (world : World Payload Row) (failure : Option String) : Stage Payload Row α → Stage Payload Row α
  | .operating tried before (.call read next) seen =>
    .operate tried before { seen with worlds := seen.worlds ++ [world] } (next (match failure with
        | none => .ok (world.look read)
        | some message => .error message))
  | stage => stage

def Stage.refuse (message : String) : Stage Payload Row α → Stage Payload Row α
  | .opening .. | .closing .. => .failed message
  | stage => stage

def Stage.disturb : Stage Payload Row α → Stage Payload Row α
  | .operating tried before operation seen => .operating tried before operation { seen with disturbed := true }
  | stage => stage

/-- Live runs and their surroundings, and one call of `snapshot`. -/
structure Session (Payload Row α : Type) where
  writers : System Payload Row
  stage : Stage Payload Row α := .opening 1 {}

inductive Move (Payload : Type) where
  | write (step : Step Payload)
  | active (failure : Option String := none)
  | checkpoint (failure : Option String := none)
  | read (failure : Option String := none)

def appliesRow (system : System Payload Row) : Step Payload → Bool
  | .step caller _ =>
    match system.callers caller with
    | some ⟨_, .call (.applyRow ..) _⟩ => true
    | _ => false
  | _ => false

def dormant (live : ProjectionOptions Payload Row) : RebuildOptions Payload Row where
  streamName := live.streamName
  generation := ""
  project := live.project

def Move.isLive : Move Payload → Bool
  | .write (.start _ .rebuild) => false
  | _ => true

variable [Inhabited Payload] [DecidableEq Payload] [DecidableEq Row] (options : WriterOptions Row)
  (source : Streams.Source (Content Payload)) (live : ProjectionOptions Payload Row)

def Session.next (session : Session Payload Row α) : Move Payload → Session Payload Row α
  | .write step =>
    { writers := OnlineProjection.next options (dormant live) source live session.writers step
      stage := if appliesRow session.writers step then session.stage.disturb else session.stage }
  | .active none =>
    { session with stage := session.stage.revise reader snapshot session.writers.world fun asked =>
        { asked with active := asked.active <|> some session.writers.world.active } }
  | .checkpoint none =>
    { session with stage := session.stage.revise reader snapshot session.writers.world fun asked =>
        { asked with checkpoint := asked.checkpoint <|> some (session.writers.world.checkpointSequence : Int) } }
  | .active (some message) | .checkpoint (some message) => { session with stage := session.stage.refuse message }
  | .read failure => { session with stage := session.stage.read session.writers.world failure }

end Applik8s.OnlineProjection
