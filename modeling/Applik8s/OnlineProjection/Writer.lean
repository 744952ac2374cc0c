import Applik8s.Lib.Crowd
import Applik8s.OnlineProjection.Pages
import Applik8s.Streams.Gateway

/-! The writer of an online projection in Valkey: the keys, the scripts that change them, and how an event is written to
a generation of the projection. -/
namespace Applik8s.OnlineProjection
open Lib Valkey
open Function (update)

/-! ### Events and rows -/

/-- What an envelope carries beside its sequence; `recordedAt` in milliseconds. -/
structure Content (Payload : Type) where
  id : String
  partitionKey : String
  recordedAt : Int
  payload : Payload
deriving DecidableEq

abbrev Event (Payload : Type) := Streams.Envelope (Content Payload)

/-- `ApplicationOnlineProjectionWrite`. -/
structure Write (Payload Row : Type) where
  envelope : Event Payload
  rows : List Row
deriving DecidableEq

/-- What a row comes to: the value and score of a member of a partition, or its removal. -/
structure Change where
  partition : String
  member : String
  score : Rat
  remove : Bool
  value : String
deriving DecidableEq

inductive ScoreUnit where
  | arbitrary | epochMilliseconds
deriving DecidableEq

/-- `ValkeyOnlineProjectionWriterOptions`. A score is missing where it is not finite; a value is the text of what the
value schema makes of it. -/
structure WriterOptions (Row : Type) where
  projection : String
  initialGeneration : String := "live"
  schema : Option (Row → Except String Row) := none
  partitionBy : Row → String
  key : Row → String
  score : Row → Option Rat
  scoreUnit : ScoreUnit := .arbitrary
  value : Row → Except String String
  removeWhen : Option (Row → Bool) := none
  maxItemsPerPartition : Nat
  maxPartitions : Nat := 100000
  maxAgeSeconds : Option Nat := none

/-- `nonEmpty`. -/
def named (value name : String) : Except String String :=
  if blank value then .error ("Valkey online projection " ++ name ++ " must not be empty.")
  else if byteLength value.toList > 1024 then .error ("Valkey online projection " ++ name ++ " exceeds 1024 bytes.")
  else .ok value

variable {Payload Row : Type}

/-- What `writeToGeneration` makes of a row before any command. -/
def WriterOptions.changeOf (options : WriterOptions Row) (raw : Row) : Except String Change := do
  let row ← match options.schema with
    | some validate => validate raw
    | none => .ok raw
  let partition ← named (options.partitionBy row) "partition"
  let member ← named (options.key row) "key"
  let remove := options.removeWhen.any (· row)
  match if remove then some 0 else options.score row with
  | none => .error ("Valkey online projection " ++ options.projection ++ " score must be finite.")
  | some score =>
    if options.scoreUnit = .epochMilliseconds ∧ ¬ (score.den = 1 ∧ 0 ≤ score ∧ score ≤ maxSafeInteger) then
      .error ("Valkey online projection " ++ options.projection ++
        " epoch-millisecond score must be a non-negative safe integer.")
    else do
      let value ← if remove then .ok "null" else options.value row
      .ok ⟨partition, member, score, remove, value⟩

/-- `minimumScore`, if there is one. -/
def WriterOptions.minimumScore (options : WriterOptions Row) (event : Event Payload) : Option Int :=
  options.maxAgeSeconds.map fun seconds => event.payload.recordedAt - seconds * 1000

/-- The keys of one partition: a sorted set, here by its members, and two hashes. -/
structure Stored where
  order : Record Rat := []
  values : Record String := []
  versions : Record Nat := []
deriving DecidableEq

def ranked (order : Record Rat) : List String :=
  ((order.map fun (member, score) => Scored.mk member score).insertionSort fun left right =>
    ¬ left.Precedes right).map Scored.member

variable (stored : Stored)

/-- `ZREM` and twice `HDEL`. -/
def Stored.without (members : List String) : Stored where
  order := members.foldl Record.erase stored.order
  values := members.foldl Record.erase stored.values
  versions := members.foldl Record.erase stored.versions

/-- `APPLY_ROW_SCRIPT`. -/
def Stored.apply (sequence : Nat) (change : Change) (maximum : Nat) (minimumScore : Option Int) :
    Stored :=
  if (stored.versions.get change.member).any (sequence < ·) then stored
  else
    let stored := { stored with versions := stored.versions.set change.member sequence }
    let stored :=
      if change.remove then
        { stored with
          order := stored.order.erase change.member
          values := stored.values.erase change.member }
      else
        { stored with
          order := stored.order.set change.member change.score
          values := stored.values.set change.member change.value }
    let stored := stored.without ((ranked stored.order).take (stored.order.length - maximum))
    match minimumScore with
    | none => stored
    | some minimum => stored.without ((stored.order.filter (·.2 ≤ (minimum : Rat))).map Prod.fst)

structure Generation where
  marker : Bool := false
  highwater : Option Nat := none
  partitions : List String := []
  rows : String → Stored := fun _ => {}

/-- What `APPLY_ROW_SCRIPT` was once asked for. -/
structure Applied where
  sequence : Nat
  change : Change
  minimumScore : Option Int
deriving DecidableEq

/-- The rows that some applications leave, one after the other. -/
def replay (maximum : Nat) (applied : List Applied) : Stored :=
  applied.foldl (fun stored entry => stored.apply entry.sequence entry.change maximum entry.minimumScore) {}

/-- What a rebuild takes of the authority: all items, as of the sequence that was the stream's last. -/
structure Snapshot (Payload : Type) where
  watermark : Nat
  recordedAt : Int
  pages : List (List (String × Payload))

/-- `ProjectionRebuildManifest`, with the events of its segments in their place. -/
structure Manifest (Payload Row : Type) where
  attempt : Nat
  previousGeneration : String
  capturedProjectionWatermark : Nat
  sourceWatermark : Nat
  snapshotRecordedAt : Option Int
  segments : List (List (Write Payload Row))
deriving DecidableEq

/-- The stream, the keys and the artifacts; and what was seen. -/
structure World (Payload Row : Type) where
  log : Streams.Log (Content Payload)
  active : Option String := none
  checkpoint : Option Nat := none
  rebuilding : Option String := none
  /-- The attempt that has the lease. -/
  attempt : Option Nat := none
  generations : String → Generation := fun _ => {}
  manifest : Option (Manifest Payload Row) := none
  /-- What was applied to the rows of a generation since they were last deleted. -/
  applied : String → List Applied := fun _ => []
  /-- What each attempt has applied since it reset the generation. -/
  written : Nat → List Applied := fun _ => []
  /-- The attempt that was the last to acquire the lease. -/
  owner : Option Nat := none
  attempts : Nat := 0
  snapshots : List (Snapshot Payload) := []

def World.checkpointSequence (world : World Payload Row) : Nat := world.checkpoint.getD 0

def World.highwater (world : World Payload Row) (generation : String) : Nat :=
  (world.generations generation).highwater.getD 0

def World.setGeneration (world : World Payload Row) (name : String) (generation : Generation) : World Payload Row :=
  { world with generations := update world.generations name generation }

/-- What the writer, a rebuild and their surroundings ask for. Row commands name the attempt they are sent by, which no
key knows. -/
inductive Request (Payload Row : Type) where
  | setActiveAbsent
  | setCheckpointAbsent
  | active
  | checkpoint
  | rebuildState
  | highwater (generation : String)
  | renew (generation : String) (attempt : Nat)
  | reserve (attempt : Option Nat) (generation partition : String)
  | applyRow (attempt : Option Nat) (generation : String) (sequence : Nat) (change : Change) (minimumScore : Option Int)
  | advanceHighwater (attempt : Option Nat) (generation : String) (sequence : Nat)
  | advanceActiveCheckpoint (generation : String) (sequence : Nat)
  | advanceCheckpoint (sequence : Nat)
  | begin (generation : String) (attempt : Nat)
  | members (generation : String)
  | delete (attempt : Nat) (generation partition : String)
  | reset (generation : String) (attempt : Nat)
  | publish (generation expected : String) (attempt : Nat)
  | abandon (generation : String) (attempt : Nat)
  | read (afterSequence limit : Nat)
  | scan
  | readManifest
  | putManifest (manifest : Manifest Payload Row)
  | randomUUID
  | append (event : Event Payload)
  | retain (through : Nat)
  /-- The lease's time is over. -/
  | expire

@[reducible] def Request.Answer : Request Payload Row → Type
  | .active => Option String
  | .checkpoint | .highwater .. | .randomUUID => Nat
  | .rebuildState => Option String × Nat × Option String
  | .renew .. | .advanceActiveCheckpoint .. | .begin .. | .reset .. | .publish .. => Bool
  | .members .. => List String
  | .read .. => Streams.Page (Content Payload)
  | .scan => Snapshot Payload
  | .readManifest => Option (Manifest Payload Row)
  | .setActiveAbsent | .setCheckpointAbsent | .reserve .. | .applyRow .. | .advanceHighwater .. | .advanceCheckpoint ..
    | .delete .. | .abandon .. | .putManifest .. | .append .. | .retain .. | .expire => Unit

@[reducible] def Commands (Payload Row : Type) : Interface where
  Call := Request Payload Row
  Reply request := Except String request.Answer

abbrev Writing (Payload Row α : Type) := Program (Commands Payload Row) String α

def ask (request : Request Payload Row) : Writing Payload Row request.Answer :=
  .call request fun reply => .check reply

/-- What is not up to a command: whether it fails, before or behind its effect, and what a snapshot finds. -/
structure Choice (Payload : Type) where
  failure : Option String := none
  effective : Bool := true
  recordedAt : Int := 0
  pages : List (List (String × Payload)) := []

variable (options : WriterOptions Row) (read : Streams.Source (Content Payload))

section
variable [DecidableEq Payload] [DecidableEq Row] (world : World Payload Row) (generation : String) (attempt : Nat)

/-- `RENEW_GENERATION_ATTEMPT_SCRIPT`, and how the scripts of an attempt begin. -/
def World.owns : Bool :=
  world.rebuilding = some generation && world.attempt = some attempt

/-- `BEGIN_GENERATION_SCRIPT`. -/
def World.begin : Bool × World Payload Row :=
  if world.rebuilding.any (· ≠ generation) then (false, world)
  else if world.attempt.any (· ≠ attempt) then (false, world)
  else (true, { world with rebuilding := some generation, attempt := some attempt, owner := some attempt })

/-- `RESET_REBUILD_GENERATION_SCRIPT`. -/
def World.reset : Bool × World Payload Row :=
  if world.owns generation attempt then
    (true, { world.setGeneration generation
      { world.generations generation with marker := true, highwater := some 0, partitions := [] } with
        written := update world.written attempt [] })
  else (false, world)

/-- `ABANDON_GENERATION_SCRIPT`. -/
def World.abandon : World Payload Row :=
  if world.owns generation attempt then { world with rebuilding := none, attempt := none } else world

/-- `PUBLISH_GENERATION_SCRIPT`. -/
def World.publish (generation expected : String) (attempt : Nat) : Bool × World Payload Row :=
  if world.active ≠ some expected then (false, world)
  else if ¬ world.owns generation attempt then (false, world)
  else match (world.generations generation).highwater with
    | none => (false, world)
    | some highwater =>
      if highwater < world.checkpointSequence then (false, world)
      else (true, { world with checkpoint := some highwater, active := some generation
                               rebuilding := none, attempt := none })

/-- `RESERVE_PARTITION_SCRIPT`. -/
def World.reserve (generation partition : String) : Except String Unit × World Payload Row :=
  let held := world.generations generation
  if partition ∈ held.partitions then (.ok (), world)
  else if options.maxPartitions ≤ held.partitions.length then (.error "APPLIK8S_PROJECTION_PARTITION_LIMIT", world)
  else (.ok (), world.setGeneration generation { held with partitions := held.partitions ++ [partition] })

def World.setRows (generation partition : String) (rows : Stored) : World Payload Row :=
  world.setGeneration generation
    { world.generations generation with
      rows := update (world.generations generation).rows partition rows }

def World.noteWritten (entry : Applied) : Option Nat → Nat → List Applied
  | none => world.written
  | some attempt => update world.written attempt (world.written attempt ++ [entry])

def World.applyRow (attempt : Option Nat) (generation : String) (sequence : Nat) (change : Change)
    (minimumScore : Option Int) : World Payload Row :=
  { world.setRows generation change.partition
      (((world.generations generation).rows change.partition).apply sequence change options.maxItemsPerPartition
        minimumScore) with
    applied := update world.applied generation (world.applied generation ++ [⟨sequence, change, minimumScore⟩])
    written := world.noteWritten ⟨sequence, change, minimumScore⟩ attempt }

/-- `DEL order values versions`. -/
def World.delete (generation partition : String) : World Payload Row :=
  { world.setRows generation partition {} with
    applied := update world.applied generation ((world.applied generation).filter (·.change.partition ≠ partition)) }

/-- `ADVANCE_HIGHWATER_SCRIPT` on the key of a generation. -/
def World.advanceHighwater (sequence : Nat) : World Payload Row :=
  if world.highwater generation < sequence then
    world.setGeneration generation { world.generations generation with highwater := some sequence }
  else world

/-- `ADVANCE_HIGHWATER_SCRIPT` on the key of the checkpoint. -/
def World.advanceCheckpoint (sequence : Nat) : World Payload Row :=
  if world.checkpointSequence < sequence then { world with checkpoint := some sequence } else world

/-- `ADVANCE_ACTIVE_CHECKPOINT_SCRIPT`. -/
def World.advanceActiveCheckpoint (sequence : Nat) : Bool × World Payload Row :=
  if world.active ≠ some generation then (false, world) else (true, world.advanceCheckpoint sequence)

/-- `putOrVerifyArtifact`. -/
def World.putManifest (manifest : Manifest Payload Row) : Except String Unit × World Payload Row :=
  match world.manifest with
  | none => (.ok (), { world with manifest := some manifest })
  | some existing =>
    if existing = manifest then (.ok (), world)
    else (.error "Projection rebuild artifact already exists with different content.", world)

/-- What a request does where it does not fail by the way. -/
def World.perform (choice : Choice Payload) : (request : Request Payload Row) →
    Except String request.Answer × World Payload Row
  | .setActiveAbsent => (.ok (), { world with active := some (world.active.getD options.initialGeneration) })
  | .setCheckpointAbsent => (.ok (), { world with checkpoint := some (world.checkpoint.getD 0) })
  | .active => (.ok world.active, world)
  | .checkpoint => (.ok world.checkpointSequence, world)
  | .rebuildState => (.ok (world.active, world.checkpointSequence, world.rebuilding), world)
  | .highwater generation => (.ok (world.highwater generation), world)
  | .renew generation attempt => (.ok (world.owns generation attempt), world)
  | .reserve _ generation partition => world.reserve options generation partition
  | .applyRow attempt generation sequence change minimumScore =>
    (.ok (), world.applyRow options attempt generation sequence change minimumScore)
  | .advanceHighwater _ generation sequence => (.ok (), world.advanceHighwater generation sequence)
  | .advanceActiveCheckpoint generation sequence => ((world.advanceActiveCheckpoint generation sequence).map .ok id)
  | .advanceCheckpoint sequence => (.ok (), world.advanceCheckpoint sequence)
  | .begin generation attempt => (world.begin generation attempt).map .ok id
  | .members generation => (.ok (world.generations generation).partitions, world)
  | .delete _ generation partition => (.ok (), world.delete generation partition)
  | .reset generation attempt => (world.reset generation attempt).map .ok id
  | .publish generation expected attempt => (world.publish generation expected attempt).map .ok id
  | .abandon generation attempt => (.ok (), world.abandon generation attempt)
  | .read afterSequence limit => (.ok (read world.log afterSequence limit), world)
  | .scan =>
    let snapshot := ⟨lastNumber Streams.Envelope.sequence world.log.retained, choice.recordedAt, choice.pages⟩
    (.ok snapshot, { world with snapshots := world.snapshots ++ [snapshot] })
  | .readManifest => (.ok world.manifest, world)
  | .putManifest manifest => world.putManifest manifest
  | .randomUUID => (.ok world.attempts, { world with attempts := world.attempts + 1 })
  | .append event => (.ok (), { world with log := world.log.append event })
  | .retain through => (.ok (), { world with log := world.log.retain through })
  | .expire => (.ok (), { world with attempt := none })

def World.answer (request : Request Payload Row) (choice : Choice Payload) :
    Except String request.Answer × World Payload Row :=
  match choice.failure with
  | none => world.perform options read choice request
  | some message => (.error message, if choice.effective then (world.perform options read choice request).2 else world)

end

def activeGeneration : Writing Payload Row String := do
  match ← ask .active with
  | none | some "" => .throw ("Valkey online projection " ++ options.projection ++ " has no active generation.")
  | some generation => pure generation

variable (generation : String)

/-- Whether the attempt, if there is one, still has the generation. -/
def renewGenerationAttempt : Option Nat → Writing Payload Row Unit
  | none => pure ()
  | some attempt => do
    if ← ask (.renew generation attempt) then pure ()
    else .throw ("Valkey online projection " ++ options.projection ++ " rebuild attempt " ++ toString attempt ++
      " does not own generation " ++ generation ++ ".")

variable (events : List (Write Payload Row)) (attempt : Option Nat)

def writeRow (event : Event Payload) (raw : Row) :
    Writing Payload Row Unit := do
  renewGenerationAttempt options generation attempt
  let change ← .check (options.changeOf raw)
  ask (.reserve attempt generation change.partition)
  ask (.applyRow attempt generation event.sequence change (options.minimumScore event))

def writeEvent (event : Write Payload Row) : Writing Payload Row Unit := do
  renewGenerationAttempt options generation attempt
  let highwater ← ask (.highwater generation)
  if event.envelope.sequence < highwater then pure ()
  else
    Program.forEach event.rows (writeRow options generation attempt event.envelope)
    ask (.advanceHighwater attempt generation event.envelope.sequence)

def writeToGeneration :
    Writing Payload Row Unit :=
  Program.forEach events (writeEvent options generation attempt)

/-- The attempts that `write` makes for one event. -/
def writeActive (event : Write Payload Row) : Nat → Writing Payload Row Unit
  | 0 => .throw ("Valkey online projection " ++ options.projection ++
      " active generation changed repeatedly while applying event " ++ event.envelope.payload.id ++ ".")
  | attempts + 1 => do
    let generation ← activeGeneration options
    writeToGeneration options generation [event] none
    if ← ask (.advanceActiveCheckpoint generation event.envelope.sequence) then pure ()
    else writeActive event attempts

def write : Writing Payload Row Unit :=
  Program.forEach events (writeActive options · 4)

def prepare : Writing Payload Row Unit := do
  ask .setActiveAbsent
  ask .setCheckpointAbsent

/-! ### The live run -/

abbrev Projector (Payload Row : Type) := Content Payload → Except String (List Row)

/-- `projectEvents`. -/
def projectEvents (project : Projector Payload Row) (events : List (Event Payload)) :
    Except String (List (Write Payload Row)) :=
  events.mapM fun event => do
    let rows ← project event.payload
    .ok ⟨event, rows⟩

/-- `RunApplicationProjectionOptions`, beside the store and the source. -/
structure ProjectionOptions (Payload Row : Type) where
  streamName : String
  project : Projector Payload Row
  batchSize : Int := 100
  maxBatches : Int := 100

def retentionGap (projection streamName : String) (checkpoint floor : Nat) : String :=
  "Projection " ++ projection ++ " checkpoint " ++ toString checkpoint ++ " is behind retained stream " ++ streamName ++
    " floor " ++ toString floor ++ ". Rebuild from an authoritative snapshot or increase stream retention."

/-- The batches of `runApplicationProjection`, with those that are left. -/
def runBatches (run : ProjectionOptions Payload Row) : Nat → (checkpoint processed : Nat) →
    Writing Payload Row (Nat × Nat × Bool)
  | 0, checkpoint, processed => pure (processed, checkpoint, false)
  | batches + 1, checkpoint, processed => do
    let page ← ask (.read checkpoint run.batchSize.toNat)
    if page.retentionFloor > checkpoint then
      .throw (retentionGap options.projection run.streamName checkpoint page.retentionFloor)
    else
      let events ← .check (projectEvents run.project page.items)
      write options events
      ask (.advanceCheckpoint page.nextSequence)
      let processed := processed + page.items.length
      if page.exhausted then pure (processed, page.nextSequence, true)
      else runBatches run batches page.nextSequence processed

def runApplicationProjection (run : ProjectionOptions Payload Row) : Writing Payload Row (Nat × Nat × Bool) :=
  if run.batchSize < 1 ∨ 1000 < run.batchSize then .throw "Projection batchSize must be between 1 and 1000."
  else if run.maxBatches < 1 ∨ 10000 < run.maxBatches then
    .throw "Projection maxBatches must be between 1 and 10000."
  else do
    prepare
    let checkpoint ← ask .checkpoint
    runBatches options run run.maxBatches.toNat checkpoint 0

end Applik8s.OnlineProjection
