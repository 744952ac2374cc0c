import Applik8s.OnlineProjection.Writer

/-! Rebuilds of an online projection: `runApplicationOnlineProjectionRebuild`, next to the live run, on one stream and
one set of keys. The heartbeat of an attempt only prolongs its lease; where it has failed, the attempt fails at one of its
requests. -/
namespace Applik8s.OnlineProjection
open Lib Valkey
variable {Payload Row : Type}

/-- `ApplicationOnlineProjectionRebuildOptions`, beside the store, the source and the artifacts. -/
structure RebuildOptions (Payload Row : Type) where
  streamName : String
  generation : String
  /-- `snapshotPartition`, where there is an authority to take a snapshot of. -/
  snapshotPartition : Option (Payload → Option String) := none
  project : Projector Payload Row
  batchSize : Int := 500
  maxSegments : Int := 10000
  maxEvents : Int := 10000000
  maxCatchUpRounds : Int := 16

structure RebuildResult where
  previousGeneration : String
  sourceWatermark : Nat
  publishedWatermark : Nat
deriving DecidableEq

def boundedInteger (value minimum maximum : Int) (name : String) : Except String Unit :=
  if value < minimum ∨ maximum < value then
    .error ("Projection rebuild " ++ name ++ " must be between " ++ toString minimum ++ " and " ++ toString maximum ++ ".")
  else .ok ()

def isIdentifier (value : String) : Bool :=
  match value.toList with
  | [] => false
  | first :: rest => first.isAlphanum && rest.length ≤ 199 && rest.all fun char =>
    char.isAlphanum || char = '.' || char = '_' || char = ':' || char = '-'

def RebuildOptions.check (rebuild : RebuildOptions Payload Row) : Except String Unit := do
  boundedInteger rebuild.batchSize 1 1000 "batchSize"
  boundedInteger rebuild.maxSegments 1 100000 "maxSegments"
  boundedInteger rebuild.maxEvents 1 100000000 "maxEvents"
  boundedInteger rebuild.maxCatchUpRounds 1 1000 "maxCatchUpRounds"
  if isIdentifier rebuild.generation then .ok ()
  else .error ("Projection rebuild generation " ++ rebuild.generation ++ " is invalid.")

/-! ### What is loaded -/

/-- The segments so far, and how many events are in them. -/
abbrev Segments (Payload Row : Type) := List (List (Write Payload Row))

def Segments.count (segments : Segments Payload Row) : Nat := segments.flatten.length

variable (options : WriterOptions Row) (rebuild : RebuildOptions Payload Row)

/-- `persistSegment`. -/
def persistSegment (segments : Segments Payload Row) (envelopes : List (Event Payload)) :
    Except String (Segments Payload Row) := do
  let events ← projectEvents rebuild.project envelopes
  if rebuild.maxEvents < (segments.count + events.length : Nat) then
    .error ("Projection rebuild " ++ options.projection ++ " exceeded its " ++ toString rebuild.maxEvents ++
      "-event bound.")
  else .ok (if events.isEmpty then segments else segments ++ [events])

/-- `requiredPartition`. -/
def requiredPartition (value : Option String) : Except String String :=
  match value with
  | some partition =>
    if blank partition ∨ byteLength partition.toList > 1024 then
      .error ("Projection rebuild " ++ options.projection ++ " snapshot partition is empty or exceeds 1024 bytes.")
    else .ok partition
  | none => .error ("Projection rebuild " ++ options.projection ++ " snapshot partition is empty or exceeds 1024 bytes.")

/-- An item of a snapshot, as an event at its watermark. -/
def snapshotEvent (partitionBy : Payload → Option String) (snapshot : Snapshot Payload) (item : String × Payload) :
    Except String (Event Payload) := do
  let partition ← requiredPartition options (partitionBy item.2)
  .ok ⟨snapshot.watermark, "snapshot:" ++ options.projection ++ ":" ++ item.1, partition, snapshot.recordedAt, item.2⟩

/-- `visit`, for each page of the snapshot. -/
def visitPages (partitionBy : Payload → Option String) (snapshot : Snapshot Payload) :
    Segments Payload Row → List (List (String × Payload) × Nat) → Except String (Segments Payload Row)
  | segments, [] => .ok segments
  | segments, (items, ordinal) :: rest =>
    if rebuild.maxSegments ≤ (ordinal : Nat) then
      .error ("Projection rebuild " ++ options.projection ++ " exceeded its " ++ toString rebuild.maxSegments ++
        "-segment bound while scanning authority.")
    else do
      let envelopes ← items.mapM (snapshotEvent options partitionBy snapshot)
      let segments ← persistSegment options rebuild segments envelopes
      visitPages partitionBy snapshot segments rest

/-- The pages of the stream, up to its end, with the segments that are left. -/
def replayStream : Nat → (afterSequence : Nat) → Segments Payload Row → Writing Payload Row (Nat × Segments Payload Row)
  | 0, _, _ => .throw ("Projection rebuild " ++ options.projection ++ " exceeded its " ++ toString rebuild.maxSegments ++
      "-segment bound before reaching the source watermark.")
  | ordinals + 1, afterSequence, segments => do
    let page ← ask (.read afterSequence rebuild.batchSize.toNat)
    if page.retentionFloor > afterSequence then
      .throw (retentionGap options.projection rebuild.streamName afterSequence page.retentionFloor)
    else
      let segments ← .check (persistSegment options rebuild segments page.items)
      if page.exhausted then pure (page.nextSequence, segments)
      else replayStream ordinals page.nextSequence segments

variable (recovered : Option (Manifest Payload Row))

/-- The watermark that is rebuilt from, when a snapshot was recorded, and the segments. -/
def loadSegments (recovered : Option (Manifest Payload Row)) :
    Writing Payload Row (Nat × Option Int × Segments Payload Row) :=
  match recovered with
  | some manifest => pure (manifest.sourceWatermark, manifest.snapshotRecordedAt, manifest.segments)
  | none =>
    match rebuild.snapshotPartition with
    | some partitionBy => do
      let snapshot ← ask .scan
      let segments ← .check (visitPages options rebuild partitionBy snapshot [] snapshot.pages.zipIdx)
      pure (snapshot.watermark, some snapshot.recordedAt, segments)
    | none => do
      let (watermark, segments) ← replayStream options rebuild rebuild.maxSegments.toNat 0 []
      pure (watermark, none, segments)

variable (generation : String) [Inhabited Payload] (attempt : Nat)

def beginGeneration : Writing Payload Row Unit := do
  if generation = (← activeGeneration options) then
    .throw ("Valkey online projection " ++ options.projection ++ " cannot rebuild its active generation " ++ generation ++
      ".")
  else if ← ask (.begin generation attempt) then pure ()
  else .throw ("Valkey online projection " ++ options.projection ++
    " already has another rebuild attempt in progress.")

def deletePartition (partition : String) : Writing Payload Row Unit := do
  renewGenerationAttempt options generation (some attempt)
  ask (.delete attempt generation partition)

def resetGeneration : Writing Payload Row Unit := do
  if generation = (← activeGeneration options) then
    .throw ("Valkey online projection " ++ options.projection ++ " cannot reset active generation " ++ generation ++ ".")
  else
    renewGenerationAttempt options generation (some attempt)
    let partitions ← ask (.members generation)
    Program.forEach partitions (deletePartition options generation attempt)
    if ← ask (.reset generation attempt) then pure ()
    else .throw ("Valkey online projection " ++ options.projection ++ " rebuild attempt " ++ toString attempt ++
      " lost its lease while resetting generation " ++ generation ++ ".")

def writeGeneration (events : List (Write Payload Row)) :
    Writing Payload Row Unit := do
  renewGenerationAttempt options generation (some attempt)
  writeToGeneration options generation events (some attempt)

/-- The event without rows that brings a generation to a snapshot's watermark. -/
def snapshotWatermark (payload : Payload) (watermark : Nat) (recordedAt : Int) : Write Payload Row where
  envelope := ⟨watermark, "snapshot-watermark:" ++ options.projection ++ ":" ++ rebuild.generation, "__snapshot__",
    recordedAt, payload⟩
  rows := []

/-- The rounds that are left to catch up with the stream and publish. -/
def catchUp (attempt : Nat) (previousGeneration : String) : Nat → Writing Payload Row Unit
  | 0 => .throw ("Projection rebuild " ++ options.projection ++ " could not catch generation " ++ rebuild.generation ++
      " up to the moving live watermark in " ++ toString rebuild.maxCatchUpRounds ++ " bounded rounds.")
  | rounds + 1 => do
    let afterSequence ← ask (.highwater rebuild.generation)
    let page ← ask (.read afterSequence rebuild.batchSize.toNat)
    if page.retentionFloor > afterSequence then
      .throw (retentionGap options.projection rebuild.streamName afterSequence page.retentionFloor)
    else
      let events ← .check (projectEvents rebuild.project page.items)
      writeGeneration options rebuild.generation attempt events
      if !page.exhausted then catchUp attempt previousGeneration rounds
      else if ← ask (.publish rebuild.generation previousGeneration attempt) then pure ()
      else
        let (active, _, _) ← ask .rebuildState
        if active = some rebuild.generation then pure ()
        else if active ≠ some previousGeneration then
          .throw ("Projection rebuild " ++ options.projection ++ " active generation changed from " ++
            previousGeneration ++ " to " ++ active.getD "" ++ " while publishing " ++ rebuild.generation ++ ".")
        else catchUp attempt previousGeneration rounds

/-- A snapshot may have no rows; then too the generation comes to its watermark. -/
def writeWatermark (attempt sourceWatermark : Nat) (snapshotRecordedAt : Option Int) :
    Writing Payload Row Unit :=
  if rebuild.snapshotPartition.isSome then
    match snapshotRecordedAt with
    | none => .throw ("Projection rebuild " ++ options.projection ++
        " authoritative snapshot did not report its captured timestamp.")
    | some recordedAt => writeGeneration options rebuild.generation attempt
      [snapshotWatermark options rebuild default sourceWatermark recordedAt]
  else pure ()

variable (manifest : Manifest Payload Row)

def persistManifest :
    Writing Payload Row Unit :=
  if recovered.isNone then ask (.putManifest manifest) else pure ()

def rebuildResult (sourceWatermark : Nat) : Writing Payload Row RebuildResult := do
  let (active, watermark, _) ← ask .rebuildState
  if active ≠ some rebuild.generation then
    .throw ("Projection rebuild " ++ options.projection ++ " published without observing generation " ++
      rebuild.generation ++ " as active.")
  else pure ⟨manifest.previousGeneration, sourceWatermark, watermark⟩

def rebuildGeneration (captured : String × Nat)
    (recovered : Option (Manifest Payload Row)) : Writing Payload Row RebuildResult := do
  resetGeneration options rebuild.generation attempt
  let (sourceWatermark, snapshotRecordedAt, segments) ← loadSegments options rebuild recovered
  Program.forEach segments (writeGeneration options rebuild.generation attempt)
  writeWatermark options rebuild attempt sourceWatermark snapshotRecordedAt
  let manifest := recovered.getD
    { attempt, previousGeneration := captured.1, capturedProjectionWatermark := captured.2, sourceWatermark
      snapshotRecordedAt, segments }
  persistManifest recovered manifest
  catchUp options rebuild attempt manifest.previousGeneration rebuild.maxCatchUpRounds.toNat
  rebuildResult options rebuild manifest sourceWatermark

/-- `runApplicationOnlineProjectionRebuild`. -/
def runRebuild [Inhabited Payload] : Writing Payload Row RebuildResult := do
  let attempt ← ask .randomUUID
  .check rebuild.check
  prepare
  match ← ask .rebuildState with
  | (none, _, _) | (some "", _, _) =>
    .throw ("Valkey online projection " ++ options.projection ++ " has no active generation.")
  | (some active, watermark, rebuilding) =>
    let recovered ← ask .readManifest
    if active = rebuild.generation then
      match recovered with
      | none => .throw ("Projection rebuild " ++ options.projection ++ " generation " ++ rebuild.generation ++
          " is active but its immutable manifest is missing.")
      | some manifest =>
        if watermark < manifest.sourceWatermark then
          .throw ("Projection rebuild " ++ options.projection ++ " active generation " ++ rebuild.generation ++
            " is behind its immutable source watermark.")
        else pure ⟨manifest.previousGeneration, manifest.sourceWatermark, watermark⟩
    else if recovered.any (·.previousGeneration ≠ active) then
      .throw ("Projection rebuild " ++ options.projection ++ " generation " ++ rebuild.generation ++
        " was prepared from another active generation than " ++ active ++ ".")
    else if recovered.any (watermark < ·.capturedProjectionWatermark) then
      .throw ("Projection rebuild " ++ options.projection ++
        " durable manifest is ahead of the active projection watermark.")
    else if rebuilding.any fun other => other ≠ "" ∧ other ≠ rebuild.generation then
      .throw ("Projection rebuild " ++ options.projection ++ " already has another generation in progress.")
    else
      beginGeneration options rebuild.generation attempt
      let outcome ← (rebuildGeneration options rebuild attempt (active, watermark) recovered).attempt
      match outcome with
      | .ok result => pure result
      | .error failure =>
        let _ ← (ask (.abandon rebuild.generation attempt) : Writing Payload Row Unit).attempt (δ := String)
        .throw failure

inductive Operation (Payload : Type) where
  | project
  | rebuild
  | append (event : Event Payload)
  | retain (through : Nat)
  | expire

def body (live : ProjectionOptions Payload Row) : Operation Payload → Writing Payload Row Unit
  | .project => do let _ ← runApplicationProjection options live
  | .rebuild => do let _ ← runRebuild options rebuild
  | .append event => ask (.append event)
  | .retain through => ask (.retain through)
  | .expire => ask .expire

abbrev System (Payload Row : Type) := Crowd (Commands Payload Row) (World Payload Row) String Unit (Operation Payload)
abbrev Step (Payload : Type) := CrowdEvent (Operation Payload) (Choice Payload)

variable [DecidableEq Payload]

def server [DecidableEq Row] (read : Streams.Source (Content Payload)) :
    Server (Commands Payload Row) (World Payload Row) (Choice Payload) where
  answer request choice world := world.answer options read request choice

def next [DecidableEq Row] (read : Streams.Source (Content Payload))
    (live : ProjectionOptions Payload Row) (system : System Payload Row) (step : Step Payload) : System Payload Row :=
  system.advance (server options read) (body options rebuild live) step

end Applik8s.OnlineProjection
