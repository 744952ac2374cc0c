import Applik8s.Lib.Crowd
import Applik8s.Search.Source

/-! The deterministic search runtime, `createDeterministicApplicationSearchRuntime` of
`packages/applik8s/src/search-runtime.ts`: its memory, the stretches of code between two awaits,
and the calls that make them. A stretch runs in one piece; the awaits of any number of calls
interleave. Some stretches are cut into two steps here, so every order that the awaits allow is
among the runs, and a few more. -/
namespace Applik8s.Search.Deterministic
open Lib
variable {Document : Type}

/-- `SearchGeneration`: an object of its own, which calls hold on to. -/
structure Generation (Document : Type) where
  documents : Record (StoredDocument Document)
  applied : List (Nat × String)
  checkpoint : Nat

/-- The variables of the closure. `generations` is the map from names to objects; `allocated`
objects have been made. -/
structure Memory (Document : Type) where
  generations : String → Option Nat
  objects : Nat → Generation Document
  allocated : Nat
  activeGeneration : String
  rebuildingGeneration : Option String
  retentionFloor : Nat
  sourceHighWatermark : Nat
  lastAppliedRecordedAt : Option Int
  projectionState : Freshness
  previousGenerations : List String

section
/-- What a stretch gives, and the memory behind it: nothing is undone when it throws. -/
abbrev Stretch (Document α : Type) := Memory Document → Except Failure α × Memory Document

variable (options : RuntimeOptions)
  (generation : String) (object : Nat) (change : CommittedChange) (memory : Memory Document)

def currentGeneration : Except Failure Nat :=
  match memory.generations memory.activeGeneration with
  | some object => .ok object
  | none => .error (.refused (s!"Search index {options.logicalIndex} active generation " ++
      s!"{memory.activeGeneration} is missing."))

def markHistoryLoss {α : Type} (checkpoint floor : Nat) : Stretch Document α := fun memory =>
  (.error (.historyLoss checkpoint floor), { memory with retentionFloor := floor, projectionState := .rebuildRequired })

/-- `applyToGeneration` up to its first await: whether the change is the next one. -/
def admitChange :
    Except Failure Bool := do
  validateChange options.dates change
  let generation := memory.objects object
  if change.commitPosition ≤ generation.checkpoint then
    match generation.applied.find? (·.1 = change.commitPosition) with
    | none => return false
    | some (_, appliedId) =>
      if appliedId = change.id then return false
      else
        .error (.refused (s!"Search index {options.logicalIndex} commit position " ++
          s!"{change.commitPosition} was already applied as {appliedId}, not {change.id}."))
  else if change.commitPosition ≠ generation.checkpoint + 1 then
    .error (.refused (s!"Search index {options.logicalIndex} cannot advance from checkpoint " ++
      s!"{generation.checkpoint} to non-contiguous commit position {change.commitPosition}."))
  else return true

/-- `apply` up to its first await: the object the change goes to, unless it was applied before. -/
def enter : Except Failure (Option Nat) := do
  let object ← currentGeneration options memory
  if memory.projectionState = .rebuildRequired then
    .error (.historyLoss (memory.objects object).checkpoint memory.retentionFloor)
  else
    let next ← admitChange options object change memory
    return if next then some object else none

def Memory.withObject (object : Nat) (generation : Generation Document) :
    Memory Document :=
  { memory with objects := Function.update memory.objects object generation }

/-- `applyToGeneration` behind its last await. -/
def write (hydrated : List (HydratedDocument Document))
    (updateActiveState : Bool) (memory : Memory Document) : Memory Document :=
  let generation := memory.objects object
  let highWatermark := max memory.sourceHighWatermark change.commitPosition
  { memory.withObject object
      { documents := replaceDocuments generation.documents hydrated
        applied := (change.commitPosition, change.id) :: generation.applied.filter (·.1 ≠ change.commitPosition)
        checkpoint := change.commitPosition } with
    sourceHighWatermark := highWatermark
    lastAppliedRecordedAt := options.dates.parse change.recordedAt
    projectionState :=
      if updateActiveState then
        if highWatermark ≤ change.commitPosition then .current else .lagging
      else memory.projectionState }

/-- What `synchronize` does with a page before it applies its changes. -/
def notePage (page : ChangePage) : Stretch Document Unit := fun memory =>
  let memory := { memory with
    sourceHighWatermark := max memory.sourceHighWatermark page.highWatermark }
  let checkpoint := (memory.objects object).checkpoint
  if checkpoint + 1 < page.retentionFloor then markHistoryLoss checkpoint page.retentionFloor memory
  else (.ok (), { memory with retentionFloor := page.retentionFloor })

/-- What the catch-up of `rebuild` does with a page before it applies its changes. -/
def noteCatchUp (page : ChangePage) : Stretch Document Unit := fun memory =>
  let memory := { memory with
    sourceHighWatermark := max memory.sourceHighWatermark page.highWatermark
    retentionFloor := page.retentionFloor }
  let checkpoint := (memory.objects object).checkpoint
  if checkpoint + 1 < page.retentionFloor then markHistoryLoss checkpoint page.retentionFloor memory
  else (.ok (), memory)

/-- `rebuild` up to its first await. -/
def enterRebuild : Except Failure Unit :=
  if generation = memory.activeGeneration then
    .error (.refused s!"Search index {options.logicalIndex} cannot rebuild its active generation in place.")
  else if truthy memory.rebuildingGeneration && memory.rebuildingGeneration ≠ some generation then
    .error (.refused (s!"Search index {options.logicalIndex} is already rebuilding generation " ++
      memory.rebuildingGeneration.getD "" ++ "."))
  else .ok ()

def allocate (frontier : Nat) (memory : Memory Document) :
    Nat × Memory Document :=
  (memory.allocated,
    { memory.withObject memory.allocated ⟨[], [], frontier⟩ with
      generations := Function.update memory.generations generation (some memory.allocated)
      allocated := memory.allocated + 1
      rebuildingGeneration := some generation })

def load (items : List (HydratedDocument Document)) (memory : Memory Document) :
    Memory Document :=
  let generation := memory.objects object
  memory.withObject object { generation with documents := replaceDocuments generation.documents items }

/-- What `rebuild` does behind its last await: the generation that was active, and the checkpoint
and the number of documents of the one that is. -/
def cutOver :
    (String × Nat × Nat) × Memory Document :=
  let rebuilt := memory.objects object
  ((memory.activeGeneration, rebuilt.checkpoint, rebuilt.documents.length),
    { memory with
      activeGeneration := generation
      rebuildingGeneration := none
      projectionState := .current
      retentionFloor := min memory.retentionFloor (rebuilt.checkpoint + 1)
      previousGenerations := memory.previousGenerations ++ [memory.activeGeneration] })

/-- The failure handler of `rebuild`. -/
def discard : Memory Document :=
  { memory with
    generations := Function.update memory.generations generation none
    rebuildingGeneration := none }

def retireGeneration :
    Except Failure Unit × Memory Document :=
  if generation = memory.activeGeneration then
    (.error (.refused s!"Search index {options.logicalIndex} cannot retire its active generation."), memory)
  else
    (.ok (), { memory with
      generations := Function.update memory.generations generation none
      previousGenerations := memory.previousGenerations.erase generation })

end

section
/-- The steps of a call: its stretches, and what it awaits. -/
inductive Request (Document : Type) where
  | enter (change : CommittedChange)
  | current
  | admitChange (object : Nat) (change : CommittedChange)
  | markLagging
  | write (object : Nat) (change : CommittedChange) (hydrated : List (HydratedDocument Document))
      (updateActiveState : Bool)
  | notePage (object : Nat) (page : ChangePage)
  | noteCatchUp (object : Nat) (page : ChangePage)
  | checkpointOf (object : Nat)
  | enterRebuild (generation : String)
  | allocate (generation : String) (frontier : Nat)
  | load (object : Nat) (items : List (HydratedDocument Document))
  | readValidation (object : Nat)
  | cutOver (generation : String) (object : Nat)
  | discard (generation : String)
  | retire (generation : String)
  | readChanges (afterCommitPosition limit : Nat)
  | affectedRoots (change : CommittedChange) (maximum : Nat)
  | hydrate (identities : List String) (frontier : Nat)
  | openSnapshot
  | readSnapshot (snapshotId : String) (cursor : Option String) (limit : Nat)
  | closeSnapshot (snapshotId : String)
  | validate (evidence : RebuildValidation)

@[reducible] def Request.Result : Request Document → Type
  | .enter _ => Option Nat
  | .current => Nat × Nat
  | .admitChange _ _ => Bool
  | .checkpointOf _ => Nat
  | .allocate _ _ => Nat
  | .readValidation _ => RebuildValidation
  | .cutOver _ _ => String × Nat × Nat
  | .readChanges _ _ => ChangePage
  | .affectedRoots _ _ => AffectedRoots
  | .hydrate _ _ => List (HydratedDocument Document)
  | .openSnapshot => OpenedSnapshot
  | .readSnapshot _ _ _ => SnapshotPage Document
  | _ => Unit

def Steps (Document : Type) : Interface where
  Call := Request Document
  Reply request := Except Failure request.Result

abbrev SearchProgram (Document α : Type) := Program (Steps Document) Failure α

def ask (request : Request Document) : SearchProgram Document request.Result :=
  .call request Program.check

def fail {α : Type} (failure : Failure) : SearchProgram Document α := .throw failure

variable (options : RuntimeOptions) (object : Nat) (change : CommittedChange) (updateActiveState : Bool)

/-- `applyToGeneration` from its first await on. -/
def applyAdmitted :
    SearchProgram Document Unit := do
  let affected ← ask (.affectedRoots change (options.fanOutCeiling + 1))
  if !affected.complete || options.fanOutCeiling < affected.identities.length then
    ask .markLagging
    fail (.fanOut change.id)
  else
    let identities := sortStrings (distinctValues affected.identities)
    let hydrated ← ask (.hydrate identities change.commitPosition)
    ask (.write object change (placed identities hydrated) updateActiveState)

def applyToGeneration :
    SearchProgram Document Bool := do
  let next ← ask (.admitChange object change)
  if next then
    applyAdmitted options object change updateActiveState
    return true
  else return false

def apply : SearchProgram Document Unit := do
  let admitted ← ask (.enter change)
  match admitted with
  | none => return ()
  | some object => applyAdmitted options object change true

/-- The batches of `synchronize` that are left. -/
def synchronizeBatches (batchSize : Nat) : Nat → Nat → SearchProgram Document (Nat × Nat × Bool)
  | 0, applied => do
    let current ← ask .current
    return (applied, current.2, false)
  | batches + 1, applied => do
    let current ← ask .current
    let page ← ask (.readChanges current.2 batchSize)
    ask (.notePage current.1 page)
    let outcomes ← Program.collect page.items fun change => applyToGeneration options current.1 change true
    let applied := applied + outcomes.count true
    if page.exhausted then
      let checkpoint ← ask (.checkpointOf current.1)
      return (applied, checkpoint, true)
    else synchronizeBatches batchSize batches applied

def synchronize (batchSize maximumBatches : Option Nat) :
    SearchProgram Document (Nat × Nat × Bool) := do
  let batchSize ← Program.check (boundedInteger (batchSize.getD 250) 1 1000 "batchSize")
  let maximumBatches ←
    Program.check (boundedInteger (maximumBatches.getD 100) 1 10000 "maximumBatches")
  synchronizeBatches options batchSize maximumBatches 0

def loadPages (object : Nat) (opened : OpenedSnapshot) (batchSize maximumPages : Nat) :
    Nat → Option String → SearchProgram Document Unit
  | 0, _ => fail (.refused (s!"Search index {options.logicalIndex} rebuild exceeded its " ++
      s!"{maximumPages}-page snapshot bound."))
  | pages + 1, cursor => do
    let page ← ask (.readSnapshot opened.snapshotId cursor batchSize)
    ask (.load object page.items)
    if page.exhausted then return ()
    else if !truthy page.cursor then
      fail (.refused (s!"Search index {options.logicalIndex} snapshot page is not exhausted and " ++ "has no cursor."))
    else loadPages object opened batchSize maximumPages pages page.cursor

/-- `try { … } finally { await options.snapshot.close(opened.snapshotId) }`. -/
def loadSnapshot (opened : OpenedSnapshot) (batchSize maximumPages : Nat) :
    SearchProgram Document Unit := do
  let loaded ← (loadPages options object opened batchSize maximumPages maximumPages none).attempt
  ask (.closeSnapshot opened.snapshotId)
  Program.check loaded

/-- The batches that may still be read to catch up with the source. -/
def catchUp (object : Nat) (batchSize maximumBatches : Nat) : Nat → SearchProgram Document Unit
  | 0 => fail (.refused (s!"Search index {options.logicalIndex} rebuild did not catch up " ++
      s!"within {maximumBatches} bounded batches."))
  | batches + 1 => do
    let checkpoint ← ask (.checkpointOf object)
    let page ← ask (.readChanges checkpoint batchSize)
    ask (.noteCatchUp object page)
    let _ ← Program.collect page.items fun change => applyToGeneration options object change false
    let checkpoint ← ask (.checkpointOf object)
    if page.exhausted && page.highWatermark ≤ checkpoint then return ()
    else catchUp object batchSize maximumBatches batches

variable (rebuildOptions : RebuildOptions)

/-- What `rebuild` does under its failure handler. -/
def rebuildGeneration (opened : OpenedSnapshot) (object : Nat)
    (batchSize maximumSnapshotPages maximumCatchupBatches : Nat) :
    SearchProgram Document RebuildResult := do
  loadSnapshot options object opened batchSize maximumSnapshotPages
  catchUp options object batchSize maximumCatchupBatches maximumCatchupBatches
  let validation ← ask (.readValidation object)
  -- `await rebuildOptions.validate?.(validation)` awaits in either case
  if rebuildOptions.validates then ask (.validate validation)
  let published ← ask (.cutOver rebuildOptions.generation object)
  return {
    generation := rebuildOptions.generation
    previousGeneration := published.1
    sourceFrontier := opened.frontier
    publishedCheckpoint := published.2.1
    documents := published.2.2
    validation }

def rebuild : SearchProgram Document RebuildResult := do
  let generation := rebuildOptions.generation
  Program.check (assertIdentifier generation "generation")
  ask (.enterRebuild generation)
  let batchSize ←
    Program.check (boundedInteger (rebuildOptions.batchSize.getD 500) 1 2000 "batchSize")
  let maximumSnapshotPages ← Program.check
    (boundedInteger (rebuildOptions.maximumSnapshotPages.getD 10000) 1 100000 "maximumSnapshotPages")
  let maximumCatchupBatches ← Program.check (boundedInteger
    (rebuildOptions.maximumCatchupBatches.getD 10000) 1 100000 "maximumCatchupBatches")
  let opened ← ask .openSnapshot
  Program.check (validatePosition opened.frontier "snapshot frontier")
  if opened.snapshotId = "" then
    fail (.refused s!"Search index {options.logicalIndex} snapshot returned an empty identity.")
  else
    let object ← ask (.allocate generation opened.frontier)
    let outcome ← (rebuildGeneration options rebuildOptions opened object batchSize
      maximumSnapshotPages maximumCatchupBatches).attempt
    match outcome with
    | .ok result => return result
    | .error failure =>
      ask (.discard generation)
      fail failure

inductive Operation where
  | apply (change : CommittedChange)
  | synchronize (batchSize maximumBatches : Option Nat)
  | rebuild (rebuildOptions : RebuildOptions)
  | retire (generation : String)
  deriving DecidableEq

def Operation.body (options : RuntimeOptions) : Operation → SearchProgram Document Unit
  | .apply change => Deterministic.apply options change
  | .synchronize batchSize maximumBatches => do
    let _ ← Deterministic.synchronize options batchSize maximumBatches
  | .rebuild rebuildOptions => do
    let _ ← Deterministic.rebuild options rebuildOptions
  | .retire generation => ask (.retire generation)

end

structure Answer (Document : Type) where
  fails : Bool
  outside : (request : Request Document) → request.Result

def reading {α : Type} (read : Memory Document → Except Failure α) : Stretch Document α :=
  fun memory => (read memory, memory)

def succeeding {α : Type} (run : Memory Document → α × Memory Document) : Stretch Document α :=
  fun memory => (.ok (run memory).1, (run memory).2)

variable (options : RuntimeOptions) (evidence : Record (StoredDocument Document) → RebuildValidation)

def stretch :
    (request : Request Document) → Option (Stretch Document request.Result)
  | .enter change => some (reading (enter options change))
  | .current => some (reading fun memory => do
      let object ← currentGeneration options memory
      return (object, (memory.objects object).checkpoint))
  | .admitChange object change => some (reading (admitChange options object change))
  | .markLagging => some (succeeding fun memory => ((), { memory with projectionState := .lagging }))
  | .write object change hydrated updateActiveState =>
    some (succeeding fun memory => ((), write options object change hydrated updateActiveState memory))
  | .notePage object page => some (notePage object page)
  | .noteCatchUp object page => some (noteCatchUp object page)
  | .checkpointOf object => some (reading fun memory => .ok (memory.objects object).checkpoint)
  | .enterRebuild generation => some (reading (enterRebuild options generation))
  | .allocate generation frontier => some (succeeding (allocate generation frontier))
  | .load object items => some (succeeding fun memory => ((), load object items memory))
  | .readValidation object => some (reading fun memory => .ok (evidence (memory.objects object).documents))
  | .cutOver generation object => some (succeeding (cutOver generation object))
  | .discard generation => some (succeeding fun memory => ((), discard generation memory))
  | .retire generation => some (retireGeneration options generation)
  | _ => none

def server :
    Server (Steps Document) (Memory Document) (Answer Document) where
  answer request answer memory :=
    match stretch options evidence request with
    | some run => run memory
    | none => (if answer.fails then .error .outside else .ok (answer.outside request), memory)

abbrev System (Document : Type) := Crowd (Steps Document) (Memory Document) Failure Unit Operation
abbrev Event (Document : Type) := CrowdEvent Operation (Answer Document)

def next :
    System Document → Event Document → System Document :=
  Crowd.advance (server options evidence) (Operation.body options)

end Applik8s.Search.Deterministic
