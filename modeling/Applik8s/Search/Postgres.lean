import Applik8s.Lib.Crowd
import Applik8s.Search.Source

/-! The PostgreSQL search runtime, `packages/applik8s/src/search-runtime-postgres.ts`: its
tables for one logical index and revision, its transactions, and the calls that make them. Any
number of calls, in any number of processes, are under way at once; a transaction, and every
answer of a source, is one step. -/
namespace Applik8s.Search.Postgres
open Lib
variable {Document : Type}

/-- The row of `applik8s_search_indexes`. -/
structure IndexRow where
  activeGeneration : String
  rebuildingGeneration : Option String
  state : Freshness
  retentionFloor : Nat
  sourceHighWatermark : Nat
  lastAppliedRecordedAt : Option String
  previousGenerations : List String
  deriving DecidableEq

/-- The tables: `applik8s_search_generations` gives the checkpoint of a generation,
`applik8s_search_documents` its documents, `applik8s_search_applied_changes` the changes applied
to it. -/
structure Tables (Document : Type) where
  index : IndexRow
  generations : String → Option Nat
  documents : String → Record (StoredDocument Document)
  applied : String → List (Nat × String)

variable (options : RuntimeOptions) (tables : Tables Document)

/-- `readDetailedState`: the index joined with its active generation. -/
def readDetailedState : Except Failure ProjectionState :=
  match tables.generations tables.index.activeGeneration with
  | none => .error (.refused "search index state")
  | some checkpoint => .ok
    { activeGeneration := tables.index.activeGeneration
      checkpoint
      state := tables.index.state
      retentionFloor := tables.index.retentionFloor
      rebuildingGeneration := tables.index.rebuildingGeneration
      previousGenerations := tables.index.previousGenerations
      sourceHighWatermark := tables.index.sourceHighWatermark
      lastAppliedRecordedAt := tables.index.lastAppliedRecordedAt }

/-- The update of `setSourcePage`. -/
def recordPage (page : ChangePage) (checkpoint : Nat) (tables : Tables Document) : Tables Document :=
  let highWatermark := max tables.index.sourceHighWatermark page.highWatermark
  { tables with index := { tables.index with
      retentionFloor := page.retentionFloor
      sourceHighWatermark := highWatermark
      state :=
        if checkpoint + 1 < page.retentionFloor then .rebuildRequired
        else if highWatermark ≤ checkpoint then .current
        else .lagging } }

/-- The update of `hydrateChange` when a change affects too many documents. -/
def markLagging : Tables Document :=
  { tables with index := { tables.index with state := .lagging } }

variable (generation : String)

def Tables.withDocuments (documents : Record (StoredDocument Document)) : Tables Document :=
  { tables with documents := Function.update tables.documents generation documents }

def Tables.withCheckpoint (checkpoint : Option Nat) : Tables Document :=
  { tables with generations := Function.update tables.generations generation checkpoint }

def Tables.withApplied (applied : List (Nat × String)) : Tables Document :=
  { tables with applied := Function.update tables.applied generation applied }

/-- `replaceDocuments`, in a transaction. -/
def storeDocuments (hydrated : List (HydratedDocument Document))
    (tables : Tables Document) : Except Failure (Tables Document) :=
  if hydrated.any (·.id = "") then
    .error (.refused "Search hydration returned an empty document identity.")
  else
    .ok (tables.withDocuments generation (replaceDocuments (tables.documents generation) hydrated))

/-- The transaction of `applyToGeneration`: whether the change was applied now. -/
def applyChange (options : RuntimeOptions) (generation : String) (change : CommittedChange)
    (hydrated : List (HydratedDocument Document)) (updateActiveState : Bool)
    (tables : Tables Document) : Except Failure (Bool × Tables Document) := do
  if updateActiveState && tables.index.state = .rebuildRequired then
    let state ← readDetailedState tables
    .error (.historyLoss state.checkpoint state.retentionFloor)
  if updateActiveState && tables.index.activeGeneration ≠ generation then
    .error (.refused (s!"Search index {options.logicalIndex} active generation changed from " ++
      s!"{generation} to {tables.index.activeGeneration} before apply."))
  let some checkpoint := tables.generations generation
    | .error (.refused s!"search generation {generation}")
  if change.commitPosition ≤ checkpoint then
    match (tables.applied generation).find? (·.1 = change.commitPosition) with
    | none => return (false, tables)
    | some (_, appliedId) =>
      if appliedId = change.id then return (false, tables)
      else
        .error (.refused (s!"Search index {options.logicalIndex} commit position " ++
          s!"{change.commitPosition} was already applied as {appliedId}, not {change.id}."))
  else if change.commitPosition ≠ checkpoint + 1 then
    .error (.refused (s!"Search index {options.logicalIndex} cannot advance generation " ++
      s!"{generation} from checkpoint {checkpoint} to non-contiguous commit position " ++
      s!"{change.commitPosition}."))
  else
    let stored ← storeDocuments generation hydrated tables
    if (stored.applied generation).any fun row =>
        row.1 = change.commitPosition || row.2 = change.id then
      .error (.refused "duplicate key value violates unique constraint")
    else
      let advanced := (stored.withApplied generation
        ((change.commitPosition, change.id) :: stored.applied generation)).withCheckpoint
          generation (some change.commitPosition)
      if updateActiveState then
        return (true, { advanced with index := { advanced.index with
          sourceHighWatermark := max advanced.index.sourceHighWatermark change.commitPosition
          lastAppliedRecordedAt := some change.recordedAt
          state := if advanced.index.sourceHighWatermark ≤ change.commitPosition then .current
            else .lagging } })
      else return (true, advanced)

/-- The first transaction of `rebuild`. -/
def beginRebuild (tables : Tables Document) :
    Except Failure (Tables Document) := do
  if tables.index.activeGeneration = generation then
    .error (.refused s!"Search index {options.logicalIndex} cannot rebuild its active generation in place.")
  match tables.index.rebuildingGeneration with
  | some rebuilding =>
    if rebuilding ≠ "" && rebuilding ≠ generation then
      .error (.refused s!"Search index {options.logicalIndex} is already rebuilding generation {rebuilding}.")
  | none => pure ()
  return ((({ tables with index := { tables.index with
    rebuildingGeneration := some generation } }).withApplied generation []).withDocuments
      generation []).withCheckpoint generation (some 0)

/-- The transaction that writes one page of the snapshot, without the lock. -/
def writePage (items : List (HydratedDocument Document)) (frontier : Nat)
    (tables : Tables Document) : Except Failure (Tables Document) := do
  let stored ← storeDocuments generation items tables
  match stored.generations generation with
  | some _ => return stored.withCheckpoint generation (some frontier)
  | none => return stored

/-- The transaction that makes a rebuilt generation the active one; it tells which one was. -/
def cutOver (rebuildingCheckpoint : Nat)
    (tables : Tables Document) : Except Failure (String × Tables Document) :=
  if tables.index.rebuildingGeneration.getD "null" ≠ generation then
    .error (.refused s!"Search index {options.logicalIndex} rebuilding generation changed before cutover.")
  else if rebuildingCheckpoint < tables.index.sourceHighWatermark then
    .error (.refused (s!"Search index {options.logicalIndex} generation {generation} cannot cut " ++
      s!"over at checkpoint {rebuildingCheckpoint} behind source high watermark " ++
      s!"{tables.index.sourceHighWatermark}."))
  else
    .ok (tables.index.activeGeneration, { tables with index := { tables.index with
      activeGeneration := generation
      rebuildingGeneration := none
      state := .current
      previousGenerations :=
        distinctValues (tables.index.previousGenerations ++ [tables.index.activeGeneration]) } })

def Tables.without : Tables Document :=
  ((tables.withApplied generation []).withDocuments generation []).withCheckpoint generation none

/-- The transaction of the failure handler of `rebuild`. -/
def discard (tables : Tables Document) : Tables Document :=
  { tables.without generation with index := { tables.index with
    rebuildingGeneration :=
      if tables.index.rebuildingGeneration = some generation then none
      else tables.index.rebuildingGeneration } }

/-- The transaction of `retire`. -/
def retireGeneration (tables : Tables Document) :
    Except Failure (Tables Document) :=
  if tables.index.activeGeneration = generation then
    .error (.refused s!"Search index {options.logicalIndex} cannot retire its active generation.")
  else if tables.index.rebuildingGeneration.getD "null" = generation then
    .error (.refused s!"Search index {options.logicalIndex} cannot retire its rebuilding generation.")
  else
    .ok { tables.without generation with index := { tables.index with
      previousGenerations := tables.index.previousGenerations.filter (· ≠ generation) } }

section
/-- The steps of a call: its transactions, the state view of its process, and what it asks of
the change source, the hydration, the snapshot source and the validation callback. -/
inductive Request (Document : Type) where
  | readState
  | remember (process : Nat) (state : ProjectionState)
  | recall (process : Nat)
  | recordPage (page : ChangePage) (checkpoint : Nat)
  | markLagging
  | applyChange (generation : String) (change : CommittedChange)
      (hydrated : List (HydratedDocument Document)) (updateActiveState : Bool)
  | beginRebuild (generation : String)
  | writePage (generation : String) (items : List (HydratedDocument Document)) (frontier : Nat)
  | readAggregate (generation : String)
  | readSample (generation : String)
  | cutOver (generation : String) (rebuildingCheckpoint : Nat)
  | discard (generation : String)
  | retire (generation : String)
  | readChanges (afterCommitPosition limit : Nat)
  | affectedRoots (change : CommittedChange) (maximum : Nat)
  | hydrate (identities : List String) (frontier : Nat)
  | openSnapshot
  | readSnapshot (snapshotId : String) (cursor : Option String) (limit : Nat)
  | closeSnapshot (snapshotId : String)
  | validate (evidence : RebuildValidation)

@[reducible] def Request.Result : Request Document → Type
  | .readState => ProjectionState
  | .recall _ => ProjectionState
  | .applyChange _ _ _ _ => Bool
  | .readAggregate _ => Nat × String
  | .readSample _ => List String
  | .cutOver _ _ => String
  | .readChanges _ _ => ChangePage
  | .affectedRoots _ _ => AffectedRoots
  | .hydrate _ _ => List (HydratedDocument Document)
  | .openSnapshot => OpenedSnapshot
  | .readSnapshot _ _ _ => SnapshotPage Document
  | _ => Unit

def Steps (Document : Type) : Interface where
  Call := Request Document
  Reply request := Except Failure request.Result

abbrev SearchProgram (Document α : Type) := Program (Steps Document) Failure α

def ask (request : Request Document) : SearchProgram Document request.Result :=
  .call request Program.check

def fail {α : Type} (failure : Failure) : SearchProgram Document α := .throw failure

variable (options : RuntimeOptions) (process : Nat)

def refresh : SearchProgram Document Unit := do
  let detailed ← ask .readState
  ask (.remember process detailed)

/-- `cachedState`. -/
def cachedState : SearchProgram Document ProjectionState := ask (.recall process)

def setSourcePage (page : ChangePage) (checkpoint : Nat) : SearchProgram Document Unit := do
  Program.check (validatePosition page.retentionFloor "retentionFloor")
  Program.check (validatePosition page.highWatermark "highWatermark")
  ask (.recordPage page checkpoint)
  refresh process
  if checkpoint + 1 < page.retentionFloor then
    fail (.historyLoss checkpoint page.retentionFloor)

variable (generation : String) (change : CommittedChange)

def hydrateChange :
    SearchProgram Document (List (HydratedDocument Document)) := do
  Program.check (validateChange options.dates change)
  let affected ← ask (.affectedRoots change (options.fanOutCeiling + 1))
  if !affected.complete || options.fanOutCeiling < affected.identities.length then
    ask .markLagging
    refresh process
    fail (.fanOut change.id)
  else
    let identities := sortStrings (distinctValues affected.identities)
    let hydrated ← ask (.hydrate identities change.commitPosition)
    return placed identities hydrated

def applyToGeneration (hydrated : List (HydratedDocument Document)) (updateActiveState : Bool) :
    SearchProgram Document Bool := do
  let applied ← ask (.applyChange generation change hydrated updateActiveState)
  refresh process
  return applied

def apply : SearchProgram Document Unit := do
  refresh process
  let state ← cachedState process
  if state.state = .rebuildRequired then
    fail (.historyLoss state.checkpoint state.retentionFloor)
  else
    let hydrated ← hydrateChange options process change
    let _ ← applyToGeneration process state.activeGeneration change hydrated true
    return ()

/-- The batches of `synchronize` that are left: how many changes were applied, the checkpoint
and whether the source was exhausted. -/
def synchronizeBatches (batchSize : Nat) : Nat → Nat → SearchProgram Document (Nat × Nat × Bool)
  | 0, applied => do
    let state ← cachedState process
    return (applied, state.checkpoint, false)
  | batches + 1, applied => do
    refresh process
    let state ← cachedState process
    if state.state = .rebuildRequired then
      fail (.historyLoss state.checkpoint state.retentionFloor)
    else
      let page ← ask (.readChanges state.checkpoint batchSize)
      setSourcePage process page state.checkpoint
      let outcomes ← Program.collect page.items fun change => do
        let hydrated ← hydrateChange options process change
        applyToGeneration process state.activeGeneration change hydrated true
      let applied := applied + outcomes.count true
      refresh process
      if page.exhausted then
        let state ← cachedState process
        return (applied, state.checkpoint, true)
      else synchronizeBatches batchSize batches applied

def synchronize (batchSize maximumBatches : Option Nat) :
    SearchProgram Document (Nat × Nat × Bool) := do
  let batchSize ← Program.check (boundedInteger (batchSize.getD 250) 1 1000 "batchSize")
  let maximumBatches ←
    Program.check (boundedInteger (maximumBatches.getD 100) 1 10000 "maximumBatches")
  synchronizeBatches options process batchSize maximumBatches 0

def writePages (generation : String) (opened : OpenedSnapshot) (batchSize maximumPages : Nat) :
    Nat → Option String → SearchProgram Document Unit
  | 0, _ => fail (.refused (s!"Search index {options.logicalIndex} rebuild exceeded its " ++
      s!"{maximumPages}-page snapshot bound."))
  | pages + 1, cursor => do
    let page ← ask (.readSnapshot opened.snapshotId cursor batchSize)
    ask (.writePage generation page.items opened.frontier)
    if page.exhausted then return ()
    else if !truthy page.cursor then
      fail (.refused (s!"Search index {options.logicalIndex} snapshot page is not exhausted and " ++ "has no cursor."))
    else writePages generation opened batchSize maximumPages pages page.cursor

/-- `try { … } finally { await options.snapshot.close(opened.snapshotId) }`. -/
def loadSnapshot (opened : OpenedSnapshot) (batchSize maximumPages : Nat) :
    SearchProgram Document Unit := do
  let loaded ← (writePages options generation opened batchSize maximumPages maximumPages none).attempt
  ask (.closeSnapshot opened.snapshotId)
  Program.check loaded

/-- The changes of a page applied to the rebuilding generation; the checkpoint behind them. -/
def catchUpItems (generation : String) :
    List CommittedChange → Nat → SearchProgram Document Nat
  | [], rebuildingCheckpoint => return rebuildingCheckpoint
  | change :: rest, _ => do
    let hydrated ← hydrateChange options process change
    let _ ← applyToGeneration process generation change hydrated false
    catchUpItems generation rest change.commitPosition

/-- The batches that may still be read to catch up with the source. -/
def catchUp (generation : String) (batchSize maximumBatches : Nat) :
    Nat → Nat → SearchProgram Document Nat
  | 0, _ => fail (.refused (s!"Search index {options.logicalIndex} rebuild did not catch up " ++
      s!"within {maximumBatches} bounded batches."))
  | batches + 1, rebuildingCheckpoint => do
    let page ← ask (.readChanges rebuildingCheckpoint batchSize)
    setSourcePage process page rebuildingCheckpoint
    let rebuildingCheckpoint ← catchUpItems options process generation page.items rebuildingCheckpoint
    if page.exhausted && page.highWatermark ≤ rebuildingCheckpoint then return rebuildingCheckpoint
    else catchUp generation batchSize maximumBatches batches rebuildingCheckpoint

def readValidation : SearchProgram Document RebuildValidation := do
  let aggregate ← ask (.readAggregate generation)
  let sample ← ask (.readSample generation)
  return ⟨aggregate.1, aggregate.2, sample⟩

/-- The cutover of `rebuild`, and its result. -/
def publish (opened : OpenedSnapshot) (rebuildingCheckpoint : Nat)
    (validation : RebuildValidation) : SearchProgram Document RebuildResult := do
  let previousGeneration ← ask (.cutOver generation rebuildingCheckpoint)
  refresh process
  let state ← cachedState process
  return {
    generation
    previousGeneration
    sourceFrontier := opened.frontier
    publishedCheckpoint := state.checkpoint
    documents := validation.count
    validation }

/-- What `rebuild` does under its failure handler. -/
def rebuildGeneration (rebuildOptions : RebuildOptions)
    (batchSize maximumSnapshotPages maximumCatchupBatches : Nat) :
    SearchProgram Document RebuildResult := do
  let generation := rebuildOptions.generation
  let opened ← ask .openSnapshot
  Program.check (validatePosition opened.frontier "snapshot frontier")
  if opened.snapshotId = "" then
    fail (.refused s!"Search index {options.logicalIndex} snapshot returned an empty identity.")
  else
    loadSnapshot options generation opened batchSize maximumSnapshotPages
    let rebuildingCheckpoint ← catchUp options process generation batchSize maximumCatchupBatches
      maximumCatchupBatches opened.frontier
    let validation ← readValidation generation
    if rebuildOptions.validates then
      ask (.validate validation)
      publish process generation opened rebuildingCheckpoint validation
    else publish process generation opened rebuildingCheckpoint validation

def rebuild (rebuildOptions : RebuildOptions) : SearchProgram Document RebuildResult := do
  let generation := rebuildOptions.generation
  Program.check (assertIdentifier generation "generation")
  let batchSize ←
    Program.check (boundedInteger (rebuildOptions.batchSize.getD 500) 1 2000 "batchSize")
  let maximumSnapshotPages ← Program.check
    (boundedInteger (rebuildOptions.maximumSnapshotPages.getD 10000) 1 100000 "maximumSnapshotPages")
  let maximumCatchupBatches ← Program.check (boundedInteger
    (rebuildOptions.maximumCatchupBatches.getD 10000) 1 100000 "maximumCatchupBatches")
  refresh process
  let state ← cachedState process
  if generation = state.activeGeneration then
    fail (.refused s!"Search index {options.logicalIndex} cannot rebuild its active generation in place.")
  else
    ask (.beginRebuild generation)
    refresh process
    let outcome ← (rebuildGeneration options process rebuildOptions batchSize maximumSnapshotPages
      maximumCatchupBatches).attempt
    match outcome with
    | .ok result => return result
    | .error failure =>
      ask (.discard generation)
      refresh process
      fail failure

def retire : SearchProgram Document Unit := do
  Program.check (assertIdentifier generation "generation")
  ask (.retire generation)
  refresh process

/-- The calls on a projection. A search leaves nothing but the state view it has read, as
`refresh` does. -/
inductive Operation where
  | refresh
  | apply (change : CommittedChange)
  | synchronize (batchSize maximumBatches : Option Nat)
  | rebuild (rebuildOptions : RebuildOptions)
  | retire (generation : String)
  deriving DecidableEq

structure Call where
  process : Nat
  operation : Operation
  deriving DecidableEq

def Call.body (options : RuntimeOptions) (call : Call) : SearchProgram Document Unit :=
  match call.operation with
  | .refresh => refresh call.process
  | .apply change => apply options call.process change
  | .synchronize batchSize maximumBatches => do
    let _ ← synchronize options call.process batchSize maximumBatches
  | .rebuild rebuildOptions => do
    let _ ← rebuild options call.process rebuildOptions
  | .retire generation => retire call.process generation

end

structure World (Document : Type) where
  tables : Tables Document
  caches : Nat → ProjectionState

/-- How a step ends: answered, lost before it took effect, or in effect and its answer lost. -/
inductive Fate where
  | answered
  | lost
  | unacknowledged
  deriving DecidableEq

structure Answer (Document : Type) where
  fate : Fate
  outside : (request : Request Document) → request.Result

def transact {α : Type} (fate : Fate) (tables : Tables Document)
    (outcome : Except Failure (α × Tables Document)) : Except Failure α × Tables Document :=
  match fate, outcome with
  | .lost, _ => (.error .outside, tables)
  | _, .error failure => (.error failure, tables)
  | .answered, .ok (value, after) => (.ok value, after)
  | .unacknowledged, .ok (_, after) => (.error .outside, after)

def fromOutside (answer : Answer Document) (request : Request Document) :
    Except Failure request.Result :=
  match answer.fate with
  | .answered => .ok (answer.outside request)
  | _ => .error .outside

def silent (outcome : Except Failure (Tables Document)) : Except Failure (Unit × Tables Document) :=
  outcome.map ((), ·)

variable (options : RuntimeOptions) (checksum : Record (StoredDocument Document) → String)

def transaction (tables : Tables Document) :
    (request : Request Document) → Option (Except Failure (request.Result × Tables Document))
  | .readState => some ((readDetailedState tables).map (·, tables))
  | .recordPage page checkpoint => some (.ok ((), recordPage page checkpoint tables))
  | .markLagging => some (.ok ((), markLagging tables))
  | .applyChange generation change hydrated updateActiveState =>
    some (applyChange options generation change hydrated updateActiveState tables)
  | .beginRebuild generation => some (silent (beginRebuild options generation tables))
  | .writePage generation items frontier => some (silent (writePage generation items frontier tables))
  | .readAggregate generation =>
    some (.ok (((tables.documents generation).length, checksum (tables.documents generation)), tables))
  | .readSample generation => some (.ok ((sortStrings ((tables.documents generation).map Prod.fst)).take 10, tables))
  | .cutOver generation rebuildingCheckpoint => some (cutOver options generation rebuildingCheckpoint tables)
  | .discard generation => some (.ok ((), discard generation tables))
  | .retire generation => some (silent (retireGeneration options generation tables))
  | _ => none

/-- The database, the processes' memories and the outside world. -/
def server (options : RuntimeOptions) (checksum : Record (StoredDocument Document) → String) :
    Server (Steps Document) (World Document) (Answer Document) where
  answer request answer world :=
    match request with
    | .remember process state => (.ok (), { world with caches := Function.update world.caches process state })
    | .recall process => (.ok (world.caches process), world)
    | request =>
      match transaction options checksum world.tables request with
      | some outcome =>
        let (reply, tables) := transact answer.fate world.tables outcome
        (reply, { world with tables })
      | none => (fromOutside answer request, world)

abbrev System (Document : Type) := Crowd (Steps Document) (World Document) Failure Unit Call
abbrev Event (Document : Type) := CrowdEvent Call (Answer Document)

def next :
    System Document → Event Document → System Document :=
  Crowd.advance (server options checksum) (Call.body options)

end Applik8s.Search.Postgres
