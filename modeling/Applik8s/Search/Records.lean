import Applik8s.Lib.Record
import Applik8s.Platform

/-! What the two search runtimes share: `packages/applik8s/src/search-runtime.ts`. -/
namespace Applik8s.Search

/-- `ApplicationSearchCommittedChange`, as far as the runtimes read it. -/
structure CommittedChange where
  id : String
  sourceModel : String
  sourceIdentity : String
  commitPosition : Nat
  transactionId : String
  schemaRevision : String
  recordedAt : String
  deriving DecidableEq

/-- `ApplicationSearchHydratedDocument`; no document is a deleted one. -/
structure HydratedDocument (Document : Type) where
  id : String
  document : Option Document
  sourceProjectionRevision : String

/-- `ApplicationSearchAffectedRoots`. -/
structure AffectedRoots where
  identities : List String
  complete : Bool

/-- `ApplicationSearchChangePage`. -/
structure ChangePage where
  items : List CommittedChange
  retentionFloor : Nat
  highWatermark : Nat
  exhausted : Bool

/-- `ApplicationSearchSnapshotPage`. -/
structure SnapshotPage (Document : Type) where
  items : List (HydratedDocument Document)
  cursor : Option String
  exhausted : Bool

/-- What `ApplicationSearchSnapshotSource.open` answers. -/
structure OpenedSnapshot where
  frontier : Nat
  snapshotId : String

inductive Freshness where
  | current
  | lagging
  | rebuildRequired
  deriving DecidableEq

/-- `ApplicationSearchProjectionState`, with the watermark read beside it. -/
structure ProjectionState where
  activeGeneration : String
  checkpoint : Nat
  state : Freshness
  retentionFloor : Nat
  rebuildingGeneration : Option String
  previousGenerations : List String
  sourceHighWatermark : Nat
  lastAppliedRecordedAt : Option String
  deriving DecidableEq

structure StoredDocument (Document : Type) where
  document : Document
  sourceProjectionRevision : String
  deriving DecidableEq

inductive Failure where
  | historyLoss (checkpoint retentionFloor : Nat)
  | fanOut (changeId : String)
  | refused (message : String)
  /-- Something outside failed: a connection, a source, a callback. -/
  | outside
  deriving DecidableEq

/-- `ApplicationSearchRebuildValidation`; authorization is always compatible, and so is the
schema of documents that are objects. -/
structure RebuildValidation where
  count : Nat
  checksum : String
  sampleIdentities : List String

/-- `ApplicationSearchRebuildResult`. -/
structure RebuildResult where
  generation : String
  previousGeneration : String
  sourceFrontier : Nat
  publishedCheckpoint : Nat
  documents : Nat
  validation : RebuildValidation

structure RebuildOptions where
  generation : String
  batchSize : Option Nat := none
  maximumSnapshotPages : Option Nat := none
  maximumCatchupBatches : Option Nat := none
  /-- Whether there is a validation callback. -/
  validates : Bool := false
  deriving DecidableEq

/-- What a runtime is made with, as far as its projection needs it. -/
structure RuntimeOptions where
  logicalIndex : String
  fanOutCeiling : Nat
  dates : Dates

/-- `Number.isSafeInteger`, of a natural number. -/
def isSafeInteger (value : Nat) : Bool := value ≤ 9007199254740991

def validatePosition (value : Nat) (name : String) : Except Failure Unit :=
  if isSafeInteger value then .ok ()
  else .error (.refused s!"Search {name} must be a non-negative safe integer.")

def boundedInteger (value minimum maximum : Nat) (name : String) : Except Failure Nat :=
  if isSafeInteger value && minimum ≤ value && value ≤ maximum then .ok value
  else .error (.refused s!"Search {name} must be an integer between {minimum} and {maximum}.")

/-- `/^[A-Za-z0-9][A-Za-z0-9._:-]*$/`. -/
def isStableIdentifier (value : String) : Bool :=
  value.toList.head?.any Char.isAlphanum
    && value.toList.all fun c => c.isAlphanum || c = '.' || c = '_' || c = ':' || c = '-'

def assertIdentifier (value name : String) : Except Failure Unit :=
  if isStableIdentifier value then .ok ()
  else .error (.refused s!"Search {name} must be a stable non-empty identifier.")

def validateChange (dates : Dates) (change : CommittedChange) : Except Failure Unit := do
  if change.id = "" || change.sourceModel = "" || change.sourceIdentity = "" then
    .error (.refused "Search committed changes require id, sourceModel, and sourceIdentity.")
  validatePosition change.commitPosition "commitPosition"
  if change.transactionId = "" || change.schemaRevision = "" then
    .error (.refused s!"Search committed change {change.id} requires transactionId and schemaRevision.")
  if (dates.parse change.recordedAt).isNone then
    .error (.refused s!"Search committed change {change.id} recordedAt must be an ISO timestamp.")

section
variable {Document : Type}

/-- `new Map(hydrated.map((candidate) => [candidate.id, candidate])).get(identity)`. -/
def candidate (hydrated : List (HydratedDocument Document)) (identity : String) :
    Option (HydratedDocument Document) :=
  hydrated.reverse.find? (·.id = identity)

/-- One hydrated document put in its place, or taken out. -/
def replaceDocument (documents : Record (StoredDocument Document))
    (hydrated : HydratedDocument Document) : Record (StoredDocument Document) :=
  match hydrated.document with
  | none => documents.erase hydrated.id
  | some document => documents.set hydrated.id ⟨document, hydrated.sourceProjectionRevision⟩

/-- Hydrated documents put in their places one after the other. -/
def replaceDocuments (documents : Record (StoredDocument Document))
    (hydrated : List (HydratedDocument Document)) : Record (StoredDocument Document) :=
  hydrated.foldl replaceDocument documents

end
end Applik8s.Search
