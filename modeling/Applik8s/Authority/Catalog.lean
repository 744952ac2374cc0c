import Applik8s.Authority.Records

/-! How two catalogs of one application compare, operation by operation
(`compareApplicationOperationCatalogs` of `catalog.ts`). -/
namespace Applik8s.Authority

inductive ChangeKind where
  | added | compatible | incompatible | removed | replaced
  deriving DecidableEq

structure CompatibilityChange where
  operationId : OperationId
  kind : ChangeKind
  message : String
  replacement : Option OperationReplacement := none
  deriving DecidableEq

/-- The durable references a comparison may be asked to judge. -/
structure CatalogReferences where
  grantIds : List String := []
  envelopeIds : List String := []
  workflowIds : List String := []
  sessionIds : List String := []
  operationIdsByReference : String → Option (List OperationId) := fun _ => none

structure CompatibilityReport where
  fromRevision : String
  toRevision : String
  compatible : Bool
  changes : List CompatibilityChange
  blockingGrantIds : List String
  blockingEnvelopeIds : List String
  blockingWorkflowIds : List String
  blockingSessionIds : List String

def compareOperation (older newer : OperationDescriptor) : ChangeKind × String :=
  if older.kind ≠ newer.kind ∨ older.targetIdentityDigest ≠ newer.targetIdentityDigest then
    (.incompatible, s!"Operation {older.id} changed kind or target identity.")
  else if older.inputDigest ≠ newer.inputDigest ∨ older.outputDigest ≠ newer.outputDigest then
    (.incompatible, s!"Operation {older.id} changed its input or output schema.")
  else if older.authority.classification ≠ newer.authority.classification ∨
      older.authority.delegable ≠ newer.authority.delegable ∨
      older.authority.grantable ≠ newer.authority.grantable then
    (.incompatible, s!"Operation {older.id} changed its authority classification.")
  else (.compatible, s!"Operation {older.id} remains compatible.")

/-- The operation that says it replaces `operationId`; of several, the last one listed. -/
def replacementFor (catalog : OperationCatalog) (operationId : OperationId) : Option OperationDescriptor :=
  catalog.operations.reverse.find? fun candidate =>
    candidate.replaces.any fun replaces => replaces.operationId = operationId

/-- What happens to an operation that the newer catalog does not hold. -/
def dropOperation (operation : OperationDescriptor) (newer : OperationCatalog) : CompatibilityChange :=
  let removed := s!"Operation {operation.id} was removed without a compatible replacement."
  match replacementFor newer operation.id with
  | none => { operationId := operation.id, kind := .removed, message := removed }
  | some successor =>
    let replacement := successor.replaces.map fun replaces => { replaces with operationId := successor.id }
    if successor.replaces.any OperationReplacement.compatible then
      { operationId := operation.id, kind := .replaced, replacement
        message := s!"Operation {operation.id} is replaced by {successor.id}." }
    else { operationId := operation.id, kind := .removed, replacement, message := removed }

/-- What happens to one operation of the older catalog. A `Map` keeps the last
operation of an id. -/
def operationChange (newer : OperationCatalog) (operation : OperationDescriptor) : CompatibilityChange :=
  match newer.operations.reverse.find? fun candidate => candidate.id = operation.id with
  | none => dropOperation operation newer
  | some next =>
    let (kind, message) := compareOperation operation next
    { operationId := operation.id, kind, message }

def addedChanges (older newer : OperationCatalog) : List CompatibilityChange :=
  (newer.operations.filter fun operation =>
    operation.id ∉ older.operations.map OperationDescriptor.id ∧ operation.replaces = none).map fun operation =>
        { operationId := operation.id, kind := .added, message := s!"Operation {operation.id} was added." }

def referenceOperationKey (kind : ReferenceKind) (referenceId : String) : String :=
  match kind with
  | .grant => s!"grant:{referenceId}"
  | .envelope => s!"envelope:{referenceId}"
  | .workflow => s!"workflow:{referenceId}"
  | .session => s!"session:{referenceId}"

def compareApplicationOperationCatalogs (older newer : OperationCatalog)
    (references : CatalogReferences := {}) : CompatibilityReport :=
  let changes := older.operations.map (operationChange newer) ++ addedChanges older newer
  let incompatibleOperationIds := (changes.filter fun change =>
    change.kind = .removed ∨ change.kind = .incompatible).map CompatibilityChange.operationId
  let blocking := fun kind ids =>
    if incompatibleOperationIds = [] then []
    else ids.filter fun id =>
      match references.operationIdsByReference (referenceOperationKey kind id) with
      | none => true
      | some operationIds =>
        operationIds.isEmpty || operationIds.any fun operationId => operationId ∈ incompatibleOperationIds
  { fromRevision := older.revision
    toRevision := newer.revision
    compatible := incompatibleOperationIds.isEmpty
    changes
    blockingGrantIds := blocking .grant references.grantIds
    blockingEnvelopeIds := blocking .envelope references.envelopeIds
    blockingWorkflowIds := blocking .workflow references.workflowIds
    blockingSessionIds := blocking .session references.sessionIds }

end Applik8s.Authority
