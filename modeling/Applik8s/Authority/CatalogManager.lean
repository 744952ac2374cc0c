import Applik8s.Lib.Turns
import Applik8s.Authority.Catalog

/-! `ApplicationOperationCatalogManager`. Its operations run one at a time under the
repository's transaction lock; each waits for the repository at every call, and
references to a catalog may come and go while it waits, since not every writer of
references takes that lock. The repository is the PostgreSQL one. -/
namespace Applik8s.Authority
open Lib

/-- A stored catalog: what authority reads of it, and what its lifecycle adds. -/
structure CatalogRecord extends OperationCatalog where
  digest : String
  predecessor : Option String := none
  stagedAt : Option String := none
  activatedAt : Option String := none
  drainingAt : Option String := none
  retiredAt : Option String := none
  deriving DecidableEq

/-- The primary key of `applik8s_operation_catalogs`. -/
abbrev CatalogKey := String × String

instance : Keyed CatalogRecord CatalogKey := ⟨fun record => (record.application, record.revision)⟩

structure CatalogStore where
  catalogs : Table CatalogRecord
  /-- `applik8s_operation_catalog_references`, application by application. -/
  references : String → Table CatalogReference
  /-- The revision whose references the transaction that was begun last has read. The
  repository itself does not keep it. -/
  inspected : Option CatalogKey

def CatalogStore.empty : CatalogStore := ⟨.empty, fun _ => .empty, none⟩

def referenceIds (rows : List CatalogReference) (kind : ReferenceKind) : List String :=
  sortStrings ((rows.filter fun row => row.kind = kind).map CatalogReference.referenceId)

/-- `references(application, revision)`. -/
def CatalogStore.referencesTo (store : CatalogStore) (key : CatalogKey) : CatalogReferences :=
  let rows := (store.references key.1).rows.filter fun row => row.revision = key.2
  { grantIds := referenceIds rows .grant
    envelopeIds := referenceIds rows .envelope
    workflowIds := referenceIds rows .workflow
    sessionIds := referenceIds rows .session
    operationIdsByReference := fun text =>
      (rows.find? fun row => referenceOperationKey row.kind row.referenceId = text).map CatalogReference.operationIds }

/-- `list(application)`, in the order of the revisions. -/
def CatalogStore.list (store : CatalogStore) (application : String) : List CatalogRecord :=
  (store.catalogs.rows.filter fun record => record.application = application).insertionSort
    fun left right => ¬ stringLess right.revision left.revision

inductive CatalogCall where
  /-- The advisory lock of a transaction. -/
  | lock (application : String)
  | list (application : String)
  | get (key : CatalogKey)
  | put (record : CatalogRecord)
  | references (key : CatalogKey)

def CatalogCall.Reply : CatalogCall → Type
  | .lock _ => Unit
  | .list _ => List CatalogRecord
  | .get _ => Option CatalogRecord
  | .put _ => Unit
  | .references _ => CatalogReferences

abbrev CatalogInterface : Interface := ⟨CatalogCall, CatalogCall.Reply⟩

def CatalogStore.answer : (request : CatalogCall) → CatalogStore → request.Reply × CatalogStore
  | .lock _, store => ((), { store with inspected := none })
  | .list application, store => (store.list application, store)
  | .get key, store => (store.catalogs.find? key, store)
  | .put record, store => ((), { store with catalogs := store.catalogs.put record })
  | .references key, store => (store.referencesTo key, { store with inspected := some key })

/-- `putReference` and `removeReference`, also as the authority repository has them. -/
inductive ReferenceWrite where
  | put (application : String) (reference : CatalogReference)
  | remove (application revision : String) (kind : ReferenceKind) (referenceId : String)

def CatalogReference.stored (reference : CatalogReference) : CatalogReference :=
  { reference with operationIds := sortStrings (distinctValues reference.operationIds) }

def CatalogStore.withReferences (store : CatalogStore) (application : String) (rows : Table CatalogReference) :
    CatalogStore :=
  { store with references := Function.update store.references application rows }

def CatalogStore.write : ReferenceWrite → CatalogStore → CatalogStore
  | .put application reference, store =>
    store.withReferences application ((store.references application).put reference.stored)
  | .remove application revision kind referenceId, store =>
    store.withReferences application ((store.references application).remove (revision, kind, referenceId))

def catalogFloor : Floor CatalogInterface CatalogStore ReferenceWrite where
  answer := CatalogStore.answer
  yields _ := true
  disturb := CatalogStore.write

inductive CatalogErrorCode where
  | invalid | invalidState | revisionConflict | predecessorMismatch | incompatible | referenced | notFound
  deriving DecidableEq

structure CatalogError where
  code : CatalogErrorCode
  message : String
  deriving DecidableEq

inductive CatalogDiagnosticCode where
  | invalidOperationId | duplicateOperation | unclassifiedOperation | invalidScope
  deriving DecidableEq

structure CatalogDiagnostic where
  code : CatalogDiagnosticCode
  message : String
  path : String
  deriving DecidableEq

/-- The findings about one operation; `earlier` are the ids before it. -/
def operationDiagnostics (revision : String) (earlier : List OperationId) (index : Nat)
    (operation : OperationDescriptor) : List CatalogDiagnostic :=
  let path := s!"operations[{index}]"
  (if operation.id.startsWith "applik8s://" ∧ ¬ (operation.id.splitOn "/actions/").length > 1 then []
    else [⟨.invalidOperationId,
      s!"Operation {operation.name} must use a stable applik8s://.../operations/... identity.", s!"{path}.id"⟩]) ++
  (if operation.id ∈ earlier then
    [⟨.duplicateOperation,
      s!"Operation identity {operation.id} appears more than once in catalog {revision}.", s!"{path}.id"⟩]
    else []) ++
  (if operation.authority.classification = .unclassified then
    [⟨.unclassifiedOperation, s!"Operation {operation.id} is externally reachable but has no authority classification.",
      s!"{path}.authority.classification"⟩]
    else []) ++
  (validateApplicationScope operation.authority.defaultScope s!"{path}.authority.defaultScope").map
    fun finding => ⟨.invalidScope, finding.message, finding.path⟩

def validateApplicationOperationCatalog (catalog : CatalogRecord) : List CatalogDiagnostic :=
  catalog.operations.zipIdx.flatMap fun entry =>
    operationDiagnostics catalog.revision ((catalog.operations.take entry.2).map OperationDescriptor.id) entry.2 entry.1

structure CatalogTransition where
  catalog : CatalogRecord
  predecessor : Option CatalogRecord := none
  compatibility : Option CompatibilityReport := none

abbrev CatalogProgram := Program CatalogInterface CatalogError

namespace Catalogs
variable (application : String)

def lock : CatalogProgram Unit := .call (.lock application) .done
def list : CatalogProgram (List CatalogRecord) := .call (.list application) .done
def get (key : CatalogKey) : CatalogProgram (Option CatalogRecord) := .call (.get key) .done
def put (record : CatalogRecord) : CatalogProgram Unit := .call (.put record) .done
def references (key : CatalogKey) : CatalogProgram CatalogReferences := .call (.references key) .done

def activeOf (catalogs : List CatalogRecord) : Option CatalogRecord :=
  catalogs.find? fun candidate => candidate.state = .active

/-- The catalog a transition starts from: the one it names, or the active one. -/
def predecessorOf (named : Option String) (active : Option CatalogRecord) :
    CatalogProgram (Option CatalogRecord) :=
  match whenTruthy named with
  | some revision => get (application, revision)
  | none => pure active

def requiredCatalog (key : CatalogKey) : CatalogProgram CatalogRecord := do
  match ← get key with
  | some catalog => return catalog
  | none => .throw ⟨.notFound, s!"Operation catalog {key.1}/{key.2} does not exist."⟩

/-- What staging a revision answers that is there already. -/
def stagedBefore (catalog existing : CatalogRecord) : CatalogProgram CatalogTransition := do
  if existing.digest ≠ catalog.digest then
    .throw ⟨.revisionConflict, s!"Catalog revision {catalog.revision} already exists with digest {existing.digest}."⟩
  else
    let active := activeOf (← list catalog.application)
    let predecessor ← predecessorOf catalog.application existing.predecessor active
    return { catalog := existing, predecessor
             compatibility := predecessor.map fun predecessor =>
               compareApplicationOperationCatalogs predecessor.toOperationCatalog existing.toOperationCatalog }

variable (now : String) (catalog : CatalogRecord)

def stage : CatalogProgram CatalogTransition := do
  let diagnostics := validateApplicationOperationCatalog catalog
  if diagnostics ≠ [] then
    .throw ⟨.invalid, s!"Operation catalog {catalog.revision} is invalid: " ++
      join " " (diagnostics.map CatalogDiagnostic.message)⟩
  else if catalog.state ≠ .proposed then
    .throw ⟨.invalidState, s!"Only proposed catalogs can be staged; {catalog.revision} is {catalog.state}."⟩
  else
    lock catalog.application
    match ← get (catalog.application, catalog.revision) with
    | some existing => stagedBefore catalog existing
    | none =>
      let active := activeOf (← list catalog.application)
      let predecessor ← predecessorOf catalog.application catalog.predecessor active
      match active.filter fun active => predecessor.map (·.revision) ≠ some active.revision with
      | some active =>
        .throw ⟨.predecessorMismatch, s!"Catalog {catalog.revision} must name active revision " ++
          s!"{active.revision} as its predecessor."⟩
      | none =>
        let staged := { catalog with state := .staged, stagedAt := some now }
        put staged
        return { catalog := staged, predecessor
                 compatibility := predecessor.map fun predecessor =>
                   compareApplicationOperationCatalogs predecessor.toOperationCatalog catalog.toOperationCatalog }

/-- The references that stand in the way of a change of catalogs. -/
def blockers (report : CompatibilityReport) : List String :=
  report.blockingGrantIds ++ report.blockingEnvelopeIds ++ report.blockingWorkflowIds ++ report.blockingSessionIds

def drained : CatalogRecord :=
  { catalog with state := .draining, drainingAt := some now }

def activated : CatalogRecord :=
  { catalog with state := .active, activatedAt := some now }

def retired : CatalogRecord :=
  { catalog with state := .retired, retiredAt := some now }

/-- Puts a candidate in the place of the active catalog. -/
def replaceActive (now application : String) (candidate active : CatalogRecord) :
    CatalogProgram CatalogTransition := do
  let recorded ← references (application, active.revision)
  let report := compareApplicationOperationCatalogs active.toOperationCatalog candidate.toOperationCatalog recorded
  if ¬ report.compatible ∧ blockers report ≠ [] then
    .throw ⟨.incompatible,
      s!"Catalog {candidate.revision} cannot activate while incompatible operations remain referenced: " ++
      join ", " (blockers report) ++ ". Migrate or drain those durable references before activation."⟩
  else
    put (drained now active)
    put (activated now candidate)
    return { catalog := activated now candidate, predecessor := some active, compatibility := some report }

def activate (now application revision : String) : CatalogProgram CatalogTransition := do
  lock application
  let candidate ← requiredCatalog (application, revision)
  if candidate.state = .active then return { catalog := candidate }
  else if candidate.state ≠ .staged then
    .throw ⟨.invalidState, s!"Catalog {revision} must be staged before activation; it is {candidate.state}."⟩
  else
    match activeOf (← list application) with
    | some active => replaceActive now application candidate active
    | none =>
      put (activated now candidate)
      return { catalog := activated now candidate }

def allReferences (recorded : CatalogReferences) : List String :=
  recorded.grantIds ++ recorded.envelopeIds ++ recorded.workflowIds ++ recorded.sessionIds

def retire (now application revision : String) : CatalogProgram CatalogRecord := do
  lock application
  let catalog ← requiredCatalog (application, revision)
  if catalog.state = .retired then return catalog
  else if catalog.state ≠ .draining then
    .throw ⟨.invalidState, s!"Only a draining catalog can retire; {revision} is {catalog.state}."⟩
  else
    let blocking := allReferences (← references (application, revision))
    if blocking ≠ [] then
      .throw ⟨.referenced, s!"Catalog {revision} still has {blocking.length} live reference(s): " ++
        join ", " blocking ++ "."⟩
    else
      put (retired now catalog)
      return retired now catalog

end Catalogs

inductive CatalogOperation where
  | stage (now : String) (catalog : CatalogRecord)
  | activate (now application revision : String)
  | retire (now application revision : String)

inductive CatalogAnswer where
  | transition (transition : CatalogTransition)
  | retired (catalog : CatalogRecord)

def CatalogOperation.body : CatalogOperation → CatalogProgram CatalogAnswer
  | .stage now catalog => do return .transition (← Catalogs.stage now catalog)
  | .activate now application revision => do return .transition (← Catalogs.activate now application revision)
  | .retire now application revision => do return .retired (← Catalogs.retire now application revision)

abbrev CatalogDesk := Desk CatalogInterface CatalogStore CatalogError CatalogAnswer CatalogOperation
abbrev CatalogEvent := DeskEvent CatalogOperation ReferenceWrite

def CatalogDesk.advance (desk : CatalogDesk) (event : CatalogEvent) : CatalogDesk :=
  Desk.advance catalogFloor CatalogOperation.body desk event

def CatalogDesk.fresh : CatalogDesk := { world := .empty }

end Applik8s.Authority
