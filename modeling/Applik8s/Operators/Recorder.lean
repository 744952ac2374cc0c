import Applik8s.Lib.Record
import Applik8s.Operators.Operations
import Applik8s.Platform

/-! Handler dispatch, `packages/sdk/src/handler-dispatch.ts`: the recorder behind a handler's
scope and context, and the normalization of what it recorded into an operation plan. The
overloads of the source tell bare objects, operations, plans and targets apart by the
members a value has, above all by its `kind`. -/
namespace Applik8s.Operators

/-- A value in a place the source types as an operation or an operation input: an
operation, or a bare manifest or reference. -/
inductive Entry where
  | operation (operation : Operation)
  | object (resource : KubernetesObject)
  | reference (ref : ObjectRef)
  deriving DecidableEq

/-- The `kind` member every one of them has. -/
def Entry.kind : Entry → String
  | .operation effect => effect.kind
  | .object resource => resource.kind
  | .reference ref => ref.kind

/-- The type annotations of the recorder's buckets: entries whose `kind` is one of a few. -/
abbrev Tagged (kinds : List String) := { entry : Entry // entry.kind ∈ kinds }

/-- `ApplyOperationInput`. -/
inductive ApplyOperationInput where
  | object (resource : KubernetesObject)
  | operation (operation : ApplyOperation)
  deriving DecidableEq

/-- `DeleteOperationInput`. -/
inductive DeleteOperationInput where
  | reference (ref : ObjectRef)
  | operation (operation : Tagged ["delete"])
  deriving DecidableEq

abbrev PatchLikeOperation := Tagged ["patch", "status"]
abbrev EventEntry := Tagged ["event"]
abbrev FinalizerEntry := Tagged ["finalizer"]

/-- `HandlerResult`; `diagnostics` passes through unread. -/
structure HandlerResult where
  apply : Option (List ApplyOperationInput) := none
  patch : Option (List PatchLikeOperation) := none
  delete : Option (List DeleteOperationInput) := none
  status : Option Json := none
  events : Option (List EventEntry) := none
  finalizers : Option (List FinalizerEntry) := none
  requeue : Option RequeuePolicy := none
  deriving DecidableEq

def truthyJson : Json → Bool
  | .null => false
  | .boolean value => value
  | .number value => value ≠ 0
  | .string text => text ≠ ""
  | .array _ | .object _ => true

/-- `finalizer.operation === 'add'`. -/
def FinalizerEntry.adds (finalizer : FinalizerEntry) : Bool :=
  match finalizer.val with
  | .operation (.finalizer operation) => operation.operation = .add
  | _ => false

/-- An apply input as `normalizeHandlerResult` emits it, by `isApplyOperation`. -/
def ApplyOperationInput.normalized : ApplyOperationInput → Entry
  | .operation effect => .operation (.apply effect)
  | .object resource =>
    if resource.kind = "apply" then .object resource
    else .operation (.apply { resource := resource })

/-- A delete input as `normalizeHandlerResult` emits it, by `isDeleteOperation`. -/
def DeleteOperationInput.normalized : DeleteOperationInput → Entry
  | .operation effect => effect.val
  | .reference ref =>
    if ref.kind = "delete" then .reference ref
    else .operation (.delete { ref := ref })

def normalizeHandlerResult (result : HandlerResult) : List Entry :=
  let finalizers := result.finalizers.getD []
  (finalizers.filter FinalizerEntry.adds).map Subtype.val ++ (result.apply.getD []).map ApplyOperationInput.normalized
    ++ (result.patch.getD []).map Subtype.val
    ++ (result.delete.getD []).map DeleteOperationInput.normalized
    ++ ((result.status.filter truthyJson).map fun status => Entry.operation (.status { status := status })).toList
    ++ (result.events.getD []).map Subtype.val
    ++ (finalizers.filter fun finalizer => !finalizer.adds).map Subtype.val
    ++ (result.requeue.map fun policy => Entry.operation (.requeue policy)).toList

def mergeStatus : Option Json → Option Json → Option Json
  | none, explicit => explicit
  | recorded, none => recorded
  | some (.object recorded), some (.object explicit) => some (.object (Record.assign recorded explicit))
  | _, explicit => explicit

def joined {α : Type} : Option (List α) → Option (List α) → Option (List α)
  | none, none => none
  | recorded, explicit => some (recorded.getD [] ++ explicit.getD [])

def mergeHandlerResults (recorded : HandlerResult) (explicit : Option HandlerResult) :
    HandlerResult :=
  match explicit with
  | none => recorded
  | some explicit =>
    { apply := joined recorded.apply explicit.apply
      patch := joined recorded.patch explicit.patch
      delete := joined recorded.delete explicit.delete
      status := (mergeStatus recorded.status explicit.status).filter (· ≠ .object [])
      events := joined recorded.events explicit.events
      finalizers := joined recorded.finalizers explicit.finalizers
      requeue := explicit.requeue <|> recorded.requeue }

structure ApplyTargetOptions where
  fieldManager : Option String := none
  force : Option Bool := none
  owner : Option ObjectRef := none
  ownership : Option ApplyOwnership := none
  deriving DecidableEq

structure DeleteTargetOptions extends DeleteOptions where
  owner : Option ObjectRef := none
  deriving DecidableEq

structure RemoteApplyTargetOptions where
  fieldManager : Option String := none
  force : Option Bool := none
  ownership : Option ApplyOwnership := none
  authority : RemoteMutationAuthority
  deriving DecidableEq

structure RemoteDeleteTargetOptions extends DeleteOptions where
  authority : RemoteMutationAuthority
  deriving DecidableEq

/-- `OperationTargetLoweringArtifacts`, without the dry-run plan. -/
structure LoweringArtifacts where
  applyPlan : List Operation
  deletePlan : List Operation

/-- `OperationTarget`: its precomputed artifacts, and its adapter's renderings, a plan or
the message of a failure. -/
structure OperationTarget where
  operationTargetArtifacts : Option LoweringArtifacts := none
  renderApply : Option ApplyTargetOptions → Except String (List Operation)
  renderDelete : Option DeleteTargetOptions → Except String (List Operation)

/-- `OperationPlanInput`. -/
structure OperationPlanInput where
  apply : Option (List ApplyOperationInput) := none
  resources : Option (List ApplyOperationInput) := none
  applyTargets : List (OperationTarget × Option ApplyTargetOptions) := []
  deleteTargets : List (OperationTarget × Option DeleteTargetOptions) := []
  patch : Option (List PatchLikeOperation) := none
  delete : Option (List DeleteOperationInput) := none
  status : Option (List (String × Json)) := none
  events : Option (List EventEntry) := none
  finalizers : Option (List FinalizerEntry) := none
  requeue : Option RequeuePolicy := none

/-- `isOperationPlan` of a value that is a plan. -/
def OperationPlanInput.isOperationPlan (plan : OperationPlanInput) : Bool :=
  plan.status.isSome || plan.requeue.isSome || plan.apply.isSome || plan.delete.isSome

/-- `isApplyTargetOptions` of a value that is such options. -/
def ApplyTargetOptions.isApplyTargetOptions (options : ApplyTargetOptions) : Bool :=
  options.fieldManager.isSome || options.force.isSome || options.owner.isSome
    || options.ownership.isSome

/-- `isDeleteTargetOptions` of a value that is such options. -/
def DeleteTargetOptions.isDeleteTargetOptions (options : DeleteTargetOptions) : Bool :=
  options.owner.isSome || options.propagationPolicy.isSome || options.gracePeriodSeconds.isSome

/-- The second argument of `apply` and `delete` for several targets. -/
inductive Companion (Options : Type) where
  | options (options : Options)
  | plan (plan : OperationPlanInput)

variable (resource : KubernetesObject)

def applyInput : Option ApplyTargetOptions → ApplyOperationInput
  | none => .object resource
  | some options =>
    .operation
      { resource := resource
        fieldManager := whenTruthy options.fieldManager
        force := options.force
        ownership := options.ownership <|> options.owner.map (.reference · none) }

def remoteApplyInput (connection : String)
    (options : RemoteApplyTargetOptions) : ApplyOperation where
  resource := resource
  connection := some connection
  authority := some options.authority
  fieldManager := whenTruthy options.fieldManager
  force := options.force
  ownership := options.ownership

/-- The delete options the source builds from target options: none unless one of the two
it copies is there. -/
def deleteOptions (options : DeleteOptions) : Option DeleteOptions :=
  if options.propagationPolicy.isSome || options.gracePeriodSeconds.isSome then
    some { propagationPolicy := options.propagationPolicy
           gracePeriodSeconds := options.gracePeriodSeconds }
  else none

variable (target : OperationTarget) (ref : ObjectRef) (options : Option DeleteTargetOptions)

def deleteInput : DeleteOperation where
  ref := ref
  options := options.bind fun options => deleteOptions options.toDeleteOptions

def remoteDeleteInput (connection : String)
    (options : RemoteDeleteTargetOptions) : DeleteOperation where
  ref := ref
  options := deleteOptions options.toDeleteOptions
  connection := some connection
  authority := some options.authority

def ApplyOperationInput.entry : ApplyOperationInput → Entry
  | .object resource => .object resource
  | .operation effect => .operation (.apply effect)

def precomputedApplyOperations (options : Option ApplyTargetOptions) :
    Option (List Entry) :=
  target.operationTargetArtifacts.map fun artifacts => artifacts.applyPlan.map fun operation =>
    match operation with
    | .apply operation => (applyInput operation.resource options).entry
    | other => .operation other

def precomputedDeleteOperations :
    Option (List Entry) :=
  target.operationTargetArtifacts.map fun artifacts => artifacts.deletePlan.map fun operation =>
    match operation with
    | .delete operation =>
      .operation (.delete
        { ref := operation.ref
          options := (options.bind fun options => deleteOptions options.toDeleteOptions) <|> operation.options
          authority := operation.authority })
    | other => .operation other

/-- The closure state of `createRecorder`; the snapshot is the canonical form last compared. -/
structure Recorder where
  apply : List ApplyOperationInput := []
  patch : List Entry := []
  deletes : List DeleteOperationInput := []
  events : List EventEntry := []
  finalizers : List FinalizerEntry := []
  requeue : Option RequeuePolicy := none
  status : List (String × Json)
  statusSnapshot : Json

/-- `canonicalJson`, as the value its text denotes. -/
def canonicalJson (value : Json) : Json := value.sorted

namespace Recorder

/-- The recorder a dispatch starts with, from the object's status. -/
def start (status : Option (List (String × Json))) : Recorder where
  status := status.getD []
  statusSnapshot := canonicalJson (.object (status.getD []))

variable (recorder : Recorder)

/-- One round of the switch of `mergeNormalizedPlan`, on `operation.kind`. -/
def mergeEntry (recorder : Recorder) (entry : Entry) : Recorder :=
  match entry with
  | .operation (.apply operation) => { recorder with apply := recorder.apply ++ [.operation operation] }
  | .operation (.requeue policy) => { recorder with requeue := some policy }
  | entry =>
    if entry.kind = "apply" then
      match entry with
      | .object resource => { recorder with apply := recorder.apply ++ [.object resource] }
      | _ => recorder
    else if entry.kind = "patch" ∨ entry.kind = "status" then
      { recorder with patch := recorder.patch ++ [entry] }
    else if delete : entry.kind = "delete" then
      { recorder with deletes := recorder.deletes ++ [.operation ⟨entry, by simp [delete]⟩] }
    else if event : entry.kind = "event" then
      { recorder with events := recorder.events ++ [⟨entry, by simp [event]⟩] }
    else if finalizer : entry.kind = "finalizer" then
      { recorder with finalizers := recorder.finalizers ++ [⟨entry, by simp [finalizer]⟩] }
    else if entry.kind = "requeue" then { recorder with requeue := none }
    else recorder

def mergeNormalizedPlan (entries : List Entry) : Recorder :=
  entries.foldl mergeEntry recorder

def renderApplyTarget (target : OperationTarget)
    (options : Option ApplyTargetOptions) : Except String Recorder :=
  match precomputedApplyOperations target options with
  | some entries => .ok (recorder.mergeNormalizedPlan entries)
  | none => do
    let operations ← target.renderApply options
    return recorder.mergeNormalizedPlan (operations.map .operation)

def renderDeleteTarget (target : OperationTarget)
    (options : Option DeleteTargetOptions) : Except String Recorder :=
  match precomputedDeleteOperations target options with
  | some entries => .ok (recorder.mergeNormalizedPlan entries)
  | none => do
    let operations ← target.renderDelete options
    return recorder.mergeNormalizedPlan (operations.map .operation)

/-- `applyPlan` reads neither `applyTargets` nor `deleteTargets`. -/
def applyPlan (plan : OperationPlanInput) : Recorder :=
  { recorder with
    apply := recorder.apply ++ (plan.apply.getD [] ++ plan.resources.getD [])
    patch := recorder.patch ++ (plan.patch.getD []).map Subtype.val
    deletes := recorder.deletes ++ plan.delete.getD []
    events := recorder.events ++ plan.events.getD []
    finalizers := recorder.finalizers ++ plan.finalizers.getD []
    status := Record.assign recorder.status (plan.status.getD [])
    requeue := plan.requeue <|> recorder.requeue }

/-- What the patch bucket contributes to a result: the entries of the two kinds it may hold. -/
def patchLike (entry : Entry) : Option PatchLikeOperation :=
  if kept : entry.kind = "patch" ∨ entry.kind = "status" then
    some ⟨entry, by simpa using kept⟩
  else none

/-- A bucket as an optional member of a result, left out when it is empty. -/
def filled {α : Type} (bucket : List α) : Option (List α) :=
  if bucket = [] then none else some bucket

/-- `result()`: what was recorded so far. The status draft is part of it when it differs
from the snapshot, which then moves to the draft. -/
def result : HandlerResult × Recorder :=
  let draft := canonicalJson (.object recorder.status)
  ({ apply := filled recorder.apply
     patch := if recorder.patch = [] then none else some (recorder.patch.filterMap patchLike)
     delete := filled recorder.deletes
     status := if draft ≠ recorder.statusSnapshot then some (.object recorder.status) else none
     events := filled recorder.events
     finalizers := filled recorder.finalizers
     requeue := recorder.requeue },
   { recorder with statusSnapshot := draft })

end Recorder

/-- What `apply` is called with, by the overloads a handler sees. -/
inductive ApplyValue where
  | object (resource : KubernetesObject) (options : Option ApplyTargetOptions)
  | target (target : OperationTarget) (options : Option ApplyTargetOptions)
  | targets (targets : List OperationTarget) (companion : Option (Companion ApplyTargetOptions))
  | plan (plan : OperationPlanInput)

/-- What `delete` is called with; an object stands for the reference to it. -/
inductive DeleteValue where
  | reference (ref : ObjectRef) (options : Option DeleteTargetOptions)
  | target (target : OperationTarget) (options : Option DeleteTargetOptions)
  | targets (targets : List OperationTarget) (companion : Option (Companion DeleteTargetOptions))

/-- Where a handler makes a call: its scope, or a context, which answers with a result. -/
inductive Surface where
  | scope
  | context
  deriving DecidableEq

inductive Call where
  | apply (surface : Surface) (value : ApplyValue)
  | applyGraph (surface : Surface) (rendered : Except String (List Operation))
  | delete (surface : Surface) (value : DeleteValue)
  | noop
  | resourcesApply (resource : KubernetesObject) (options : Option ApplyTargetOptions)
  | resourcesApplyTarget (target : OperationTarget) (options : Option ApplyTargetOptions)
  | resourcesDelete (ref : ObjectRef) (options : Option DeleteTargetOptions)
  | resourcesDeleteTarget (target : OperationTarget) (options : Option DeleteTargetOptions)
  | patch (ref : ObjectRef) (patch : List JsonPatchEntry)
  | setStatus (ref : ObjectRef) (status : Json)
  | event (operation : EventOperation)
  | finalizer (operation : FinalizerOperation)
  | requeue (policy : RequeuePolicy)
  | draft (status : List (String × Json))
  | connectionApply (connection : String) (resource : KubernetesObject)
      (options : RemoteApplyTargetOptions)
  | connectionPatch (connection : String) (ref : ObjectRef) (patch : List JsonPatchEntry)
      (authority : RemoteMutationAuthority)
  | connectionDelete (connection : String) (ref : ObjectRef) (options : RemoteDeleteTargetOptions)

namespace Companion

/-- The options every target gets: `isApplyTargetOptions(targetOptions) ? … : undefined`. -/
def applyOptions : Option (Companion ApplyTargetOptions) → Option ApplyTargetOptions
  | some (.options settings) => some settings |>.filter ApplyTargetOptions.isApplyTargetOptions
  | _ => none

/-- The options every target gets: `isDeleteTargetOptions(targetOptions) ? … : undefined`. -/
def deleteOptions : Option (Companion DeleteTargetOptions) → Option DeleteTargetOptions
  | some (.options settings) => some settings |>.filter DeleteTargetOptions.isDeleteTargetOptions
  | _ => none

/-- The plan that follows the targets, if `isOperationPlan` knows it for one. -/
def followingPlan {Options : Type} : Option (Companion Options) → Option OperationPlanInput
  | some (.plan following) => some following |>.filter OperationPlanInput.isOperationPlan
  | _ => none

end Companion

namespace Recorder
variable (recorder : Recorder)

/-- `if (isOperationPlan(targetOptions)) applyPlan(targetOptions)`. -/
def applyFollowing (plan : Option OperationPlanInput) : Recorder :=
  plan.elim recorder recorder.applyPlan

/-- `scope.apply`. -/
def applyValue : ApplyValue → Except String Recorder
  | .object resource options =>
    .ok { recorder with
      apply := recorder.apply ++ [applyInput resource (options.filter ApplyTargetOptions.isApplyTargetOptions)] }
  | .target target options =>
    recorder.renderApplyTarget target (options.filter ApplyTargetOptions.isApplyTargetOptions)
  | .targets targets companion => do
    let recorder ← targets.foldlM (fun recorder target =>
      recorder.renderApplyTarget target (Companion.applyOptions companion)) recorder
    return recorder.applyFollowing (Companion.followingPlan companion)
  | .plan plan => .ok (recorder.applyPlan plan)

def pushDelete (operation : DeleteOperation) : Recorder :=
  { recorder with deletes := recorder.deletes ++
      [.operation ⟨.operation (.delete operation), by simp [Entry.kind, Operation.kind]⟩] }

/-- `scope.delete`. -/
def deleteValue : DeleteValue → Except String Recorder
  | .reference ref options =>
    .ok (recorder.pushDelete (deleteInput ref (options.filter DeleteTargetOptions.isDeleteTargetOptions)))
  | .target target options =>
    recorder.renderDeleteTarget target (options.filter DeleteTargetOptions.isDeleteTargetOptions)
  | .targets targets companion => do
    let recorder ← targets.foldlM (fun recorder target =>
      recorder.renderDeleteTarget target (Companion.deleteOptions companion)) recorder
    return recorder.applyFollowing (Companion.followingPlan companion)

/-- A context answers with `ok(recorder.result())`; the handler ignores the answer. -/
def answered : Surface → Recorder
  | .scope => recorder
  | .context => recorder.result.2

/-- A context's `delete` of a reference answers with the operation, not with a result. -/
def deleteAnswered (surface : Surface) : DeleteValue → Recorder
  | .reference .. => recorder
  | .target .. | .targets .. => recorder.answered surface

/-- One call of the handler: the recorder after it, or the message of the error it throws.
A context's `applyGraph` returns a failed rendering instead of throwing it. -/
def perform (recorder : Recorder) : Call → Except String Recorder
  | .apply surface value => do
    let recorder ← recorder.applyValue value
    return recorder.answered surface
  | .applyGraph surface rendered =>
    match surface, rendered with
    | .context, .error _ => .ok recorder
    | _, .error message => .error message
    | surface, .ok operations => .ok ((recorder.mergeNormalizedPlan (operations.map .operation)).answered surface)
  | .delete surface value => do
    let recorder ← recorder.deleteValue value
    return recorder.deleteAnswered surface value
  | .noop => .ok (recorder.answered .context)
  | .resourcesApply resource options => .ok { recorder with apply := recorder.apply ++ [applyInput resource options] }
  | .resourcesApplyTarget target options => recorder.renderApplyTarget target options
  | .resourcesDelete ref options => .ok (recorder.pushDelete (deleteInput ref options))
  | .resourcesDeleteTarget target options => recorder.renderDeleteTarget target options
  | .patch ref patch =>
    .ok { recorder with
      patch := recorder.patch ++ [.operation (.patch { ref := ref, patch := patch })] }
  | .setStatus ref status =>
    .ok { recorder with
      patch := recorder.patch ++ [.operation (.status { status := status, ref := some ref })] }
  | .event operation =>
    .ok { recorder with events := recorder.events ++
      [⟨.operation (.event operation), by simp [Entry.kind, Operation.kind]⟩] }
  | .finalizer operation =>
    .ok { recorder with finalizers := recorder.finalizers ++
      [⟨.operation (.finalizer operation), by simp [Entry.kind, Operation.kind]⟩] }
  | .requeue policy => .ok { recorder with requeue := some policy }
  | .draft status => .ok { recorder with status := status }
  | .connectionApply connection resource options =>
    .ok { recorder with
      apply := recorder.apply ++ [.operation (remoteApplyInput resource connection options)] }
  | .connectionPatch connection ref patch authority =>
    .ok { recorder with patch := recorder.patch ++
      [.operation (.patch
        { ref := ref, patch := patch, connection := some connection
          authority := some authority })] }
  | .connectionDelete connection ref options => .ok (recorder.pushDelete (remoteDeleteInput ref connection options))

def performAll (calls : List Call) : Except String Recorder :=
  calls.foldlM perform recorder

end Recorder

/-- `invokeRunnableHandler`: the handler's calls, then what it returned. A context handler's
own result takes the place of the recorded one, a scope handler's is merged with it. -/
def invokeRunnableHandler (style : Surface) (status : Option (List (String × Json)))
    (calls : List Call) (returned : Option HandlerResult) : Except String (List Entry) := do
  let recorder ← (Recorder.start status).performAll calls
  let result :=
    match style with
    | .context => returned.getD recorder.result.1
    | .scope => mergeHandlerResults recorder.result.1 returned
  return normalizeHandlerResult result

end Applik8s.Operators
