import Applik8s.Lib.Json

/-! The operation plans handlers emit and the runtime bridge applies: the shapes of
`operation-plan.ts` and `handler.ts`, which `applik8s-runtime-contract` mirrors field for
field. A JavaScript number is the rational it denotes. -/
namespace Applik8s.Operators

/-- `ObjectRef`; here and below `namespaceName` is the field `namespace`. -/
structure ObjectRef where
  apiVersion : String
  kind : String
  name : String
  namespaceName : Option String := none
  uid : Option String := none
  resourceVersion : Option String := none
  deriving DecidableEq

structure ObjectMeta where
  name : String
  namespaceName : Option String := none
  uid : Option String := none
  resourceVersion : Option String := none
  generation : Option Rat := none
  labels : Option (List (String × String)) := none
  annotations : Option (List (String × String)) := none
  finalizers : Option (List String) := none
  deletionTimestamp : Option String := none
  creationTimestamp : Option String := none
  extra : List (String × Json) := []
  deriving DecidableEq

/-- A manifest: its address, its metadata, and its further members (`spec`, `status`,
`data` and the like). -/
structure KubernetesObject where
  apiVersion : String
  kind : String
  metadata : ObjectMeta
  content : List (String × Json) := []
  deriving DecidableEq

inductive ApplyOwnership where
  | auto
  | none
  | reference (ref : ObjectRef) (blockOwnerDeletion : Option Bool)
  deriving DecidableEq

structure RemoteMutationPrecondition where
  uid : String
  resourceVersion : String
  deriving DecidableEq

inductive RemoteMutationAuthority where
  | managed (identity sourceUid : String)
  | existing (precondition : RemoteMutationPrecondition)
  deriving DecidableEq

structure ApplyOperation where
  resource : KubernetesObject
  fieldManager : Option String := none
  force : Option Bool := none
  ownership : Option ApplyOwnership := none
  connection : Option String := none
  authority : Option RemoteMutationAuthority := none
  deriving DecidableEq

inductive JsonPatchOperation where
  | add | remove | replace | move | copy | test
  deriving DecidableEq

/-- `JsonPatchEntry`; `source` is its `from`. -/
structure JsonPatchEntry where
  op : JsonPatchOperation
  path : String
  value : Option Json := none
  source : Option String := none
  deriving DecidableEq

structure PatchOperation where
  ref : ObjectRef
  patch : List JsonPatchEntry
  connection : Option String := none
  authority : Option RemoteMutationAuthority := none
  deriving DecidableEq

inductive PropagationPolicy where
  | foreground | background | orphan
  deriving DecidableEq

structure DeletePreconditions where
  uid : String
  resourceVersion : Option String := none
  deriving DecidableEq

structure DeleteOptions where
  propagationPolicy : Option PropagationPolicy := none
  gracePeriodSeconds : Option Rat := none
  preconditions : Option DeletePreconditions := none
  deriving DecidableEq

structure DeleteOperation where
  ref : ObjectRef
  options : Option DeleteOptions := none
  connection : Option String := none
  authority : Option RemoteMutationAuthority := none
  deriving DecidableEq

structure StatusOperation where
  status : Json
  ref : Option ObjectRef := none
  deriving DecidableEq

inductive EventType where
  | normal | warning
  deriving DecidableEq

structure EventOperation where
  type : EventType
  reason : String
  message : String
  regarding : Option ObjectRef := none
  deriving DecidableEq

inductive FinalizerAction where
  | add | remove
  deriving DecidableEq

structure FinalizerOperation where
  operation : FinalizerAction
  finalizer : String
  deriving DecidableEq

structure RequeuePolicy where
  afterSeconds : Option Rat := none
  reason : Option String := none
  deriving DecidableEq

/-- `Operation`: what one entry of a normalized plan asks for. -/
inductive Operation where
  | apply (operation : ApplyOperation)
  | patch (operation : PatchOperation)
  | delete (operation : DeleteOperation)
  | status (operation : StatusOperation)
  | event (operation : EventOperation)
  | finalizer (operation : FinalizerOperation)
  | requeue (policy : RequeuePolicy)
  deriving DecidableEq

/-- The `kind` an operation is tagged with on the wire (`operation_kind`). -/
def Operation.kind : Operation → String
  | .apply _ => "apply"
  | .patch _ => "patch"
  | .delete _ => "delete"
  | .status _ => "status"
  | .event _ => "event"
  | .finalizer _ => "finalizer"
  | .requeue _ => "requeue"

end Applik8s.Operators
