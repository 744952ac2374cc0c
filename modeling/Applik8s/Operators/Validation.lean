import Applik8s.Operators.Operations
import Applik8s.Platform

/-! Plan validation in the runtime bridge: `validate_operation_plan` of `applier.rs` with the
checks it calls, and `validate_remote_authority` of `remote_authority.rs`. Every error is
`InvalidPayload` with a text; the order of a plan has an error of its own here, so that it
can be told from the others. -/
namespace Applik8s.Operators

/-- The code points that Rust's `str::trim` removes. -/
def isWhiteSpace (c : Char) : Bool :=
  let code := c.toNat
  (9 ≤ code && code ≤ 13) || code = 0x20 || code = 0x85 || code = 0xA0 || code = 0x1680 ||
    (0x2000 ≤ code && code ≤ 0x200A) || code = 0x2028 || code = 0x2029 || code = 0x202F ||
    code = 0x205F || code = 0x3000

/-- `text.trim().is_empty()`. -/
def trimmedEmpty (text : String) : Bool := text.toList.all isWhiteSpace

/-- `char::is_control`. -/
def isControl (c : Char) : Bool := c.toNat < 0x20 || (0x7F ≤ c.toNat && c.toNat < 0xA0)

/-- `option.is_none_or(str::is_empty)`. -/
def absentOrEmpty (text : Option String) : Bool := text.all (· = "")

/-- What a check of one operation refuses a plan with: a text of `invalid_plan`, or a text
without an index. -/
inductive Refusal where
  | invalid (index : Nat) (message : String)
  | payload (message : String)
  deriving DecidableEq

/-- What `validate_operation_plan` refuses a plan with. -/
inductive PlanError where
  | order (index : Nat) (kind : String)
  | refused (refusal : Refusal)
  deriving DecidableEq

def PlanError.message : PlanError → String
  | .order index kind =>
    s!"operation plan operation {index} is invalid: operation order is not canonical: {kind} "
      ++ "cannot appear after earlier operations with higher canonical order"
  | .refused (.invalid index message) => s!"operation plan operation {index} is invalid: {message}"
  | .refused (.payload message) => message

def invalidPlan {α : Type} (index : Nat) (message : String) : Except Refusal α :=
  .error (.invalid index message)

inductive ResourceScope where
  | namespaced
  | cluster
  deriving DecidableEq

def knownResourceScope (apiVersion kind : String) : Option ResourceScope :=
  if apiVersion = "v1" then
    if kind ∈ ["ConfigMap", "Secret", "Service", "ServiceAccount", "Pod",
        "PersistentVolumeClaim", "Event"] then some .namespaced
    else if kind ∈ ["Namespace", "PersistentVolume"] then some .cluster
    else none
  else if apiVersion = "apps/v1" then
    if kind ∈ ["Deployment", "StatefulSet", "DaemonSet", "ReplicaSet"] then some .namespaced
    else none
  else if apiVersion = "batch/v1" then
    if kind ∈ ["Job", "CronJob"] then some .namespaced else none
  else if apiVersion = "rbac.authorization.k8s.io/v1" then
    if kind ∈ ["Role", "RoleBinding"] then some .namespaced
    else if kind ∈ ["ClusterRole", "ClusterRoleBinding"] then some .cluster
    else none
  else if apiVersion = "apiextensions.k8s.io/v1" then
    if kind = "CustomResourceDefinition" then some .cluster else none
  else if apiVersion = "storage.k8s.io/v1" then
    if kind = "StorageClass" then some .cluster else none
  else none

def resourceScopeValidationMessage (apiVersion kind : String) (namespaceName : Option String)
    (field : String) : Option String :=
  match knownResourceScope apiVersion kind with
  | some .namespaced =>
    if absentOrEmpty namespaceName then
      some s!"{field} {apiVersion}/{kind} is namespaced and must include metadata.namespace"
    else none
  | some .cluster =>
    if absentOrEmpty namespaceName then none
    else some
      s!"{field} {apiVersion}/{kind} is cluster-scoped and must not include metadata.namespace"
  | none => none

def validateRef (ref : ObjectRef) (field : String) : Except Refusal Unit :=
  if trimmedEmpty ref.apiVersion || trimmedEmpty ref.kind || trimmedEmpty ref.name then
    .error (.payload s!"operation plan {field} must include non-empty apiVersion, kind, and name")
  else
    match resourceScopeValidationMessage ref.apiVersion ref.kind ref.namespaceName field with
    | some message => .error (.payload s!"operation plan {message}")
    | none => .ok ()

/-- The server-populated member an applied manifest sets, if any. -/
def disallowedField (metadata : ObjectMeta) : Option String :=
  if metadata.uid.isSome then some "uid"
  else if metadata.resourceVersion.isSome then some "resourceVersion"
  else if metadata.generation.isSome then some "generation"
  else if metadata.deletionTimestamp.isSome then some "deletionTimestamp"
  else if metadata.creationTimestamp.isSome then some "creationTimestamp"
  else ["managedFields", "selfLink"].find? fun field => metadata.extra.any (·.1 = field)

variable (index : Nat) (owner : ObjectRef) (resource : KubernetesObject) (object : KubernetesObject)
  (connection : Option String)

def validateApplyMetadata : Except Refusal Unit :=
  match disallowedField object.metadata with
  | some field => invalidPlan index
      s!"apply.resource.metadata.{field} is server-populated and must not be set by handlers"
  | none => .ok ()

def validateKubernetesObject (index : Nat) : Except Refusal Unit :=
  if trimmedEmpty object.apiVersion then
    invalidPlan index "apply.resource.apiVersion must not be empty"
  else if trimmedEmpty object.kind then invalidPlan index "apply.resource.kind must not be empty"
  else if trimmedEmpty object.metadata.name then
    invalidPlan index "apply.resource.metadata.name must not be empty"
  else
    match resourceScopeValidationMessage object.apiVersion object.kind
        object.metadata.namespaceName "apply.resource" with
    | some message => invalidPlan index message
    | none => validateApplyMetadata index object

def validateFieldManager (fieldManager : String) : Except Refusal Unit :=
  if trimmedEmpty fieldManager then invalidPlan index "apply.fieldManager must not be empty"
  else if 128 < fieldManager.utf8ByteSize then
    invalidPlan index "apply.fieldManager must be at most 128 characters"
  else if fieldManager.toList.any isControl then
    invalidPlan index "apply.fieldManager must not contain control characters"
  else .ok ()

def isSameObject : Bool :=
  owner.apiVersion = resource.apiVersion && owner.kind = resource.kind && owner.name = resource.metadata.name
    && owner.namespaceName = resource.metadata.namespaceName

def validateOwnerReferenceSelection (source : String) : Except String Unit :=
  if absentOrEmpty owner.uid then
    .error s!"apply.ownership {source} owner ref must include uid"
  else if isSameObject owner resource then
    .error s!"apply.ownership {source} owner ref must not reference the applied resource itself"
  else
    match owner.namespaceName, resource.metadata.namespaceName with
    | some ownerNamespace, some resourceNamespace =>
      if ownerNamespace ≠ resourceNamespace then
        .error (s!"apply.ownership {source} owner ref crosses namespaces: owner namespace "
          ++ s!"{ownerNamespace}, resource namespace {resourceNamespace}")
      else .ok ()
    | some ownerNamespace, none =>
      .error (s!"apply.ownership {source} namespaced owner {ownerNamespace} cannot own a " ++ "cluster-scoped resource")
    | none, _ => .ok ()

/-- `metadata.contains_key("ownerReferences")` of the manifest. -/
def hasOwnerReferences : Bool :=
  resource.metadata.extra.any (·.1 = "ownerReferences")

def validateApplyOwnership (ownership : Option ApplyOwnership)
    (index : Nat) : Except Refusal Unit :=
  match ownership with
  | some (.reference ref _) =>
    if hasOwnerReferences resource then
      invalidPlan index "apply.ownership reference cannot be combined with resource.metadata.ownerReferences"
    else
      match validateOwnerReferenceSelection ref resource "reference" with
      | .error message => invalidPlan index message
      | .ok () => .ok ()
  | _ => .ok ()

/-- One character of a connection alias after the first. -/
def isAliasCharacter (c : Char) : Bool := c.isLower || c.isDigit || c = '-'

def validateConnection (index : Nat) : Except Refusal Unit :=
  match connection with
  | none => .ok ()
  | some connection =>
    if connection = "" || 63 < connection.utf8ByteSize
        || !(connection.toList.head?.any Char.isLower)
        || !(connection.toList.all isAliasCharacter) then
      invalidPlan index "connection must be a declared DNS-label-like logical alias"
    else .ok ()

def validateRemoteAuthority (authority : Option RemoteMutationAuthority) (index : Nat) (apply : Bool) :
    Except Refusal Unit :=
  match connection, authority with
  | none, none => .ok ()
  | none, some _ => invalidPlan index "remote mutation authority requires a connection-scoped operation"
  | some _, none => invalidPlan index "connection-scoped mutation requires explicit remote mutation authority"
  | some _, some (.managed identity sourceUid) =>
    if trimmedEmpty identity || trimmedEmpty sourceUid then
      invalidPlan index "managed remote mutation authority identity and sourceUid must be non-empty"
    else
      match owner.uid.filter fun uid => !trimmedEmpty uid with
      | none => .error (.payload
          "connection-scoped managed mutation requires the reconciled owner metadata.uid")
      | some ownerUid =>
        if sourceUid ≠ ownerUid then
          invalidPlan index "managed remote mutation sourceUid must equal the reconciled owner metadata.uid"
        else .ok ()
  | some _, some (.existing precondition) =>
    if apply then
      invalidPlan index "connection-scoped apply requires managed remote mutation authority"
    else if trimmedEmpty precondition.uid || trimmedEmpty precondition.resourceVersion then
      invalidPlan index "existing remote mutation authority uid and resourceVersion must be non-empty"
    else .ok ()

def validateDeleteOptions (options : Option DeleteOptions) : Except Refusal Unit :=
  match options with
  | none => .ok ()
  | some options =>
    if options.gracePeriodSeconds.any (· < 0) then
      invalidPlan index "delete.options.gracePeriodSeconds must not be negative"
    else if options.gracePeriodSeconds.any (·.den ≠ 1) then
      invalidPlan index "delete.options.gracePeriodSeconds must be an integer number of seconds"
    else if options.preconditions.any (trimmedEmpty ·.uid) then
      invalidPlan index "delete.options.preconditions.uid must not be empty"
    else if options.preconditions.any (·.resourceVersion.any (· = "")) then
      invalidPlan index "delete.options.preconditions.resourceVersion must not be empty"
    else .ok ()

def validateEventRegarding (regarding : Option ObjectRef) :
    Except Refusal Unit := do
  if let some regarding := regarding then validateRef regarding "event.regarding"
  if absentOrEmpty (regarding.getD owner).namespaceName then
    invalidPlan index ("event.regarding must be namespaced; provide an explicit namespaced "
      ++ "regarding object or reconcile a namespaced owner")

def isJsonPointer (text : String) : Bool := text.toList.head? = some '/'

/-- The name of a patch operation as `{:?}` prints it. -/
def JsonPatchOperation.debug : JsonPatchOperation → String
  | .add => "Add"
  | .remove => "Remove"
  | .replace => "Replace"
  | .move => "Move"
  | .copy => "Copy"
  | .test => "Test"

def validatePatchEntry (index patchIndex : Nat) (entry : JsonPatchEntry) : Except Refusal Unit :=
  if !isJsonPointer entry.path then
    invalidPlan index s!"patch.patch[{patchIndex}].path must be a JSON Pointer starting with /"
  else
    match entry.op with
    | .add | .replace | .test =>
      if entry.value.isNone then
        invalidPlan index s!"patch.patch[{patchIndex}].value is required for {entry.op.debug}"
      else if entry.source.isSome then
        invalidPlan index s!"patch.patch[{patchIndex}].from is not valid for {entry.op.debug}"
      else .ok ()
    | .remove =>
      if entry.value.isSome then
        invalidPlan index s!"patch.patch[{patchIndex}].value is not valid for remove"
      else if entry.source.isSome then
        invalidPlan index s!"patch.patch[{patchIndex}].from is not valid for remove"
      else .ok ()
    | .move | .copy =>
      if !(entry.source.any isJsonPointer) then
        invalidPlan index s!"patch.patch[{patchIndex}].from must be a JSON Pointer starting with /"
      else if entry.value.isSome then
        invalidPlan index s!"patch.patch[{patchIndex}].value is not valid for {entry.op.debug}"
      else .ok ()

def validateJsonPatch (patch : List JsonPatchEntry) : Except Refusal Unit :=
  patch.zipIdx.forM fun (entry, patchIndex) => validatePatchEntry index patchIndex entry

def canonicalOperationOrder : Operation → Nat
  | .finalizer operation =>
    match operation.operation with
    | .add => 0
    | .remove => 6
  | .apply _ => 1
  | .patch _ => 2
  | .delete _ => 3
  | .status _ => 4
  | .event _ => 5
  | .requeue _ => 7

/-- The match on one operation in the loop of `validate_operation_plan`. -/
def validateOperation (index : Nat) : Operation → Except Refusal Unit
  | .apply operation => do
    validateKubernetesObject operation.resource index
    if let some fieldManager := operation.fieldManager then
      validateFieldManager index fieldManager
    validateApplyOwnership operation.resource operation.ownership index
    validateConnection operation.connection index
    if operation.connection.isSome ∧ operation.ownership ≠ some .none then
      invalidPlan index ("connection-scoped apply must set ownership.mode=none because Kubernetes "
        ++ "owner references cannot cross clusters")
    validateRemoteAuthority owner operation.connection operation.authority index true
  | .patch operation => do
    validateRef operation.ref "patch.ref"
    validateConnection operation.connection index
    if operation.patch.isEmpty then
      invalidPlan index "patch.patch must contain at least one JSON Patch operation"
    validateJsonPatch index operation.patch
    validateRemoteAuthority owner operation.connection operation.authority index false
  | .delete operation => do
    validateRef operation.ref "delete.ref"
    validateConnection operation.connection index
    validateDeleteOptions index operation.options
    validateRemoteAuthority owner operation.connection operation.authority index false
  | .status operation =>
    match operation.status with
    | .object _ =>
      match operation.ref with
      | some ref => validateRef ref "status.ref"
      | none => .ok ()
    | _ => invalidPlan index "status.status must be a JSON object"
  | .event operation =>
    if trimmedEmpty operation.reason then invalidPlan index "event.reason must not be empty"
    else if trimmedEmpty operation.message then
      invalidPlan index "event.message must not be empty"
    else validateEventRegarding index owner operation.regarding
  | .finalizer operation =>
    if trimmedEmpty operation.finalizer || !(operation.finalizer.toList.contains '/') then
      invalidPlan index "finalizer.finalizer must be a qualified Kubernetes finalizer name"
    else .ok ()
  | .requeue policy =>
    if policy.afterSeconds.any (· < 0) then
      invalidPlan index "requeue.policy.afterSeconds must not be negative"
    else .ok ()

def Operation.mutationConnection : Operation → Option String
  | .apply operation => operation.connection
  | .patch operation => operation.connection
  | .delete operation => operation.connection
  | _ => none

/-- The loop of `validate_operation_plan`, from an index on and after operations of an order. -/
def validateOperations (owner : ObjectRef) (index previousOrder : Nat) :
    List Operation → Except PlanError Unit
  | [] => .ok ()
  | operation :: rest =>
    if canonicalOperationOrder operation < previousOrder then
      .error (.order index operation.kind)
    else
      match validateOperation owner index operation with
      | .error refusal => .error (.refused refusal)
      | .ok () => validateOperations owner (index + 1) (canonicalOperationOrder operation) rest

def validateOperationPlan (operations : List Operation) :
    Except PlanError Unit :=
  match validateRef owner "owner" with
  | .error refusal => .error (.refused refusal)
  | .ok () =>
    match validateOperations owner 0 0 operations with
    | .error error => .error error
    | .ok () =>
      if 1 < (distinctValues (operations.filterMap Operation.mutationConnection)).length then
        .error (.refused (.invalid 0 "a v1 mutation plan may address at most one non-local Kubernetes connection"))
      else .ok ()

end Applik8s.Operators
