import Mathlib.Data.Rat.Defs
import Applik8s.Lib.DepthFirst
import Applik8s.Lib.Record
import Applik8s.Platform

/-! Application deployment graphs, as far as their validation reads them, and the validation. A number is a rational,
and every function gives the diagnostics that it pushes. -/
namespace Applik8s.Deployment
open Lib

inductive Strategy where
  | direct | kro
deriving DecidableEq

def Strategy.text : Strategy → String
  | .direct => "direct"
  | .kro => "kro"

/-- `plain` is what is `public`. -/
inductive Sensitivity where
  | plain | sensitive
deriving DecidableEq

inductive Persistence where
  | state | redacted | reference | ephemeral
deriving DecidableEq

inductive OutputType where
  | string | number | boolean | json | secretReference | resourceReference | artifactReference | artifactDigest
deriving DecidableEq

structure Output where
  name : String
  type : OutputType
  sensitivity : Sensitivity
  persistence : Persistence
deriving DecidableEq

inductive Input where
  | literal
  | output (nodeId output : String) (sensitivity : Sensitivity) (persistence : Persistence)
  | secretReference (nodeId : String)
deriving DecidableEq

inductive Ownership where
  | application | shared | external
deriving DecidableEq

inductive Deletion where
  | delete | retain | orphan | none
deriving DecidableEq

inductive Adoption where
  | createOnly | createOrAdoptExact | externalOnly
deriving DecidableEq

structure Lifecycle where
  ownership : Ownership
  deletion : Deletion
  adoption : Adoption
  namespaceNodeId : Option String := none
deriving DecidableEq

/-- The kind of a node, with what is read of its `spec`. -/
inductive Spec where
  | artifact | kubernetesComposition | kubernetesDirect | externalReference | secretReference
  | externalProvider (controller : Option String)
  | singleton (singletonKey : String)
  | statusProjection (field sourceNodeId sourcePath : String)
deriving DecidableEq

structure Source where
  semanticNodeId : Option String := none
  artifactPath : Option String := none
  file : Option String := none
  line : Option Rat := none
  column : Option Rat := none
deriving DecidableEq

structure Node where
  id : String
  spec : Spec
  contractVersion : Rat
  source : Source
  connectionDigest : String
  strategies : List Strategy
  configurationDigest : String
  inputs : Record Input
  outputs : List Output
  lifecycle : Lifecycle

inductive Relationship where
  | requiresOutput | requiresReady | installsApi | owns | retains | publishes | projectsStatus
deriving DecidableEq

def Relationship.text : Relationship → String
  | .requiresOutput => "requiresOutput"
  | .requiresReady => "requiresReady"
  | .installsApi => "installsApi"
  | .owns => "owns"
  | .retains => "retains"
  | .publishes => "publishes"
  | .projectsStatus => "projectsStatus"

def causalRelationships : List Relationship :=
  [.requiresOutput, .requiresReady, .installsApi, .owns, .publishes, .projectsStatus]

structure Edge where
  fromId : String
  toId : String
  relationship : Relationship
  output : Option String := none
deriving DecidableEq

structure Connection where
  provider : String
  cluster : String
  digest : String

structure Identity where
  connection : Connection
  application : String
  controlPlaneNamespace : String
  instanceName : String
  profile : String

structure Graph where
  apiVersion : String
  kind : String
  identity : Identity
  strategy : Strategy
  sourceGraphDigest : String
  nodes : List Node
  edges : List Edge

inductive Severity where
  | error | warning
deriving DecidableEq

inductive DiagnosticCode where
  | graphInvalid | identityInvalid | nodeDuplicate | nodeInvalid | edgeInvalid | edgeCycle | outputInvalid
  | secretUnsafe | connectionUnsafe | lifecycleUnsafe | strategyUnsupported | singletonDrift | statusInvalid
deriving DecidableEq

structure Diagnostic where
  severity : Severity := .error
  code : DiagnosticCode
  message : String
  nodeId : Option String := none
  edge : Option Edge := none
  source : Option Source := none
deriving DecidableEq

variable (graph : Graph) (nodes : Record Node) (node : Node) (code : DiagnosticCode) (message : String)

def diagnostic (node : Option Node := none) : Diagnostic :=
  { code, message, nodeId := node.map (·.id), source := node.map (·.source) }

def edgeDiagnostic (edge : Edge) : Diagnostic :=
  { code, message, edge := some edge }

def report (bad : Prop) [Decidable bad] (diagnostic : Diagnostic) : List Diagnostic := if bad then [diagnostic] else []
def nonEmptyString (value : Option String) : Bool := value.any fun text => !blank text

/-- `/^sha256:[a-f0-9]{64}$/`. -/
def isSha256 (text : String) : Bool :=
  let digits := text.toList.drop 7
  text.toList.take 7 = "sha256:".toList ∧ digits.length = 64 ∧
    digits.all fun char => '0' ≤ char && char ≤ '9' || 'a' ≤ char && char ≤ 'f'

def isSafeInteger (value : Rat) : Bool := value.den = 1 ∧ value.num.natAbs ≤ 9007199254740991

def validateEnvelope : List Diagnostic :=
  report (graph.apiVersion ≠ "applik8s.deploymentGraph/v1alpha1" ∨ graph.kind ≠ "ApplicationDeploymentGraph")
    (diagnostic .graphInvalid "Deployment graph must use the supported apiVersion and kind.") ++
  [("application", graph.identity.application), ("controlPlaneNamespace", graph.identity.controlPlaneNamespace),
    ("instance", graph.identity.instanceName), ("profile", graph.identity.profile),
    ("connectionProvider", graph.identity.connection.provider),
    ("connectionCluster", graph.identity.connection.cluster)].flatMap (fun (field, value) =>
      report (¬nonEmptyString value)
        (diagnostic .identityInvalid s!"Deployment identity field {field} must be non-empty.")) ++
  report (¬isSha256 graph.identity.connection.digest)
    (diagnostic .identityInvalid "Deployment connection digest must be a full sha256 digest.") ++
  report (¬isSha256 graph.sourceGraphDigest)
    (diagnostic .graphInvalid "Deployment sourceGraphDigest must be a full sha256 digest.")

def validateOutputPersistence (output : Output) : List Diagnostic :=
  report (output.sensitivity = .sensitive ∧ output.persistence = .state) (diagnostic .secretUnsafe
      s!"Sensitive output {node.id}.{output.name} cannot be persisted as plaintext state." node) ++
  report (output.type = .secretReference ∧ output.persistence ≠ .reference)
    (diagnostic .secretUnsafe s!"Secret-reference output {node.id}.{output.name} must persist only its reference." node)

def validateOutputs (node : Node) : List String → List Output → List Diagnostic
  | _, [] => []
  | seen, output :: rest =>
    report (¬nonEmptyString output.name ∨ output.name ∈ seen)
      (diagnostic .outputInvalid s!"Deployment node {node.id} has an empty or duplicate output name." node) ++
    validateOutputPersistence node output ++ validateOutputs node (output.name :: seen) rest

def validateInputs : List Diagnostic :=
  node.inputs.flatMap fun (name, input) =>
    report (¬nonEmptyString name)
      (diagnostic .nodeInvalid s!"Deployment node {node.id} contains an unnamed input." node) ++
    match input with
    | .output _ _ .sensitive persistence =>
      report (persistence ≠ .redacted ∧ persistence ≠ .reference ∧ persistence ≠ .ephemeral) (diagnostic .secretUnsafe
          s!"Sensitive input {node.id}.{name} must be redacted, reference-only, or ephemeral." node)
    | _ => []

def validateLifecycle : List Diagnostic :=
  report (node.lifecycle.ownership = .external ∧
      (node.lifecycle.deletion ≠ .none ∨ node.lifecycle.adoption ≠ .externalOnly))
    (diagnostic .lifecycleUnsafe s!"Externally owned node {node.id} cannot be adopted or deleted." node) ++
  report (node.lifecycle.deletion = .retain ∧ node.lifecycle.namespaceNodeId = some node.id)
    (diagnostic .lifecycleUnsafe
      s!"Retained node {node.id} cannot own the namespace whose deletion controls its retention." node)

def validateNode : List Diagnostic :=
  report (¬isSafeInteger node.contractVersion ∨ node.contractVersion < 1)
    (diagnostic .nodeInvalid s!"Deployment node {node.id} contractVersion must be a positive integer." node) ++
  report (¬isSha256 node.configurationDigest)
    (diagnostic .nodeInvalid s!"Deployment node {node.id} configurationDigest must be a full sha256 digest." node) ++
  report (node.connectionDigest ≠ graph.identity.connection.digest)
    (diagnostic .connectionUnsafe s!"Deployment node {node.id} belongs to a different connection." node) ++
  report (graph.strategy ∉ node.strategies ∧ ¬(graph.strategy = .kro ∧ node.spec = .kubernetesDirect))
    (diagnostic .strategyUnsupported s!"Deployment node {node.id} does not support {graph.strategy.text} mode." node) ++
  validateOutputs node [] node.outputs ++ validateInputs node ++ validateLifecycle node ++
  match node.spec with
  | .externalProvider controller =>
    report (node.lifecycle.ownership = .application ∧ ¬nonEmptyString controller)
      (diagnostic .lifecycleUnsafe s!"External provider node {node.id} has no durable execution controller." node)
  | .externalReference =>
    report (node.lifecycle.ownership ≠ .external ∨ node.lifecycle.deletion ≠ .none ∨
        node.lifecycle.adoption ≠ .externalOnly)
      (diagnostic .lifecycleUnsafe
        s!"External reference {node.id} cannot carry create, adoption, or deletion ownership." node)
  | .statusProjection field sourceNodeId sourcePath =>
    report (¬nonEmptyString field ∨ ¬nonEmptyString sourceNodeId ∨ ¬nonEmptyString sourcePath)
      (diagnostic .statusInvalid s!"Status projection {node.id} must name a field, source node, and source path." node)
  | _ => []

/-- The nodes by their ids, with what they have been found to be. -/
def validateNodes (graph : Graph) : Record Node → List Node → Record Node × List Diagnostic
  | nodes, [] => (nodes, [])
  | nodes, node :: rest =>
    if ¬nonEmptyString node.id then
      let (all, later) := validateNodes graph nodes rest
      (all, diagnostic .nodeInvalid "Deployment node id must be non-empty." node :: later)
    else if (nodes.get node.id).isSome then
      let (all, later) := validateNodes graph nodes rest
      (all, diagnostic .nodeDuplicate s!"Deployment node id {node.id} is duplicated." node :: later)
    else
      let (all, later) := validateNodes graph (nodes.set node.id node) rest
      (all, validateNode graph node ++ later)

def validateEdge (edge : Edge) : List Diagnostic :=
  let described := s!"Deployment edge {edge.fromId} {edge.relationship.text} {edge.toId}"
  match nodes.get edge.fromId, nodes.get edge.toId, decide (edge.fromId = edge.toId) with
  | some source, some target, false =>
    report (source.connectionDigest ≠ target.connectionDigest)
      (edgeDiagnostic .connectionUnsafe s!"{described} crosses connections." edge) ++
    report (edge.relationship = .requiresOutput ∧
        (¬nonEmptyString edge.output ∨ ∀ output ∈ source.outputs, some output.name ≠ edge.output))
      (edgeDiagnostic .outputInvalid
        s!"Output dependency {edge.fromId} -> {edge.toId} names an output that {edge.fromId} does not declare." edge) ++
    report (edge.relationship = .owns ∧
        (source.lifecycle.ownership = .external ∨ target.lifecycle.ownership = .external))
      (edgeDiagnostic .lifecycleUnsafe
        s!"Ownership edge {edge.fromId} -> {edge.toId} cannot include an external resource." edge) ++
    report (edge.relationship = .retains ∧ target.lifecycle.namespaceNodeId = some source.id ∧
        source.lifecycle.deletion = .delete)
      (edgeDiagnostic .lifecycleUnsafe
        s!"Retained node {target.id} cannot live inside deleted namespace {source.id}." edge)
  | _, _, _ => [edgeDiagnostic .edgeInvalid s!"{described} has a missing or self-referential endpoint." edge]

/-- The loop over the edges, with the keys of those before. -/
def validateEdgesFrom (nodes : Record Node) : List String → List Edge → List Diagnostic
  | _, [] => []
  | keys, edge :: rest =>
    let key := edge.fromId ++ "\x00" ++ edge.relationship.text ++ "\x00" ++ edge.toId ++ "\x00" ++ edge.output.getD ""
    report (key ∈ keys) (edgeDiagnostic .edgeInvalid
      s!"Deployment edge {edge.fromId} {edge.relationship.text} {edge.toId} is duplicated." edge) ++
    validateEdge nodes edge ++ validateEdgesFrom nodes (key :: keys) rest

/-- `edges.some`, of edges that lead from a node to another. -/
def Graph.links (producer consumer : String) (relationship : Relationship)
    (output : Option String := none) : Bool :=
  graph.edges.any fun edge => edge.fromId = producer && edge.toId = consumer && edge.relationship = relationship &&
    (output = none || edge.output = output)

def validateInputReference (name : String) :
    Input → List Diagnostic
  | .literal => []
  | .secretReference nodeId =>
    match nodes.get nodeId with
    | none => [diagnostic .nodeInvalid s!"Input {node.id}.{name} references missing node {nodeId}." node]
    | some producer =>
      report (producer.spec ≠ .secretReference)
        (diagnostic .secretUnsafe s!"Secret input {node.id}.{name} must reference a secretReference node." node) ++
      report (¬graph.links nodeId node.id .requiresReady) (diagnostic .edgeInvalid
          s!"Secret input {node.id}.{name} is missing its requiresReady edge from {nodeId}." node)
  | .output nodeId outputName sensitivity persistence =>
    match nodes.get nodeId with
    | none => [diagnostic .nodeInvalid s!"Input {node.id}.{name} references missing node {nodeId}." node]
    | some producer =>
      match producer.outputs.find? (·.name = outputName) with
      | none =>
        [diagnostic .outputInvalid s!"Input {node.id}.{name} references missing output {nodeId}.{outputName}." node]
      | some output =>
        report (output.sensitivity ≠ sensitivity ∨ output.persistence ≠ persistence)
          (diagnostic .outputInvalid (s!"Input {node.id}.{name} must preserve the sensitivity and persistence of " ++
            s!"{nodeId}.{outputName}.") node) ++
        report (¬graph.links nodeId node.id .requiresOutput (some outputName))
          (diagnostic .edgeInvalid (s!"Input {node.id}.{name} is missing its requiresOutput edge from " ++
            s!"{nodeId}.{outputName}.") node)

def validateInputReferences : List Diagnostic :=
  node.inputs.flatMap fun (name, input) => validateInputReference graph nodes node name input

def validateNamespaceReference : List Diagnostic :=
  match node.lifecycle.namespaceNodeId with
  | none | some "" => []
  | some namespaceNodeId =>
    match nodes.get namespaceNodeId with
    | none =>
      [diagnostic .lifecycleUnsafe
        s!"Deployment node {node.id} references missing lifecycle namespace {namespaceNodeId}." node]
    | some home =>
      report (home.id = node.id) (diagnostic .lifecycleUnsafe
          s!"Deployment node {node.id} cannot use itself as its lifecycle namespace." node) ++
      report ((node.lifecycle.deletion = .retain ∨ node.lifecycle.deletion = .orphan) ∧
          home.lifecycle.deletion = .delete)
        (diagnostic .lifecycleUnsafe s!"Retained node {node.id} cannot live inside deleted namespace {home.id}." node)

def validateStatusProjection : List Diagnostic :=
  match node.spec with
  | .statusProjection _ sourceNodeId _ =>
    match nodes.get sourceNodeId with
    | none =>
      [diagnostic .statusInvalid s!"Status projection {node.id} references missing source {sourceNodeId}." node]
    | some _ =>
      report (¬graph.links sourceNodeId node.id .projectsStatus) (diagnostic .statusInvalid
          s!"Status projection {node.id} is missing its projectsStatus edge from {sourceNodeId}." node)
  | _ => []

def validateEdges : List Diagnostic :=
  validateEdgesFrom nodes [] graph.edges ++ graph.nodes.flatMap fun node =>
    validateInputReferences graph nodes node ++ validateNamespaceReference nodes node ++
      validateStatusProjection graph nodes node

def validateSingletons : Record Node → List Node → List Diagnostic
  | _, [] => []
  | singletons, node :: rest =>
    match node.spec with
    | .singleton singletonKey =>
      match singletons.get singletonKey with
      | some existing =>
        report (existing.configurationDigest ≠ node.configurationDigest)
          (diagnostic .singletonDrift (s!"Singleton key {singletonKey} is declared with conflicting configurations " ++
            s!"by {existing.id} and {node.id}.") node) ++ validateSingletons singletons rest
      | none => validateSingletons (singletons.set singletonKey node) rest
    | _ => validateSingletons singletons rest

/-- What `adjacency` holds of a node, once the edges have been pushed. -/
def Graph.adjacency (nodeId : String) : List String :=
  if graph.nodes.any (·.id = nodeId) then
    (graph.edges.filter fun edge => edge.relationship ∈ causalRelationships ∧ edge.fromId = nodeId).map (·.toId)
  else []

def Graph.ids : List String := graph.nodes.map (·.id) ++ graph.edges.map (·.toId)

def validateCycles : List Diagnostic :=
  ((graph.nodes.map (·.id)).foldlM (DepthFirst.visit graph.adjacency (graph.ids.length + 1)) {}).elim [] fun search =>
    search.cycles.map fun cycle =>
      diagnostic .edgeCycle ("Deployment graph contains a cycle: " ++ " -> ".intercalate cycle ++ ".")

structure ValidationResult where
  valid : Bool
  diagnostics : List Diagnostic

def validateApplicationDeploymentGraph : ValidationResult :=
  let (nodes, found) := validateNodes graph [] graph.nodes
  let diagnostics := validateEnvelope graph ++ found ++ validateEdges graph nodes ++
    validateSingletons [] graph.nodes ++ validateCycles graph
  { valid := !diagnostics.any (·.severity = .error), diagnostics }

end Applik8s.Deployment
