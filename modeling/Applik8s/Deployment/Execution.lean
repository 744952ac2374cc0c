import Applik8s.Deployment.Graph

/-! A valid deployment graph can be carried out: its nodes have an order in which what a node takes has been produced
before, as it takes it. The validation reports a cycle just when the causal edges have one. -/
namespace Applik8s.Deployment
open Lib List
variable (graph : Graph) (earlier : List Node)

def Graph.Has (nodeId : String) : Prop := ∃ node ∈ graph.nodes, node.id = nodeId

/-- The causal edges between the nodes: all but those that retain. -/
def Graph.Causal (earlier later : String) : Prop :=
  graph.Has earlier ∧ graph.Has later ∧
    ∃ edge ∈ graph.edges, edge.relationship ≠ .retains ∧ edge.fromId = earlier ∧ edge.toId = later

def Graph.Cyclic : Prop := ∃ nodeId, Relation.TransGen graph.Causal nodeId nodeId

/-- What an input takes is produced by one of the earlier nodes, as it is taken. -/
def Input.From : Input → Prop
  | .literal => True
  | .output nodeId name sensitivity persistence => ∃ producer ∈ earlier, producer.id = nodeId ∧
    ∃ output, producer.outputs.find? (·.name = name) = some output ∧ output.sensitivity = sensitivity ∧
      output.persistence = persistence
  | .secretReference nodeId => ∃ producer ∈ earlier, producer.id = nodeId ∧ producer.spec = .secretReference

/-- All that a node takes, and the source of a status, is there before it. -/
def Node.Ready (node : Node) : Prop :=
  (∀ name input, (name, input) ∈ node.inputs → input.From earlier) ∧
    ∀ field sourceNodeId sourcePath, node.spec = .statusProjection field sourceNodeId sourcePath →
      ∃ source ∈ earlier, source.id = sourceNodeId

def Executable (order : List Node) : Prop :=
  ∀ earlier node later, order = earlier ++ node :: later → node.Ready earlier

/-! ### Errors that report no cycle -/

private def Quiet (diagnostics : List Diagnostic) : Prop :=
  ∀ diagnostic ∈ diagnostics, diagnostic.severity = .error ∧ diagnostic.code ≠ .edgeCycle

variable (code : DiagnosticCode) (msg : String)

@[simp] private theorem diagnostic_code (node : Option Node) : (diagnostic code msg node).code = code := rfl
@[simp] private theorem diagnostic_severity (node : Option Node) : (diagnostic code msg node).severity = .error := rfl

@[simp] private theorem edgeDiagnostic_severity (edge : Edge) :
    (edgeDiagnostic code msg edge).severity = .error := rfl

@[simp] private theorem edgeDiagnostic_code (edge : Edge) : (edgeDiagnostic code msg edge).code = code := rfl

@[simp] private theorem quiet_nil : Quiet [] :=
  fun _ among => absurd among not_mem_nil

@[simp] private theorem quiet_cons (first : Diagnostic) (rest : List Diagnostic) :
    Quiet (first :: rest) ↔ (first.severity = .error ∧ first.code ≠ .edgeCycle) ∧ Quiet rest := forall_mem_cons

@[simp] private theorem quiet_append (first second : List Diagnostic) :
    Quiet (first ++ second) ↔ Quiet first ∧ Quiet second := forall_mem_append

variable (graph : Graph) (nodes : Record Node) (node : Node) {bad : Prop} [Decidable bad]

private theorem quiet_report {diagnostic : Diagnostic}
    (quiet : diagnostic.severity = .error ∧ diagnostic.code ≠ .edgeCycle) : Quiet (report bad diagnostic) := by
  unfold report
  split
  · exact (quiet_cons _ _).mpr ⟨quiet, quiet_nil⟩
  · exact quiet_nil

@[simp] private theorem quiet_report_diagnostic (node : Option Node) (quiet : code ≠ .edgeCycle) : Quiet (report bad (diagnostic code msg node)) :=
  quiet_report ⟨rfl, quiet⟩

@[simp] private theorem quiet_report_edge (edge : Edge) (quiet : code ≠ .edgeCycle) : Quiet (report bad (edgeDiagnostic code msg edge)) :=
  quiet_report ⟨rfl, quiet⟩

private theorem quiet_flatMap {α : Type} {items : List α} {check : α → List Diagnostic}
    (each : ∀ item, Quiet (check item)) : Quiet (items.flatMap check) := by
  intro diagnostic among
  obtain ⟨item, -, among⟩ := mem_flatMap.mp among
  exact each item diagnostic among

private theorem validateOutputs_quiet (outputs : List Output) (seen : List String) :
    Quiet (validateOutputs node seen outputs) := by
  induction outputs generalizing seen with
  | nil => exact quiet_nil
  | cons _ _ ih => simp [validateOutputs, validateOutputPersistence, ih]

private theorem validateInputs_quiet : Quiet (validateInputs node) := by
  refine quiet_flatMap fun (name, input) => ?_
  rw [quiet_append]
  refine ⟨by simp, ?_⟩
  split
  · exact by simp
  · exact quiet_nil

private theorem validateNode_quiet : Quiet (validateNode graph node) := by
  have kind : ∀ spec, node.spec = spec → Quiet (validateNode graph node) := by
    rintro spec is
    unfold validateNode validateLifecycle
    rw [is]
    cases spec <;> simp [validateOutputs_quiet, validateInputs_quiet]
  exact kind node.spec rfl

private theorem validateNodes_quiet (rest : List Node) : Quiet (validateNodes graph nodes rest).2 := by
  induction rest generalizing nodes with
  | nil => exact quiet_nil
  | cons node rest ih =>
    unfold validateNodes
    split
    · exact (quiet_cons _ _).mpr ⟨by simp, ih _⟩
    split
    · exact (quiet_cons _ _).mpr ⟨by simp, ih _⟩
    · exact (quiet_append _ _).mpr ⟨validateNode_quiet graph node, ih _⟩

private theorem validateEdgesFrom_quiet (keys : List String) (edges : List Edge) :
    Quiet (validateEdgesFrom nodes keys edges) := by
  induction edges generalizing keys with
  | nil => exact quiet_nil
  | cons edge rest ih =>
    have one : Quiet (validateEdge nodes edge) := by
      unfold validateEdge
      split
      · simp
      · simp
    simp [validateEdgesFrom, one, ih]

private theorem validateInputReference_quiet (name : String)
    (input : Input) : Quiet (validateInputReference graph nodes node name input) := by
  cases input with
  | literal => exact quiet_nil
  | secretReference nodeId =>
    unfold validateInputReference
    dsimp only
    split <;> simp
  | output =>
    unfold validateInputReference
    dsimp only
    split
    · simp
    split <;> simp

private theorem validateEdges_quiet : Quiet (validateEdges graph nodes) := by
  refine (quiet_append _ _).mpr ⟨validateEdgesFrom_quiet nodes [] graph.edges, quiet_flatMap fun node => ?_⟩
  rw [quiet_append, quiet_append]
  refine ⟨⟨quiet_flatMap fun (name, input) => validateInputReference_quiet graph nodes node name input, ?_⟩, ?_⟩
  · unfold validateNamespaceReference
    split
    · exact quiet_nil
    · exact quiet_nil
    · split <;> simp
  · unfold validateStatusProjection
    split
    · split <;> simp
    · exact quiet_nil

private theorem validateSingletons_quiet (singletons : Record Node) (nodes : List Node) :
    Quiet (validateSingletons singletons nodes) := by
  induction nodes generalizing singletons with
  | nil => exact quiet_nil
  | cons node rest ih =>
    unfold validateSingletons
    split
    · split
      · exact (quiet_append _ _).mpr ⟨by simp, ih _⟩
      · exact ih _
    · exact ih _

private theorem validate_quiet : Quiet (validateEnvelope graph ++ (validateNodes graph [] graph.nodes).2 ++
      validateEdges graph (validateNodes graph [] graph.nodes).1 ++ validateSingletons [] graph.nodes) := by
  simp [validateEnvelope, validateNodes_quiet, validateEdges_quiet, validateSingletons_quiet]

private theorem validateCycles_code {graph : Graph} {diagnostic : Diagnostic} (among : diagnostic ∈ validateCycles graph) :
    diagnostic.severity = .error ∧ diagnostic.code = .edgeCycle := by
  unfold validateCycles at among
  cases found : (graph.nodes.map (·.id)).foldlM (DepthFirst.visit graph.adjacency (graph.ids.length + 1)) {} with
  | none =>
    rw [found] at among
    exact absurd among not_mem_nil
  | some search =>
    rw [found] at among
    obtain ⟨_, -, rfl⟩ := mem_map.mp among
    exact ⟨rfl, rfl⟩

theorem reports_cycle_iff :
    (∃ diagnostic ∈ (validateApplicationDeploymentGraph graph).diagnostics, diagnostic.code = .edgeCycle) ↔
      validateCycles graph ≠ [] := by
  constructor
  · rintro ⟨diagnostic, among, cycle⟩ none
    rw [validateApplicationDeploymentGraph] at among
    dsimp only at among
    rw [none, append_nil] at among
    exact (validate_quiet graph diagnostic among).2 cycle
  · intro some
    obtain ⟨diagnostic, among⟩ := exists_mem_of_ne_nil _ some
    exact ⟨diagnostic, mem_append_right _ among, (validateCycles_code among).2⟩

theorem diagnostics_eq_nil {graph : Graph} (valid : (validateApplicationDeploymentGraph graph).valid = true) :
    (validateApplicationDeploymentGraph graph).diagnostics = [] := by
  refine eq_nil_iff_forall_not_mem.mpr fun diagnostic among => ?_
  have harmless : (validateApplicationDeploymentGraph graph).diagnostics.any (·.severity = .error) = false :=
    Bool.not_eq_true' _ ▸ valid
  have error : diagnostic.severity = .error := by
    rcases mem_append.mp among with quiet | cycle
    · exact (validate_quiet graph diagnostic quiet).1
    · exact (validateCycles_code cycle).1
  exact Bool.false_ne_true (harmless.symm.trans (any_eq_true.mpr ⟨diagnostic, among, decide_eq_true error⟩))

variable {graph : Graph} {earlier : String}

private theorem leads_iff : DepthFirst.Leads graph.adjacency earlier later ↔ graph.Has earlier ∧
    ∃ edge ∈ graph.edges, edge.relationship ≠ .retains ∧ edge.fromId = earlier ∧ edge.toId = later := by
  have causal : ∀ relationship : Relationship, relationship ∈ causalRelationships ↔ relationship ≠ .retains := by
    intro relationship
    cases relationship <;> decide
  have has : graph.nodes.any (·.id = earlier) = true ↔ graph.Has earlier := by
    simp [Graph.Has]
  unfold DepthFirst.Leads Graph.adjacency
  rw [← has]
  split
  next is => simp only [is, mem_map, mem_filter, decide_eq_true_eq, causal, true_and, and_assoc]
  next absent => simp [absent]

private theorem transGen_causal (leads : Relation.TransGen (DepthFirst.Leads graph.adjacency) earlier later)
    (there : graph.Has later) : Relation.TransGen graph.Causal earlier later := by
  induction leads with
  | single leads => exact .single ⟨(leads_iff.mp leads).1, there, (leads_iff.mp leads).2⟩
  | tail _ leads ih => exact (ih (leads_iff.mp leads).1).tail ⟨(leads_iff.mp leads).1, there, (leads_iff.mp leads).2⟩

private theorem exists_search (graph : Graph) : ∃ after : DepthFirst.Search String,
    (validateCycles graph = [] ↔ after.cycles = []) ∧ (after.cycles ≠ [] → graph.Cyclic) ∧
      (after.cycles = [] → DepthFirst.Settled graph.adjacency after.visited ∧
        ∀ nodeId, graph.Has nodeId → nodeId ∈ after.visited) := by
  have closed : ∀ nodeId ∈ graph.ids, graph.adjacency nodeId ⊆ graph.ids := by
    intro earlier _ later among
    obtain ⟨-, edge, there, -, -, rfl⟩ := leads_iff.mp among
    exact mem_append_right _ (mem_map.mpr ⟨edge, there, rfl⟩)
  obtain ⟨after, searches, cyclic, settled⟩ := DepthFirst.search_spec closed (subset_append_left _ _)
  refine ⟨after, ?_, fun some => ?_, fun none => ⟨(settled none).1, ?_⟩⟩
  · rw [validateCycles, searches]
    exact map_eq_nil_iff
  · obtain ⟨nodeId, cycle⟩ := cyclic some
    obtain ⟨_, leads, -⟩ := Relation.TransGen.head'_iff.mp cycle
    exact ⟨nodeId, transGen_causal cycle (leads_iff.mp leads).1⟩
  · rintro _ ⟨node, among, rfl⟩
    exact (settled none).2 (mem_map.mpr ⟨node, among, rfl⟩)

/-- Without a cycle, the ids of the nodes have ranks that fall along the causal edges. -/
private theorem exists_rank (none : validateCycles graph = []) :
    ∃ rank : String → Nat, ∀ earlier later, graph.Causal earlier later → rank later < rank earlier := by
  obtain ⟨after, reports, -, settled⟩ := exists_search graph
  obtain ⟨settled, all⟩ := settled (reports.mp none)
  exact ⟨DepthFirst.rank after.visited, fun earlier later causal =>
    (settled.rank_lt (all earlier causal.1) (leads_iff.mpr ⟨causal.1, causal.2.2⟩)).2⟩

theorem validateCycles_ne_nil_iff : validateCycles graph ≠ [] ↔ graph.Cyclic := by
  constructor
  · obtain ⟨_, reports, cyclic, -⟩ := exists_search graph
    exact fun some => cyclic fun none => some (reports.mpr none)
  rintro ⟨nodeId, cycle⟩ none
  obtain ⟨rank, falls⟩ := exists_rank none
  have less : ∀ later, Relation.TransGen graph.Causal nodeId later → rank later < rank nodeId := by
    intro later reaches
    induction reaches with
    | single causal => exact falls _ _ causal
    | tail _ causal ih => exact (falls _ _ causal).trans ih
  exact Nat.lt_irrefl _ (less nodeId cycle)

private theorem report_eq_nil {bad : Prop} [Decidable bad] {diagnostic : Diagnostic} :
    report bad diagnostic = [] ↔ ¬bad := by
  unfold report
  split
  next is => exact iff_of_false (cons_ne_nil _ _) (not_not_intro is)
  next is => exact iff_of_true rfl is

/-- The nodes by their ids are nodes of the graph. -/
private theorem validateNodes_get {nodes : Record Node} {node : Node}
    (found : (validateNodes graph nodes rest).1.get nodeId = some node) :
    nodes.get nodeId = some node ∨ node ∈ rest ∧ node.id = nodeId := by
  induction rest generalizing nodes with
  | nil => exact .inl found
  | cons first rest ih =>
    have later : node ∈ rest ∧ node.id = nodeId → node ∈ first :: rest ∧ node.id = nodeId :=
      And.imp_left (mem_cons_of_mem first)
    unfold validateNodes at found
    split at found
    · exact (ih found).imp_right later
    split at found
    · exact (ih found).imp_right later
    rcases ih found with set | among
    · rw [Record.get_set] at set
      split at set
      next same =>
        cases set
        exact .inr ⟨mem_cons_self, same.symm⟩
      · exact .inl set
    · exact .inr (later among)

private theorem causal_of_links (two : graph.Has earlier) (other : graph.Has later)
    (links : graph.links earlier later relationship output = true) (causal : relationship ≠ .retains)
    : graph.Causal earlier later := by
  obtain ⟨edge, among, is⟩ := any_eq_true.mp links
  simp only [Bool.and_eq_true, decide_eq_true_eq] at is
  exact ⟨two, other, edge, among, is.1.2 ▸ causal, is.1.1.1, is.1.1.2⟩

/-- What stands before a node in an order of falling ranks: all of higher rank. -/
private theorem mem_earlier {rank : String → Nat} {after : List Node} {node : Node}
    (falls : (before ++ node :: after).Pairwise fun one other => rank other.id ≤ rank one.id)
    (among : producer ∈ before ++ node :: after) (higher : rank node.id < rank producer.id) : producer ∈ before := by
  rcases mem_append.mp among with before | later
  · exact before
  rcases mem_cons.mp later with rfl | later
  · exact absurd higher (Nat.lt_irrefl _)
  · have lower := (pairwise_cons.mp (pairwise_append.mp falls).2.1).1 producer later
    omega

/-- An input without diagnostics takes from a node that a causal edge leads from. -/
private theorem input_from {nodes : Record Node} {node : Node} (here : graph.Has node.id)
    (known : ∀ nodeId node, nodes.get nodeId = some node → graph.Has nodeId ∧ node.id = nodeId ∧ (graph.Causal nodeId later → node ∈ before))
    (is : node.id = later) (quiet : validateInputReference graph nodes node name input = []) : input.From before := by
  subst is
  cases input with
  | literal => trivial
  | secretReference nodeId =>
    unfold validateInputReference at quiet
    dsimp only at quiet
    split at quiet
    · exact absurd quiet (cons_ne_nil _ _)
    next producer found =>
      obtain ⟨there, id, before⟩ := known nodeId producer found
      obtain ⟨secret, linked⟩ := append_eq_nil_iff.mp quiet
      have secret := Decidable.not_not.mp (report_eq_nil.mp secret)
      have linked := Decidable.not_not.mp (report_eq_nil.mp linked)
      exact ⟨producer, before (causal_of_links there here linked (by decide)), id, secret⟩
  | output nodeId =>
    unfold validateInputReference at quiet
    dsimp only at quiet
    split at quiet
    · exact absurd quiet (cons_ne_nil _ _)
    next producer found =>
    split at quiet
    · exact absurd quiet (cons_ne_nil _ _)
    next output declared =>
      obtain ⟨there, id, before⟩ := known nodeId producer found
      obtain ⟨kept, linked⟩ := append_eq_nil_iff.mp quiet
      have kept := report_eq_nil.mp kept
      have linked := Decidable.not_not.mp (report_eq_nil.mp linked)
      push Not at kept
      exact ⟨producer, before (causal_of_links there here linked (by decide)), id, output, declared, kept.1, kept.2⟩

private theorem status_follows {nodes : Record Node} {node : Node} {before : List Node} (here : graph.Has node.id)
    (known : ∀ nodeId source, nodes.get nodeId = some source → graph.Has nodeId ∧ source.id = nodeId ∧ (graph.Causal nodeId node.id → source ∈ before))
    (quiet : validateStatusProjection graph nodes node = [])
    (is : node.spec = .statusProjection field sourceNodeId sourcePath) :
    ∃ source ∈ before, source.id = sourceNodeId := by
  unfold validateStatusProjection at quiet
  rw [is] at quiet
  dsimp only at quiet
  split at quiet
  · exact absurd quiet (cons_ne_nil _ _)
  next source found =>
    obtain ⟨there, id, before⟩ := known sourceNodeId source found
    have linked := Decidable.not_not.mp (report_eq_nil.mp quiet)
    exact ⟨source, before (causal_of_links there here linked (by decide)), id⟩

/-- A cycle is reported just when there is one, and a graph that is accepted can be carried out. -/
theorem deployment_graph_executable (graph : Graph) :
    ((∃ diagnostic ∈ (validateApplicationDeploymentGraph graph).diagnostics, diagnostic.code = .edgeCycle) ↔
      graph.Cyclic) ∧
    ((validateApplicationDeploymentGraph graph).valid = true →
      ∃ order, order.Perm graph.nodes ∧ Executable order) := by
  refine ⟨(reports_cycle_iff graph).trans validateCycles_ne_nil_iff, fun valid => ?_⟩
  have none := diagnostics_eq_nil valid
  unfold validateApplicationDeploymentGraph at none
  obtain ⟨none, acyclic⟩ := append_eq_nil_iff.mp none
  obtain ⟨-, edges⟩ := append_eq_nil_iff.mp (append_eq_nil_iff.mp none).1
  have checks := flatMap_eq_nil_iff.mp (append_eq_nil_iff.mp edges).2
  obtain ⟨rank, falls⟩ := exists_rank acyclic
  let behind : Node → Node → Prop := fun one other => rank other.id ≤ rank one.id
  have : Std.Total behind := ⟨fun one other => Nat.le_total (rank other.id) (rank one.id)⟩
  have : IsTrans Node behind := ⟨fun _ _ _ first second => Nat.le_trans second first⟩
  have all : (graph.nodes.insertionSort behind).Perm graph.nodes := perm_insertionSort behind graph.nodes
  refine ⟨_, all, fun before node after order => ?_⟩
  have sorted := pairwise_insertionSort behind graph.nodes
  rw [order] at sorted all
  have here : node ∈ graph.nodes := all.mem_iff.mp (mem_append_right _ mem_cons_self)
  have known : ∀ nodeId producer, (validateNodes graph [] graph.nodes).1.get nodeId = some producer →
      graph.Has nodeId ∧ producer.id = nodeId ∧ (graph.Causal nodeId node.id → producer ∈ before) := by
    intro nodeId producer found
    obtain ⟨among, rfl⟩ := (validateNodes_get found).resolve_left nofun
    exact ⟨⟨producer, among, rfl⟩, rfl, fun causal => mem_earlier sorted (all.mem_iff.mpr among) (falls _ _ causal)⟩
  obtain ⟨inputs, status⟩ := append_eq_nil_iff.mp (checks node here)
  have each := flatMap_eq_nil_iff.mp (append_eq_nil_iff.mp inputs).1
  exact ⟨fun name input among => input_from ⟨node, here, rfl⟩ known rfl (each (name, input) among),
    fun _ _ _ is => status_follows ⟨node, here, rfl⟩ known status is⟩

/-- An image and a secret that a composition takes, and the status of the composition. -/
private def sampleGraph : Graph :=
  let digest := "sha256:" ++ String.ofList (List.replicate 64 '0')
  let node (id : String) (spec : Spec) (inputs : Record Input) (outputs : List Output) : Node :=
    { id, spec, contractVersion := 1, source := {}, connectionDigest := digest, strategies := [.direct],
      configurationDigest := digest, inputs, outputs,
      lifecycle := { ownership := .application, deletion := .delete, adoption := .createOnly } }
  { apiVersion := "applik8s.deploymentGraph/v1alpha1", kind := "ApplicationDeploymentGraph",
    identity := ⟨⟨"kubernetes", "local", digest⟩, "shop", "applik8s", "main", "default"⟩,
    strategy := .direct, sourceGraphDigest := digest,
    nodes :=
      [node "status" (.statusProjection "url" "web" "status.url") [] [], node "web" .kubernetesComposition
          [("image", .output "image" "digest" .plain .state), ("token", .secretReference "token")] [],
        node "token" .secretReference [] [],
        node "image" .artifact [] [⟨"digest", .artifactDigest, .plain, .state⟩]],
    edges :=
      [⟨"image", "web", .requiresOutput, some "digest"⟩, ⟨"token", "web", .requiresReady, none⟩,
        ⟨"web", "status", .projectsStatus, none⟩] }

theorem sample_executable : ∃ order, order.Perm sampleGraph.nodes ∧ Executable order :=
  (deployment_graph_executable sampleGraph).2 (by decide +kernel)

end Applik8s.Deployment
