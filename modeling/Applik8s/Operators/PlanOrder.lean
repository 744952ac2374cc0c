import Applik8s.Operators.Recorder
import Applik8s.Operators.Validation

/-! The order of an emitted plan. Dispatch concatenates buckets, the bridge ranks
operations; both agree except where a status operation has been put among the patches. -/
namespace Applik8s.Operators
open List
open DeleteOperationInput (normalized)
open FinalizerEntry (adds)

section
variable {α : Type} {rank : α → Nat} {lower : List α}

theorem pairwise_layers (bound : Nat) (below : ∀ entry ∈ lower, rank entry ≤ bound)
    (above : ∀ entry ∈ upper, bound ≤ rank entry) :
    (lower ++ upper).Pairwise (fun first second => rank first ≤ rank second) ↔
      lower.Pairwise (fun first second => rank first ≤ rank second) ∧
        upper.Pairwise (fun first second => rank first ≤ rank second) := by
  rw [pairwise_append]
  constructor
  · rintro ⟨left, right, -⟩
    exact ⟨left, right⟩
  rintro ⟨left, right⟩
  refine ⟨left, right, ?_⟩
  intro first first_mem second second_mem
  exact Nat.le_trans (below first first_mem) (above second second_mem)

theorem pairwise_levels (layers : List (Nat × List α))
    (ascending : layers.Pairwise fun first second => first.1 ≤ second.1)
    (level : ∀ layer ∈ layers, ∀ entry ∈ layer.2, rank entry = layer.1) :
    (layers.flatMap Prod.snd).Pairwise fun first second => rank first ≤ rank second := by
  induction layers with
  | nil => simp
  | cons layer rest ih =>
    obtain ⟨before, ascending_rest⟩ := pairwise_cons.mp ascending
    have own : ∀ entry ∈ layer.2, rank entry = layer.1 := level layer (by simp)
    rw [flatMap_cons]
    refine (pairwise_layers layer.1 (fun entry member => (own entry member).le) ?_).mpr ⟨?_, ?_⟩
    · intro entry member
      obtain ⟨other, other_mem, entry_mem⟩ := mem_flatMap.mp member
      rw [level other (by simp [other_mem]) entry entry_mem]
      exact before other other_mem
    · apply pairwise_of_forall_mem_list
      intro first first_mem second second_mem
      rw [own first first_mem, own second second_mem]
    · exact ih ascending_rest fun other other_mem => level other (by simp [other_mem])

end

/-- The rank of the operations a wire tag stands for; a finalizer that does not say `add`
is a removal. -/
def kindOrder (kind : String) : Nat :=
  if kind = "apply" then 1
  else if kind = "patch" then 2
  else if kind = "delete" then 3
  else if kind = "status" then 4
  else if kind = "event" then 5
  else if kind = "finalizer" then 6
  else 7

/-- The rank an emitted entry has on the wire. A bare manifest or reference in the place of
an operation is read as the operation its `kind` names. -/
def Entry.order : Entry → Nat
  | .operation effect => canonicalOperationOrder effect
  | bare => kindOrder bare.kind

/-- How the bridge can read an emitted entry: as itself, or a bare one by its `kind`. -/
def Entry.ReadsAs : Entry → Operation → Prop
  | .operation effect, read => read = effect
  | bare, read => read.kind = bare.kind ∧ ∀ name, read ≠ .finalizer ⟨.add, name⟩

/-- The sequence of a plan is non-decreasing under `canonical_operation_order`. -/
def InOrder (plan : List Entry) : Prop :=
  plan.Pairwise fun earlier later => earlier.order ≤ later.order

instance : DecidablePred InOrder := fun plan =>
  inferInstanceAs (Decidable (plan.Pairwise fun earlier later => earlier.order ≤ later.order))

/-- The bridge does not refuse the plan for its order, however it reads the entries. -/
def NeverRefusedForOrder (plan : List Entry) : Prop :=
  ∀ owner operations, List.Forall₂ Entry.ReadsAs plan operations →
    ∀ index kind, validateOperationPlan owner operations ≠ .error (.order index kind)

/-- The patch list of a result holds its status operations last, and only when nothing is
deleted. -/
structure StatusesLast (result : HandlerResult) : Prop where
  last : (result.patch.getD []).Pairwise fun earlier later => earlier.val.kind = "status" → later.val.kind ≠ "patch"
  alone : (∃ entry ∈ result.patch.getD [], entry.val.kind = "status") → result.delete.getD [] = []

namespace Entry

theorem order_eq_kindOrder {entry : Entry} (other : entry.kind ≠ "finalizer") :
    entry.order = kindOrder entry.kind := by
  cases entry with
  | operation effect => cases effect <;> simp_all [order, kind, Operation.kind, kindOrder, canonicalOperationOrder]
  | object => rfl
  | reference ref => rfl

theorem order_of_readsAs {entry : Entry} {read : Operation} (reads : entry.ReadsAs read) :
    canonicalOperationOrder read = entry.order := by
  have bare : ∀ kind : String, read.kind = kind → (∀ name, read ≠ .finalizer ⟨.add, name⟩) →
      canonicalOperationOrder read = kindOrder kind := by
    rintro kind rfl no_addition
    cases read with
    | finalizer op =>
      obtain ⟨action, name⟩ := op
      cases action with
      | add => exact absurd rfl (no_addition name)
      | remove => simp [canonicalOperationOrder, Operation.kind, kindOrder]
    | _ => simp [canonicalOperationOrder, Operation.kind, kindOrder]
  cases entry with
  | operation effect => rw [show read = effect from reads]; rfl
  | object => exact bare _ reads.1 reads.2
  | reference ref => exact bare _ reads.1 reads.2

end Entry

open Entry (kind operation order)

section
theorem order_of_apply (input : ApplyOperationInput) : input.normalized.order = 1 := by
  cases input with
  | operation effect => rfl
  | object resource =>
    by_cases bare : resource.kind = "apply"
    · simp [ApplyOperationInput.normalized, bare, order, kind, kindOrder]
    · simp [ApplyOperationInput.normalized, bare, order, canonicalOperationOrder]

theorem order_of_delete (input : DeleteOperationInput) : input.normalized.order = 3 := by
  cases input with
  | operation effect =>
    have tagged : effect.val.kind = "delete" := by simpa using effect.property
    rw [normalized, Entry.order_eq_kindOrder (by simp [tagged]), tagged]
    rfl
  | reference ref =>
    by_cases bare : ref.kind = "delete"
    · simp [normalized, bare, order, kind, kindOrder]
    · simp [normalized, bare, order, canonicalOperationOrder]

theorem order_of_event (event : EventEntry) : event.val.order = 5 := by
  have tagged : event.val.kind = "event" := by simpa using event.property
  rw [Entry.order_eq_kindOrder (by simp [tagged]), tagged]
  rfl

theorem order_of_finalizer (finalizer : FinalizerEntry) : finalizer.val.order = if finalizer.adds then 0 else 6 := by
  obtain ⟨entry, tagged⟩ := finalizer
  cases entry with
  | operation effect =>
    cases effect with
    | finalizer op =>
      obtain ⟨action, _⟩ := op
      cases action <;> simp [adds, order, canonicalOperationOrder]
    | _ => simp [kind, Operation.kind] at tagged
  | object resource =>
    have named : resource.kind = "finalizer" := by simpa [kind] using tagged
    simp [adds, order, kind, named, kindOrder]
  | reference ref =>
    have named : ref.kind = "finalizer" := by simpa [kind] using tagged
    simp [adds, order, kind, named, kindOrder]

variable (entry : PatchLikeOperation)

theorem order_of_patch : entry.val.order = if entry.val.kind = "status" then 4 else 2 := by
  have tagged : entry.val.kind = "patch" ∨ entry.val.kind = "status" := by
    simpa using entry.property
  have other : entry.val.kind ≠ "finalizer" := by
    rcases tagged with patch | status <;> simp [*]
  rw [Entry.order_eq_kindOrder other]
  rcases tagged with patch | status
  · simp [patch, kindOrder]
  · simp [status, kindOrder]

theorem kind_of_patch : entry.val.kind = "patch" ∨ entry.val.kind = "status" := by simpa using entry.property

end

section
variable (result : HandlerResult)

private def opening : List Entry :=
  ((result.finalizers.getD []).filter FinalizerEntry.adds).map Subtype.val
    ++ (result.apply.getD []).map ApplyOperationInput.normalized

private def closing : List Entry :=
  ((result.status.filter truthyJson).map fun status =>
      Entry.operation (.status { status := status })).toList
    ++ (result.events.getD []).map Subtype.val
    ++ ((result.finalizers.getD []).filter fun finalizer => !finalizer.adds).map Subtype.val
    ++ (result.requeue.map fun policy => Entry.operation (.requeue policy)).toList

private theorem normalize_eq : normalizeHandlerResult result = opening result ++ ((result.patch.getD []).map Subtype.val
        ++ (result.delete.getD []).map normalized) ++ closing result := by
  simp [normalizeHandlerResult, opening, closing]

variable {entry : Entry}

private theorem order_of_addition (member : entry ∈ ((result.finalizers.getD []).filter adds).map Subtype.val) :
    entry.order = 0 := by
  obtain ⟨_, kept, rfl⟩ := mem_map.mp member
  rw [order_of_finalizer, if_pos (mem_filter.mp kept).2]

private theorem order_of_removal (member : entry ∈ ((result.finalizers.getD []).filter fun finalizer =>
      !finalizer.adds).map Subtype.val) : entry.order = 6 := by
  obtain ⟨finalizer, kept, rfl⟩ := mem_map.mp member
  have removal : adds finalizer = false := by
    simpa using (mem_filter.mp kept).2
  simp [order_of_finalizer, removal]

private theorem order_of_applied
    (member : entry ∈ (result.apply.getD []).map ApplyOperationInput.normalized) : entry.order = 1 := by
  obtain ⟨input, -, rfl⟩ := mem_map.mp member
  exact order_of_apply input

private theorem order_of_deleted
    (member : entry ∈ (result.delete.getD []).map normalized) : entry.order = 3 := by
  obtain ⟨input, -, rfl⟩ := mem_map.mp member
  exact order_of_delete input

private theorem order_of_recorded (member : entry ∈ (result.events.getD []).map Subtype.val) : entry.order = 5 := by
  obtain ⟨event, -, rfl⟩ := mem_map.mp member
  exact order_of_event event

private theorem order_of_own_status (member : entry ∈ ((result.status.filter truthyJson).map fun status =>
      operation (.status { status := status })).toList) : entry.order = 4 := by
  obtain ⟨_, -, rfl⟩ := by simpa using member
  rfl

private theorem order_of_requeue (member : entry ∈ (result.requeue.map fun policy =>
      operation (.requeue policy)).toList) : entry.order = 7 := by
  obtain ⟨_, -, rfl⟩ := by simpa using member
  rfl

private theorem opening_below (member : entry ∈ opening result) : entry.order ≤ 2 := by
  rcases mem_append.mp member with added | applied
  · have := order_of_addition result added
    omega
  · have := order_of_applied result applied
    omega

private theorem opening_inOrder : InOrder (opening result) := by
  have sorted := pairwise_levels [(0, ((result.finalizers.getD []).filter adds).map Subtype.val),
      (1, (result.apply.getD []).map ApplyOperationInput.normalized)]
    (by simp) (forall_mem_cons.mpr ⟨fun entry => order_of_addition result,
      forall_mem_singleton.mpr fun entry => order_of_applied result⟩)
  simpa [InOrder, opening] using sorted

private theorem closing_above (member : entry ∈ closing result) : 4 ≤ entry.order := by
  simp only [closing, mem_append] at member
  rcases member with ((status | event) | removal) | requeue
  · exact (order_of_own_status result status).ge
  · have := order_of_recorded result event
    omega
  · have := order_of_removal result removal
    omega
  · have := order_of_requeue result requeue
    omega

private theorem closing_inOrder : InOrder (closing result) := by
  have sorted := pairwise_levels [(4, ((result.status.filter truthyJson).map fun status =>
        operation (.status { status := status })).toList),
      (5, (result.events.getD []).map Subtype.val),
      (6, ((result.finalizers.getD []).filter fun finalizer => !adds finalizer).map Subtype.val),
      (7, (result.requeue.map fun policy => operation (.requeue policy)).toList)]
    (by simp)
    (forall_mem_cons.mpr ⟨fun entry => order_of_own_status result,
      forall_mem_cons.mpr ⟨fun entry => order_of_recorded result,
        forall_mem_cons.mpr ⟨fun entry => order_of_removal result,
          forall_mem_singleton.mpr fun entry => order_of_requeue result⟩⟩⟩)
  simpa [InOrder, closing] using sorted

private theorem patches_deletes_inOrder : InOrder ((result.patch.getD []).map Subtype.val
        ++ (result.delete.getD []).map normalized) ↔ StatusesLast result := by
  have deletes := pairwise_levels [(3, (result.delete.getD []).map normalized)] (by simp)
    (forall_mem_singleton.mpr fun entry => order_of_deleted result)
  have among : ∀ earlier later : PatchLikeOperation, earlier.val.order ≤ later.val.order ↔
      (earlier.val.kind = "status" → later.val.kind ≠ "patch") := by
    intro earlier later
    rw [order_of_patch, order_of_patch]
    rcases kind_of_patch later with patch | status <;>
      by_cases own : earlier.val.kind = "status" <;> simp [*]
  have beyond : ∀ entry : PatchLikeOperation, entry.val.order ≤ 3 ↔ entry.val.kind ≠ "status" := by
    intro entry
    rw [order_of_patch]
    by_cases own : entry.val.kind = "status" <;> simp [own]
  simp only [InOrder, pairwise_append, pairwise_map, among]
  constructor
  · rintro ⟨last, -, crossing⟩
    refine ⟨last, ?_⟩
    rintro ⟨entry, member, status⟩
    by_contra nonempty
    obtain ⟨_, input_mem⟩ := exists_mem_of_ne_nil _ nonempty
    have bounded := crossing entry.val (mem_map_of_mem member) _ (mem_map_of_mem input_mem)
    rw [order_of_delete, beyond] at bounded
    exact bounded status
  · rintro ⟨last, alone⟩
    refine ⟨last, by simpa [pairwise_map] using deletes, ?_⟩
    intro entry member deleted deleted_mem
    obtain ⟨patch, patch_mem, rfl⟩ := mem_map.mp member
    rw [order_of_deleted result deleted_mem, beyond]
    intro status
    simp [alone ⟨patch, patch_mem, status⟩] at deleted_mem

/-- An emitted plan is in order exactly when its result has the statuses of other resources
last among the patches and deletes nothing besides them. -/
theorem normalized_inOrder_iff : InOrder (normalizeHandlerResult result) ↔ StatusesLast result := by
  rw [normalize_eq, ← patches_deletes_inOrder, append_assoc]
  unfold InOrder
  rw [pairwise_layers 2 (fun entry => opening_below result) ?_,
    pairwise_layers 4 ?_ (fun entry => closing_above result)]
  · constructor
    · rintro ⟨-, middle, -⟩
      exact middle
    · intro middle
      exact ⟨opening_inOrder result, middle, closing_inOrder result⟩
  · intro entry member
    rcases mem_append.mp member with patched | deleted
    · obtain ⟨patch, -, rfl⟩ := mem_map.mp patched
      rw [order_of_patch]
      split <;> omega
    · have := order_of_deleted result deleted
      omega
  · intro entry member
    rcases mem_append.mp member with middle | closed
    · rcases mem_append.mp middle with patched | deleted
      · obtain ⟨_, -, rfl⟩ := mem_map.mp patched
        rw [order_of_patch]
        split <;> omega
      · have := order_of_deleted result deleted
        omega
    · have := closing_above result closed
      omega

end

/-- The loop of the bridge raises no complaint about the order of operations that ascend from
the rank it starts with. -/
theorem validateOperations_not_order (owner : ObjectRef) (ops : List Operation)
    (ascending : ops.Pairwise fun earlier later => canonicalOperationOrder earlier ≤ canonicalOperationOrder later) :
    ∀ index prev, (∀ op ∈ ops, prev ≤ canonicalOperationOrder op) →
      ∀ place kind, validateOperations owner index prev ops ≠ .error (.order place kind) := by
  induction ops with
  | nil => simp [validateOperations]
  | cons op rest ih =>
    intro index prev above place kind
    obtain ⟨first, ascending_rest⟩ := pairwise_cons.mp ascending
    have reached : ¬ canonicalOperationOrder op < prev := by
      have := above op (by simp)
      omega
    rw [validateOperations, if_neg reached]
    cases validateOperation owner index op with
    | error => simp
    | ok _ => exact ih ascending_rest (index + 1) _ first place kind

theorem InOrder.neverRefused (ordered : InOrder plan) : NeverRefusedForOrder plan := by
  intro owner ops reads place kind
  have ascending : ops.Pairwise fun earlier later =>
      canonicalOperationOrder earlier ≤ canonicalOperationOrder later := by
    have ranks : ops.map canonicalOperationOrder = plan.map order := by
      induction reads with
      | nil => rfl
      | cons head _ ih => simp [Entry.order_of_readsAs head, ih (pairwise_cons.mp ordered).2]
    have sorted : (plan.map order).Pairwise (· ≤ ·) := pairwise_map.mpr ordered
    rw [← ranks] at sorted
    exact pairwise_map.mp sorted
  unfold validateOperationPlan
  cases validateRef owner "owner" with
  | error => simp
  | ok _ =>
    have loop := validateOperations_not_order owner ops ascending 0 0 (by simp) place kind
    cases out : validateOperations owner 0 0 ops with
    | error error => simpa [out] using loop
    | ok _ =>
      simp only
      split <;> simp

/-- A handler result is emitted as a plan the bridge accepts in order exactly when its status
operations on other resources come after its patches and it deletes nothing besides them. -/
theorem emitted_plan_in_order_iff (result : HandlerResult) : (InOrder (normalizeHandlerResult result) ∧
      NeverRefusedForOrder (normalizeHandlerResult result)) ↔ StatusesLast result := by
  rw [← normalized_inOrder_iff]
  constructor
  · exact And.left
  · intro ordered
    exact ⟨ordered, ordered.neverRefused⟩

private def hero : ObjectRef where
  apiVersion := "media.applik8s.dev/v1alpha1"
  kind := "ImageJob"
  name := "hero"
  namespaceName := some "media"

private def settings : ObjectRef where
  apiVersion := "v1"
  kind := "ConfigMap"
  name := "settings"
  namespaceName := some "media"

private def ready : Json := .object [("phase", .string "Ready")]

/-- A scope handler that sets the status of another resource and then deletes something emits
a plan out of order, and the bridge refuses it for that. -/
theorem status_before_delete_refused : ∃ plan operations, invokeRunnableHandler .scope none
        [.setStatus hero ready, .delete .scope (.reference settings none)] none = .ok plan ∧
      ¬ InOrder plan ∧ List.Forall₂ Entry.ReadsAs plan operations ∧
      validateOperationPlan hero operations = .error (.order 1 "delete") := by
  refine ⟨[.operation (.status { status := ready, ref := some hero }), .operation (.delete { ref := settings })],
    [.status { status := ready, ref := some hero }, .delete { ref := settings }],
    rfl, by decide +kernel, ?_, by decide +kernel⟩
  exact .cons rfl (.cons rfl .nil)

end Applik8s.Operators
