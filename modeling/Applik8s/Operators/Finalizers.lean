import Applik8s.Lib.Run
import Applik8s.Operators.Operations

/-! `mutate_finalizer` of `applier.rs`: the finalizers of an object are read, one of them is added or removed, and all
of them are applied again, without the version that was read. What was removed since comes back, and a finalizer that
somebody else owns stays. -/
namespace Applik8s.Operators
open Lib (runFrom)

/-- The finalizers of an object, each with the field managers that own it. -/
structure Finalizers where
  items : List String
  owners : String → List String

namespace Finalizers

/-- Server-side apply. What the manager owned and applies no longer goes, unless another manager owns it. -/
def apply (manager : String) (applied : List String) (object : Finalizers) : Finalizers where
  items := (object.items.filter fun item =>
      item ∈ applied || manager ∉ object.owners item || (object.owners item).any (· ≠ manager)) ++
    applied.filter (· ∉ object.items)
  owners item :=
    let others := (object.owners item).filter (· ≠ manager)
    if item ∈ applied then manager :: others else others

end Finalizers

/-- What other controllers do to their own finalizers. -/
inductive FinalizerEdit where
  | add (manager finalizer : String)
  | remove (manager finalizer : String)

def FinalizerEdit.perform (object : Finalizers) : FinalizerEdit → Finalizers
  | .add manager finalizer =>
    { items := if finalizer ∈ object.items then object.items else object.items ++ [finalizer]
      owners := Function.update object.owners finalizer (manager :: object.owners finalizer) }
  | .remove _ finalizer =>
    { items := object.items.filter (· ≠ finalizer), owners := Function.update object.owners finalizer [] }

namespace FinalizerOperation
variable (operation : FinalizerOperation)

/-- The finalizers that are applied, from those that were read. -/
def mutated (finalizers : List String) : List String :=
  match operation.operation with
  | .add =>
    if operation.finalizer ∈ finalizers then finalizers else finalizers ++ [operation.finalizer]
  | .remove => finalizers.filter (· ≠ operation.finalizer)

/-- `mutate_finalizer`, and what others do between its read and its apply. -/
def mutateFinalizer (manager : String) (object : Finalizers) (meanwhile : List FinalizerEdit) : Finalizers :=
  (runFrom FinalizerEdit.perform object meanwhile).apply manager (operation.mutated object.items)

/-- The named finalizer is there or gone, as was asked, and no other one came or went. -/
structure ChangesOnly (before after : Finalizers) : Prop where
  others : ∀ item ≠ operation.finalizer, item ∈ after.items ↔ item ∈ before.items
  named : operation.finalizer ∈ after.items ↔ operation.operation = .add

/-- Nothing that was read has been removed since, nothing that is the manager's alone has been added since, and what
is to be removed is the manager's alone, if it is still there. -/
structure Undisturbed (manager : String) (read now : Finalizers) : Prop where
  kept : ∀ item ∈ read.items, item ≠ operation.finalizer → item ∈ now.items
  known : ∀ item ∈ now.items, item ≠ operation.finalizer → manager ∈ now.owners item →
    (∀ owner ∈ now.owners item, owner = manager) → item ∈ read.items
  sole : operation.operation = .remove → operation.finalizer ∈ now.items →
    manager ∈ now.owners operation.finalizer ∧ ∀ owner ∈ now.owners operation.finalizer, owner = manager

variable {operation} {manager : String} {object : Finalizers} {item : String}

theorem mem_apply : item ∈ (object.apply manager applied).items ↔ item ∈ applied ∨ (item ∈ object.items ∧
    (manager ∈ object.owners item → ∃ owner ∈ object.owners item, owner ≠ manager)) := by
  by_cases listed : item ∈ applied <;> by_cases held : item ∈ object.items <;>
    simp [Finalizers.apply, listed, held, imp_iff_not_or]

theorem mem_mutated : item ∈ operation.mutated finalizers ↔
    (item ∈ finalizers ∧ item ≠ operation.finalizer) ∨ (item = operation.finalizer ∧ operation.operation = .add) := by
  by_cases named : item = operation.finalizer <;> cases asked : operation.operation <;>
    by_cases held : operation.finalizer ∈ finalizers <;> simp [mutated, asked, named, held]

/-- Exactly where nobody disturbs it, a mutation changes the named finalizer and no other. -/
theorem mutateFinalizer_changes_only_iff (operation : FinalizerOperation) (manager : String) (object : Finalizers)
    (meanwhile : List FinalizerEdit) : operation.ChangesOnly (runFrom FinalizerEdit.perform object meanwhile)
        (operation.mutateFinalizer manager object meanwhile) ↔
      operation.Undisturbed manager object (runFrom FinalizerEdit.perform object meanwhile) := by
  unfold mutateFinalizer
  generalize runFrom FinalizerEdit.perform object meanwhile = now
  constructor
  · rintro ⟨others, named⟩
    simp only [mem_apply, mem_mutated] at others named
    refine ⟨fun item read other => (others item other).mp (.inl (.inl ⟨read, other⟩)),
      fun item held other own alone => ?_, fun removes held => ?_⟩
    · rcases (others item other).mpr held with (⟨read, -⟩ | ⟨same, -⟩) | ⟨-, shared⟩
      · exact read
      · exact absurd same other
      · obtain ⟨owner, owns, differs⟩ := shared own
        exact absurd (alone owner owns) differs
    have gone : ¬ (manager ∈ now.owners operation.finalizer →
        ∃ owner ∈ now.owners operation.finalizer, owner ≠ manager) := fun stays => by
      have := named.mp (.inr ⟨held, stays⟩)
      rw [removes] at this
      cases this
    push Not at gone
    exact gone
  · rintro ⟨kept, known, sole⟩
    refine ⟨fun item other => ?_, ?_⟩ <;> simp only [mem_apply, mem_mutated]
    · constructor
      · rintro ((⟨read, -⟩ | ⟨same, -⟩) | ⟨held, -⟩)
        · exact kept item read other
        · exact absurd same other
        · exact held
      · intro held
        by_cases read : item ∈ object.items
        · exact .inl (.inl ⟨read, other⟩)
        refine .inr ⟨held, fun own => ?_⟩
        by_contra alone
        push Not at alone
        exact read (known item held other own alone)
    · constructor
      · rintro ((⟨-, other⟩ | ⟨-, adds⟩) | ⟨held, stays⟩)
        · exact absurd rfl other
        · exact adds
        · cases asked : operation.operation with
          | add => rfl
          | remove =>
            obtain ⟨own, alone⟩ := sole asked held
            obtain ⟨owner, owns, differs⟩ := stays own
            exact absurd (alone owner owns) differs
      · exact fun adds => .inl (.inr ⟨trivial, adds⟩)

/-- A finalizer that its controller removed between the read and the apply is put back. -/
theorem removed_finalizer_returns :
    let operation : FinalizerOperation := ⟨.add, "tracking.applik8s.dev/job"⟩
    let object : Finalizers := ⟨["example.com/backup"], fun _ => ["backup"]⟩
    let meanwhile : List FinalizerEdit := [.remove "backup" "example.com/backup"]
    (runFrom FinalizerEdit.perform object meanwhile).items = [] ∧
      "example.com/backup" ∈ (operation.mutateFinalizer "applik8s" object meanwhile).items ∧
      ¬ operation.ChangesOnly (runFrom FinalizerEdit.perform object meanwhile)
        (operation.mutateFinalizer "applik8s" object meanwhile) :=
  ⟨by decide +kernel, by decide +kernel,
    fun only => absurd ((only.others "example.com/backup" (by decide)).mp (by decide +kernel)) (by decide +kernel)⟩

end FinalizerOperation
end Applik8s.Operators
