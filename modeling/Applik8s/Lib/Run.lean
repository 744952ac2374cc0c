import Mathlib.Order.Defs.Unbundled

/-! Runs of a deterministic system: `next` takes a state and a label to the state
after that step, a run is the list of its labels. Whether each step of a run met a
condition is judged in the state the run had reached when the step was taken. -/
namespace Applik8s.Lib
variable {σ ℓ : Type}

def runFrom (next : σ → ℓ → σ) (state : σ) (labels : List ℓ) : σ := labels.foldl next state

/-- Every step of the run met `condition` where it was taken. -/
def EachStep (next : σ → ℓ → σ) (condition : σ → ℓ → Prop) : σ → List ℓ → Prop
  | _, [] => True
  | state, label :: rest => condition state label ∧ EachStep next condition (next state label) rest

instance EachStep.decidable (next : σ → ℓ → σ) (condition : σ → ℓ → Prop)
    [∀ state label, Decidable (condition state label)] :
    ∀ state labels, Decidable (EachStep next condition state labels)
  | _, [] => inferInstanceAs (Decidable True)
  | state, label :: rest =>
    have := EachStep.decidable next condition (next state label) rest
    inferInstanceAs (Decidable (condition state label ∧ EachStep next condition (next state label) rest))

variable {next : σ → ℓ → σ} {condition : σ → ℓ → Prop} {state : σ} {labels earlier later : List ℓ}

theorem runFrom_append : runFrom next state (earlier ++ later) = runFrom next (runFrom next state earlier) later :=
  List.foldl_append

theorem eachStep_append : EachStep next condition state (earlier ++ later) ↔ EachStep next condition state earlier ∧
        EachStep next condition (runFrom next state earlier) later := by
  induction earlier generalizing state with
  | nil => simp [EachStep, runFrom]
  | cons label rest ih =>
    simp only [List.cons_append, EachStep, ih, and_assoc]
    rfl

theorem EachStep.and {further : σ → ℓ → Prop} (each : EachStep next condition state labels)
    (also : EachStep next further state labels) :
    EachStep next (fun state label => condition state label ∧ further state label) state labels := by
  induction labels generalizing state with
  | nil => trivial
  | cons label rest ih => exact ⟨⟨each.1, also.1⟩, ih each.2 also.2⟩

theorem EachStep.imp {wider : σ → ℓ → Prop} (each : EachStep next condition state labels)
    (implied : ∀ label ∈ labels, ∀ state, condition state label → wider state label) :
    EachStep next wider state labels := by
  induction labels generalizing state with
  | nil => trivial
  | cons label rest ih =>
    exact ⟨implied label List.mem_cons_self state each.1,
      ih each.2 fun label member => implied label (List.mem_cons_of_mem _ member)⟩

theorem eachStep_of_always (each : ∀ label ∈ labels, ∀ state, condition state label) :
    EachStep next condition state labels := by
  induction labels generalizing state with
  | nil => trivial
  | cons label rest ih =>
    exact ⟨each label List.mem_cons_self state, ih fun label member => each label (List.mem_cons_of_mem _ member)⟩

theorem eachStep_of_forall {allowed : ℓ → Prop} (each : ∀ label ∈ labels, allowed label) :
    EachStep next (fun _ label => allowed label) state labels :=
  eachStep_of_always fun label member _ => each label member

section
variable (kept : σ → Prop) (step : ∀ state label, kept state → condition state label → kept (next state label))
  (start : kept state)
include kept step start

/-- The invariant rule: what holds at the start and is kept by every step that meets
the condition holds wherever the run leads. -/
theorem invariant_of_steps (each : EachStep next condition state labels) : kept (runFrom next state labels) := by
  induction labels generalizing state with
  | nil => exact start
  | cons label rest ih => exact ih (step state label start each.1) each.2

theorem eachStep_of_steps (each : EachStep next condition state labels) :
    EachStep next (fun state label => kept state ∧ condition state label) state labels := by
  induction labels generalizing state with
  | nil => trivial
  | cons label rest ih => exact ⟨⟨start, each.1⟩, ih (step state label start each.1) each.2⟩

end

theorem relates_of_steps (related : σ → σ → Prop) (refl : ∀ state, related state state)
    (trans : ∀ {first second third}, related first second → related second third → related first third)
    (step : ∀ state label, condition state label → related state (next state label))
    (each : EachStep next condition state labels) : related state (runFrom next state labels) := by
  induction labels generalizing state with
  | nil => exact refl state
  | cons label rest ih => exact trans (step state label each.1) (ih each.2)

end Applik8s.Lib
