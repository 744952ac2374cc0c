import Mathlib.Data.List.Induction
import Applik8s.Lib.Record

/-! Items grouped by a name, the groups in the order of their first items, as pushing each item to the array that a
`Map` holds under its name does. -/
namespace Applik8s.Lib
variable {α : Type} {key : α → String} {items : List α}

def push (key : α → String) (groups : Record (List α)) (item : α) : Record (List α) :=
  groups.set (key item) ((groups.get (key item)).getD [] ++ [item])

def groups (key : α → String) (items : List α) : Record (List α) := items.foldl (push key) []

theorem groups_append_singleton (item : α) : groups key (items ++ [item]) = push key (groups key items) item := by
  simp [groups, List.foldl_append]

theorem get_groups : (groups key items).get name =
    if items.filter (key · = name) = [] then none else some (items.filter (key · = name)) := by
  induction items using List.reverseRecOn with
  | nil => rfl
  | append_singleton items item ih =>
    rw [groups_append_singleton, push, Record.get_set]
    by_cases same : name = key item
    · subst same
      rw [if_pos rfl, ih]
      by_cases empty : items.filter (key · = key item) = [] <;> simp [empty, List.filter_append]
    · have other : (key item = name) = False := by simp [Ne.symm same]
      simp [same, ih, List.filter_append, other]

theorem groups_distinct : ((groups key items).map Prod.fst).Nodup := by
  induction items using List.reverseRecOn with
  | nil => exact .nil
  | append_singleton items item ih =>
    rw [groups_append_singleton, push]
    cases present : (groups key items).get (key item) with
    | none => exact Record.keys_set_absent ih present
    | some group =>
      rw [Record.keys_set_present ih (by simp [present])]
      exact ih

theorem mem_groups (among : (name, group) ∈ groups key items) : group = items.filter (key · = name) ∧ group ≠ [] := by
  have held := Record.get_of_mem groups_distinct among
  rw [get_groups] at held
  split at held
  · cases held
  next some =>
  cases held
  exact ⟨rfl, some⟩

theorem group_of_mem (among : item ∈ items) : (key item, items.filter (key · = key item)) ∈ groups key items := by
  refine Record.mem_of_get ?_
  rw [get_groups, if_neg]
  exact List.ne_nil_of_mem (List.mem_filter.mpr ⟨among, by simp⟩)

end Applik8s.Lib
