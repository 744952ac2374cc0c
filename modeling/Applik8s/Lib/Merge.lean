import Mathlib.Data.List.Perm.Subperm
import Mathlib.Data.List.Sort

/-! A stable sort, and a list in lanes that is read off a page at a time. Where each lane already stands in the
order of the sort, a page sorted from the windows at the lanes' offsets is the next piece of the whole list sorted
at once. -/
namespace Applik8s.Lib
open List Nat
variable {α : Type} {ahead : α → α → Prop} [DecidableRel ahead]

/-! ### The stable sort -/

section
variable (total : ∀ left right, ahead left right ∨ ahead right left)
  (trans : ∀ {left middle right}, ahead left middle → ahead middle right → ahead left right)
include total trans

theorem orderedInsert_stable {before : α → α → Prop} {items : List α} (first : ∀ other ∈ items, before item other)
    (stands : items.Pairwise fun left right => ahead left right ∧ (ahead right left → before left right)) :
    (items.orderedInsert ahead item).Pairwise
      fun left right => ahead left right ∧ (ahead right left → before left right) := by
  induction items with
  | nil => simp
  | cons head rest ih =>
    have ⟨heads, rests⟩ := pairwise_cons.mp stands
    rw [orderedInsert_cons]
    split
    · next goes =>
      refine pairwise_cons.mpr ⟨fun other among => ⟨?_, fun _ => first other among⟩, stands⟩
      rcases mem_cons.mp among with rfl | among
      · exact goes
      · exact trans goes (heads other among).1
    · next waits =>
      refine pairwise_cons.mpr ⟨fun other among => ?_, ih (fun other among => first other (.tail _ among)) rests⟩
      rcases mem_cons.mp ((perm_orderedInsert ahead item rest).mem_iff.mp among) with rfl | among
      · exact ⟨(total other head).resolve_left waits, fun back => absurd back waits⟩
      · exact heads other among

theorem insertionSort_stable {items : List α} (came : items.Pairwise before) : (items.insertionSort ahead).Pairwise
      fun left right => ahead left right ∧ (ahead right left → before left right) := by
  induction items with
  | nil => simp
  | cons item rest ih =>
    have ⟨first, rests⟩ := pairwise_cons.mp came
    rw [insertionSort_cons]
    exact orderedInsert_stable total trans
      (fun other among => first other ((mem_insertionSort ahead).mp among)) (ih rests)

end

/-! ### Pieces of a list -/

theorem take_of_sublist {part : List α} {count : Nat} (within : part.Sublist whole) (distinct : whole.Nodup)
    (holds : ∀ item ∈ whole.take count, item ∈ part) : part.take count = whole.take count := by
  induction within generalizing count with
  | slnil => rfl
  | cons head within ih =>
    have ⟨fresh, distinct⟩ := nodup_cons.mp distinct
    cases count with
    | zero => simp
    | succ count =>
      have among := holds head (by simp)
      exact absurd (within.subset among) fresh
  | cons_cons _ _ ih =>
    have ⟨fresh, distinct⟩ := nodup_cons.mp distinct
    cases count with
    | zero => simp
    | succ count =>
      rw [take_succ_cons, take_succ_cons, ih distinct]
      intro item among
      rcases mem_cons.mp (holds item (mem_cons_of_mem _ among)) with rfl | held
      · exact absurd (mem_of_mem_take among) fresh
      · exact held

theorem filter_drop (keeps : α → Bool) (items : List α) (count : Nat) :
    (items.drop count).filter keeps = (items.filter keeps).drop ((items.take count).countP keeps) := by
  conv_rhs => rw [← take_append_drop count items]
  rw [filter_append, countP_eq_length_filter, take_append_drop, drop_left]

theorem filter_take (keeps : α → Bool) (items : List α) (count : Nat) :
    (items.take count).filter keeps = (items.filter keeps).take ((items.take count).countP keeps) := by
  conv_rhs => rw [← take_append_drop count items]
  rw [filter_append, countP_eq_length_filter, take_append_drop, take_left]

section
variable [DecidableEq α] {all : List α}

/-- What is sorted ahead of what, in a list whose items differ. -/
def Leads (ahead : α → α → Prop) (all : List α) (left right : α) : Prop :=
  ahead left right ∧ (ahead right left → all.idxOf left < all.idxOf right)

theorem pairwise_idxOf (distinct : all.Nodup) : all.Pairwise fun left right => all.idxOf left < all.idxOf right := by
  rw [pairwise_iff_getElem]
  intro left right leftBound rightBound less
  rwa [distinct.idxOf_getElem, distinct.idxOf_getElem]

instance : Std.Antisymm (Leads ahead all) where
  antisymm _ _ one other := absurd (one.2 other.1) (not_lt.mpr (le_of_lt (other.2 one.1)))

variable (total : ∀ left right, ahead left right ∨ ahead right left)
  (trans : ∀ {left middle right}, ahead left middle → ahead middle right → ahead left right) (distinct : all.Nodup)
include total trans distinct

theorem insertionSort_leads {part : List α} (within : part.Sublist all) :
    (part.insertionSort ahead).Pairwise (Leads ahead all) :=
  insertionSort_stable total trans ((pairwise_idxOf distinct).sublist within)

theorem filter_insertionSort (keeps : α → Bool) (ordered : (all.filter keeps).Pairwise ahead) :
    (all.insertionSort ahead).filter keeps = all.filter keeps := by
  refine ((perm_insertionSort ahead all).filter keeps).eq_of_pairwise'
    ((insertionSort_leads total trans distinct (.refl all)).sublist filter_sublist) ?_
  exact ordered.and ((pairwise_idxOf distinct).sublist filter_sublist) |>.imp fun both => ⟨both.1, fun _ => both.2⟩

/-- The whole sorted list behind its first `count` items, read off the windows of the lanes: `limit` items, and
whether there are more. -/
theorem page_of_windows {lane : α → Nat} {windows : List α} {count : Nat}
    (ordered : ∀ index, (all.filter (lane · = index)).Pairwise ahead) (within : windows.Sublist all)
    (reads : ∀ index, windows.filter (lane · = index) = ((all.filter (lane · = index)).drop (((all.insertionSort ahead).take count).countP (lane · = index))).take (limit + 1))
    : (windows.insertionSort ahead).take limit = ((all.insertionSort ahead).drop count).take limit ∧
      (limit < windows.length ↔ count + limit < all.length) := by
  let rest := (all.insertionSort ahead).drop count
  have lanes : ∀ index, windows.filter (lane · = index) = (rest.filter (lane · = index)).take (limit + 1) := by
    intro index
    rw [reads, filter_drop, filter_insertionSort total trans distinct _ (ordered index)]
  have differ : rest.Nodup :=
    (((perm_insertionSort ahead all).nodup_iff).mpr distinct).sublist (drop_sublist _ _)
  have among : ∀ item, item ∈ windows → item ∈ rest := by
    intro item member
    have here : item ∈ windows.filter (lane · = lane item) := mem_filter.mpr ⟨member, by simp⟩
    rw [lanes] at here
    exact (mem_filter.mp (mem_of_mem_take here)).1
  have soon : ∀ item ∈ rest.take (limit + 1), item ∈ windows := by
    intro item member
    have here : item ∈ (rest.take (limit + 1)).filter (lane · = lane item) := mem_filter.mpr ⟨member, by simp⟩
    rw [filter_take] at here
    have few : (rest.take (limit + 1)).countP (lane · = lane item) ≤ limit + 1 :=
      countP_le_length.trans (length_take_le _ _)
    have here := (take_sublist_take_left few).subset here
    rw [← lanes] at here
    exact (mem_filter.mp here).1
  have subperm : (windows.insertionSort ahead).Subperm rest :=
    (perm_insertionSort ahead windows).subperm.trans (List.Nodup.subperm (distinct.sublist within) fun item => among item)
  have part : (windows.insertionSort ahead).Sublist rest :=
    sublist_of_subperm_of_pairwise (r := Leads ahead all) subperm (insertionSort_leads total trans distinct within)
      ((insertionSort_leads total trans distinct (.refl all)).sublist (drop_sublist _ _))
  have size : rest.length = all.length - count := by simp [rest]
  refine ⟨take_of_sublist part differ fun item member => (mem_insertionSort ahead).mpr
    (soon item ((take_sublist_take_left (le_succ limit)).subset member)), fun more => ?_, fun more => ?_⟩
  · have := part.length_le
    rw [length_insertionSort] at this
    omega
  · have := (List.Nodup.subperm (differ.sublist (take_sublist (limit + 1) rest)) fun item => soon item).length_le
    rw [length_take] at this
    omega

end
end Applik8s.Lib
