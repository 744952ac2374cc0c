import Mathlib.Data.List.Basic

/-! Items that stand in the order of a number each of them has, and the windows between two numbers.
Windows that meet join, and what is appended beyond a window leaves it as it is. -/
namespace Applik8s.Lib
open List Nat
variable {α : Type} {low high : Nat} {items : List α}

/-- The items stand in the order of their numbers, no two of them under one number. -/
def Ascending (number : α → Nat) (items : List α) : Prop :=
  items.Pairwise (number · < number ·)

/-- The items numbered above `low`, up to `high`. -/
def window (number : α → Nat) (low high : Nat) (items : List α) : List α :=
  items.filter fun item => low < number item && number item ≤ high

theorem mem_window :
    item ∈ window num low high items ↔ item ∈ items ∧ low < num item ∧ num item ≤ high := by
  simp [window]

@[simp] theorem window_append :
    window num low high (items ++ more) = window num low high items ++ window num low high more := filter_append ..

@[simp] theorem window_self : window num low low items = [] := by
  rw [window, filter_eq_nil_iff]
  intro item _
  simp

theorem window_beyond (beyond : ∀ item ∈ items, high < num item) : window num low high items = [] := by
  rw [window, filter_eq_nil_iff]
  intro item among
  have := beyond item among
  simp
  omega

theorem window_filter (keeps : α → Bool) :
    window num low high (items.filter keeps) = (window num low high items).filter keeps := by
  unfold window
  rw [filter_filter, filter_filter]
  exact filter_congr fun item _ => Bool.and_comm ..

theorem window_congr (all : ∀ item ∈ items, low < num item → num item ≤ high → keeps item = true) :
    window num low high (items.filter keeps) = window num low high items := by
  rw [window_filter, filter_eq_self]
  intro item among
  obtain ⟨among, above, below⟩ := mem_window.mp among
  exact all item among above below

theorem Ascending.filter (ascending : Ascending num items) (keeps : α → Bool) :
    Ascending num (items.filter keeps) := List.Pairwise.filter keeps ascending

theorem window_join (ascending : Ascending num items) (first : low ≤ middle) (second : middle ≤ high) :
    window num low middle items ++ window num middle high items = window num low high items := by
  induction items with
  | nil => rfl
  | cons item rest ih =>
    obtain ⟨least, ascending⟩ := pairwise_cons.mp ascending
    have ih := ih ascending
    by_cases early : num item ≤ middle
    · have late : ¬ middle < num item := by omega
      by_cases above : low < num item
      · have below : num item ≤ high := by omega
        simpa [window, early, late, above, below] using ih
      · simpa [window, late, above] using ih
    -- everything from here on lies beyond the middle
    have none : window num low middle rest = [] :=
      window_beyond fun other among => by have := least other among; omega
    have above : low < num item := by omega
    have late : middle < num item := by omega
    rw [none, nil_append] at ih
    have skipped : window num low middle (item :: rest) = [] :=
      window_beyond fun other among => by
        rcases mem_cons.mp among with rfl | among
        · omega
        · have := least other among; omega
    rw [skipped, nil_append]
    by_cases below : num item ≤ high
    · simpa [window, late, above, below] using ih
    · simpa [window, below] using ih

/-- The number of the last item, or `0`. -/
def lastNumber (number : α → Nat) (items : List α) : Nat := (items.getLast?.map number).getD 0

@[simp] theorem lastNumber_append_singleton : lastNumber num (items ++ [item]) = num item := by
  simp [lastNumber]

theorem Ascending.le_lastNumber (ascending : Ascending num items) (among : item ∈ items) :
    num item ≤ lastNumber num items := by
  obtain ⟨_, last, rfl⟩ := (eq_nil_or_concat' items).resolve_left (ne_nil_of_mem among)
  rw [lastNumber_append_singleton]
  rcases mem_append.mp among with early | is
  · exact Nat.le_of_lt ((List.pairwise_append.mp ascending).2.2 item early last List.mem_cons_self)
  · exact Nat.le_of_eq (congrArg num (List.mem_singleton.mp is))

theorem Ascending.beyond (ascending : Ascending num (items ++ more)) (positive : ∀ item ∈ more, 0 < num item)
    (among : item ∈ more) : lastNumber num items < num item := by
  obtain ⟨-, -, apart⟩ := pairwise_append.mp ascending
  rcases eq_nil_or_concat' items with rfl | ⟨_, last, rfl⟩
  · exact positive item among
  · rw [lastNumber_append_singleton]
    exact apart last (by simp) item among

theorem window_continues (ascending : Ascending num (items ++ more)) (positive : ∀ item ∈ more, 0 < num item)
    (within : high ≤ lastNumber num items) : window num low high (items ++ more) = window num low high items := by
  rw [window_append, window_beyond fun item among =>
    Nat.lt_of_le_of_lt within (ascending.beyond positive among), List.append_nil]

theorem Ascending.window_take (ascending : Ascending num items) (above : ∀ item ∈ items, low < num item) (count : Nat) :
    window num low (((items.take count).getLast?.map num).getD low) items = items.take count := by
  cases found : (items.take count).getLast? with
  | none =>
    rw [getLast?_eq_none_iff.mp found]
    exact window_self
  | some last =>
    have whole := take_append_drop count items
    have halves := ascending
    rw [← whole] at halves
    obtain ⟨early, -, apart⟩ := pairwise_append.mp halves
    have reaches : lastNumber num (items.take count) = num last := by rw [lastNumber, found]; rfl
    change window num low (num last) items = items.take count
    conv_lhs => rw [← whole]
    rw [window_append, window_beyond fun item among =>
      apart last (mem_of_getLast? found) item among, append_nil, window,
      filter_eq_self]
    intro item among
    have below : num item ≤ num last := reaches ▸ Ascending.le_lastNumber early among
    simp [above item (mem_of_mem_take among), below]

theorem Ascending.frontier_le (ascending : Ascending num (items ++ more)) :
    lastNumber num items ≤ lastNumber num (items ++ more) := by
  rcases eq_nil_or_concat' items with rfl | ⟨_, _, rfl⟩
  · exact zero_le _
  · rw [lastNumber_append_singleton]
    exact ascending.le_lastNumber (by simp)

end Applik8s.Lib
