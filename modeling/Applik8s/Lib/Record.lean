import Mathlib.Data.List.Basic

/-! Records with named members in insertion order, as JavaScript objects are: lookup,
assignment, deletion and the spread of one record over another. -/
namespace Applik8s
open List

/-- Named values in insertion order; of several members of one name the first counts. -/
abbrev Record (α : Type) := List (String × α)

namespace Record
variable {α : Type} {name : String} {value : α}

def get (record : Record α) (name : String) : Option α :=
  (record.find? (·.1 = name)).map Prod.snd

/-- `delete record[name]`. -/
def erase (record : Record α) (name : String) : Record α := record.filter (·.1 ≠ name)

/-- `record[name] = value`: in place, or at the end. -/
def set (record : Record α) (name : String) (value : α) : Record α :=
  match record with
  | [] => [(name, value)]
  | member :: rest =>
    if member.1 = name then (name, value) :: erase rest name else member :: set rest name value

/-- A member replaced by a function of it, if it is there. -/
def update (record : Record α) (name : String) (change : α → α) : Record α :=
  match record.get name with
  | some value => record.set name (change value)
  | none => record

def firsts : Record α → Record α
  | [] => []
  | member :: rest => member :: erase (firsts rest) member.1

/-- `{ ...record, ...updates }`. -/
def assign (record updates : Record α) : Record α :=
  updates.firsts.foldl (fun record (name, value) => record.set name value) record

@[simp] theorem get_nil : get ([] : Record α) name = none := rfl

theorem get_cons (rest : Record α) :
    get ((other, value) :: rest) name = if other = name then some value else get rest name := by
  by_cases same : other = name <;> simp [get, same]

theorem get_eq_none_iff {record : Record α} : record.get name = none ↔ ∀ member ∈ record, member.1 ≠ name := by
  simp [get]

theorem mem_of_get {record : Record α} (found : record.get name = some value) : (name, value) ∈ record := by
  induction record with
  | nil => simp at found
  | cons member rest ih =>
    obtain ⟨_, _⟩ := member
    rw [get_cons] at found
    split at found
    · next same =>
      cases found
      simp [same]
    · exact mem_cons_of_mem _ (ih found)

theorem get_of_mem {record : Record α} (distinct : (record.map Prod.fst).Nodup)
    (member : (name, value) ∈ record) : record.get name = some value := by
  induction record with
  | nil => cases member
  | cons first rest ih =>
    obtain ⟨other, _⟩ := first
    obtain ⟨fresh, distinct⟩ := nodup_cons.mp distinct
    rw [get_cons]
    rcases mem_cons.mp member with same | later
    · cases same
      exact if_pos rfl
    have differ : other ≠ name := by
      rintro rfl
      exact fresh (mem_map.mpr ⟨_, later, rfl⟩)
    rw [if_neg differ]
    exact ih distinct later

theorem get_append (first second : Record α) : get (first ++ second) name = (get first name <|> get second name) := by
  induction first with
  | nil => simp
  | cons member rest ih =>
    obtain ⟨_, _⟩ := member
    rw [cons_append, get_cons, get_cons, ih]
    split <;> rfl

theorem erase_cons (rest : Record α) : erase ((name, value) :: rest) other =
      if name = other then erase rest other else (name, value) :: erase rest other := by
  by_cases same : name = other <;> simp [erase, same]

variable (record : Record α)

theorem get_erase : (record.erase other).get name = if name = other then none else record.get name := by
  induction record with
  | nil => simp [erase]
  | cons member rest ih =>
    obtain ⟨held, _⟩ := member
    rw [erase_cons]
    by_cases erased : held = other
    · subst erased
      rw [if_pos rfl, ih]
      by_cases sought : name = held
      · simp [sought]
      · simp [sought, get_cons, Ne.symm sought]
    · rw [if_neg erased, get_cons, get_cons, ih]
      by_cases sought : held = name
      · subst sought
        simp [erased]
      · simp [sought]

@[simp] theorem get_set_self : (record.set name value).get name = some value := by
  induction record with
  | nil => simp [set, get_cons]
  | cons _ _ ih =>
    rw [set]
    split
    · simp [get_cons]
    · next differ => rw [get_cons, if_neg differ, ih]

theorem get_set_ne (differ : name ≠ other) : (record.set other value).get name = record.get name := by
  induction record with
  | nil => simp [set, get_cons, Ne.symm differ]
  | cons member rest ih =>
    obtain ⟨held, _⟩ := member
    rw [set]
    split
    · next same =>
      have same : held = other := same
      rw [get_cons, get_cons, get_erase, if_neg differ, same]
      simp [Ne.symm differ]
    · rw [get_cons, get_cons, ih]

theorem get_set : (record.set other value).get name = if name = other then some value else record.get name := by
  split
  · next same => rw [same, get_set_self]
  · next differ => exact get_set_ne record differ

theorem set_absent {record : Record α} (absent : record.get name = none) :
    record.set name value = record ++ [(name, value)] := by
  induction record with
  | nil => rfl
  | cons member rest ih =>
    obtain ⟨_, _⟩ := member
    rw [get_cons] at absent
    split at absent
    · cases absent
    · next differ => rw [set, if_neg differ, ih absent, cons_append]

theorem set_present {record : Record α} (distinct : (record.map Prod.fst).Nodup) (present : (record.get name).isSome) :
    record.set name value = record.map fun member => if member.1 = name then (name, value) else member := by
  induction record with
  | nil => cases present
  | cons member rest ih =>
    obtain ⟨other, _⟩ := member
    obtain ⟨fresh, distinct⟩ := nodup_cons.mp distinct
    rw [get_cons] at present
    by_cases same : other = name
    · subst same
      have untouched : ∀ member ∈ rest, member.1 ≠ other := by
        intro member there same
        exact fresh (mem_map.mpr ⟨member, there, same⟩)
      rw [set, if_pos rfl, map_cons, if_pos rfl]
      congr 1
      rw [erase, filter_eq_self.mpr (by simpa using untouched)]
      have same : rest.map (fun member => if member.1 = other then (other, value) else member) =
          rest.map id := map_congr_left fun member there => if_neg (untouched member there)
      rw [same, map_id]
    · rw [if_neg same] at present
      rw [set, if_neg same, map_cons, if_neg same, ih distinct present]

theorem keys_set_present {record : Record α} (distinct : (record.map Prod.fst).Nodup)
    (present : (record.get name).isSome) : (record.set name value).map Prod.fst = record.map Prod.fst := by
  rw [set_present distinct present, map_map]
  apply map_congr_left
  intro member _
  simp only [Function.comp]
  split
  · next same => exact same.symm
  · rfl

theorem keys_set_absent {record : Record α} (distinct : (record.map Prod.fst).Nodup)
    (absent : record.get name = none) : ((record.set name value).map Prod.fst).Nodup := by
  rw [set_absent absent, map_append, nodup_append]
  refine ⟨distinct, by simp, ?_⟩
  intro held among other last same
  obtain ⟨member, there, rfl⟩ := mem_map.mp among
  obtain rfl := mem_singleton.mp last
  exact get_eq_none_iff.mp absent member there same

section
variable {β : Type} {keep : α → Bool} {view : α → β} {record : Record α}

def select (keep : α → Bool) (view : α → β) (record : Record α) : Record β :=
  (record.filter (keep ·.2)).map fun member => (member.1, view member.2)

theorem select_cons (rest : Record α) : select keep view ((name, value) :: rest) =
      if keep value then (name, view value) :: select keep view rest else select keep view rest := by
  by_cases kept : keep value <;> simp [select, kept]

theorem select_append (first second : Record α) :
    select keep view (first ++ second) = select keep view first ++ select keep view second := by
  simp [select]

theorem get_select (distinct : (record.map Prod.fst).Nodup) :
    (select keep view record).get name = ((record.get name).filter keep).map view := by
  induction record with
  | nil => rfl
  | cons member rest ih =>
    obtain ⟨other, value⟩ := member
    obtain ⟨fresh, distinct⟩ := nodup_cons.mp distinct
    rw [select_cons, get_cons]
    by_cases same : other = name
    · subst same
      have missing : get rest other = none := by
        apply get_eq_none_iff.mpr
        intro member there same
        exact fresh (mem_map.mpr ⟨member, there, same⟩)
      by_cases kept : keep value
      · simp [kept, get_cons, Option.filter]
      · simp [kept, ih distinct, missing, Option.filter]
    · by_cases kept : keep value <;> simp [kept, same, get_cons, ih distinct]

private theorem erase_fresh (fresh : name ∉ record.map Prod.fst) : erase record name = record :=
  filter_eq_self.mpr fun member among => decide_eq_true fun same =>
    fresh (mem_map.mpr ⟨member, among, same⟩)

theorem select_set (distinct : (record.map Prod.fst).Nodup) (there : record.get name = some held)
    (same : keep value = keep held) : select keep view (record.set name value) =
      if keep held then (select keep view record).set name (view value) else select keep view record := by
  induction record with
  | nil => cases there
  | cons member rest ih =>
    obtain ⟨other, first⟩ := member
    obtain ⟨fresh, distinct⟩ := nodup_cons.mp distinct
    rw [get_cons] at there
    by_cases here : other = name
    · subst here
      rw [if_pos rfl] at there
      cases there
      have selected : erase (select keep view rest) other = select keep view rest := by
        refine erase_fresh fun among => fresh ?_
        simp only [select, map_map, mem_map, mem_filter] at among ⊢
        obtain ⟨source, within, same⟩ := among
        exact ⟨source, within.1, same⟩
      rw [set, if_pos rfl, select_cons, select_cons, same, erase_fresh fresh]
      split
      · rw [set, if_pos rfl, selected]
      · rfl
    · rw [if_neg here] at there
      rw [set, if_neg here, select_cons, select_cons, ih distinct there]
      by_cases kept : keep held <;> by_cases also : keep first <;> simp [kept, also, set, here]

end

theorem get_firsts : record.firsts.get name = record.get name := by
  induction record with
  | nil => rfl
  | cons member rest ih =>
    obtain ⟨held, _⟩ := member
    rw [firsts, get_cons, get_cons, get_erase, ih]
    by_cases same : held = name
    · simp [same]
    · simp [same, Ne.symm same]

theorem firsts_distinct : (record.firsts.map Prod.fst).Nodup := by
  induction record with
  | nil => exact nodup_nil
  | cons _ _ ih =>
    rw [firsts, map_cons, nodup_cons]
    constructor
    · intro repeated
      obtain ⟨_, other_mem, same⟩ := mem_map.mp repeated
      simp [erase, same] at other_mem
    · exact ih.sublist (List.Sublist.map _ filter_sublist)

theorem get_foldl_set (record updates : Record α) (distinct : (updates.map Prod.fst).Nodup) :
    (updates.foldl (fun record (name, value) => record.set name value) record).get name =
      (updates.get name <|> record.get name) := by
  induction updates generalizing record with
  | nil => simp
  | cons member rest ih =>
    obtain ⟨held, kept⟩ := member
    obtain ⟨fresh, distinct⟩ := nodup_cons.mp distinct
    rw [foldl_cons, ih (record.set held kept) distinct, get_set, get_cons]
    by_cases sought : held = name
    · subst sought
      have missing : get rest held = none := by
        apply get_eq_none_iff.mpr
        intro member member_mem same
        exact fresh (mem_map.mpr ⟨member, member_mem, same⟩)
      simp [missing]
    · simp [sought, Ne.symm sought]

@[simp] theorem assign_nil : record.assign [] = record := rfl

theorem get_assign (record updates : Record α) :
    (record.assign updates).get name = (updates.get name <|> record.get name) := by
  rw [assign, get_foldl_set record updates.firsts (firsts_distinct updates), get_firsts]

theorem get_update (change : α → α) : (record.update other change).get name =
      if name = other then (record.get name).map change else record.get name := by
  unfold update
  cases found : record.get other with
  | none =>
    by_cases sought : name = other
    · subst sought
      simp [found]
    · simp [sought]
  | some held =>
    by_cases sought : name = other
    · subst sought
      simp [found]
    · simp [get_set_ne record sought, sought]

end Record
end Applik8s
