import Mathlib.Data.List.Nodup

/-! Insertion-ordered tables. Every record carries its own key; writing under a
key that is present replaces the record where it stands, any other write appends
it, as a JavaScript `Map` does. That no two rows share a key is part of the type,
so lookups and memberships determine each other. -/
namespace Applik8s.Lib
open List

/-- A record type whose values are addressed by a key of their own. -/
class Keyed (α : Type) (κ : outParam Type) where
  key : α → κ

structure Table (α : Type) {κ : Type} [Keyed α κ] where
  /-- The records in the order their keys were first written. -/
  rows : List α
  distinct : (rows.map Keyed.key).Nodup

namespace Table
variable {α κ : Type} [Keyed α κ] {table : Table α} {record row other : α} {rows : List α} {key : κ}

@[ext] theorem ext_rows {second : Table α} (same : first.rows = second.rows) : first = second := by
  cases first
  cases second
  simp_all

def empty : Table α := ⟨[], by simp⟩

theorem eq_of_key_eq (first : row ∈ table.rows) (second : other ∈ table.rows)
    (same : Keyed.key row = Keyed.key other) : row = other :=
  inj_on_of_nodup_map table.distinct first second same

variable [DecidableEq κ]

/-- The row sequence after `record` is written. -/
def writeRow (record : α) : List α → List α
  | [] => [record]
  | row :: rest =>
    if Keyed.key row = Keyed.key record then record :: rest else row :: writeRow record rest

theorem mem_writeRow_key : key ∈ (writeRow record rows).map Keyed.key ↔
      key = Keyed.key record ∨ key ∈ rows.map Keyed.key := by
  induction rows with
  | nil => simp [writeRow]
  | cons row rest ih =>
    simp only [writeRow]
    split
    · rename_i same
      simp [same]
    · simp only [map_cons, mem_cons, ih]
      exact or_left_comm

theorem writeRow_distinct (distinct : (rows.map Keyed.key).Nodup) : ((writeRow record rows).map Keyed.key).Nodup := by
  induction rows with
  | nil => simp [writeRow]
  | cons row rest ih =>
    obtain ⟨fresh, tail⟩ := nodup_cons.mp distinct
    simp only [writeRow]
    split
    · rename_i same
      simpa [← same] using distinct
    rename_i different
    refine nodup_cons.mpr ⟨?_, ih tail⟩
    rw [mem_writeRow_key]
    rintro (same | present)
    · exact different same
    · exact fresh present

theorem mem_writeRow (distinct : (rows.map Keyed.key).Nodup) : row ∈ writeRow record rows ↔
      row = record ∨ (row ∈ rows ∧ Keyed.key row ≠ Keyed.key record) := by
  induction rows with
  | nil => simp [writeRow]
  | cons first rest ih =>
    obtain ⟨fresh, tail⟩ := nodup_cons.mp distinct
    simp only [writeRow]
    split
    · rename_i same
      have apart : row ∈ rest → Keyed.key row ≠ Keyed.key record := fun member equal =>
        fresh (mem_map.mpr ⟨row, member, equal.trans same.symm⟩)
      constructor
      · intro member
        rcases mem_cons.mp member with rfl | member
        · exact Or.inl rfl
        · exact Or.inr ⟨mem_cons_of_mem _ member, apart member⟩
      rintro (rfl | ⟨member, different⟩)
      · exact mem_cons_self
      · rcases mem_cons.mp member with rfl | member
        · exact absurd same different
        · exact mem_cons_of_mem _ member
    · rename_i different
      simp only [mem_cons, ih tail]
      constructor
      · rintro (rfl | rfl | kept)
        · exact Or.inr ⟨Or.inl rfl, different⟩
        · exact Or.inl rfl
        · exact Or.inr ⟨Or.inr kept.1, kept.2⟩
      · rintro (rfl | ⟨rfl | member, apart⟩)
        · exact Or.inr (Or.inl rfl)
        · exact Or.inl rfl
        · exact Or.inr (Or.inr ⟨member, apart⟩)

theorem writeRow_of_mem (distinct : (rows.map Keyed.key).Nodup) (member : record ∈ rows) :
    writeRow record rows = rows := by
  induction rows with
  | nil => cases member
  | cons first rest ih =>
    obtain ⟨fresh, tail⟩ := nodup_cons.mp distinct
    simp only [writeRow]
    rcases mem_cons.mp member with rfl | member
    · simp
    have different : Keyed.key first ≠ Keyed.key record := fun same =>
      fresh (mem_map.mpr ⟨record, member, same.symm⟩)
    rw [if_neg different, ih tail member]

theorem countP_writeRow_le (counted : α → Bool) (record : α) (rows : List α) :
    (writeRow record rows).countP counted ≤ rows.countP counted + if counted record then 1 else 0 := by
  induction rows with
  | nil => simp [writeRow, countP_cons]
  | cons =>
    simp only [writeRow]
    split
    · simp only [countP_cons]
      omega
    · simp only [countP_cons]
      omega

theorem countP_writeRow_replace (counted : α → Bool) (distinct : (rows.map Keyed.key).Nodup) (member : row ∈ rows)
    (same : Keyed.key row = Keyed.key record) (counts : counted record = true → counted row = true) :
    (writeRow record rows).countP counted ≤ rows.countP counted := by
  induction rows with
  | nil => cases member
  | cons first rest ih =>
    obtain ⟨fresh, tail⟩ := nodup_cons.mp distinct
    simp only [writeRow]
    rcases mem_cons.mp member with rfl | member
    · rw [if_pos same]
      simp only [countP_cons]
      by_cases held : counted record
      · simp [held, counts held]
      · simp [held]
    have different : Keyed.key first ≠ Keyed.key record := fun equal =>
      fresh (mem_map.mpr ⟨row, member, same.trans equal.symm⟩)
    rw [if_neg different]
    simp only [countP_cons]
    have smaller := ih tail member
    omega

/-- `Map.set` under the record's own key. -/
def put (table : Table α) (record : α) : Table α :=
  ⟨writeRow record table.rows, writeRow_distinct table.distinct⟩

/-- `Map.delete`. -/
def remove (table : Table α) (key : κ) : Table α :=
  ⟨table.rows.filter fun row => Keyed.key row ≠ key, table.distinct.sublist (filter_sublist.map Keyed.key)⟩

/-- `Map.get`. -/
def find? (table : Table α) (key : κ) : Option α :=
  table.rows.find? fun row => Keyed.key row = key

theorem mem_put : row ∈ (table.put record).rows ↔
      row = record ∨ (row ∈ table.rows ∧ Keyed.key row ≠ Keyed.key record) :=
  mem_writeRow table.distinct

theorem mem_remove : row ∈ (table.remove key).rows ↔ row ∈ table.rows ∧ Keyed.key row ≠ key := by
  simp [remove]

theorem put_of_mem (member : record ∈ table.rows) : table.put record = table :=
  ext_rows (writeRow_of_mem table.distinct member)

theorem find?_eq_some : table.find? key = some row ↔ row ∈ table.rows ∧ Keyed.key row = key := by
  constructor
  · intro found
    exact ⟨mem_of_find?_eq_some found, by simpa using find?_some found⟩
  rintro ⟨member, rfl⟩
  cases found : table.find? (Keyed.key row) with
  | none =>
    have absent := find?_eq_none.mp found row member
    simp at absent
  | some other =>
    have named : Keyed.key other = Keyed.key row := by simpa using find?_some found
    rw [eq_of_key_eq (mem_of_find?_eq_some found) member named]

theorem find?_eq_none : table.find? key = none ↔ ∀ row ∈ table.rows, Keyed.key row ≠ key := by
  simp [find?]

theorem find?_put (key : κ) :
    (table.put record).find? key = if key = Keyed.key record then some record else table.find? key := by
  split
  · rename_i same
    exact find?_eq_some.mpr ⟨mem_put.mpr (Or.inl rfl), same.symm⟩
  rename_i other
  cases found : table.find? key with
  | none =>
    refine find?_eq_none.mpr fun row member => ?_
    rcases mem_put.mp member with rfl | ⟨held, _⟩
    · exact Ne.symm other
    · exact find?_eq_none.mp found row held
  | some row =>
    obtain ⟨held, keyed⟩ := find?_eq_some.mp found
    exact find?_eq_some.mpr ⟨mem_put.mpr (Or.inr ⟨held, by rw [keyed]; exact other⟩), keyed⟩

omit [DecidableEq κ] in
theorem search_eq_some {test : α → Bool} (member : row ∈ table.rows) (passes : test row = true)
    (only : ∀ other, test other = true → Keyed.key other = Keyed.key row) : table.rows.find? test = some row := by
  cases found : table.rows.find? test with
  | none =>
    have absent := List.find?_eq_none.mp found row member
    exact absurd passes absent
  | some other =>
    have named := only other (List.find?_some found)
    rw [eq_of_key_eq (List.mem_of_find?_eq_some found) member named]

/-! ### Writing several records -/

/-- The table after the records were written one after the other. -/
def putAll (table : Table α) (records : List α) : Table α := records.foldl put table

/-- The table of the records, written one after the other. -/
def ofRows (records : List α) : Table α := empty.putAll records

@[simp] theorem putAll_nil : table.putAll [] = table := rfl

@[simp] theorem putAll_cons :
    table.putAll (record :: records) = (table.put record).putAll records := rfl

theorem mem_putAll (distinct : (records.map Keyed.key).Nodup) : row ∈ (table.putAll records).rows ↔
      row ∈ records ∨ (row ∈ table.rows ∧ Keyed.key row ∉ records.map Keyed.key) := by
  induction records generalizing table with
  | nil => simp
  | cons _ _ ih =>
    obtain ⟨fresh, tail⟩ := nodup_cons.mp distinct
    rw [putAll_cons, ih tail, mem_put]
    simp only [map_cons, mem_cons, not_or]
    constructor
    · rintro (inside | ⟨rfl | ⟨stored, other⟩, apart⟩)
      · exact Or.inl (Or.inr inside)
      · exact Or.inl (Or.inl rfl)
      · exact Or.inr ⟨stored, other, apart⟩
    · rintro ((rfl | inside) | ⟨stored, other, apart⟩)
      · exact Or.inr ⟨Or.inl rfl, fresh⟩
      · exact Or.inl inside
      · exact Or.inr ⟨Or.inr ⟨stored, other⟩, apart⟩

/-- The rows where they stand, each replaced by the record with its key. -/
def replaced (records rows : List α) : List α :=
  rows.map fun row => (records.find? fun record => Keyed.key record = Keyed.key row).getD row

private theorem writeRow_eq_map (present : Keyed.key record ∈ rows.map Keyed.key)
    (distinct : (rows.map Keyed.key).Nodup) :
    writeRow record rows = rows.map fun row => if Keyed.key row = Keyed.key record then record else row := by
  induction rows with
  | nil => cases present
  | cons first rest ih =>
    obtain ⟨fresh, tail⟩ := nodup_cons.mp distinct
    simp only [writeRow, map_cons]
    by_cases same : Keyed.key first = Keyed.key record
    · -- no later row has the key
      have kept : (rest.map fun row => if Keyed.key row = Keyed.key record then record else row) = rest := by
        conv_rhs => rw [← map_id rest]
        refine map_congr_left fun row member => ?_
        have other : Keyed.key row ≠ Keyed.key record := fun equal =>
          fresh (mem_map.mpr ⟨row, member, equal.trans same.symm⟩)
        simp [other]
      rw [if_pos same, if_pos same, kept]
    · have later : Keyed.key record ∈ rest.map Keyed.key := by
        rcases mem_cons.mp present with equal | later
        · exact absurd equal.symm same
        · exact later
      rw [if_neg same, if_neg same, ih later tail]

theorem put_rows (present : Keyed.key record ∈ table.rows.map Keyed.key) :
    (table.put record).rows = table.rows.map fun row =>
      if Keyed.key row = Keyed.key record then record else row :=
  writeRow_eq_map present table.distinct

theorem putAll_rows (distinct : (records.map Keyed.key).Nodup)
    (present : ∀ record ∈ records, Keyed.key record ∈ table.rows.map Keyed.key) :
    (table.putAll records).rows = replaced records table.rows := by
  induction records generalizing table with
  | nil => simp [replaced]
  | cons record rest ih =>
    obtain ⟨fresh, tail⟩ := nodup_cons.mp distinct
    have first := put_rows (present record mem_cons_self)
    have later : ∀ other ∈ rest, Keyed.key other ∈ (table.put record).rows.map Keyed.key := by
      intro other member
      exact mem_writeRow_key.mpr (Or.inr (present other (mem_cons_of_mem _ member)))
    rw [putAll_cons, ih tail later, first, replaced, map_map]
    refine map_congr_left fun row _ => ?_
    by_cases same : Keyed.key row = Keyed.key record
    · have unmatched : rest.find? (fun other => Keyed.key other = Keyed.key record) = none := by
        refine List.find?_eq_none.mpr fun other member => ?_
        have apart : Keyed.key other ≠ Keyed.key record := fun equal =>
          fresh (mem_map.mpr ⟨other, member, equal⟩)
        simpa using apart
      simp [same, unmatched]
    · simp [same, Ne.symm same]

/-! ### Converting some of the rows -/

section
variable {related : α → α → Prop} {chosen : α → Bool} {records : List α}

omit [DecidableEq κ] in
theorem keys_of_converted (keeps : ∀ row record, related row record → Keyed.key record = Keyed.key row)
    (converted : List.Forall₂ related rows records) : records.map Keyed.key = rows.map Keyed.key := by
  induction converted with
  | nil => rfl
  | cons first _ ih => simp [keeps _ _ first, ih]

theorem exists_of_converted (converted : List.Forall₂ related rows records) (member : record ∈ records) :
    ∃ row ∈ rows, related row record := by
  induction converted with
  | nil => cases member
  | cons first _ ih =>
    rcases mem_cons.mp member with rfl | later
    · exact ⟨_, mem_cons_self, first⟩
    · obtain ⟨row, present, relates⟩ := ih later
      exact ⟨row, mem_cons_of_mem _ present, relates⟩

section
variable (keeps : ∀ row record, related row record → Keyed.key record = Keyed.key row)
  (converted : List.Forall₂ related (table.rows.filter chosen) records)
include keeps converted

theorem putAll_converted :
    (table.putAll records).rows = replaced records table.rows := by
  have keys := keys_of_converted keeps converted
  have fewer : ((table.rows.filter chosen).map Keyed.key).Sublist (table.rows.map Keyed.key) :=
    filter_sublist.map Keyed.key
  apply putAll_rows
  · rw [keys]
    exact table.distinct.sublist fewer
  intro record member
  apply fewer.subset
  rw [← keys]
  exact mem_map_of_mem member

theorem putAll_converted_forall : List.Forall₂ (fun row res => if chosen row = true then related row res else res = row)
      table.rows (table.putAll records).rows := by
  rw [putAll_converted keeps converted, replaced, forall₂_map_right_iff]
  refine forall₂_same.mpr fun row member => ?_
  -- the record found for a row is the conversion of that very row
  have origin : ∀ record, records.find? (fun record => Keyed.key record = Keyed.key row) = some record →
      chosen row = true ∧ related row record := by
    intro record found
    obtain ⟨source, listed, relates⟩ := exists_of_converted converted (mem_of_find?_eq_some found)
    obtain ⟨stored, picked⟩ := mem_filter.mp listed
    have named : Keyed.key record = Keyed.key row := by simpa using find?_some found
    have whole : source = row := eq_of_key_eq stored member ((keeps source record relates).symm.trans named)
    subst whole
    exact ⟨picked, relates⟩
  cases found : records.find? (fun record => Keyed.key record = Keyed.key row) with
  | some record =>
    obtain ⟨picked, relates⟩ := origin record found
    simp [picked, relates]
  | none =>
    by_cases picked : chosen row = true
    · have listed : Keyed.key row ∈ records.map Keyed.key := by
        rw [keys_of_converted keeps converted]
        exact mem_map_of_mem (mem_filter.mpr ⟨member, picked⟩)
      obtain ⟨record, present, named⟩ := mem_map.mp listed
      have absent := List.find?_eq_none.mp found record present
      simp [named] at absent
    · simp [picked]

end

theorem replaced_map (keeps : ∀ row, Keyed.key (convert row) = Keyed.key row) :
    replaced ((table.rows.filter chosen).map convert) table.rows =
      table.rows.map fun row => if chosen row = true then convert row else row := by
  have converted : List.Forall₂ (fun row record => record = convert row) (table.rows.filter chosen)
      ((table.rows.filter chosen).map convert) :=
    forall₂_map_right_iff.mpr (forall₂_same.mpr fun _ _ => rfl)
  have keepsKey : ∀ row record, record = convert row → Keyed.key record = Keyed.key row := by
    rintro row _ rfl
    exact keeps row
  have each := putAll_converted_forall keepsKey converted
  rw [putAll_converted keepsKey converted] at each
  have equal : List.Forall₂ Eq (table.rows.map fun row => if chosen row = true then convert row else row)
      (replaced ((table.rows.filter chosen).map convert) table.rows) := by
    refine forall₂_map_left_iff.mpr (each.imp fun row res became => ?_)
    by_cases picked : chosen row = true
    · simp only [picked, if_true] at became ⊢
      exact became.symm
    · simp only [picked] at became ⊢
      exact became.symm
  rw [forall₂_eq_eq_eq] at equal
  exact equal.symm

end

/-! ### Writing records over a table -/

section
variable {start before after : Table α} {records : List α}

/-- What `before` becomes when `records` are written over it. Of several records with one
key some record stays; a row that no record replaces stays as it is. -/
structure Written (records : List α) (before after : Table α) : Prop where
  rows : ∀ row ∈ after.rows, row ∈ records ∨ (row ∈ before.rows ∧ Keyed.key row ∉ records.map Keyed.key)
  stored : ∀ record ∈ records, ∃ row ∈ after.rows, Keyed.key row = Keyed.key record
  kept : ∀ row ∈ before.rows, ∃ other ∈ after.rows, Keyed.key other = Keyed.key row

omit [DecidableEq κ] in
theorem Written.refl (table : Table α) : Written [] table table where
  rows _ member := Or.inr ⟨member, not_mem_nil⟩
  stored _ member := absurd member not_mem_nil
  kept row member := ⟨row, member, rfl⟩

theorem exists_put (present : ∃ row ∈ table.rows, Keyed.key row = key) :
    ∃ row ∈ (table.put record).rows, Keyed.key row = key := by
  obtain ⟨row, member, named⟩ := present
  by_cases same : Keyed.key row = Keyed.key record
  · exact ⟨record, mem_put.mpr (Or.inl rfl), same.symm.trans named⟩
  · exact ⟨row, mem_put.mpr (Or.inr ⟨member, same⟩), named⟩

theorem Written.put (written : Written records start table) :
    Written (records ++ [record]) start (table.put record) where
  rows row member := by
    rcases mem_put.mp member with rfl | ⟨present, apart⟩
    · exact Or.inl (mem_append_right _ mem_cons_self)
    rcases written.rows row present with listed | ⟨held, other⟩
    · exact Or.inl (mem_append_left _ listed)
    · refine Or.inr ⟨held, ?_⟩
      simp only [map_append, map_cons, map_nil, mem_append, mem_singleton, not_or]
      exact ⟨other, apart⟩
  stored other member := by
    rcases mem_append.mp member with listed | last
    · exact exists_put (written.stored other listed)
    · rw [mem_singleton.mp last]
      exact ⟨record, mem_put.mpr (Or.inl rfl), rfl⟩
  kept row member := exists_put (written.kept row member)

theorem Written.skip (written : Written records start table) (present : record ∈ start.rows) :
    Written (records ++ [record]) start table where
  rows row member := by
    rcases written.rows row member with listed | ⟨held, other⟩
    · exact Or.inl (mem_append_left _ listed)
    by_cases same : Keyed.key row = Keyed.key record
    · rw [eq_of_key_eq held present same]
      exact Or.inl (mem_append_right _ mem_cons_self)
    · refine Or.inr ⟨held, ?_⟩
      simp only [map_append, map_cons, map_nil, mem_append, mem_singleton, not_or]
      exact ⟨other, same⟩
  stored other member := by
    rcases mem_append.mp member with listed | last
    · exact written.stored other listed
    · rw [mem_singleton.mp last]
      exact written.kept record present
  kept := written.kept

end

section
variable {declared : List α} {obsolete : α → Bool} {retire : α → α} {before after : Table α}

/-- What `before` becomes when the declared records are written over it and the rows that
became obsolete are retired. -/
structure Superseded (declared : List α) (obsolete : α → Bool) (retire : α → α) (before after : Table α) :
    Prop where
  rows : ∀ row ∈ after.rows, row ∈ declared ∨
    (row ∈ before.rows ∧ Keyed.key row ∉ declared.map Keyed.key ∧ obsolete row = false) ∨
    ∃ old ∈ before.rows, obsolete old = true ∧ row = retire old
  stored : ∀ record ∈ declared, ∃ row ∈ after.rows, Keyed.key row = Keyed.key record
  kept : ∀ row ∈ before.rows, ∃ other ∈ after.rows, Keyed.key other = Keyed.key row
  keeps : ∀ row, Keyed.key (retire row) = Keyed.key row
  apart : ∀ row, obsolete row = true → Keyed.key row ∉ declared.map Keyed.key

theorem Written.superseded (written : Written declared before middle)
    (keeps : ∀ row, Keyed.key (retire row) = Keyed.key row)
    (apart : ∀ row, obsolete row = true → Keyed.key row ∉ declared.map Keyed.key) :
    Superseded declared obsolete retire before (middle.putAll ((before.rows.filter obsolete).map retire)) := by
  have keys : ((before.rows.filter obsolete).map retire).map Keyed.key =
      (before.rows.filter obsolete).map Keyed.key := by
    rw [map_map]
    exact map_congr_left fun row _ => keeps row
  have distinct : (((before.rows.filter obsolete).map retire).map Keyed.key).Nodup := by
    rw [keys]
    exact before.distinct.sublist (filter_sublist.map _)
  have present : ∀ key, (∃ row ∈ middle.rows, Keyed.key row = key) →
      ∃ row ∈ (middle.putAll ((before.rows.filter obsolete).map retire)).rows, Keyed.key row = key := by
    rintro key ⟨row, member, rfl⟩
    by_cases replaced : Keyed.key row ∈ ((before.rows.filter obsolete).map retire).map Keyed.key
    · obtain ⟨record, listed, same⟩ := mem_map.mp replaced
      exact ⟨record, (mem_putAll distinct).mpr (Or.inl listed), same⟩
    · exact ⟨row, (mem_putAll distinct).mpr (Or.inr ⟨member, replaced⟩), rfl⟩
  refine ⟨fun row member => ?_, fun record listed => present _ (written.stored record listed),
    fun row member => present _ (written.kept row member), keeps, apart⟩
  rw [mem_putAll distinct, keys] at member
  rcases member with retired | ⟨standing, untouched⟩
  · obtain ⟨old, listed, rfl⟩ := mem_map.mp retired
    obtain ⟨held, dropped⟩ := mem_filter.mp listed
    exact Or.inr (Or.inr ⟨old, held, dropped, rfl⟩)
  rcases written.rows row standing with listed | ⟨held, other⟩
  · exact Or.inl listed
  · refine Or.inr (Or.inl ⟨held, other, ?_⟩)
    by_contra dropped
    exact untouched (mem_map_of_mem (mem_filter.mpr ⟨held, Bool.not_eq_false _ ▸ dropped⟩))

section
variable (superseded : Superseded declared obsolete retire before after)
include superseded

omit [DecidableEq κ]

theorem Superseded.under_declared (member : row ∈ after.rows)
    (listed : Keyed.key row ∈ declared.map Keyed.key) : row ∈ declared := by
  rcases superseded.rows row member with inside | ⟨_, outside, _⟩ | ⟨old, _, dropped, rfl⟩
  · exact inside
  · exact absurd listed outside
  · rw [superseded.keeps] at listed
    exact absurd listed (superseded.apart old dropped)

theorem Superseded.declares (distinct : (declared.map Keyed.key).Nodup) (listed : record ∈ declared) :
    record ∈ after.rows := by
  obtain ⟨_, member, same⟩ := superseded.stored record listed
  have inside := superseded.under_declared member (same ▸ mem_map_of_mem listed)
  rwa [← inj_on_of_nodup_map distinct inside listed same]

theorem Superseded.spares (held : row ∈ before.rows) (undeclared : Keyed.key row ∉ declared.map Keyed.key)
    (cur : obsolete row = false) : row ∈ after.rows := by
  obtain ⟨other, member, same⟩ := superseded.kept row held
  rcases superseded.rows other member with inside | ⟨present, _, _⟩ | ⟨_, present, dropped, rfl⟩
  · exact absurd (same ▸ mem_map_of_mem inside) undeclared
  · rwa [← eq_of_key_eq present held same]
  rw [superseded.keeps] at same
  rw [eq_of_key_eq present held same, cur] at dropped
  cases dropped

theorem Superseded.retires (held : row ∈ before.rows) (dropped : obsolete row = true) : retire row ∈ after.rows := by
  obtain ⟨other, member, same⟩ := superseded.kept row held
  rcases superseded.rows other member with inside | ⟨present, _, cur⟩ | ⟨_, present, _, rfl⟩
  · exact absurd (same ▸ mem_map_of_mem inside) (superseded.apart row dropped)
  · rw [eq_of_key_eq present held same, dropped] at cur
    cases cur
  · rw [superseded.keeps] at same
    rwa [← eq_of_key_eq present held same]

theorem Superseded.settled (cur : ∀ row ∈ declared, obsolete row = false)
    (retired : ∀ row, obsolete (retire row) = false) (member : row ∈ after.rows) : obsolete row = false := by
  rcases superseded.rows row member with listed | ⟨_, _, kept⟩ | ⟨old, _, _, rfl⟩
  · exact cur row listed
  · exact kept
  · exact retired old

end
end
end Table
end Applik8s.Lib
