import Applik8s.Schema.Draft7

/-! Normalization of unions with null: the merged schema is smaller, and under the conditions of
`UnionKept` it is valid for the same values. -/
namespace Applik8s.Schema
open Keyword (combinators ofValue)
open Json (object size)

section
open Json
variable (record : Members)

theorem sizeMembers_erase (name : String) : sizeMembers (record.erase name) ≤ sizeMembers record := by
  induction record with
  | nil => exact le_refl _
  | cons member =>
    obtain ⟨_, _⟩ := member
    rw [Record.erase_cons]
    split
    · rw [sizeMembers]
      omega
    · rw [sizeMembers, sizeMembers]
      omega

theorem sizeMembers_erase_get {record : Members} (found : record.get name = some value) :
    sizeMembers (record.erase name) + 1 + value.size ≤ sizeMembers record := by
  induction record with
  | nil => simp at found
  | cons member rest ih =>
    obtain ⟨held, _⟩ := member
    rw [Record.get_cons] at found
    rw [Record.erase_cons, sizeMembers]
    by_cases same : held = name
    · rw [if_pos same] at found ⊢
      cases found
      have := sizeMembers_erase rest name
      omega
    · rw [if_neg same] at found ⊢
      have := ih found
      rw [sizeMembers]
      omega

theorem sizeMembers_set (name : String) (value : Json) :
    sizeMembers (record.set name value) ≤ sizeMembers record + 1 + value.size := by
  induction record with
  | nil => simp [Record.set, sizeMembers]
  | cons member rest ih =>
    obtain ⟨_, _⟩ := member
    rw [Record.set, sizeMembers]
    split
    · have := sizeMembers_erase rest name
      rw [sizeMembers]
      omega
    · rw [sizeMembers]
      omega

theorem sizeMembers_firsts : sizeMembers record.firsts ≤ sizeMembers record := by
  induction record with
  | nil => exact le_refl _
  | cons member rest ih =>
    obtain ⟨held, _⟩ := member
    have := sizeMembers_erase (Record.firsts rest) held
    simp only [Record.firsts, sizeMembers]
    omega

theorem sizeMembers_foldl_set (record updates : Members) :
    sizeMembers (updates.foldl (fun record member => Record.set record member.1 member.2) record) ≤
      sizeMembers record + sizeMembers updates := by
  induction updates generalizing record with
  | nil => simp [sizeMembers]
  | cons member rest ih =>
    obtain ⟨held, kept⟩ := member
    refine le_trans (ih (record.set held kept)) ?_
    have := sizeMembers_set record held kept
    rw [sizeMembers]
    omega

theorem sizeMembers_assign (record updates : Members) :
    sizeMembers (record.assign updates) ≤ sizeMembers record + sizeMembers updates := by
  refine le_trans (sizeMembers_foldl_set record updates.firsts) ?_
  have := sizeMembers_firsts updates
  omega

end

section
variable {engine : Engine} {accepts accepts' : Json → Json → Bool} {schema : Members}
  {kw : Keyword} {argument value : Json}

theorem asserts_congr (agree : ∀ app ∈ applications schema kw arg value, accepts app.1 app.2 = accepts' app.1 app.2) :
    asserts engine accepts schema kw arg value = asserts engine accepts' schema kw arg value := by
  have everyApplication : ((applications schema kw arg value).all fun applied => accepts applied.1 applied.2) =
        (applications schema kw arg value).all fun applied => accepts' applied.1 applied.2 := by
    rw [Bool.eq_iff_iff, List.all_eq_true, List.all_eq_true]
    exact forall₂_congr fun app member => by rw [agree app member]
  cases kw with
  | anyOf =>
    cases arg with
    | array =>
      simp only [applications, List.forall_mem_map] at agree
      simp only [asserts]
      rw [Bool.eq_iff_iff, List.any_eq_true, List.any_eq_true]
      exact exists_congr fun branch => and_congr_right fun member => by rw [agree branch member]
    | _ => rfl
  | oneOf =>
    cases arg with
    | array =>
      simp only [applications, List.forall_mem_map] at agree
      simp [asserts, List.filter_congr agree]
    | _ => rfl
  | negation => simp only [asserts, agree (arg, value) (by simp [applications])]
  | allOf => exact everyApplication
  | properties => exact everyApplication
  | additionalProperties => exact everyApplication
  | items => exact everyApplication
  | _ => rfl

variable {application : Json × Json}

theorem applications_size
    (applied : app ∈ applications schema kw arg value) : app.1.size ≤ arg.size := by
  have branchSize : ∀ {branches : List Json} {branch : Json}, branch ∈ branches →
      branch.size ≤ (Json.array branches).size := by
    intro branches branch member
    have := Json.size_le_sizeItems member
    simp only [size]
    omega
  unfold applications at applied
  split at applied
  iterate 3
    split at applied
    · obtain ⟨_, member, rfl⟩ := List.mem_map.mp applied
      exact branchSize member
    · simp at applied
  · simp at applied
    simp [applied]
  · split at applied
    · next entries members =>
      obtain ⟨entry, member, same⟩ := List.mem_filterMap.mp applied
      obtain ⟨_, -, rfl⟩ := Option.map_eq_some_iff.mp same
      have := Json.size_lt_sizeMembers (show (entry.1, entry.2) ∈ entries from member)
      simp only [size]
      omega
    · simp at applied
  · split at applied
    · obtain ⟨_, -, rfl⟩ := List.mem_map.mp applied
      exact le_refl _
    · simp at applied
  · split at applied
    · obtain ⟨_, -, rfl⟩ := List.mem_map.mp applied
      exact le_refl _
    · simp at applied
  · simp at applied

theorem applications_smaller (found : schema.get kw.name = some arg)
    (applied : app ∈ applications schema kw arg value) :
    app.1.size < (object schema).size := by
  have := applications_size applied
  have := Json.size_lt_sizeMembers (Record.mem_of_get found)
  simp only [size]
  omega

theorem validUpTo_object (bound : Nat) : validUpTo engine (bound + 1) (.object schema) value = true ↔
      ∀ kw, holds engine (validUpTo engine bound) schema kw value = true := by
  rw [validUpTo, List.all_eq_true]
  exact ⟨fun all kw => all kw (Keyword.mem_all kw), fun all kw _ => all kw⟩

theorem validUpTo_succ (bound : Nat) : ∀ (schema value : Json), schema.size ≤ bound →
    validUpTo engine (bound + 1) schema value = validUpTo engine bound schema value := by
  induction bound with
  | zero =>
    intro schema value fits
    have := schema.size_pos
    omega
  | succ bound ih =>
    intro schema value fits
    cases schema with
    | object members =>
      rw [Bool.eq_iff_iff, validUpTo_object, validUpTo_object]
      apply forall_congr'
      intro kw
      unfold holds
      cases found : Record.get members kw.name with
      | none => rfl
      | some =>
        simp only [Option.all_some]
        rw [asserts_congr]
        intro app applied
        have := applications_smaller found applied
        exact ih _ _ (by omega)
    | _ => rfl

end

section
theorem nullableAnyOfSchema_branches (union : nullableAnyOfSchema value = some base) :
    ∃ null, nullBranch value = some null ∧ null.get "type" = some (.string "null") ∧
      (value = some (.array [.object null, .object base]) ∨ value = some (.array [.object base, .object null])) := by
  unfold nullableAnyOfSchema at union
  split at union
  · next left right =>
    split at union
    · next leftNull =>
      obtain ⟨isNull, -⟩ := Bool.and_eq_true _ _ ▸ leftNull
      cases left <;> simp [isNullSchema, asObject] at isNull
      cases right <;> simp [asObject] at union
      subst union
      exact ⟨_, by simp [nullBranch, leftNull, asObject], isNull, .inl rfl⟩
    next leftOther =>
    split at union
    · next rightNull =>
      obtain ⟨isNull, -⟩ := Bool.and_eq_true _ _ ▸ rightNull
      cases right <;> simp [isNullSchema, asObject] at isNull
      cases left <;> simp [asObject] at union
      subst union
      exact ⟨_, by simp [nullBranch, leftOther, rightNull, asObject], isNull, .inr rfl⟩
    · simp at union
  · simp at union

theorem size_mergedUnion (union : nullableAnyOfSchema (schema.get "anyOf") = some base) :
    (object (mergedUnion schema base)).size < (object schema).size := by
  obtain ⟨_, -, nullType, branches⟩ := nullableAnyOfSchema_branches union
  have nullSize := Json.size_lt_sizeMembers (Record.mem_of_get nullType)
  have set := sizeMembers_set (base.assign (schema.erase "anyOf")) "nullable" (.boolean true)
  have assigned := sizeMembers_assign base (schema.erase "anyOf")
  simp only [size] at nullSize set ⊢
  unfold mergedUnion
  rcases branches with found | found <;>
  · have erased := sizeMembers_erase_get found
    simp only [size, Json.sizeItems] at erased
    omega

theorem get_mergedUnion (schema base : Members) (name : String) : (mergedUnion schema base).get name =
      if name = "nullable" then some (.boolean true)
      else if name = "anyOf" then base.get name
      else (schema.get name <|> base.get name) := by
  rw [mergedUnion, Record.get_set]
  split
  · rfl
  · rw [Record.get_assign, Record.get_erase]
    split <;> simp

variable {engine : Engine} {accepts : Json → Json → Bool} {schema base : Members} {value : Json} {kw : Keyword}

/-- Only null is read with the schema's `nullable`, and only `additionalProperties` with its
`properties`. -/
theorem asserts_schema (arg : Json) (unlifted : value ≠ .null ∨ kw ∉ ofValue)
    (beside : kw = .additionalProperties → schema.get "properties" = part.get "properties") :
    asserts engine accepts schema kw arg value = asserts engine accepts part kw arg value := by
  cases kw with
  | type => simp [ofValue] at unlifted; simp [asserts, unlifted]
  | enum => simp [ofValue] at unlifted; simp [asserts, unlifted]
  | const => simp [ofValue] at unlifted; simp [asserts, unlifted]
  | additionalProperties =>
    have same : additionalMembers schema = additionalMembers part := by
      funext members
      rw [additionalMembers, additionalMembers, readSchema, readSchema, beside rfl]
    simp [asserts, applications, same]
  | _ => rfl

theorem holds_idle (idle : kw ∈ Keyword.idle value) : holds engine accepts schema kw value = true := by
  unfold holds
  cases schema.get kw.name with
  | none => rfl
  | some =>
    cases value <;> simp only [Keyword.idle, Keyword.ofStrings, Keyword.ofNumbers,
      Keyword.ofObjects, Keyword.ofArrays, List.cons_append, List.nil_append, List.mem_cons,
      List.not_mem_nil, or_false] at idle <;>
    rcases idle with rfl | rfl | rfl | rfl | rfl | rfl | rfl | rfl | rfl | rfl | rfl | rfl | rfl | rfl | rfl <;>
    simp [asserts, applications, limits, numeric, textLength, itemCount]

theorem holds_null (other : kw ∉ ofValue) (apart : kw ∉ combinators) :
    holds engine accepts schema kw .null = true := by
  apply holds_idle
  revert other apart
  cases kw <;> decide

theorem get_mergedUnion_keyword (schema base : Members) (apart : kw ≠ .anyOf) :
    (mergedUnion schema base).get kw.name = (schema.get kw.name <|> base.get kw.name) := by
  rw [get_mergedUnion]
  cases kw <;> simp [Keyword.name] at apart ⊢

theorem holds_mergedUnion (kept : UnionKept engine accepts schema value base)
    (apart : kw ≠ .anyOf) (unlifted : value ≠ .null ∨ kw ∉ ofValue) :
    holds engine accepts (mergedUnion schema base) kw value = true ↔
      holds engine accepts base kw value = true ∧ holds engine accepts schema kw value = true := by
  have reads : ∀ part ∈ [base, schema], ∀ arg, part.get kw.name = some arg →
      asserts engine accepts (mergedUnion schema base) kw arg value =
        asserts engine accepts part kw arg value := by
    intro part member arg found
    apply asserts_schema arg unlifted
    rintro rfl
    exact kept.beside part member (by rw [show part.get "additionalProperties" = _ from found]; rfl)
  unfold holds
  rw [get_mergedUnion_keyword schema base apart]
  cases inner : base.get kw.name with
  | none =>
    cases outer : schema.get kw.name with
    | none => simp
    | some arg => simp [reads schema (by simp) arg outer]
  | some arg =>
    cases outer : schema.get kw.name with
    | none => simp [reads base (by simp) arg inner]
    | some around =>
      obtain rfl := kept.agree kw arg around apart inner outer
      simp [← reads schema (by simp) arg outer, ← reads base (by simp) arg inner]

theorem holds_mergedUnion_anyOf : holds engine accepts (mergedUnion schema base) .anyOf value =
      holds engine accepts base .anyOf value := by
  unfold holds
  rw [get_mergedUnion]
  rfl

/-- Under `nullable`, null meets the keywords of values. -/
theorem holds_nullable (nullable : isFlag schema "nullable" true = true)
    (ofValue : kw ∈ Keyword.ofValue) : holds engine accepts schema kw .null = true := by
  unfold holds
  cases schema.get kw.name with
  | none => rfl
  | some =>
    simp only [Keyword.ofValue, List.mem_cons, List.not_mem_nil, or_false] at ofValue
    rcases ofValue with rfl | rfl | rfl <;> simp [asserts, nullable]

theorem nullSchema_rejects {null : Members} (bound : Nat) (nullType : null.get "type" = some (.string "null"))
    (nonnull : value ≠ .null) : validUpTo engine (bound + 1) (.object null) value = false := by
  rw [Bool.eq_false_iff, ne_eq, validUpTo_object]
  intro all
  have typed := all .type
  rw [holds, show null.get (Keyword.name .type) = _ from nullType] at typed
  cases value with
  | null => exact nonnull rfl
  | number held => simp [asserts, typeNames] at typed; split at typed <;> simp at typed
  | _ => simp [asserts, typeNames] at typed

theorem holds_union (union : nullableAnyOfSchema (schema.get "anyOf") = some base) :
    ∃ null, nullBranch (schema.get "anyOf") = some null ∧ null.get "type" = some (.string "null") ∧
      (object null).size < (object schema).size ∧ (object base).size < (object schema).size ∧
      (holds engine accepts schema .anyOf value = true ↔
        accepts (.object null) value = true ∨ accepts (.object base) value = true) := by
  obtain ⟨null, branch, nullType, branches⟩ := nullableAnyOfSchema_branches union
  refine ⟨null, branch, nullType, ?_⟩
  rcases branches with found | found <;>
  · have sized := Json.size_lt_sizeMembers (Record.mem_of_get found)
    simp only [size, Json.sizeItems] at sized ⊢
    refine ⟨by omega, by omega, ?_⟩
    rw [holds, show schema.get (Keyword.name .anyOf) = _ from found]
    simp [asserts, or_comm]

theorem union_valid (fits : (object schema).size ≤ bound + 1)
    (union : nullableAnyOfSchema (schema.get "anyOf") = some base)
    (kept : UnionKept engine (validUpTo engine bound) schema value base) :
    validUpTo engine (bound + 1) (.object schema) value = true ↔
      validUpTo engine bound (.object (mergedUnion schema base)) value = true := by
  have smaller := size_mergedUnion union
  obtain ⟨null, branch, nullType, _, _, anyOf⟩ :=
    @holds_union engine (validUpTo engine bound) schema base value union
  rw [← validUpTo_succ bound (.object (mergedUnion schema base)) value (by omega), validUpTo_object, validUpTo_object]
  by_cases isNull : value = .null
  · -- the branch with null accepts: both sides are down to the combinators around the union
    subst isNull
    obtain ⟨combined, lifted⟩ := kept.lifted rfl
    have accepted := (kept.dropped null branch rfl).2
    constructor
    · intro all kw
      by_cases ofValue : kw ∈ Keyword.ofValue
      · exact holds_nullable (by simp [isFlag, get_mergedUnion]) ofValue
      by_cases combines : kw ∈ combinators
      · by_cases isAnyOf : kw = .anyOf
        · rw [isAnyOf, holds_mergedUnion_anyOf]
          exact combined .anyOf (by simp [combinators])
        · exact (holds_mergedUnion kept isAnyOf (.inr ofValue)).mpr ⟨combined kw combines, all kw⟩
      · exact holds_null ofValue combines
    · intro all kw
      by_cases isAnyOf : kw = .anyOf
      · rw [isAnyOf]
        exact anyOf.mpr (.inl accepted)
      by_cases ofValue : kw ∈ Keyword.ofValue
      · exact lifted kw ofValue
      · exact ((holds_mergedUnion kept isAnyOf (.inr ofValue)).mp (all kw)).2
  · -- the branch with null rejects: the value must meet the other branch and what is around
    have rejected : validUpTo engine bound (.object null) value = false := by
      rw [← validUpTo_succ bound _ value (by omega)]
      exact nullSchema_rejects bound nullType isNull
    rw [rejected, ← validUpTo_succ bound _ value (by omega), validUpTo_object] at anyOf
    constructor
    · intro all kw
      have inner := (anyOf.mp (all .anyOf)).resolve_left (by simp)
      by_cases isAnyOf : kw = .anyOf
      · rw [isAnyOf, holds_mergedUnion_anyOf]
        exact inner .anyOf
      · exact (holds_mergedUnion kept isAnyOf (.inl isNull)).mpr ⟨inner kw, all kw⟩
    intro all kw
    have parts := fun kw (isOther : kw ≠ Keyword.anyOf) =>
      (holds_mergedUnion kept isOther (.inl isNull)).mp (all kw)
    by_cases isAnyOf : kw = .anyOf
    · rw [isAnyOf]
      apply anyOf.mpr
      right
      intro kw
      by_cases isAnyOf : kw = .anyOf
      · rw [isAnyOf, ← holds_mergedUnion_anyOf]
        exact all .anyOf
      · exact (parts kw isAnyOf).1
    · exact (parts kw isAnyOf).2

end
end Applik8s.Schema
