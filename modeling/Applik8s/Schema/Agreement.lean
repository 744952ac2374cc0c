import Mathlib.Algebra.Order.Field.Rat
import Mathlib.Data.List.Rotate
import Applik8s.Schema.Normalization

/-! Where the schema runtime accepts exactly the instances of a schema. One node of a normalized
schema is compared keyword by keyword with what the original keywords assert; the nested schemas
agree by induction on the size of the schema. -/
namespace Applik8s.Schema
open List
open Function (comp_apply comp_def)
open Json (object)
open Option (all_some bind_some getD_some)

@[simp] theorem firstErrors_eq_nil (checks : List (List String)) :
    firstErrors checks = [] ↔ ∀ errors ∈ checks, errors = [] := by
  induction checks with
  | nil => simp [firstErrors]
  | cons errors rest ih =>
    rw [firstErrors]
    by_cases empty : errors = []
    · simp [empty, ih]
    · simp [empty]

@[simp] theorem refuse_eq_nil (cond : Bool) (msg : String) : refuse cond msg = [] ↔ cond = false := by
  cases cond <;> simp [refuse]

@[simp] theorem limitErrors_eq_nil {α : Type} (limit : Option α) (exceeds : α → Bool) (msg : α → String) :
    limitErrors limit exceeds msg = [] ↔ ∀ bound, limit = some bound → exceeds bound = false := by
  cases limit <;> simp [limitErrors]

@[simp] theorem malformed_eq_nil (schema : Members) (key : String) (reads : Bool) (msg : String) :
    malformed schema key reads msg = [] ↔ ((schema.get key).isSome → reads = true) := by
  cases found : schema.get key <;> cases reads <;> simp [malformed, found]

/-- What an empty list of diagnostics says of the keywords of a schema. -/
structure Supported (schema : Members) : Prop where
  const : schema.get "const" = none
  branches : ∀ keyword ∈ ["oneOf", "anyOf", "allOf"], (schema.get keyword).isSome →
    (readSchemaArray schema keyword).isSome
  negation : (schema.get "not").isSome → (readSchema schema "not").isSome
  type : (schema.get "type").isSome → (readString schema "type").any isSupportedJsonSchemaType
  required : (schema.get "required").isSome → (readStringArray schema "required").isSome
  properties : (schema.get "properties").isSome → (readSchemaMap schema "properties").isSome
  items : (schema.get "items").isSome → (readSchema schema "items").isSome
  additionalProperties : (schema.get "additionalProperties").isSome →
    readsBoolean schema "additionalProperties" ∨ (readSchema schema "additionalProperties").isSome
  enum : (schema.get "enum").isSome → (readArray schema "enum").isSome
  pattern : (schema.get "pattern").isSome → (readString schema "pattern").isSome
  numbers : ∀ keyword ∈ ["minimum", "maximum", "exclusiveMinimum", "exclusiveMaximum", "multipleOf"],
    (schema.get keyword).isSome → (readNumber schema keyword).isSome
  divisor : (schema.get "multipleOf").isSome → 0 < (readNumber schema "multipleOf").getD 0
  counts : ∀ keyword ∈ ["minLength", "maxLength", "minItems", "maxItems"],
    (schema.get keyword).isSome → (readNonNegativeInteger schema keyword).isSome
  uniqueItems : (schema.get "uniqueItems").isSome → readsBoolean schema "uniqueItems"

theorem supported_of_diagnostics (empty : ownDiagnostics engine schema path = []) : Supported schema := by
  simp only [ownDiagnostics, append_eq_nil_iff, map_eq_nil_iff, flatMap_eq_nil_iff,
    malformed_eq_nil, decide_eq_true_eq, Bool.or_eq_true] at empty
  obtain ⟨⟨⟨⟨⟨⟨⟨⟨⟨⟨⟨⟨⟨⟨known, branches⟩, negation⟩, type⟩, required⟩, props⟩, items⟩,
    additionalProperties⟩, enum⟩, _⟩, pattern⟩, numbers⟩, divisor⟩, counts⟩, uniqueItems⟩ := empty
  refine ⟨?_, branches, negation, type, required, props, items, additionalProperties, enum,
    ?_, numbers, divisor, counts, uniqueItems⟩
  · apply Record.get_eq_none_iff.mpr
    intro member held isConst
    have := filter_eq_nil_iff.mp known member held
    rw [isConst] at this
    exact this (by decide)
  · intro present
    obtain ⟨arg, found⟩ := Option.isSome_iff_exists.mp present
    rw [patternDiagnostics, found] at pattern
    cases arg <;> simp [readString, found] at pattern ⊢

section
variable {normalize : Members → Members} {schema : Members}

theorem get_constAsEnum (schema : Members) (name : String) : (constAsEnum schema).get name =
      match (schema.get "const").filter isScalarJsonValue with
      | some constant =>
        if name = "enum" then some (.array [constant])
        else if name = "const" then none else schema.get name
      | none => schema.get name := by
  unfold constAsEnum
  cases found : schema.get "const" with
  | none => simp
  | some constant =>
    by_cases scalar : isScalarJsonValue constant = true
    · simp [Option.filter, scalar, Record.get_set, Record.get_erase]
    · simp [Option.filter, scalar]

theorem get_enumTyped (schema : Members) (name : String) : (enumTyped schema).get name =
      if name = "type" then
        schema.get "type" <|> (scalarEnumType (schema.get "enum")).map Json.string
      else schema.get name := by
  unfold enumTyped
  cases type : schema.get "type" with
  | some held => by_cases isType : name = "type" <;> simp [isType, type]
  | none =>
    cases scalarEnumType (schema.get "enum") with
    | none => by_cases isType : name = "type" <;> simp [isType, type]
    | some => by_cases isType : name = "type" <;> simp [isType, Record.get_set]

def nestedNormalized (normalize : Members → Members) (name : String) : Json → Json :=
  if name = "properties" then eachValue normalize
  else if name ∈ ["items", "additionalProperties", "not"] then whenObject normalize
  else if name ∈ ["anyOf", "oneOf", "allOf"] then eachItem normalize
  else id

variable {name : String}

theorem get_normalizedNode (kept : name ∉ ["type", "enum", "const"]) :
    (normalizedNode normalize schema).get name = (schema.get name).map (nestedNormalized normalize name) := by
  have plain : (constAsEnum schema).get name = schema.get name := by
    rw [get_constAsEnum]
    simp only [mem_cons, not_mem_nil, or_false, not_or] at kept
    split
    · rw [if_neg kept.2.1, if_neg kept.2.2]
    · rfl
  by_cases nested : name ∈ ["properties", "items", "additionalProperties", "not", "anyOf", "oneOf", "allOf"]
  · simp only [mem_cons, not_mem_nil, or_false] at nested
    rcases nested with rfl | rfl | rfl | rfl | rfl | rfl | rfl <;>
      simp [normalizedNode, get_enumTyped, Record.get_update, plain, nestedNormalized]
  · simp only [mem_cons, not_mem_nil, or_false, not_or] at nested kept
    simp [normalizedNode, get_enumTyped, Record.get_update, plain, nestedNormalized, nested, kept]

theorem get_normalizedNode_ofValue (ofValue : name ∈ ["enum", "const"]) :
    (normalizedNode normalize schema).get name = (constAsEnum schema).get name := by
  simp only [mem_cons, not_mem_nil, or_false] at ofValue
  rcases ofValue with rfl | rfl <;>
    simp [normalizedNode, get_enumTyped, Record.get_update]

theorem get_normalizedNode_type : (normalizedNode normalize schema).get "type" =
      (schema.get "type" <|> (scalarEnumType ((constAsEnum schema).get "enum")).map Json.string) := by
  have plain : (constAsEnum schema).get "type" = schema.get "type" := by
    rw [get_constAsEnum]
    split <;> simp
  simp [normalizedNode, get_enumTyped, Record.get_update, plain]

theorem isJsonObject_whenObject (value : Json) : isJsonObject (whenObject normalize value) = isJsonObject value := by
  cases value <;> rfl

theorem exists_members (isObject : isJsonObject value = true) : ∃ members, value = .object members := by
  cases value with
  | object members => exact ⟨members, rfl⟩
  | _ => simp [isJsonObject, asObject] at isObject

theorem exists_branches (objects : ∀ item ∈ items, isJsonObject item = true) :
    ∃ branches : List Members, items = branches.map .object := by
  induction items with
  | nil => exact ⟨[], rfl⟩
  | cons item rest ih =>
    obtain ⟨members, rfl⟩ := exists_members (objects item (by simp))
    obtain ⟨branches, rfl⟩ := ih fun other member => objects other (by simp [member])
    exact ⟨members :: branches, rfl⟩

theorem exists_entries {members : Members} (objects : ∀ member ∈ members, isJsonObject member.2 = true) :
    ∃ entries : Record Members, members = entries.map fun entry => (entry.1, .object entry.2) := by
  induction members with
  | nil => exact ⟨[], rfl⟩
  | cons member rest ih =>
    obtain ⟨key, value⟩ := member
    obtain ⟨nested, rfl⟩ := exists_members (objects (key, value) (by simp))
    obtain ⟨entries, rfl⟩ := ih fun other member => objects other (by simp [member])
    exact ⟨(key, nested) :: entries, rfl⟩

theorem schema_read (holdsSchema : name ∈ ["items", "additionalProperties", "not"])
    (found : schema.get name = some arg) (reads : (readSchema (normalizedNode normalize schema) name).isSome) :
    ∃ nested, arg = .object nested ∧
      readSchema (normalizedNode normalize schema) name = some (normalize nested) := by
  have read : (normalizedNode normalize schema).get name = some (whenObject normalize arg) := by
    simp only [mem_cons, not_mem_nil, or_false] at holdsSchema
    rw [get_normalizedNode (by rcases holdsSchema with rfl | rfl | rfl <;> decide), found]
    rcases holdsSchema with rfl | rfl | rfl <;> rfl
  simp only [readSchema, read] at reads ⊢
  cases arg with
  | object nested => exact ⟨nested, rfl, rfl⟩
  | _ => simp [whenObject, asObject] at reads

variable (supported : Supported (normalizedNode normalize schema)) {argument : Json}
include supported

theorem branches_read (combines : name ∈ ["oneOf", "anyOf", "allOf"])
    (found : schema.get name = some arg) : ∃ branches : List Members, arg = .array (branches.map .object) ∧
      readSchemaArray (normalizedNode normalize schema) name = some (branches.map normalize) := by
  have read : (normalizedNode normalize schema).get name = some (eachItem normalize arg) := by
    simp only [mem_cons, not_mem_nil, or_false] at combines
    rw [get_normalizedNode (by rcases combines with rfl | rfl | rfl <;> decide), found]
    rcases combines with rfl | rfl | rfl <;> rfl
  have reads := supported.branches name combines (by rw [read]; rfl)
  cases arg with
  | array items =>
    simp only [readSchemaArray, readArray, read, eachItem] at reads ⊢
    split at reads
    · next wellFormed =>
      have objects : ∀ item ∈ items, isJsonObject item = true := by
        intro item member
        rw [← @isJsonObject_whenObject normalize]
        exact all_eq_true.mp wellFormed.2 _ (mem_map_of_mem member)
      obtain ⟨branches, rfl⟩ := exists_branches objects
      refine ⟨branches, rfl, ?_⟩
      rw [if_pos wellFormed]
      simp [filterMap_map, comp_def, whenObject, asObject]
    · simp at reads
  | _ => simp [readSchemaArray, readArray, read, eachItem] at reads

/-- The values of `properties` are schemas, and are read normalized. -/
theorem properties_read (found : schema.get "properties" = some arg) :
    ∃ entries : Record Members, arg = .object (entries.map fun entry => (entry.1, .object entry.2)) ∧
      readSchemaMap (normalizedNode normalize schema) "properties" =
        some (entries.map fun entry => (entry.1, normalize entry.2)) := by
  have read : (normalizedNode normalize schema).get "properties" = some (eachValue normalize arg) := by
    rw [get_normalizedNode (by decide), found]
    rfl
  have reads := supported.properties (by rw [read]; rfl)
  cases arg with
  | object members =>
    simp only [readSchemaMap, readSchema, read, eachValue, bind_some, asObject] at reads ⊢
    split at reads
    · next wellFormed =>
      have objects : ∀ member ∈ members, isJsonObject member.2 = true := by
        intro member held
        rw [← @isJsonObject_whenObject normalize]
        exact all_eq_true.mp wellFormed _ (mem_map_of_mem held)
      obtain ⟨entries, rfl⟩ := exists_entries objects
      refine ⟨entries, rfl, ?_⟩
      rw [if_pos wellFormed]
      simp [filterMap_map, comp_def, whenObject]
    · simp at reads
  | _ => simp [readSchemaMap, readSchema, read, eachValue, asObject] at reads

end

open Keyword (combinators name ofArrays ofNumbers ofObjects ofStrings ofValue oneOf)

section
variable {engine : Engine} {accepts : Json → Json → Bool} {normalize : Members → Members}
  {schema : Members} {value : Json} {errors : Subject → Members → String → List String}

/-- The nested schemas of a keyword agree where they are applied. -/
def NestedAgree (accepts : Json → Json → Bool) (normalize : Members → Members) (schema : Members)
    (value : Json) (errors : Subject → Members → String → List String) (keyword : Keyword) : Prop :=
  ∀ argument, schema.get keyword.name = some argument →
    ∀ applied ∈ applications schema keyword argument value, ∀ nested path, applied.1 = .object nested →
        (errors (.json applied.2) (normalize nested) path = [] ↔ accepts applied.1 applied.2 = true)

variable (supported : Supported (normalizedNode normalize schema))
include supported

theorem branches_agree (combines : kw ∈ [oneOf, .anyOf, .allOf])
    (nested : NestedAgree accepts normalize schema value errors kw) : (schema.get kw.name = none ∧
      readSchemaArray (normalizedNode normalize schema) kw.name = none) ∨
    ∃ branches : List Members, schema.get kw.name = some (.array (branches.map .object)) ∧
      readSchemaArray (normalizedNode normalize schema) kw.name = some (branches.map normalize) ∧
      ∀ branch ∈ branches, ∀ path, errors (.json value) (normalize branch) path = [] ↔
        accepts (.object branch) value = true := by
  simp only [mem_cons, not_mem_nil, or_false] at combines
  cases found : schema.get kw.name with
  | none =>
    left
    rw [readSchemaArray, readArray, get_normalizedNode (by rcases combines with rfl | rfl | rfl <;> decide), found]
    exact ⟨rfl, rfl⟩
  | some =>
    right
    obtain ⟨branches, rfl, read⟩ :=
      branches_read supported (by rcases combines with rfl | rfl | rfl <;> decide) found
    refine ⟨branches, rfl, read, ?_⟩
    intro branch member path
    refine nested _ found (.object branch, value) ?_ branch path rfl
    rcases combines with rfl | rfl | rfl <;> simp [applications, member]

variable {path : String} (msg : Nat → String)

theorem anyOf_agrees (nested : NestedAgree accepts normalize schema value errors .anyOf) :
    limitErrors ((readSchemaArray (normalizedNode normalize schema) "anyOf").map fun branches =>
      (branches.filter fun branch => errors (.json value) branch path = []).length)
      (fun count => count = 0) msg = [] ↔ holds engine accepts schema .anyOf value = true := by
  rcases branches_agree supported (by simp) nested with ⟨absent, unread⟩ | ⟨_, found, read, agree⟩
  · rw [show readSchemaArray _ "anyOf" = none from unread, holds, absent]
    simp
  rw [show readSchemaArray _ "anyOf" = _ from read, holds, found]
  simp only [Option.map_some, limitErrors_eq_nil, Option.some.injEq, forall_eq',
    decide_eq_false_iff_not, length_eq_zero_iff, all_some, asserts, any_map,
    filter_eq_nil_iff, forall_mem_map, decide_eq_true_eq, any_eq_true,
    comp_apply, not_forall, not_not, exists_prop]
  exact exists_congr fun branch => and_congr_right fun member => agree branch member path

theorem oneOf_agrees (nested : NestedAgree accepts normalize schema value errors .oneOf) :
    limitErrors ((readSchemaArray (normalizedNode normalize schema) "oneOf").map fun branches =>
      (branches.filter fun branch => errors (.json value) branch path = []).length)
      (fun count => count ≠ 1) msg = [] ↔ holds engine accepts schema .oneOf value = true := by
  rcases branches_agree supported (by simp) nested with ⟨absent, unread⟩ | ⟨branches, found, read, agree⟩
  · rw [show readSchemaArray _ "oneOf" = none from unread, holds, absent]
    simp
  rw [show readSchemaArray _ "oneOf" = _ from read, holds, found]
  have same : ((branches.map normalize).filter fun branch =>
      errors (.json value) branch path = []).length =
        ((branches.map object).filter (accepts · value)).length := by
    rw [filter_map, filter_map, length_map, length_map]
    congr 1
    apply filter_congr
    intro branch member
    rw [Bool.eq_iff_iff, comp_apply, decide_eq_true_eq]
    exact agree branch member path
  simp [same, asserts]

theorem allOf_agrees (nested : NestedAgree accepts normalize schema value errors .allOf) :
    firstErrors (((readSchemaArray (normalizedNode normalize schema) "allOf").getD []).map fun branch =>
      errors (.json value) branch path) = [] ↔ holds engine accepts schema .allOf value = true := by
  rcases branches_agree supported (by simp) nested with ⟨absent, unread⟩ | ⟨_, found, read, agree⟩
  · rw [show readSchemaArray _ "allOf" = none from unread, holds, absent]
    simp
  rw [show readSchemaArray _ "allOf" = _ from read, holds, found]
  simp only [firstErrors_eq_nil, getD_some, forall_mem_map, all_some, asserts,
    applications, all_map, all_eq_true, comp_apply]
  exact forall₂_congr fun branch member => agree branch member path

theorem negation_agrees (msg : Members → String)
    (nested : NestedAgree accepts normalize schema value errors .negation) :
    limitErrors (readSchema (normalizedNode normalize schema) "not")
      (fun excluded => errors (.json value) excluded path = []) msg = [] ↔
        holds engine accepts schema .negation value = true := by
  unfold holds
  cases found : schema.get (name .negation) with
  | none =>
    have unread : readSchema (normalizedNode normalize schema) "not" = none := by
      rw [readSchema, get_normalizedNode (by decide), show schema.get "not" = none from found]
      rfl
    simp [unread]
  | some =>
    have reads := supported.negation (by
      rw [get_normalizedNode (by decide), show schema.get "not" = _ from found]
      rfl)
    obtain ⟨excluded, rfl, read⟩ := schema_read (by decide) found reads
    have agree := nested _ found (.object excluded, value) (by simp [applications]) excluded path rfl
    rw [show readSchema _ "not" = _ from read]
    simp [asserts, agree]

theorem combinators_agree (nested : ∀ kw ∈ combinators, NestedAgree accepts normalize schema value errors kw)
    : (∀ found ∈ combinatorErrors (errors (.json value) · path) (normalizedNode normalize schema) path, found = []) ↔
      ∀ kw ∈ combinators, holds engine accepts schema kw value = true := by
  simp only [combinators, forall_mem_cons, not_mem_nil, false_implies,
    implies_true, and_true, combinatorErrors] at nested ⊢
  obtain ⟨anyOf, oneOf, allOf, negation⟩ := nested
  exact and_congr (anyOf_agrees supported _ anyOf) (and_congr (oneOf_agrees supported _ oneOf)
    (and_congr (allOf_agrees supported allOf) (negation_agrees supported _ negation)))

end

section
theorem sameValue_scalar (scalar : isScalarJsonValue constant = true) :
    sameValue constant value = true ↔ constant = value := by
  cases constant <;> cases value <;> simp_all [sameValue, Json.sorted, isScalarJsonValue, isString, isNumber, isBoolean]

theorem sameValue_refl (value : Json) : sameValue value value = true := by
  simp [sameValue]

theorem isString_typed : ∀ {value : Json}, isString value = true → "string" ∈ typeNames value
  | .string _, _ => mem_singleton_self _

theorem isBoolean_typed : ∀ {value : Json}, isBoolean value = true → "boolean" ∈ typeNames value
  | .boolean _, _ => mem_singleton_self _

theorem isInteger_typed : ∀ {value : Json}, isInteger value = true → "integer" ∈ typeNames value
  | .number value, integer => by
    rw [typeNames, if_pos (of_decide_eq_true integer)]
    exact mem_cons_self

theorem isNumber_typed : ∀ {value : Json}, isNumber value = true → "number" ∈ typeNames value
  | .number value, _ => by
    rw [typeNames]
    split
    · exact mem_cons_of_mem _ (mem_singleton_self _)
    · exact mem_singleton_self _

/-- The type a scalar `enum` is given is that of all its values but null. -/
theorem scalarEnumType_typed (typed : scalarEnumType arg = some type) :
    type ∈ ["string", "boolean", "integer", "number"] ∧
      ∀ values, arg = some (.array values) → ∀ value ∈ values, value ≠ .null → type ∈ typeNames value := by
  unfold scalarEnumType at typed
  split at typed
  · next items =>
    have listed : ∀ {p : Json → Bool}, (items.filter (· ≠ .null)).all p = true →
        ∀ values, some (Json.array items) = some (.array values) → ∀ value ∈ values,
          value ≠ .null → p value = true := by
      intro p all values same value member nonnull
      cases Option.some.inj same
      exact all_eq_true.mp all value (mem_filter.mpr ⟨member, by simpa using nonnull⟩)
    simp only at typed
    split at typed
    · simp at typed
    split at typed
    · next strings =>
      cases typed
      refine ⟨by simp, fun values same value member nonnull => ?_⟩
      exact isString_typed (listed strings values same value member nonnull)
    split at typed
    · next booleans =>
      cases typed
      refine ⟨by simp, fun values same value member nonnull => ?_⟩
      exact isBoolean_typed (listed booleans values same value member nonnull)
    split at typed
    · next numbers =>
      split at typed
      · next integers =>
        cases typed
        refine ⟨by simp, fun values same value member nonnull => ?_⟩
        exact isInteger_typed (listed integers values same value member nonnull)
      · cases typed
        refine ⟨by simp, fun values same value member nonnull => ?_⟩
        exact isNumber_typed (listed numbers values same value member nonnull)
    · simp at typed
  · simp at typed

theorem matchesJsonSchemaType_iff (known : isSupportedJsonSchemaType type = true) :
    matchesJsonSchemaType (.json value) type = true ↔ type ∈ typeNames value := by
  simp only [isSupportedJsonSchemaType, mem_cons, not_mem_nil, or_false, decide_eq_true_eq] at known
  rcases known with rfl | rfl | rfl | rfl | rfl | rfl | rfl <;> cases value <;>
    simp [matchesJsonSchemaType, typeNames, Subject.members, Subject.items, asObject, isString,
      isNumber, isInteger, isBoolean] <;> split <;> simp_all

variable {engine : Engine} {accepts : Json → Json → Bool} {normalize : Members → Members}
  {schema : Members} {value : Json}

/-- The `enum` that is checked: that of a scalar `const`, or the schema's own. -/
theorem enum_read (supported : Supported (normalizedNode normalize schema)) : (schema.get "const" = none ∧
      (normalizedNode normalize schema).get "enum" = schema.get "enum") ∨
    ∃ constant, schema.get "const" = some constant ∧ isScalarJsonValue constant = true ∧
      (normalizedNode normalize schema).get "enum" = some (.array [constant]) := by
  have unread := supported.const
  rw [get_normalizedNode_ofValue (by simp), get_constAsEnum] at unread
  rw [get_normalizedNode_ofValue (by simp), get_constAsEnum]
  cases found : schema.get "const" with
  | none => exact .inl ⟨rfl, rfl⟩
  | some constant =>
    by_cases scalar : isScalarJsonValue constant = true
    · exact .inr ⟨constant, rfl, scalar, by simp [Option.filter, scalar]⟩
    · simp [found, Option.filter, scalar] at unread

/-- The value is one that the checked `enum` lists. -/
def Enumerated (schema : Members) (value : Json) : Prop :=
  ∀ values, readArray schema "enum" = some values → value ∈ values

theorem enumErrors_eq_nil (msg : List Json → String) :
    limitErrors (readArray schema "enum") (fun values => !values.any (deepEqual · (.json value)))
      msg = [] ↔ Enumerated schema value := by
  simp only [limitErrors_eq_nil, Enumerated, Bool.not_eq_eq_eq_not, Bool.not_false,
    any_eq_true, deepEqual, decide_eq_true_eq, exists_eq_right]

theorem enumerated_iff (supported : Supported (normalizedNode normalize schema))
    (kept : NodeKept engine accepts schema value) (nonnull : value ≠ .null) :
    Enumerated (normalizedNode normalize schema) value ↔ holds engine accepts schema .enum value = true ∧
        holds engine accepts schema .const value = true := by
  unfold Enumerated holds readArray
  rcases enum_read supported with ⟨unfixed, same⟩ | ⟨_, fixed, scalar, read⟩
  · rw [same, show schema.get (name .const) = none from unfixed]
    cases found : schema.get "enum" with
    | none => simp [show schema.get (name .enum) = none from found]
    | some arg =>
      have reads := supported.enum (by rw [same, found]; rfl)
      rw [readArray, same, found] at reads
      cases arg with
      | array values =>
        rw [show schema.get (name .enum) = _ from found]
        simp only [Option.some.injEq, forall_eq', all_some, Option.all_none, and_true,
          asserts, nonnull, decide_false, Bool.false_and, Bool.false_or]
        constructor
        · intro listed
          exact any_eq_true.mpr ⟨value, listed, sameValue_refl value⟩
        · exact kept.enum_literal nonnull values found
      | _ => simp at reads
  · rw [read, show schema.get (name .const) = _ from fixed]
    simp only [Option.some.injEq, forall_eq', mem_singleton, all_some, asserts, nonnull,
      decide_false, Bool.false_and, Bool.false_or, sameValue_scalar scalar]
    constructor
    · rintro rfl
      refine ⟨?_, rfl⟩
      cases found : schema.get (name .enum) with
      | none => rfl
      | some arg =>
        cases arg with
        | array values =>
          have listed := kept.const_listed value values fixed found
          exact any_eq_true.mpr ⟨value, listed, sameValue_refl value⟩
        | _ => rfl
    · rintro ⟨-, rfl⟩
      rfl

/-- The type that is checked: the schema's own, or that of an `enum` that lists the value. -/
theorem type_read (supported : Supported (normalizedNode normalize schema)) :
    (∃ type, schema.get "type" = some (.string type) ∧ isSupportedJsonSchemaType type = true ∧
      readString (normalizedNode normalize schema) "type" = some type) ∨ (schema.get "type" = none ∧
      ∀ type, readString (normalizedNode normalize schema) "type" = some type →
        type ∈ ["string", "boolean", "integer", "number"] ∧
          (Enumerated (normalizedNode normalize schema) value → value ≠ .null → type ∈ typeNames value)) := by
  have checked := supported.type
  unfold readString at checked ⊢
  rw [get_normalizedNode_type] at checked ⊢
  cases found : schema.get "type" with
  | some arg =>
    left
    simp only [found] at checked
    cases arg with
    | string type => exact ⟨type, rfl, by simpa using checked, rfl⟩
    | _ => simp at checked
  | none =>
    right
    refine ⟨rfl, fun type read => ?_⟩
    cases typed : scalarEnumType ((constAsEnum schema).get "enum") with
    | none => simp [typed] at read
    | some enumType =>
      obtain rfl : enumType = type := by simpa [typed] using read
      obtain ⟨known, all⟩ := scalarEnumType_typed typed
      refine ⟨known, fun enumerated nonnull => ?_⟩
      rw [← @get_normalizedNode_ofValue normalize schema "enum" (by simp)] at typed all
      cases listed : (normalizedNode normalize schema).get "enum" with
      | none => simp [listed, scalarEnumType] at typed
      | some arg =>
        cases arg with
        | array values => exact all values listed value (enumerated values (by rw [readArray, listed])) nonnull
        | _ => simp [listed, scalarEnumType] at typed

theorem typeErrors_eq_nil (msg : String → String) : limitErrors (readString schema "type")
      (fun type => type ≠ "" && !matchesJsonSchemaType (.json value) type) msg = [] ↔
    ∀ type, readString schema "type" = some type → type ≠ "" → matchesJsonSchemaType (.json value) type = true := by
  simp [limitErrors_eq_nil]

variable (supported : Supported (normalizedNode normalize schema))
include supported

theorem type_agrees (nonnull : value ≠ .null) (enumerated : Enumerated (normalizedNode normalize schema) value) :
    (∀ type, readString (normalizedNode normalize schema) "type" = some type → type ≠ "" →
      matchesJsonSchemaType (.json value) type = true) ↔ holds engine accepts schema .type value = true := by
  unfold holds
  rcases @type_read normalize schema value supported with ⟨type, found, known, read⟩ | ⟨absent, read⟩
  · rw [show schema.get (name .type) = _ from found]
    have named : type ≠ "" := by
      rintro rfl
      simp [isSupportedJsonSchemaType] at known
    simp [read, asserts, nonnull, named, matchesJsonSchemaType_iff known]
  rw [show schema.get (name .type) = none from absent]
  simp only [Option.all_none, iff_true]
  intro type typed _
  obtain ⟨scalar, all⟩ := read type typed
  apply (matchesJsonSchemaType_iff _).mpr (all enumerated nonnull)
  simp only [mem_cons, not_mem_nil, or_false] at scalar
  rcases scalar with rfl | rfl | rfl | rfl <;> decide

/-- `enum` and `type` of a normalized schema check what `type`, `enum` and `const` assert. -/
theorem values_agree (kept : NodeKept engine accepts schema value) (nonnull : value ≠ .null) :
    (∀ found ∈ valueErrors engine (.json value) (normalizedNode normalize schema) path, found = []) ↔
      ∀ kw ∈ ofValue, holds engine accepts schema kw value = true := by
  simp only [valueErrors, ofValue, forall_mem_cons, not_mem_nil, false_implies,
    implies_true, and_true, enumErrors_eq_nil, typeErrors_eq_nil]
  constructor
  · rintro ⟨enumerated, typed⟩
    exact ⟨(type_agrees supported nonnull enumerated).mp typed, (enumerated_iff supported kept nonnull).mp enumerated⟩
  rintro ⟨typed, listed⟩
  have enumerated := (enumerated_iff supported kept nonnull).mpr listed
  exact ⟨enumerated, (type_agrees supported nonnull enumerated).mpr typed⟩

theorem null_agrees (kept : NodeKept engine accepts schema .null)
    : nullErrors (normalizedNode normalize schema) path = [] ↔
      ∀ kw ∈ Keyword.ofValue, holds engine accepts schema kw .null = true := by
  have nullable : isFlag (normalizedNode normalize schema) "nullable" true = isFlag schema "nullable" true := by
    rw [isFlag, isFlag, get_normalizedNode (by decide)]
    cases schema.get "nullable" <;> rfl
  have typed : (normalizedNode normalize schema).get "type" = some (.string "null") ↔
      schema.get "type" = some (.string "null") := by
    rcases @type_read normalize schema .null supported with ⟨_, found, -, read⟩ | ⟨absent, read⟩
    · rw [get_normalizedNode_type, found]
      rfl
    constructor
    · intro isNull
      have := (read "null" (by rw [readString, isNull])).1
      simp at this
    · simp [absent]
  rw [nullErrors, refuse_eq_nil, nullable]
  cases lifted : isFlag schema "nullable" true with
  | true =>
    simp only [Bool.true_or, Bool.not_true, true_iff]
    exact fun kw ofValue => holds_nullable lifted ofValue
  | false =>
    rw [← kept.null_typed rfl lifted, ← typed]
    simp

end

section
variable {engine : Engine} {accepts : Json → Json → Bool} {normalize : Members → Members}
  {schema : Members} {within : Rat → Rat → Bool}

theorem limit_agrees {α : Type} (limit : Option α) (exceeds : α → Bool) (msg : α → String)
    (asserted : ∀ arg, asserts engine accepts schema kw arg value = limits within arg (some measured))
    (read : (schema.get kw.name = none ∧ limit = none) ∨ ∃ bound num, limit = some bound ∧ schema.get kw.name = some (.number num) ∧ exceeds bound = !within num measured)
    : limitErrors limit exceeds msg = [] ↔ holds engine accepts schema kw value = true := by
  unfold holds
  rcases read with ⟨absent, rfl⟩ | ⟨_, _, rfl, found, exceeded⟩
  · rw [absent]
    simp [limitErrors]
  · rw [found]
    simp [asserted, limits, exceeded]

variable {name : String}

theorem get_plain (plain : name ∈ ["minimum", "maximum", "exclusiveMinimum", "exclusiveMaximum", "multipleOf",
      "minLength", "maxLength", "minItems", "maxItems", "uniqueItems", "pattern", "required"]) :
    (normalizedNode normalize schema).get name = schema.get name := by
  simp only [mem_cons, not_mem_nil, or_false] at plain
  rw [get_normalizedNode (by rcases plain with rfl | rfl | rfl | rfl | rfl | rfl | rfl | rfl | rfl | rfl | rfl | rfl <;>
      decide)]
  rcases plain with rfl | rfl | rfl | rfl | rfl | rfl | rfl | rfl | rfl | rfl | rfl | rfl <;>
    exact Option.map_id_apply

variable (supported : Supported (normalizedNode normalize schema))
include supported

theorem number_read (numeric : name ∈ ["minimum", "maximum", "exclusiveMinimum", "exclusiveMaximum", "multipleOf"]) :
    (schema.get name = none ∧ readNumber (normalizedNode normalize schema) name = none) ∨
      ∃ num, readNumber (normalizedNode normalize schema) name = some num ∧
        schema.get name = some (.number num) := by
  have same : (normalizedNode normalize schema).get name = schema.get name := by
    apply get_plain
    simp only [mem_cons, not_mem_nil, or_false] at numeric
    rcases numeric with rfl | rfl | rfl | rfl | rfl <;> decide
  have reads := supported.numbers name numeric
  unfold readNumber at reads ⊢
  rw [same] at reads ⊢
  cases found : schema.get name with
  | none => exact .inl ⟨rfl, rfl⟩
  | some arg =>
    rw [found] at reads
    cases arg with
    | number num => exact .inr ⟨num, rfl, rfl⟩
    | _ => simp at reads

theorem count_read (counts : name ∈ ["minLength", "maxLength", "minItems", "maxItems"]) :
    (schema.get name = none ∧ readNonNegativeInteger (normalizedNode normalize schema) name = none) ∨
      ∃ count : Nat, readNonNegativeInteger (normalizedNode normalize schema) name = some count ∧
        schema.get name = some (.number count) := by
  have same : (normalizedNode normalize schema).get name = schema.get name := by
    apply get_plain
    simp only [mem_cons, not_mem_nil, or_false] at counts
    rcases counts with rfl | rfl | rfl | rfl <;> decide
  have reads := supported.counts name counts
  unfold readNonNegativeInteger readNumber at reads ⊢
  rw [same] at reads ⊢
  cases found : schema.get name with
  | none => exact .inl ⟨rfl, rfl⟩
  | some arg =>
    rw [found] at reads
    cases arg with
    | number num =>
      simp only at reads ⊢
      split at reads
      · next whole =>
        have isCount : ((num.num.toNat : Nat) : Rat) = num := by
          have nonnegative : 0 ≤ num.num := Rat.num_nonneg.mpr whole.2.1
          rw [← Int.cast_natCast, Int.toNat_of_nonneg nonnegative]
          exact (Rat.den_eq_one_iff num).mp whole.1
        exact .inr ⟨num.num.toNat, by rw [if_pos whole], by rw [isCount]⟩
      · simp at reads
    | _ => simp at reads

theorem number_agrees (kw : Keyword) (msg : Rat → String)
    (numeric : kw.name ∈ ["minimum", "maximum", "exclusiveMinimum", "exclusiveMaximum", "multipleOf"])
    (asserted : ∀ arg, asserts engine accepts schema kw arg (.number value) = limits within arg (some value))
    (exceeded : ∀ limit, readNumber (normalizedNode normalize schema) kw.name = some limit → exceeds limit = !within limit value)
    : limitErrors (readNumber (normalizedNode normalize schema) kw.name) exceeds msg = [] ↔
      holds engine accepts schema kw (.number value) = true := by
  apply limit_agrees _ _ _ asserted
  rcases number_read supported numeric with absent | ⟨num, read, found⟩
  · exact .inl absent
  · exact .inr ⟨num, num, read, found, exceeded num read⟩

theorem count_agrees {measured : Nat} (kw : Keyword) (msg : Nat → String)
    (counts : kw.name ∈ ["minLength", "maxLength", "minItems", "maxItems"])
    (asserted : ∀ arg, asserts engine accepts schema kw arg value = limits within arg (some measured))
    (exceeded : ∀ limit : Nat, exceeds limit = !within limit measured) :
    limitErrors (readNonNegativeInteger (normalizedNode normalize schema) kw.name) exceeds
      msg = [] ↔ holds engine accepts schema kw value = true := by
  apply limit_agrees _ _ _ asserted
  rcases count_read supported counts with absent | ⟨count, read, found⟩
  · exact .inl absent
  · exact .inr ⟨count, count, read, found, exceeded count⟩

theorem numbers_agree (value : Rat) :
    (∀ found ∈ numberErrors engine value (normalizedNode normalize schema) path, found = []) ↔
      ∀ kw ∈ ofNumbers, holds engine accepts schema kw (.number value) = true := by
  simp only [numberErrors, ofNumbers, forall_mem_cons, not_mem_nil, false_implies, implies_true, and_true]
  have positive : ∀ divisor,
      readNumber (normalizedNode normalize schema) "multipleOf" = some divisor → 0 < divisor := by
    intro divisor read
    have present : ((normalizedNode normalize schema).get "multipleOf").isSome := by
      cases found : (normalizedNode normalize schema).get "multipleOf" with
      | some _ => rfl
      | none => simp [readNumber, found] at read
    simpa [read] using supported.divisor present
  refine and_congr ?_ (and_congr ?_ (and_congr ?_ (and_congr ?_ ?_)))
  · exact number_agrees supported .minimum _ (by decide) (fun _ => rfl) (fun limit _ => by rw [Bool.eq_iff_iff]; simp)
  · exact number_agrees supported .maximum _ (by decide) (fun _ => rfl) (fun limit _ => by rw [Bool.eq_iff_iff]; simp)
  · exact number_agrees supported .exclusiveMinimum _ (by decide) (fun _ => rfl)
      (fun limit _ => by rw [Bool.eq_iff_iff]; simp)
  · exact number_agrees supported .exclusiveMaximum _ (by decide) (fun _ => rfl)
      (fun limit _ => by rw [Bool.eq_iff_iff]; simp)
  · exact number_agrees supported .multipleOf _ (by decide) (fun _ => rfl)
      (fun divisor read => by simp [positive divisor read])

theorem pattern_agrees (msg : String → String) (text : String) :
    limitErrors (readString (normalizedNode normalize schema) "pattern")
      (fun pattern => pattern ≠ "" && !engine.test pattern text) msg = [] ↔
        holds engine accepts schema .pattern (.string text) = true := by
  have same : (normalizedNode normalize schema).get "pattern" = schema.get "pattern" :=
    get_plain (by decide)
  have reads := supported.pattern
  unfold holds readString at *
  rw [same] at reads ⊢
  cases found : schema.get "pattern" with
  | none => simp [show schema.get (name .pattern) = none from found]
  | some arg =>
    rw [found] at reads
    rw [show schema.get (name .pattern) = _ from found]
    cases arg with
    | string pattern =>
      simp only [limitErrors_eq_nil, Option.some.injEq, forall_eq', all_some, asserts]
      by_cases empty : pattern = ""
      · simp [empty, engine.test_empty]
      · simp [empty]
    | _ => simp at reads

theorem strings_agree (text : String) :
    (∀ found ∈ stringErrors engine text (normalizedNode normalize schema) path, found = []) ↔
      ∀ kw ∈ ofStrings, holds engine accepts schema kw (.string text) = true := by
  simp only [stringErrors, ofStrings, forall_mem_cons, not_mem_nil, false_implies, implies_true, and_true]
  refine and_congr (pattern_agrees supported _ text) (and_congr ?_ ?_)
  · exact count_agrees supported .minLength _ (by decide) (fun _ => rfl) (fun limit => by rw [Bool.eq_iff_iff]; simp)
  · exact count_agrees supported .maxLength _ (by decide) (fun _ => rfl) (fun limit => by rw [Bool.eq_iff_iff]; simp)

end

section
variable {engine : Engine} {accepts : Json → Json → Bool} {normalize : Members → Members}
  {schema members : Members} {errors : Subject → Members → String → List String} {path : String}
  (supported : Supported (normalizedNode normalize schema))
include supported

/-- The names `properties` lists, in the schema and as they are read. -/
theorem property_names : ((readSchemaMap (normalizedNode normalize schema) "properties").getD []).map Prod.fst =
      ((readSchema schema "properties").getD []).map Prod.fst := by
  cases found : schema.get "properties" with
  | none =>
    rw [readSchemaMap, readSchema, get_normalizedNode (by decide), readSchema, found]
    rfl
  | some =>
    obtain ⟨_, rfl, read⟩ := properties_read supported found
    rw [read, readSchema, found]
    simp [asObject, comp_def]

theorem extraMembers_eq :
    extraMembers (normalizedNode normalize schema) members = additionalMembers schema members := by
  rw [extraMembers, additionalMembers, property_names supported]

theorem required_agrees (own : ∀ key ∈ (readStringArray schema "required").getD [], key ∈ inheritedNames →
      (members.get key).isSome) :
    firstErrors (((readStringArray (normalizedNode normalize schema) "required").getD []).map
      fun key => refuse (!hasProperty members key) s!"{path}.{key} is required.") = [] ↔
    holds engine accepts schema .required (.object members) = true := by
  have same : (normalizedNode normalize schema).get "required" = schema.get "required" :=
    get_plain (by decide)
  have reads := supported.required
  unfold holds readStringArray readArray at *
  rw [same] at reads ⊢
  cases found : schema.get "required" with
  | none => simp [show schema.get (name .required) = none from found]
  | some arg =>
    rw [found] at reads own
    rw [show schema.get (name .required) = _ from found]
    cases arg with
    | array items =>
      simp only at reads own ⊢
      split at reads
      · next strings =>
        rw [if_pos strings] at own ⊢
        simp only [getD_some, firstErrors_eq_nil, forall_mem_map, refuse_eq_nil,
          Bool.not_eq_eq_eq_not, Bool.not_false, all_some, asserts,
          all_eq_true] at own ⊢
        apply forall₂_congr
        intro key listed
        rw [hasProperty, Bool.or_eq_true, decide_eq_true_eq]
        exact ⟨fun has => has.elim id (own key listed), .inl⟩
      · simp at reads
    | _ => simp at reads

theorem properties_agree (own : ∀ key ∈ ((readSchema schema "properties").getD []).map Prod.fst, key ∈ inheritedNames →
      (members.get key).isSome)
    (nested : NestedAgree accepts normalize schema (.object members) errors .properties) :
    firstErrors (((readSchemaMap (normalizedNode normalize schema) "properties").getD []).map
      fun (key, propertySchema) =>
        if hasProperty members key then
          errors ((Subject.json (.object members)).read members key) propertySchema s!"{path}.{key}"
        else []) = [] ↔
    holds engine accepts schema .properties (.object members) = true := by
  unfold holds
  cases found : schema.get "properties" with
  | none =>
    rw [readSchemaMap, readSchema, get_normalizedNode (by decide), found,
      show schema.get (name .properties) = none from found]
    simp
  | some =>
    obtain ⟨entries, rfl, read⟩ := properties_read supported found
    rw [readSchema, found] at own
    simp only [bind_some, asObject, getD_some, map_map, forall_mem_map, comp_apply] at own
    rw [read, show schema.get (name .properties) = _ from found]
    simp only [getD_some, firstErrors_eq_nil, forall_mem_map, all_some, asserts, all_eq_true]
    constructor
    · intro all applied member
      have agree := nested _ found applied member
      simp only [applications, filterMap_map, mem_filterMap, comp_apply, Option.map_eq_some_iff] at member
      obtain ⟨entry, listed, value, held, rfl⟩ := member
      have checked := all entry listed
      have has : hasProperty members entry.1 = true := by simp [hasProperty, held]
      rw [if_pos has, Subject.read, held] at checked
      exact (agree entry.2 _ rfl).mp checked
    intro all entry listed
    by_cases has : hasProperty members entry.1 = true
    · rw [if_pos has]
      have held : (members.get entry.1).isSome := by
        rw [hasProperty, Bool.or_eq_true, decide_eq_true_eq] at has
        exact has.elim id (own entry listed)
      obtain ⟨value, held⟩ := Option.isSome_iff_exists.mp held
      have member : (object entry.2, value) ∈ applications schema .properties
          (.object (entries.map fun entry => (entry.1, .object entry.2))) (.object members) := by
        simp only [applications, filterMap_map, mem_filterMap, comp_apply, Option.map_eq_some_iff]
        exact ⟨entry, listed, value, held, rfl⟩
      rw [Subject.read, held]
      exact (nested _ found _ member entry.2 _ rfl).mpr (all _ member)
    · rw [if_neg has]

/-- The two checks of `additionalProperties`, of which the value of the keyword selects one. -/
theorem additionalProperties_agree (flags : ∀ flag part, accepts (.boolean flag) part = flag)
    (named : ∀ extra, isFlag schema "additionalProperties" false →
      (additionalMembers schema members).head? = some extra → extra.1 ≠ "")
    (nested : NestedAgree accepts normalize schema (.object members) errors .additionalProperties) :
    ((if isFlag (normalizedNode normalize schema) "additionalProperties" false then
        limitErrors (extraMembers (normalizedNode normalize schema) members).head?
          (fun extra => extra.1 ≠ "") fun extra => s!"{path}.{extra.1} is not allowed by additionalProperties: false."
      else []) = [] ∧
      (match readSchema (normalizedNode normalize schema) "additionalProperties" with
        | some additionalPropertiesSchema =>
          firstErrors ((extraMembers (normalizedNode normalize schema) members).map
            fun (key, value) => errors (.json value) additionalPropertiesSchema s!"{path}.{key}")
        | none => []) = []) ↔
    holds engine accepts schema .additionalProperties (.object members) = true := by
  rw [extraMembers_eq supported]
  unfold holds
  have read : (normalizedNode normalize schema).get "additionalProperties" =
      (schema.get "additionalProperties").map (whenObject normalize) := get_normalizedNode (by decide)
  cases found : schema.get "additionalProperties" with
  | none =>
    rw [isFlag, readSchema, read, show schema.get (name .additionalProperties) = _ from found, found]
    simp
  | some arg =>
    rw [found] at read
    rw [show schema.get (name .additionalProperties) = _ from found]
    have reads := supported.additionalProperties (by rw [read]; rfl)
    cases arg with
    | boolean flag =>
      have asserted : asserts engine accepts schema .additionalProperties (.boolean flag)
          (.object members) = (flag || additionalMembers schema members = []) := by
        cases flag with
        | true => simp [asserts, applications, flags]
        | false => cases additional : additionalMembers schema members <;>
            simp [asserts, applications, flags, additional]
      cases flag with
      | true => simp [isFlag, readSchema, read, whenObject, asObject, asserted]
      | false =>
        rw [isFlag, readSchema, read, all_some, asserted]
        have first := fun extra => named extra (by simp [isFlag, found])
        cases rest : additionalMembers schema members with
        | nil => simp [whenObject, asObject, limitErrors]
        | cons extra others =>
          have := first extra (by rw [rest]; rfl)
          simp [whenObject, limitErrors, refuse, this]
    | object additional =>
      rw [isFlag, readSchema, read]
      have agree := fun applied member path => nested _ found applied member additional path
      simp only [applications, forall_mem_map] at agree
      simp only [whenObject, Option.map_some, Option.some.injEq, reduceCtorEq, decide_false,
        Bool.false_eq_true, if_false, true_and, bind_some, asObject, firstErrors_eq_nil,
        forall_mem_map, all_some, asserts, applications, all_eq_true]
      exact forall₂_congr fun extra member => agree extra member _ trivial
    | _ => simp [readsBoolean, readSchema, read, whenObject, asObject, isBoolean] at reads

theorem objects_agree (kept : NodeKept engine accepts schema (.object members))
    (flags : ∀ flag part, accepts (.boolean flag) part = flag)
    (nested : ∀ kw, NestedAgree accepts normalize schema (.object members) errors kw) :
    (∀ found ∈ objectErrors errors (.json (.object members)) members
        (normalizedNode normalize schema) path, found = []) ↔ ∀ kw ∈ ofObjects,
        holds engine accepts schema kw (.object members) = true := by
  simp only [objectErrors, ofObjects, forall_mem_cons, not_mem_nil, false_implies, implies_true, and_true]
  refine and_congr ?_ (and_congr ?_ ?_)
  · exact required_agrees supported fun key listed inherited => kept.own members key rfl inherited (.inl listed)
  · exact properties_agree supported (fun key listed inherited => kept.own members key rfl inherited (.inr listed))
      (nested .properties)
  · exact additionalProperties_agree supported flags
      (fun extra excluded => kept.named members extra rfl excluded) (nested .additionalProperties)

end

section
variable {engine : Engine} {accepts : Json → Json → Bool} {normalize : Members → Members}
  {schema : Members} {items : List Json} {errors : Subject → Members → String → List String}
  {path : String} (supported : Supported (normalizedNode normalize schema))
include supported

theorem uniqueItems_agrees (msg : String)
    (differ : isFlag schema "uniqueItems" true → items.Nodup → (items.map Json.sorted).Nodup) :
    refuse (isFlag (normalizedNode normalize schema) "uniqueItems" true && !decide items.Nodup)
      msg = [] ↔ holds engine accepts schema .uniqueItems (.array items) = true := by
  have same : (normalizedNode normalize schema).get "uniqueItems" = schema.get "uniqueItems" :=
    get_plain (by decide)
  have reads := supported.uniqueItems
  unfold holds isFlag readsBoolean at *
  rw [same] at reads ⊢
  cases found : schema.get "uniqueItems" with
  | none => simp [show schema.get (name .uniqueItems) = none from found]
  | some arg =>
    rw [found] at reads differ
    rw [show schema.get (name .uniqueItems) = _ from found]
    cases arg with
    | boolean flag =>
      cases flag with
      | false => simp [asserts]
      | true =>
        simp only [refuse_eq_nil, decide_true, Bool.true_and, Bool.not_eq_eq_eq_not, Bool.not_false,
          decide_eq_true_eq, all_some, asserts]
        exact ⟨differ rfl, List.Nodup.of_map _⟩
    | _ => simp [isBoolean] at reads

theorem items_agree (nested : NestedAgree accepts normalize schema (.array items) errors .items) :
    (match readSchema (normalizedNode normalize schema) "items" with
      | some itemSchema =>
        firstErrors (items.zipIdx.map fun (item, index) => errors (.json item) itemSchema s!"{path}[{index}]")
      | none => []) = [] ↔
    holds engine accepts schema .items (.array items) = true := by
  unfold holds
  cases found : schema.get "items" with
  | none =>
    rw [readSchema, get_normalizedNode (by decide), found,
      show schema.get (name .items) = none from found]
    simp
  | some =>
    have reads := supported.items (by rw [get_normalizedNode (by decide), found]; rfl)
    obtain ⟨itemSchema, rfl, read⟩ := schema_read (by decide) found reads
    rw [read, show schema.get (name .items) = _ from found]
    have agree := fun applied member path => nested _ found applied member itemSchema path
    simp only [applications, forall_mem_map] at agree
    simp only [firstErrors_eq_nil, forall_mem_map, all_some, asserts, applications, all_eq_true]
    constructor
    · intro all item member
      obtain ⟨index, bound, at_index⟩ := getElem_of_mem member
      have listed : (item, index) ∈ items.zipIdx := by
        rw [mem_zipIdx_iff_getElem?, ← at_index]
        exact getElem?_eq_getElem bound
      exact (agree item member _ trivial).mp (all (item, index) listed)
    · intro all entry listed
      have member := fst_mem_of_mem_zipIdx listed
      exact (agree entry.1 member _ trivial).mpr (all entry.1 member)

theorem arrays_agree (kept : NodeKept engine accepts schema (.array items))
    (nested : ∀ kw, NestedAgree accepts normalize schema (.array items) errors kw) :
    (∀ found ∈ arrayErrors (fun item => errors (.json item)) items (normalizedNode normalize schema) path, found = []) ↔
      ∀ kw ∈ ofArrays, holds engine accepts schema kw (.array items) = true := by
  simp only [arrayErrors, ofArrays, forall_mem_cons, not_mem_nil, false_implies, implies_true, and_true]
  refine and_congr ?_ (and_congr ?_ (and_congr ?_ ?_))
  · exact count_agrees supported .minItems _ (by decide) (fun _ => rfl) (fun limit => by rw [Bool.eq_iff_iff]; simp)
  · exact count_agrees supported .maxItems _ (by decide) (fun _ => rfl) (fun limit => by rw [Bool.eq_iff_iff]; simp)
  · exact uniqueItems_agrees supported _ (kept.items_differ items rfl)
  · exact items_agree supported (nested .items)

end

section
variable {engine : Engine} {accepts : Json → Json → Bool} {normalize : Members → Members}
  {schema : Members} {value : Json} {errors : Subject → Members → String → List String}
  {path : String} {name : String}

section
variable (supported : Supported (normalizedNode normalize schema))
include supported

theorem composite_read (composite : name ∈ ["object", "array"])
    : readString (normalizedNode normalize schema) "type" = some name ↔
      schema.get "type" = some (.string name) := by
  rcases @type_read normalize schema .null supported with ⟨_, found, -, read⟩ | ⟨absent, read⟩
  · rw [read, found]
    simp
  rw [absent]
  refine ⟨fun typed => ?_, fun found => by simp at found⟩
  have scalar := (read name typed).1
  simp only [mem_cons, not_mem_nil, or_false] at composite scalar
  rcases composite with rfl | rfl <;> simp at scalar

/-- A value that has the type it must have, and another than the composite one, is not refused for
want of the composite one. -/
theorem composite_unrefused (composite : name ∈ ["object", "array"]) (nonnull : value ≠ .null)
    (typed : holds engine accepts schema .type value = true) (other : name ∉ typeNames value) (msg : String) :
    refuse (readString (normalizedNode normalize schema) "type" = some name) msg = [] := by
  rw [refuse_eq_nil, decide_eq_false_iff_not, composite_read supported composite]
  intro found
  rw [holds, show schema.get (Keyword.name .type) = _ from found] at typed
  simp [asserts, nonnull, other] at typed

theorem untyped (nonnull : value ≠ .null) (typed : holds engine accepts schema .type value = true)
    (only : ∀ type ∈ typeNames value, type = name) (other : schema.get "type" ≠ some (.string name))
    : schema.get "type" = none := by
  rcases @type_read normalize schema .null supported with ⟨type, found, -, -⟩ | ⟨absent, -⟩
  · rw [holds, show schema.get (Keyword.name .type) = _ from found] at typed
    simp only [all_some, asserts, nonnull, decide_false, Bool.false_and, Bool.false_or, decide_eq_true_eq] at typed
    exact absurd (only type typed ▸ found) other
  · exact absent

theorem typed_agree (kept : NodeKept engine accepts schema value)
    (flags : ∀ flag part, accepts (.boolean flag) part = flag)
    (nested : ∀ kw, NestedAgree accepts normalize schema value errors kw) (nonnull : value ≠ .null)
    (typed : holds engine accepts schema .type value = true) :
    (∀ found ∈ typedErrors engine errors (.json value) (normalizedNode normalize schema) path, found = []) ↔
      ∀ kw ∈ ofStrings ++ ofNumbers ++ ofObjects ++ ofArrays,
        holds engine accepts schema kw value = true := by
  have noObject := fun msg other =>
    @composite_unrefused engine accepts normalize schema value "object" supported (by simp) nonnull typed other msg
  have noArray := fun msg other =>
    @composite_unrefused engine accepts normalize schema value "array" supported (by simp) nonnull typed other msg
  have idle := fun kw listed => @holds_idle engine accepts schema value kw listed
  have split : ∀ {p : Keyword → Prop}, (∀ kw ∈ ofStrings ++ ofNumbers ++ ofObjects ++ ofArrays,
        p kw) ↔ (∀ kw ∈ ofStrings, p kw) ∧ (∀ kw ∈ ofNumbers, p kw) ∧ (∀ kw ∈ ofObjects, p kw) ∧
          ∀ kw ∈ ofArrays, p kw := by
    intro p
    simp only [forall_mem_append, and_assoc]
  rw [split]
  unfold typedErrors
  cases value with
  | null => exact absurd rfl nonnull
  | boolean flag =>
    simp only [Keyword.idle, ← split, Subject.members, Subject.items, asObject] at idle ⊢
    refine ⟨fun _ => idle, fun _ => ?_⟩
    simp [noObject _ (by simp [typeNames]), noArray _ (by simp [typeNames])]
  | number num =>
    simp only [Keyword.idle, forall_mem_append] at idle
    have numbers := @numbers_agree engine accepts normalize schema supported path num
    simp only [Subject.members, Subject.items, asObject, forall_mem_append, numbers, forall_mem_singleton]
    have types : ∀ name ∈ ["object", "array"], name ∉ typeNames (.number num) := by
      intro name composite
      rw [typeNames]
      split <;> revert name <;> decide
    refine ⟨fun checked => ⟨idle.1.1, checked.1.1, idle.1.2, idle.2⟩, fun all => ?_⟩
    exact ⟨⟨all.2.1, noObject _ (types _ (by simp))⟩, noArray _ (types _ (by simp))⟩
  | string text =>
    simp only [Keyword.idle, forall_mem_append] at idle
    have strings := @strings_agree engine accepts normalize schema supported path text
    simp only [Subject.members, Subject.items, asObject, forall_mem_append, strings, forall_mem_singleton]
    refine ⟨fun checked => ⟨checked.1.1, idle.1.1, idle.1.2, idle.2⟩, fun all => ?_⟩
    exact ⟨⟨all.1, noObject _ (by simp [typeNames])⟩, noArray _ (by simp [typeNames])⟩
  | array items =>
    simp only [Keyword.idle, forall_mem_append] at idle
    have arrays : (∀ found ∈ if readString (normalizedNode normalize schema) "type" = some "array" then
        arrayErrors (fun item => errors (.json item)) items (normalizedNode normalize schema) path
          else [], found = []) ↔
        ∀ kw ∈ ofArrays, holds engine accepts schema kw (.array items) = true := by
      by_cases isArray : schema.get "type" = some (.string "array")
      · rw [if_pos ((composite_read supported (by simp)).mpr isArray)]
        exact arrays_agree supported kept nested
      rw [if_neg (mt (composite_read supported (by simp)).mp isArray)]
      have none := untyped supported nonnull typed (by simp [typeNames]) isArray
      exact ⟨fun _ => kept.array_typed items rfl none, fun _ found member => by simp at member⟩
    simp only [Subject.members, Subject.items, asObject, forall_mem_append, not_mem_nil,
      false_implies, implies_true, true_and, forall_mem_singleton, arrays]
    refine ⟨fun checked => ⟨idle.1.1, idle.1.2, idle.2, checked.2⟩, fun all => ?_⟩
    exact ⟨noObject _ (by simp [typeNames]), all.2.2.2⟩
  | object members =>
    simp only [Keyword.idle, forall_mem_append] at idle
    have present : ((normalizedNode normalize schema).get "properties").isSome =
        (schema.get "properties").isSome := by
      rw [get_normalizedNode (by decide), Option.isSome_map]
    have objects : (∀ found ∈ if readString (normalizedNode normalize schema) "type" = some "object"
          || ((normalizedNode normalize schema).get "properties").isSome then
        objectErrors errors (.json (.object members)) members (normalizedNode normalize schema) path
          else [], found = []) ↔
        ∀ kw ∈ ofObjects, holds engine accepts schema kw (.object members) = true := by
      split
      · exact objects_agree supported kept flags nested
      next neither =>
      simp only [present, Bool.or_eq_true, decide_eq_true_eq, not_or,
        composite_read supported (show "object" ∈ ["object", "array"] by simp),
        Option.not_isSome_iff_eq_none] at neither
      have none := untyped supported nonnull typed (by simp [typeNames]) neither.1
      obtain ⟨required, additional⟩ := kept.object_typed members rfl none neither.2
      have props : holds engine accepts schema .properties (.object members) = true := by
        rw [holds, show schema.get (Keyword.name .properties) = _ from neither.2]
        rfl
      simp [ofObjects, required, additional, props]
    simp only [Subject.members, Subject.items, asObject, forall_mem_append, not_mem_nil,
      false_implies, implies_true, true_and, forall_mem_singleton, objects]
    refine ⟨fun checked => ⟨idle.1.1, idle.1.2, checked.1, idle.2⟩, fun all => ?_⟩
    exact ⟨all.2.2.1, noArray _ (by simp [typeNames])⟩

end

theorem Keyword.cover (kw : Keyword) : kw ∈ combinators ∨ kw ∈ ofValue ∨
      kw ∈ ofStrings ++ ofNumbers ++ ofObjects ++ ofArrays := by
  cases kw <;> decide

variable (bound : Nat)

section
variable (supported : Supported (normalizedNode normalize schema))
include supported

/-- One schema that is no union with null accepts what its keywords assert, if the nested schemas do
where they are applied. -/
theorem node_agrees (kept : NodeKept engine accepts schema value)
    (flags : ∀ flag part, accepts (.boolean flag) part = flag)
    (nested : ∀ kw, NestedAgree accepts normalize schema value (validateJsonValue engine bound) kw) :
    validateJsonValue engine (bound + 1) (.json value) (normalizedNode normalize schema) path = [] ↔
      ∀ kw, holds engine accepts schema kw value = true := by
  have combined := @combinators_agree engine accepts normalize schema value
    (validateJsonValue engine bound) supported path fun kw _ => nested kw
  simp only [validateJsonValue, firstErrors_eq_nil, forall_mem_append, Subject.json.injEq]
  rw [combined]
  by_cases isNull : value = .null
  · subst isNull
    rw [if_pos rfl, forall_mem_singleton, null_agrees supported kept]
    constructor
    · rintro ⟨combinators, ofValue⟩ kw
      rcases kw.cover with combines | isValue | other
      · exact combinators kw combines
      · exact ofValue kw isValue
      · exact holds_idle other
    · exact fun all => ⟨fun kw _ => all kw, fun kw _ => all kw⟩
  rw [if_neg isNull, forall_mem_append, values_agree supported kept isNull]
  constructor
  · rintro ⟨combinators, ofValue, checked⟩ kw
    have typed := (typed_agree supported kept flags nested isNull
      (ofValue .type (by simp [Keyword.ofValue]))).mp checked
    rcases kw.cover with combines | isValue | other
    · exact combinators kw combines
    · exact ofValue kw isValue
    · exact typed kw other
  · intro all
    exact ⟨fun kw _ => all kw, fun kw _ => all kw,
      (typed_agree supported kept flags nested isNull (all .type)).mpr fun kw _ => all kw⟩

variable {keyword : Keyword}

theorem branch_listed {nested : Members} (combines : keyword ∈ [oneOf, .anyOf, .allOf])
    (found : schema.get keyword.name = some argument) (member : applied ∈ applications schema keyword argument value)
    (isNested : applied.1 = .object nested) :
    ∃ nestedPath, (normalize nested, nestedPath) ∈ nestedSchemas (normalizedNode normalize schema) path := by
  simp only [mem_cons, not_mem_nil, or_false] at combines
  have named : keyword.name ∈ ["oneOf", "anyOf", "allOf"] := by
    rcases combines with rfl | rfl | rfl <;> decide
  obtain ⟨branches, rfl, read⟩ := branches_read supported named found
  have isBranch : nested ∈ branches := by
    rcases combines with rfl | rfl | rfl <;>
    · simp only [applications, map_map, mem_map, comp_apply] at member
      obtain ⟨_, listed, rfl⟩ := member
      exact object.inj isNested ▸ listed
  have isRead : normalize nested ∈ branches.map normalize := mem_map.mpr ⟨nested, isBranch, rfl⟩
  obtain ⟨index, fits, at_index⟩ := getElem_of_mem isRead
  refine ⟨s!"{path}.{keyword.name}[{index}]", ?_⟩
  apply mem_append_left
  apply mem_append_right
  refine mem_flatMap.mpr ⟨keyword.name, named, ?_⟩
  rw [read]
  refine mem_map.mpr ⟨(normalize nested, index), ?_, rfl⟩
  rw [getD_some, mem_zipIdx_iff_getElem?, ← at_index]
  exact getElem?_eq_getElem fits

theorem nested_listed {nested : Members} (found : schema.get kw.name = some arg)
    (member : applied ∈ applications schema kw arg value) (isNested : applied.1 = .object nested)
    : ∃ nestedPath, (normalize nested, nestedPath) ∈
      nestedSchemas (normalizedNode normalize schema) path := by
  cases kw with
  | anyOf => exact branch_listed supported (by simp) found member isNested
  | oneOf => exact branch_listed supported (by simp) found member isNested
  | allOf => exact branch_listed supported (by simp) found member isNested
  | negation =>
    simp only [applications, mem_singleton] at member
    subst member
    obtain rfl : arg = .object nested := isNested
    refine ⟨s!"{path}.not", ?_⟩
    have read : readSchema (normalizedNode normalize schema) "not" = some (normalize nested) := by
      rw [readSchema, get_normalizedNode (by decide), show schema.get "not" = _ from found]
      rfl
    simp [nestedSchemas, read]
  | properties =>
    obtain ⟨_, rfl, read⟩ := properties_read supported found
    cases value with
    | object =>
      simp only [applications, filterMap_map, mem_filterMap, comp_apply, Option.map_eq_some_iff] at member
      obtain ⟨entry, listed, _, -, rfl⟩ := member
      obtain rfl : entry.2 = nested := object.inj isNested
      refine ⟨s!"{path}.{entry.1}", ?_⟩
      iterate 4 apply mem_append_left
      rw [read]
      exact mem_map.mpr ⟨(entry.1, normalize entry.2), mem_map.mpr ⟨entry, listed, rfl⟩, rfl⟩
    | _ => simp [applications] at member
  | additionalProperties =>
    cases value with
    | object =>
      simp only [applications, mem_map] at member
      obtain ⟨_, -, rfl⟩ := member
      obtain rfl : arg = .object nested := isNested
      refine ⟨s!"{path}.*", ?_⟩
      have read : readSchema (normalizedNode normalize schema) "additionalProperties" = some (normalize nested) := by
        rw [readSchema, get_normalizedNode (by decide),
          show schema.get "additionalProperties" = _ from found]
        rfl
      simp [nestedSchemas, read]
    | _ => simp [applications] at member
  | items =>
    cases value with
    | array items =>
      simp only [applications, mem_map] at member
      obtain ⟨_, -, rfl⟩ := member
      obtain rfl : arg = .object nested := isNested
      refine ⟨s!"{path}[]", ?_⟩
      have read : readSchema (normalizedNode normalize schema) "items" = some (normalize nested) := by
        rw [readSchema, get_normalizedNode (by decide), show schema.get "items" = _ from found]
        rfl
      simp [nestedSchemas, read]
    | _ => simp [applications] at member
  | _ => simp [applications] at member

end

theorem diagnostics_nested {bound : Nat}
    (empty : unsupportedJsonSchemaDiagnostics engine (bound + 1) schema path = []) :
    ownDiagnostics engine schema path = [] ∧ ∀ nested ∈ nestedSchemas schema path,
        unsupportedJsonSchemaDiagnostics engine bound nested.1 nested.2 = [] := by
  rw [unsupportedJsonSchemaDiagnostics, append_eq_nil_iff, flatMap_eq_nil_iff] at empty
  exact empty

theorem holds_erase_dialect : holds engine accepts (schema.erase "$schema") kw value =
      holds engine accepts schema kw value := by
  have kept : ∀ {name : String}, name ≠ "$schema" → (schema.erase "$schema").get name = schema.get name := by
    intro name differ
    rw [Record.get_erase, if_neg differ]
  have additional : additionalMembers (schema.erase "$schema") = additionalMembers schema := by
    funext members
    rw [additionalMembers, additionalMembers, readSchema, readSchema, kept (by decide)]
  unfold holds
  rw [kept (by cases kw <;> decide)]
  congr 1
  funext arg
  cases kw <;>
    simp [asserts, applications, isFlag, additional, kept (show "nullable" ≠ "$schema" by decide)]

theorem runtime_agrees : ∀ (schema : Members) (value : Json) (budget : Nat)
    (path diagnosed : String), (object schema).size ≤ bound →
    unsupportedJsonSchemaDiagnostics engine budget (toDraft7Subset bound schema) diagnosed = [] →
    regularUpTo engine bound (.object schema) value →
    (validateJsonValue engine budget (.json value) (toDraft7Subset bound schema) path = [] ↔
      validUpTo engine bound (.object schema) value = true) := by
  induction bound with
  | zero =>
    intro schema value budget path diagnosed fits
    have := (object schema).size_pos
    omega
  | succ bound ih =>
    intro schema value budget path diagnosed fits supported regular
    have erased : validUpTo engine (bound + 1) (.object schema) value =
        validUpTo engine (bound + 1) (.object (schema.erase "$schema")) value := by
      rw [Bool.eq_iff_iff, validUpTo_object, validUpTo_object]
      exact forall_congr' fun keyword => by rw [holds_erase_dialect]
    have fits : (object (schema.erase "$schema")).size ≤ bound + 1 := by
      have := sizeMembers_erase schema "$schema"
      simp only [Json.size] at fits ⊢
      omega
    rw [erased]
    simp only [toDraft7Subset] at supported ⊢
    simp only [regularUpTo] at regular
    cases union : nullableAnyOfSchema ((schema.erase "$schema").get "anyOf") with
    | some base =>
      rw [union] at supported regular
      have smaller := size_mergedUnion union
      rw [union_valid fits union regular.1]
      exact ih _ value budget path diagnosed (by omega) supported regular.2
    | none =>
      rw [union] at supported regular
      cases budget with
      | zero => simp [unsupportedJsonSchemaDiagnostics] at supported
      | succ budget =>
        obtain ⟨own, nestedSupported⟩ := diagnostics_nested supported
        have wellFormed := supported_of_diagnostics own
        rw [validUpTo_object]
        apply node_agrees budget wellFormed regular.1 (fun flag part => by cases bound <;> rfl)
        intro keyword argument found applied member nested nestedPath isNested
        obtain ⟨listedPath, listed⟩ := nested_listed wellFormed found member isNested
        have smaller := applications_smaller found member
        have regularNested := regular.2 keyword argument found applied member
        rw [isNested] at smaller regularNested ⊢
        exact ih nested applied.2 budget nestedPath listedPath (by omega) (nestedSupported _ listed) regularNested

def literalEngine : Engine where
  stringify
    | .string text => s!"\"{text}\""
    | .number value => toString value
    | _ => ""
  validPattern pattern := pattern.toList.all Char.isAlphanum
  test pattern text := decide (pattern.toList <:+: text.toList)
  test_empty text := by simp
  isJsonSchemaMultiple value divisor := (value / divisor).den = 1

def noteSchema : Members :=
  [("type", .string "object"), ("properties", .object [("note", .object [("anyOf",
    .array [.object [("type", .string "null")], .object [("type", .string "string")]])])])]

def note : Json := .object [("note", .string "x")]

theorem noteUnion_regular : regularUpTo literalEngine (bound + 2) (.object [("anyOf",
      .array [.object [("type", .string "null")], .object [("type", .string "string")]])]) (.string "x") := by
  refine ⟨⟨?_, ?_, ?_, ?_⟩, ⟨?_, ?_, ?_, ?_, ?_, ?_, ?_, ?_⟩, ?_⟩
  · intro kw arg outer apart _ around
    cases kw <;> simp [Record.erase, Record.get, name] at around apart
  · simp [Record.erase, Record.get]
  · simp
  · simp
  · simp [mergedUnion, Record.erase, Record.assign, Record.get, Record.set, Record.firsts]
  · simp
  · simp [mergedUnion, Record.erase, Record.assign, Record.get, Record.set, Record.firsts]
  · simp
  · simp
  · simp
  · simp
  · simp
  · intro kw arg found applied member
    cases kw <;> simp [mergedUnion, Record.erase, Record.assign, Record.get, Record.set, Record.firsts, name] at found
    simp [applications] at member

theorem noteSchema_regular : Regular literalEngine noteSchema note := by
  refine ⟨⟨?_, ?_, ?_, ?_, ?_, ?_, ?_, ?_⟩, ?_⟩
  · simp [noteSchema, Record.erase, Record.get]
  · simp [note]
  · simp [noteSchema, Record.erase, Record.get]
  · simp [noteSchema, Record.erase, Record.get]
  · simp [note]
  · simp [note]
  · intro members key isNote inherited mentioned
    cases isNote
    simp [noteSchema, Record.erase, Record.get, readStringArray, readArray, readSchema, asObject]
      at mentioned
    simp [mentioned, inheritedNames] at inherited
  · simp [noteSchema, Record.erase, Record.get, isFlag]
  · intro kw arg found applied member
    cases kw <;> simp [noteSchema, Record.erase, Record.get, name] at found
    · simp [applications] at member
    subst found
    simp [applications, note, Record.get] at member
    subst member
    exact noteUnion_regular 12

end
end Applik8s.Schema
