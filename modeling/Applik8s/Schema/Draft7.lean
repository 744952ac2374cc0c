import Applik8s.Schema.Runtime

/-! What a JSON schema means: the draft-7 keywords of the supported vocabulary, each read on
its own, with OpenAPI's `nullable`, which adds null to what `type`, `enum` and `const` allow. -/
namespace Applik8s.Schema

inductive Keyword where
  | type | enum | const
  | pattern | minLength | maxLength
  | minimum | maximum | exclusiveMinimum | exclusiveMaximum | multipleOf
  | required | properties | additionalProperties
  | minItems | maxItems | uniqueItems | items
  | anyOf | oneOf | allOf | negation
  deriving DecidableEq

namespace Keyword

def name : Keyword → String
  | type => "type" | enum => "enum" | const => "const"
  | pattern => "pattern" | minLength => "minLength" | maxLength => "maxLength"
  | minimum => "minimum" | maximum => "maximum"
  | exclusiveMinimum => "exclusiveMinimum" | exclusiveMaximum => "exclusiveMaximum"
  | multipleOf => "multipleOf"
  | required => "required" | properties => "properties"
  | additionalProperties => "additionalProperties"
  | minItems => "minItems" | maxItems => "maxItems" | uniqueItems => "uniqueItems"
  | items => "items"
  | anyOf => "anyOf" | oneOf => "oneOf" | allOf => "allOf" | negation => "not"

def all : List Keyword :=
  [type, enum, const, pattern, minLength, maxLength, minimum, maximum, exclusiveMinimum,
    exclusiveMaximum, multipleOf, required, properties, additionalProperties, minItems, maxItems,
    uniqueItems, items, anyOf, oneOf, allOf, negation]

theorem mem_all (kw : Keyword) : kw ∈ all := by
  cases kw <;> decide

/-- The keywords that `nullable` adds null to. -/
def ofValue : List Keyword := [type, enum, const]

def ofStrings : List Keyword := [pattern, minLength, maxLength]
def ofNumbers : List Keyword := [minimum, maximum, exclusiveMinimum, exclusiveMaximum, multipleOf]
def ofObjects : List Keyword := [required, properties, additionalProperties]
def ofArrays : List Keyword := [minItems, maxItems, uniqueItems, items]
def combinators : List Keyword := [anyOf, oneOf, allOf, negation]

def idle : Json → List Keyword
  | .string _ => ofNumbers ++ ofObjects ++ ofArrays
  | .number _ => ofStrings ++ ofObjects ++ ofArrays
  | .object _ => ofStrings ++ ofNumbers ++ ofArrays
  | .array _ => ofStrings ++ ofNumbers ++ ofObjects
  | .null | .boolean _ => ofStrings ++ ofNumbers ++ ofObjects ++ ofArrays

end Keyword

def typeNames : Json → List String
  | .null => ["null"]
  | .boolean _ => ["boolean"]
  | .number value => if value.den = 1 then ["integer", "number"] else ["number"]
  | .string _ => ["string"]
  | .array _ => ["array"]
  | .object _ => ["object"]

def sameValue (left right : Json) : Bool := left.sorted = right.sorted

/-- The members of a value that the `properties` of a schema do not name. -/
def additionalMembers (schema members : Members) : Members :=
  let named := ((readSchema schema "properties").getD []).map Prod.fst
  members.filter fun member => member.1 ∉ named

/-- The nested schemas of a keyword, each with the value it is to be applied to. -/
def applications (schema : Members) (keyword : Keyword) (argument value : Json) :
    List (Json × Json) :=
  match keyword with
  | .anyOf | .oneOf | .allOf =>
    match argument with
    | .array branches => branches.map (·, value)
    | _ => []
  | .negation => [(argument, value)]
  | .properties =>
    match argument, value with
    | .object entries, .object members =>
      entries.filterMap fun (key, nested) => (Record.get members key).map (nested, ·)
    | _, _ => []
  | .additionalProperties =>
    match value with
    | .object members => (additionalMembers schema members).map fun member => (argument, member.2)
    | _ => []
  | .items =>
    match value with
    | .array items => items.map (argument, ·)
    | _ => []
  | _ => []

/-- A limit against a measure of the value, where the value has that measure. -/
def limits (within : Rat → Rat → Bool) (argument : Json) (measure : Option Rat) : Bool :=
  match argument, measure with
  | .number limit, some measured => within limit measured
  | _, _ => true

def numeric : Json → Option Rat
  | .number value => some value
  | _ => none

def textLength : Json → Option Rat
  | .string text => some text.length
  | _ => none

def itemCount : Json → Option Rat
  | .array items => some items.length
  | _ => none

def asserts (engine : Engine) (accepts : Json → Json → Bool) (schema : Members) (keyword : Keyword)
    (argument value : Json) : Bool :=
  let nullable := value = .null && isFlag schema "nullable" true
  match keyword with
  | .type =>
    nullable || match argument with
      | .string type => type ∈ typeNames value
      | .array types => types.any fun type => (asString type).any (· ∈ typeNames value)
      | _ => true
  | .enum =>
    nullable || match argument with
      | .array values => values.any (sameValue · value)
      | _ => true
  | .const => nullable || sameValue argument value
  | .pattern =>
    match argument, value with
    | .string pattern, .string text => engine.test pattern text
    | _, _ => true
  | .minLength => limits (· ≤ ·) argument (textLength value)
  | .maxLength => limits (· ≥ ·) argument (textLength value)
  | .minimum => limits (· ≤ ·) argument (numeric value)
  | .maximum => limits (· ≥ ·) argument (numeric value)
  | .exclusiveMinimum => limits (· < ·) argument (numeric value)
  | .exclusiveMaximum => limits (· > ·) argument (numeric value)
  | .multipleOf => limits (fun divisor value => engine.isJsonSchemaMultiple value divisor) argument (numeric value)
  | .required =>
    match argument, value with
    | .array names, .object members => (names.filterMap asString).all fun name => (Record.get members name).isSome
    | _, _ => true
  | .minItems => limits (· ≤ ·) argument (itemCount value)
  | .maxItems => limits (· ≥ ·) argument (itemCount value)
  | .uniqueItems =>
    match argument, value with
    | .boolean true, .array items => (items.map Json.sorted).Nodup
    | _, _ => true
  | .anyOf =>
    match argument with
    | .array branches => branches.any (accepts · value)
    | _ => true
  | .oneOf =>
    match argument with
    | .array branches => (branches.filter (accepts · value)).length = 1
    | _ => true
  | .negation => !accepts argument value
  | .allOf | .properties | .additionalProperties | .items =>
    (applications schema keyword argument value).all fun applied => accepts applied.1 applied.2

/-- A keyword holds of a value: it is absent, or it asserts what is so. -/
def holds (engine : Engine) (accepts : Json → Json → Bool) (schema : Members) (keyword : Keyword)
    (value : Json) : Bool :=
  (schema.get keyword.name).all (asserts engine accepts schema keyword · value)

def validUpTo (engine : Engine) : Nat → Json → Json → Bool
  | _, .boolean flag, _ => flag
  | bound + 1, .object schema, value =>
    Keyword.all.all fun keyword => holds engine (validUpTo engine bound) schema keyword value
  | _, _, _ => true

def Valid (engine : Engine) (schema : Members) (value : Json) : Prop :=
  validUpTo engine (Json.object schema).size (.object schema) value = true

section
variable (engine : Engine) (accepts : Json → Json → Bool) (schema : Members) (value : Json)

def nullBranch : Option Json → Option Members
  | some (.array [left, right]) =>
    if isNullSchema left && isJsonObject right then asObject left
    else if isNullSchema right && isJsonObject left then asObject right
    else none
  | _ => none

/-- What makes the merge of a union with null keep its meaning at a value. -/
structure UnionKept (base : Members) : Prop where
  /-- No keyword of the other branch is replaced by another of the schema around the union. -/
  agree : ∀ keyword argument outer, keyword ≠ Keyword.anyOf → base.get keyword.name = some argument →
    schema.get keyword.name = some outer → argument = outer
  /-- `additionalProperties` stays beside the `properties` it was written for. -/
  beside : ∀ part ∈ [base, schema], (part.get "additionalProperties").isSome →
    (mergedUnion schema base).get "properties" = part.get "properties"
  /-- The branch that is dropped is supported and accepts null. -/
  dropped : ∀ null, nullBranch (schema.get "anyOf") = some null → value = .null →
    schemaDiagnostics engine null = [] ∧ accepts (.object null) .null = true
  /-- The combinators of the other branch and the value keywords around the union accept null. -/
  lifted : value = .null → (∀ keyword ∈ Keyword.combinators, holds engine accepts base keyword .null) ∧
      ∀ keyword ∈ Keyword.ofValue, holds engine accepts schema keyword .null

/-- What makes the checks of one schema read its keywords as they are meant, at a value. -/
structure NodeKept : Prop where
  /-- An `enum` beside a `const` lists it. -/
  const_listed : ∀ constant values, schema.get "const" = some constant →
    schema.get "enum" = some (.array values) → constant ∈ values
  /-- Null is accepted by the value keywords just when the type is `null`. -/
  null_typed : value = .null → isFlag schema "nullable" true = false → (schema.get "type" = some (.string "null") ↔
      ∀ keyword ∈ Keyword.ofValue, holds engine accepts schema keyword .null)
  /-- An `enum` lists the value itself, not only one with other member order. -/
  enum_literal : value ≠ .null → ∀ values, schema.get "enum" = some (.array values) →
    values.any (sameValue · value) → value ∈ values
  /-- An object under no type and no `properties` meets the other keywords of objects. -/
  object_typed : ∀ members, value = .object members → schema.get "type" = none →
    schema.get "properties" = none → holds engine accepts schema .required value ∧
      holds engine accepts schema .additionalProperties value
  /-- An array under no type meets the keywords of arrays. -/
  array_typed : ∀ items, value = .array items → schema.get "type" = none →
    ∀ keyword ∈ Keyword.ofArrays, holds engine accepts schema keyword value
  /-- Items that must be unique differ by more than the order of members. -/
  items_differ : ∀ items, value = .array items → isFlag schema "uniqueItems" true →
    items.Nodup → (items.map Json.sorted).Nodup
  /-- An object has for its own the inherited names that `required` or `properties` mention. -/
  own : ∀ members key, value = .object members → key ∈ inheritedNames →
    key ∈ (readStringArray schema "required").getD [] ∨ key ∈ ((readSchema schema "properties").getD []).map Prod.fst →
    (Record.get members key).isSome
  /-- The first member that `additionalProperties: false` excludes has a name. -/
  named : ∀ members extra, value = .object members → isFlag schema "additionalProperties" false →
    (additionalMembers schema members).head? = some extra → extra.1 ≠ ""

/-- The schema and the schemas nested in it keep their meaning at the values they apply to, for
schemas up to a size. -/
def regularUpTo (engine : Engine) : Nat → Json → Json → Prop
  | 0, _, _ => True
  | bound + 1, .object members, value =>
    let schema := Record.erase members "$schema"
    match nullableAnyOfSchema (Record.get schema "anyOf") with
    | some base =>
      UnionKept engine (validUpTo engine bound) schema value base ∧
        regularUpTo engine bound (.object (mergedUnion schema base)) value
    | none =>
      NodeKept engine (validUpTo engine bound) schema value ∧
        ∀ keyword argument, Record.get schema (Keyword.name keyword) = some argument →
          ∀ application ∈ applications schema keyword argument value,
            regularUpTo engine bound application.1 application.2
  | _ + 1, _, _ => True

end

def Regular (engine : Engine) (schema : Members) (value : Json) : Prop :=
  regularUpTo engine (Json.object schema).size (.object schema) value

end Applik8s.Schema
