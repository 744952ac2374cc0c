import Applik8s.Lib.Json
import Applik8s.Lib.Record

/-! The schema runtime, `packages/sdk/src/schema-runtime.ts`, for a source of kind
`jsonSchema`: normalization, the diagnostics of unsupported keywords, and validation. The
recursions over nested schemas carry a bound that the size of the schema always meets. -/
namespace Applik8s.Schema

abbrev Members := Record Json

/-- What the runtime takes from JavaScript: the text of a value, regular expressions, and the
floating-point test for multiples. -/
structure Engine where
  stringify : Json → String
  validPattern : String → Bool
  test : String → String → Bool
  test_empty : ∀ text, test "" text = true
  isJsonSchemaMultiple : Rat → Rat → Bool

/-- A JSON value as an object: `isJsonObject`. -/
def asObject : Json → Option Members
  | .object members => some members
  | _ => none

def isJsonObject (value : Json) : Bool := (asObject value).isSome

variable (normalize : Members → Members) (engine : Engine) (errors : Subject → Members → String → List String)
  (subject : Subject) (schema : Members) (key : String)

def readString : Option String :=
  match schema.get key with
  | some (.string text) => some text
  | _ => none

def readNumber : Option Rat :=
  match schema.get key with
  | some (.number value) => some value
  | _ => none

/-- `Number.isSafeInteger(value) && value >= 0`. -/
def readNonNegativeInteger : Option Nat :=
  match readNumber schema key with
  | some value =>
    if value.den = 1 ∧ 0 ≤ value ∧ value ≤ 9007199254740991 then some value.num.toNat else none
  | none => none

def readArray : Option (List Json) :=
  match schema.get key with
  | some (.array items) => some items
  | _ => none

def asString : Json → Option String
  | .string text => some text
  | _ => none

def readStringArray : Option (List String) :=
  match readArray schema key with
  | some items =>
    if items.all fun item => (asString item).isSome then some (items.filterMap asString) else none
  | none => none

def readSchema : Option Members :=
  (schema.get key).bind asObject

def readSchemaArray : Option (List Members) :=
  match readArray schema key with
  | some items =>
    if items ≠ [] ∧ items.all isJsonObject then some (items.filterMap asObject) else none
  | none => none

def readSchemaMap : Option (Record Members) :=
  match readSchema schema key with
  | some entries =>
    if entries.all fun entry => isJsonObject entry.2 then
      some (entries.filterMap fun entry => (asObject entry.2).map (entry.1, ·))
    else none
  | none => none

/-- `schema[key] === flag`. -/
def isFlag (flag : Bool) : Bool :=
  schema.get key = some (.boolean flag)

/-- `typeof value === 'number'` and `Number.isInteger`. -/
def isInteger : Json → Bool
  | .number value => value.den = 1
  | _ => false

def isNumber : Json → Bool
  | .number _ => true
  | _ => false

def isString : Json → Bool
  | .string _ => true
  | _ => false

def isBoolean : Json → Bool
  | .boolean _ => true
  | _ => false

variable (path : String) (value : Json)

def isScalarJsonValue : Bool := isString value || isNumber value || isBoolean value

def isNullSchema : Bool :=
  match asObject value with
  | some schema => schema.get "type" = some (.string "null")
  | none => false

def nullableAnyOfSchema (value : Option Json) : Option Members :=
  match value with
  | some (.array [left, right]) =>
    if isNullSchema left && isJsonObject right then asObject right
    else if isNullSchema right && isJsonObject left then asObject left
    else none
  | _ => none

def scalarEnumType (value : Option Json) : Option String :=
  match value with
  | some (.array items) =>
    let nonNullValues := items.filter (· ≠ .null)
    if nonNullValues = [] then none
    else if nonNullValues.all isString then some "string"
    else if nonNullValues.all isBoolean then some "boolean"
    else if nonNullValues.all isNumber then
      some (if nonNullValues.all isInteger then "integer" else "number")
    else none
  | _ => none

def whenObject : Json → Json
  | .object members => .object (normalize members)
  | other => other

def eachValue : Json → Json
  | .object members => .object (members.map fun member => (member.1, whenObject normalize member.2))
  | other => other

def eachItem : Json → Json
  | .array items => .array (items.map (whenObject normalize))
  | other => other

/-- A scalar `const` becomes an `enum` of one. -/
def constAsEnum : Members :=
  match schema.get "const" with
  | some value =>
    if isScalarJsonValue value then (schema.erase "const").set "enum" (.array [value]) else schema
  | none => schema

/-- The type of a scalar `enum` is made explicit. -/
def enumTyped : Members :=
  match schema.get "type", scalarEnumType (schema.get "enum") with
  | none, some enumType => schema.set "type" (.string enumType)
  | _, _ => schema

/-- A union with null as its other branch, with the rest of the schema over it. -/
def mergedUnion (schema nullableSchema : Members) : Members :=
  (nullableSchema.assign (schema.erase "anyOf")).set "nullable" (.boolean true)

/-- A schema that is no such union, with its nested schemas normalized. -/
def normalizedNode : Members :=
  enumTyped (((((((((constAsEnum schema).update "properties" (eachValue normalize)).update
    "items" (whenObject normalize)).update
    "additionalProperties" (whenObject normalize)).update
    "anyOf" (eachItem normalize)).update
    "oneOf" (eachItem normalize)).update
    "allOf" (eachItem normalize)).update
    "not" (whenObject normalize)))

/-- `toDraft7Subset`, for schemas up to a size. -/
def toDraft7Subset : Nat → Members → Members
  | 0, schema => schema
  | bound + 1, schema =>
    let normalized := schema.erase "$schema"
    match nullableAnyOfSchema (normalized.get "anyOf") with
    | some nullableSchema => toDraft7Subset bound (mergedUnion normalized nullableSchema)
    | none => normalizedNode (toDraft7Subset bound) normalized

def supportedKeywords : List String :=
  ["type", "required", "properties", "items", "enum", "nullable", "additionalProperties",
    "description", "title", "default", "examples", "deprecated", "$schema", "pattern", "minimum",
    "maximum", "exclusiveMinimum", "exclusiveMaximum", "multipleOf", "minLength", "maxLength",
    "minItems", "maxItems", "uniqueItems", "oneOf", "anyOf", "allOf", "not"]

variable (type : String)

def isSupportedJsonSchemaType : Bool :=
  type ∈ ["object", "array", "string", "number", "integer", "boolean", "null"]

/-- A message when a keyword is there and does not read as what it must be. -/
def malformed (reads : Bool) (message : String) : List String :=
  if (schema.get key).isSome && !reads then [message] else []

/-- `typeof schema[key] === 'boolean'`. -/
def readsBoolean : Bool := (schema.get key).any isBoolean

def patternDiagnostics : List String :=
  match schema.get "pattern" with
  | none => []
  | some (.string pattern) =>
    if engine.validPattern pattern then []
    else [s!"{path}.pattern must be a valid JavaScript regular expression."]
  | some _ => [s!"{path}.pattern must be a string."]

def ownDiagnostics : List String :=
  (schema.filter fun member => member.1 ∉ supportedKeywords).map
      (fun member => s!"{path} uses unsupported JSON Schema keyword {member.1}.")
    ++ ["oneOf", "anyOf", "allOf"].flatMap (fun keyword =>
      malformed schema keyword (readSchemaArray schema keyword).isSome
        s!"{path}.{keyword} must be a non-empty array of schema objects.")
    ++ malformed schema "not" (readSchema schema "not").isSome s!"{path}.not must be a schema object."
    ++ malformed schema "type" ((readString schema "type").any isSupportedJsonSchemaType)
        (s!"{path}.type must be one of object, array, string, number, integer, or boolean.")
    ++ malformed schema "required" (readStringArray schema "required").isSome
        s!"{path}.required must be an array of strings."
    ++ malformed schema "properties" (readSchemaMap schema "properties").isSome
        s!"{path}.properties must be an object whose values are schemas."
    ++ malformed schema "items" (readSchema schema "items").isSome s!"{path}.items must be a schema object."
    ++ malformed schema "additionalProperties" (readsBoolean schema "additionalProperties"
          || (readSchema schema "additionalProperties").isSome)
        s!"{path}.additionalProperties must be boolean or a schema object."
    ++ malformed schema "enum" (readArray schema "enum").isSome s!"{path}.enum must be an array."
    ++ malformed schema "nullable" (readsBoolean schema "nullable") s!"{path}.nullable must be boolean."
    ++ patternDiagnostics engine schema path
    ++ ["minimum", "maximum", "exclusiveMinimum", "exclusiveMaximum", "multipleOf"].flatMap
      (fun keyword => malformed schema keyword (readNumber schema keyword).isSome
        s!"{path}.{keyword} must be a finite number.")
    ++ malformed schema "multipleOf" (0 < (readNumber schema "multipleOf").getD 0)
        s!"{path}.multipleOf must be greater than zero."
    ++ ["minLength", "maxLength", "minItems", "maxItems"].flatMap (fun keyword =>
      malformed schema keyword (readNonNegativeInteger schema keyword).isSome
        s!"{path}.{keyword} must be a non-negative integer.")
    ++ malformed schema "uniqueItems" (readsBoolean schema "uniqueItems") s!"{path}.uniqueItems must be boolean."

def nestedSchemas (path : String) : List (Members × String) :=
  ((readSchemaMap schema "properties").getD []).map (fun (key, nested) => (nested, s!"{path}.{key}"))
    ++ (readSchema schema "items").toList.map (fun nested => (nested, s!"{path}[]"))
    ++ (readSchema schema "additionalProperties").toList.map (fun nested => (nested, s!"{path}.*"))
    ++ ["oneOf", "anyOf", "allOf"].flatMap (fun keyword =>
      ((readSchemaArray schema keyword).getD []).zipIdx.map fun (nested, index) =>
        (nested, s!"{path}.{keyword}[{index}]"))
    ++ (readSchema schema "not").toList.map fun nested => (nested, s!"{path}.not")

/-- `unsupportedJsonSchemaDiagnostics`, as messages, for schemas up to a size. -/
def unsupportedJsonSchemaDiagnostics (engine : Engine) : Nat → Members → String → List String
  | 0, _, path => [s!"{path} is nested too deeply."]
  | bound + 1, schema, path =>
    ownDiagnostics engine schema path ++ (nestedSchemas schema path).flatMap fun (nested, nestedPath) =>
        unsupportedJsonSchemaDiagnostics engine bound nested nestedPath

/-- What a schema is checked against: a JSON value, or what an inherited property of an object
reads as, a function or the prototype of objects. -/
inductive Subject where
  | json (value : Json)
  | function
  | prototype
  deriving DecidableEq

/-- The members of an object: `isJsonObject` and `Object.entries`. -/
def Subject.members : Subject → Option Members
  | .json value => asObject value
  | .function => none
  | .prototype => some []

/-- The items of an array: `Array.isArray`. -/
def Subject.items : Subject → Option (List Json)
  | .json (.array items) => some items
  | _ => none

/-- The properties of `Object.prototype`. -/
def inheritedNames : List String :=
  ["constructor", "__defineGetter__", "__defineSetter__", "hasOwnProperty", "__lookupGetter__",
    "__lookupSetter__", "isPrototypeOf", "propertyIsEnumerable", "toString", "valueOf", "__proto__",
    "toLocaleString"]

/-- `key in value`. -/
def hasProperty (members : Members) (key : String) : Bool :=
  (members.get key).isSome || key ∈ inheritedNames

/-- `value[key] ?? null` of a property in the object. -/
def Subject.read (members : Members) (key : String) : Subject :=
  match members.get key with
  | some value => .json value
  | none =>
    if key = "__proto__" then if subject = .prototype then .json .null else .prototype
    else .function

/-- `deepEqual`: equality of JSON texts, so of values with their members in order. -/
def deepEqual (candidate : Json) : Subject → Bool
  | .json value => candidate = value
  | .function => false
  | .prototype => candidate = .object []

def matchesJsonSchemaType : Bool :=
  if type = "null" then subject = .json .null
  else if type = "object" then subject.members.isSome
  else if type = "array" then subject.items.isSome
  else
    match subject with
    | .json value =>
      if type = "string" then isString value
      else if type = "number" then isNumber value
      else if type = "integer" then isInteger value
      else if type = "boolean" then isBoolean value
      else false
    | _ => false

/-- The errors of the first check that has any: every check returns early. -/
def firstErrors : List (List String) → List String
  | [] => []
  | errors :: rest => if errors = [] then firstErrors rest else errors

def refuse (condition : Bool) (message : String) : List String :=
  if condition then [message] else []

def limitErrors {α : Type} (limit : Option α) (exceeds : α → Bool) (message : α → String) :
    List String :=
  match limit with
  | some bound => refuse (exceeds bound) (message bound)
  | none => []

/-- The combinators; `errors` are those of one branch. -/
def combinatorErrors (errors : Members → List String) (schema : Members) (path : String) :
    List (List String) :=
  let matching := fun keyword =>
    (readSchemaArray schema keyword).map fun branches => (branches.filter fun branch => errors branch = []).length
  [ limitErrors (matching "anyOf") (· = 0) fun _ => s!"{path} must match at least one anyOf branch.",
    limitErrors (matching "oneOf") (· ≠ 1) fun count =>
      s!"{path} must match exactly one oneOf branch; matched {count}.",
    firstErrors (((readSchemaArray schema "allOf").getD []).map errors),
    limitErrors (readSchema schema "not") (fun excluded => errors excluded = []) fun _ =>
      s!"{path} must not match the excluded schema." ]

def nullErrors : List String :=
  refuse (!(isFlag schema "nullable" true || schema.get "type" = some (.string "null"))) s!"{path} must not be null."

def valueErrors :
    List (List String) :=
  [ limitErrors (readArray schema "enum") (fun values => !values.any (deepEqual · subject))
      fun values => s!"{path} must be one of {engine.stringify (.array values)}.",
    limitErrors (readString schema "type") (fun type => type ≠ "" && !matchesJsonSchemaType subject type)
      fun type => s!"{path} must be {type}." ]

def stringErrors (text : String) (schema : Members) (path : String) :
    List (List String) :=
  [ limitErrors (readString schema "pattern") (fun pattern => pattern ≠ "" && !engine.test pattern text)
      fun pattern => s!"{path} must match pattern {pattern}.",
    limitErrors (readNonNegativeInteger schema "minLength") (fun limit => text.length < limit)
      fun limit => s!"{path} must contain at least {limit} characters.",
    limitErrors (readNonNegativeInteger schema "maxLength") (fun limit => limit < text.length)
      fun limit => s!"{path} must contain at most {limit} characters." ]

def numberErrors (value : Rat) (schema : Members) (path : String) :
    List (List String) :=
  let text := fun limit => engine.stringify (.number limit)
  [ limitErrors (readNumber schema "minimum") (fun limit => value < limit)
      fun limit => s!"{path} must be greater than or equal to {text limit}.",
    limitErrors (readNumber schema "maximum") (fun limit => limit < value)
      fun limit => s!"{path} must be less than or equal to {text limit}.",
    limitErrors (readNumber schema "exclusiveMinimum") (fun limit => value ≤ limit)
      fun limit => s!"{path} must be greater than {text limit}.",
    limitErrors (readNumber schema "exclusiveMaximum") (fun limit => limit ≤ value)
      fun limit => s!"{path} must be less than {text limit}.",
    limitErrors (readNumber schema "multipleOf")
      (fun divisor => 0 < divisor && !engine.isJsonSchemaMultiple value divisor)
      fun divisor => s!"{path} must be a multiple of {text divisor}." ]

/-- The names of the members that `properties` does not list. -/
def extraMembers (members : Members) : Members :=
  let allowed := ((readSchemaMap schema "properties").getD []).map Prod.fst
  members.filter fun member => member.1 ∉ allowed

/-- The keywords of objects; `errors` are those of a member's value. -/
def objectErrors (members : Members) (schema : Members) (path : String) : List (List String) :=
  [ firstErrors (((readStringArray schema "required").getD []).map fun key =>
      refuse (!hasProperty members key) s!"{path}.{key} is required."),
    firstErrors (((readSchemaMap schema "properties").getD []).map fun (key, propertySchema) =>
      if hasProperty members key then
        errors (subject.read members key) propertySchema s!"{path}.{key}"
      else []),
    if isFlag schema "additionalProperties" false then
      limitErrors (extraMembers schema members).head? (fun extra => extra.1 ≠ "") fun extra =>
        s!"{path}.{extra.1} is not allowed by additionalProperties: false."
    else [],
    match readSchema schema "additionalProperties" with
    | some additionalPropertiesSchema =>
      firstErrors ((extraMembers schema members).map fun (key, value) =>
        errors (.json value) additionalPropertiesSchema s!"{path}.{key}")
    | none => [] ]

def arrayErrors (errors : Json → Members → String → List String) (items : List Json)
    (schema : Members) (path : String) : List (List String) :=
  [ limitErrors (readNonNegativeInteger schema "minItems") (fun limit => items.length < limit)
      fun limit => s!"{path} must contain at least {limit} items.",
    limitErrors (readNonNegativeInteger schema "maxItems") (fun limit => limit < items.length)
      fun limit => s!"{path} must contain at most {limit} items.",
    refuse (isFlag schema "uniqueItems" true && !decide items.Nodup) s!"{path} must contain unique items.",
    match readSchema schema "items" with
    | some itemSchema =>
      firstErrors (items.zipIdx.map fun (item, index) => errors item itemSchema s!"{path}[{index}]")
    | none => [] ]

/-- The checks behind those for a type: strings, numbers, objects and arrays. Objects are
checked under type `object` or when the schema has `properties`, arrays under type `array`. -/
def typedErrors : List (List String) :=
  (match subject with
    | .json (.string text) => stringErrors engine text schema path
    | .json (.number value) => numberErrors engine value schema path
    | _ => [])
  ++ (match subject.members with
    | some members =>
      if readString schema "type" = some "object" || (schema.get "properties").isSome then
        objectErrors errors subject members schema path
      else []
    | none => [refuse (readString schema "type" = some "object") s!"{path} must be object."])
  ++ (match subject.items with
    | some items =>
      if readString schema "type" = some "array" then
        arrayErrors (fun item => errors (.json item)) items schema path
      else []
    | none => [refuse (readString schema "type" = some "array") s!"{path} must be array."])

/-- `validateJsonValue`, for schemas up to a size. -/
def validateJsonValue (engine : Engine) : Nat → Subject → Members → String → List String
  | 0, _, _, path => [s!"{path} is nested too deeply."]
  | bound + 1, subject, schema, path =>
    let errors := validateJsonValue engine bound
    firstErrors (combinatorErrors (errors subject · path) schema path ++
      if subject = .json .null then [nullErrors schema path]
      else valueErrors engine subject schema path ++ typedErrors engine errors subject schema path)

/-- The schema of `normalizeSchema({ kind: 'jsonSchema', schema })`. -/
def normalizeSchema : Members :=
  toDraft7Subset (Json.object schema).size schema

def schemaDiagnostics : List String :=
  unsupportedJsonSchemaDiagnostics engine (Json.object (normalizeSchema schema)).size (normalizeSchema schema) "$"

/-- `normalizeSchema({ kind: 'jsonSchema', schema }).validate(value)`: the code and the message
of the failure. -/
def validate : Except (String × String) Unit :=
  match schemaDiagnostics engine schema with
  | diagnostic :: _ => .error ("SCHEMA_UNSUPPORTED", diagnostic)
  | [] =>
    match validateJsonValue engine (Json.object (normalizeSchema schema)).size (.json value)
      (normalizeSchema schema) "$" with
    | message :: _ => .error ("SCHEMA_INVALID", message)
    | [] => .ok ()

end Applik8s.Schema
