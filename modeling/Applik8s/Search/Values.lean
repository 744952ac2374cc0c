import Mathlib.Data.Rat.Defs
import Mathlib.Data.List.Infix
import Mathlib.Data.List.Perm.Basic
import Applik8s.Search.Records

/-! The values that searches compare, filter by, count and hash, and what both search runtimes do
with them. What JavaScript and the platform decide beyond that, an `Engine` gives. -/
namespace Applik8s.Search

/-- A number, up to what `Object.is` tells apart; the finite ones are exact. -/
inductive JsNumber where
  | finite (value : Rat)
  | negativeZero
  | nan
  | infinity
  | negativeInfinity
  deriving DecidableEq

/-- A value of a document or of a filter. Dates are valid ones, by their time. -/
inductive Value where
  | undefined
  | null
  | boolean (value : Bool)
  | number (value : JsNumber)
  | string (text : String)
  | date (instant : Int)
  | array (items : List Value)
  | object (members : List (String × Value))

/-- The tree that a text of `stableJson` denotes. The text of `undefined` is not JSON, and stands
for itself. -/
inductive Stable where
  | hole
  | null
  | boolean (value : Bool)
  | number (value : Rat)
  | string (text : String)
  | array (items : List Stable)
  | object (members : List (String × Stable))

/-- What a comparison function needs for its order to be one. -/
structure Consistent {α : Type} (compare : α → α → Ordering) (items : List α) : Prop where
  refl : ∀ a ∈ items, compare a a = .eq
  swap : ∀ a ∈ items, ∀ b ∈ items, compare b a = (compare a b).swap
  trans : ∀ a ∈ items, ∀ b ∈ items, ∀ c ∈ items, compare a b ≠ .gt → compare b c ≠ .gt → compare a c ≠ .gt

/-- JavaScript, its locale, its doubles and its hash function, as far as searches use them. -/
structure Engine where
  /-- `toLocaleLowerCase`. -/
  lowerCase : String → String
  localeCompare : String → String → Ordering
  /-- `left < right`, of any two values. -/
  less : Value → Value → Bool
  /-- `String(value)`. -/
  asText : Value → String
  toISOString : Int → String
  /-- `Array.prototype.sort` with a comparison function. -/
  sort : {α : Type} → (α → α → Ordering) → List α → List α
  sort_perm : ∀ {α : Type} (compare : α → α → Ordering) (items : List α), (sort compare items).Perm items
  sort_sorted : ∀ {α : Type} (compare : α → α → Ordering) (items : List α),
    Consistent compare items → (sort compare items).Pairwise fun left right => compare left right ≠ .gt
  /-- The hexadecimal SHA-256 of the text that denotes the tree. -/
  sha256 : Stable → String
  Score : Type
  zero : Score
  /-- `score + matches * (boost ?? 1)`. -/
  add : Score → Nat → Option Rat → Score
  /-- `left > right`, of two scores. -/
  above : Score → Score → Bool

abbrev Fields := Record Value

/-- `Reflect.get(document, field)`. -/
def Fields.read (document : Fields) (field : String) : Value := (document.get field).getD .undefined

section
/-- `Object.is`. Two dates, arrays or objects that are compared are never one object, for a
document is cloned when it is stored. -/
def Value.identical : Value → Value → Bool
  | .undefined, .undefined => true
  | .null, .null => true
  | .boolean left, .boolean right => left = right
  | .number left, .number right => left = right
  | .string left, .string right => left = right
  | _, _ => false

/-- `left === right`, likewise. -/
def Value.strictlyEqual : Value → Value → Bool
  | .number .nan, .number .nan => false
  | .number .negativeZero, .number (.finite value) => value = 0
  | .number (.finite value), .number .negativeZero => value = 0
  | left, right => left.identical right

def Value.nullish : Value → Bool
  | .null => true
  | .undefined => true
  | _ => false

/-- `compareValues`, of values that are normalized first. -/
def compareValues (engine : Engine) (normalize : Value → Value) (left right : Value) : Ordering :=
  let normalizedLeft := normalize left
  let normalizedRight := normalize right
  if normalizedLeft.strictlyEqual normalizedRight then .eq
  else if normalizedLeft.nullish then .lt
  else if normalizedRight.nullish then .gt
  else if engine.less normalizedLeft normalizedRight then .lt
  else .gt

/-- How a runtime reads a date: in `Object.is`, and in `<`. -/
structure Normalization where
  equality : Value → Value
  order : Value → Value

/-- `value instanceof Date ? value.getTime() : value`, and no change for `Object.is`. -/
def Normalization.deterministic : Normalization where
  equality := id
  order
    | .date instant => .number (.finite instant)
    | value => value

/-- `normalizeJsonValue`, for both. -/
def Normalization.postgres (engine : Engine) : Normalization :=
  let normalizeJsonValue : Value → Value
    | .date instant => .string (engine.toISOString instant)
    | value => value
  ⟨normalizeJsonValue, normalizeJsonValue⟩

variable (engine : Engine) (normalization : Normalization)

/-- `Object.is`, of normalized values. -/
def same (left right : Value) : Bool :=
  (normalization.equality left).identical (normalization.equality right)

/-- `'name' in operations`, and the operation fails. -/
def refutes (operations : List (String × Value)) (name : String) (fails : Value → Bool) : Bool :=
  match Record.get operations name with
  | some operand => fails operand
  | none => false

def matchesComparison (actual comparison : Value) : Bool :=
  match comparison with
  | .object operations =>
    let compare := compareValues engine normalization.order actual
    !(refutes operations "eq" (fun operand => !same normalization actual operand)
      || refutes operations "ne" (same normalization actual)
      || refutes operations "in" (fun operand => match operand with
          | .array candidates => !candidates.any (same normalization actual)
          | _ => false)
      || refutes operations "lt" (fun operand => compare operand ≠ .lt)
      || refutes operations "lte" (fun operand => compare operand = .gt)
      || refutes operations "gt" (fun operand => compare operand ≠ .gt)
      || refutes operations "gte" (fun operand => compare operand = .lt))
  | _ => same normalization actual comparison

def matchesWhere (document : Fields) (conditions : Record Value) : Bool :=
  conditions.all fun condition =>
    matchesComparison engine normalization (document.read condition.1) condition.2

end

section
variable (engine : Engine)

/-- `entries.sort(([left], [right]) => left.localeCompare(right))`. -/
def sortEntries (entries : List (String × Stable)) : List (String × Stable) :=
  engine.sort (fun left right => engine.localeCompare left.1 right.1) entries

/-- `JSON.stringify` of a number. -/
def JsNumber.stable : JsNumber → Stable
  | .finite value => .number value
  | .negativeZero => .number 0
  | _ => .null

/-- `items.join(',')`: a lone `undefined` joins to nothing. -/
def joined : List Stable → List Stable
  | [.hole] => []
  | items => items

mutual

/-- `stableJson`, as the tree its text denotes. A date is an object without entries. -/
def stableJson : Value → Stable
  | .undefined => .hole
  | .null => .null
  | .boolean value => .boolean value
  | .number value => value.stable
  | .string text => .string text
  | .date _ => .object []
  | .array items => .array (joined (stableItems items))
  | .object members => .object (sortEntries engine (stableMembers members))

def stableItems : List Value → List Stable
  | [] => []
  | item :: rest => stableJson item :: stableItems rest

def stableMembers : List (String × Value) → List (String × Stable)
  | [] => []
  | (name, value) :: rest => (name, stableJson value) :: stableMembers rest

end

/-- `digest`; there is no hash of `undefined`. -/
def digest (value : Value) : Except Failure String :=
  match stableJson engine value with
  | .hole => .error (.refused "The \"data\" argument must be of type string.")
  | text => .ok (engine.sha256 text)

end

section
variable (engine : Engine)

/-- A bucket of a facet, with the key it is counted under. -/
structure Bucket where
  key : String
  value : Value
  count : Nat

/-- The values of a field that are counted: an array counts by its items. -/
def facetValues (document : Fields) (field : String) : List Value :=
  match document.read field with
  | .array items => items
  | value => [value]

def countValue (counts : List Bucket) (key : String) (value : Value) : List Bucket :=
  if counts.any (·.key = key) then
    counts.map fun bucket => if bucket.key = key then { bucket with count := bucket.count + 1 } else bucket
  else counts ++ [⟨key, value, 1⟩]

def facetBuckets (documents : List Fields) (field : String) : Except Failure (List Bucket) := do
  let counts ← (documents.flatMap (facetValues · field)).foldlM (fun counts value => do
    let key ← digest engine value
    return countValue counts key value) []
  return engine.sort (fun left right =>
    if right.count < left.count then .lt
    else if left.count < right.count then .gt
    else engine.localeCompare (engine.asText left.value) (engine.asText right.value)) counts

end

inductive FieldKind where
  | text
  | facet
  | filter
  | sort
  | values
  | minimum
  | maximum
  | count
  deriving DecidableEq

/-- `ApplicationSearchRuntimeField`, as far as searches read it. -/
structure IndexField where
  kind : FieldKind
  boost : Option Rat
  deriving DecidableEq

/-- `/\s/u`. -/
def isSpace (c : Char) : Bool := isTrimmed c

/-- `text.toLocaleLowerCase().split(/\s+/u).filter(Boolean)`. -/
def searchTerms (engine : Engine) (text : String) : List String :=
  (((engine.lowerCase text).toList.splitOnP isSpace).filter (· ≠ [])).map String.ofList

/-- `text.includes(term)`. -/
def includes (text term : String) : Bool := term.toList <:+: text.toList

def textValues : Value → List String
  | .array items => items.filterMap fun
    | .string text => some text
    | _ => none
  | .string text => [text]
  | _ => []

def scoreDocument (engine : Engine) (fields : Record IndexField) (document : Fields)
    (text : Option String) : engine.Score :=
  match text with
  | none => engine.zero
  | some text =>
    let terms := searchTerms engine text
    (fields.filter (·.2.kind = .text)).foldl (fun score field =>
      let found := (textValues (document.read field.1)).foldl (fun count candidate =>
        count + (terms.filter (includes (engine.lowerCase candidate))).length) 0
      engine.add score found field.2.boost) engine.zero

end Applik8s.Search
