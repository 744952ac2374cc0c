import Mathlib.Data.List.Sort

/-! What the sources take from JavaScript: blank and truthy strings, the order of
strings by UTF-16 code units, the default `sort`, and dates. -/
namespace Applik8s

/-- The code points that `String.prototype.trim` removes. -/
def isTrimmed (c : Char) : Bool :=
  let code := c.toNat
  (9 ≤ code && code ≤ 13) || code = 0x20 || code = 0xA0 || code = 0x1680 ||
    (0x2000 ≤ code && code ≤ 0x200A) || code = 0x2028 || code = 0x2029 || code = 0x202F ||
    code = 0x205F || code = 0x3000 || code = 0xFEFF

variable {α : Type} [DecidableEq α] (text : String)

/-- `!text.trim()`. -/
def blank : Bool := text.toList.all isTrimmed

/-- An optional string in a condition: the empty string counts as missing. -/
def truthy : Option String → Bool
  | some text => text ≠ ""
  | none => false

@[simp] theorem truthy_none : truthy none = false := rfl

/-- An optional string spread into a record only when it is truthy. -/
def whenTruthy (text : Option String) : Option String := if truthy text then text else none

theorem truthy_of_whenTruthy {text : Option String} (given : whenTruthy text = some value) :
    truthy (whenTruthy text) = true := by
  unfold whenTruthy at given ⊢
  by_cases present : truthy text = true
  · rwa [if_pos present]
  · rw [if_neg present] at given
    cases given

def codeUnits : List Nat :=
  text.toList.flatMap fun c =>
    if c.toNat < 0x10000 then [c.toNat]
    else [0xD800 + (c.toNat - 0x10000) / 0x400, 0xDC00 + (c.toNat - 0x10000) % 0x400]

def unitsLess : List Nat → List Nat → Bool
  | _, [] => false
  | [], _ :: _ => true
  | a :: as, b :: bs => a < b || (a = b && unitsLess as bs)

/-- `left < right` on strings. -/
def stringLess (left right : String) : Bool := unitsLess (codeUnits left) (codeUnits right)

/-- `values.sort()` on strings. -/
def sortStrings (values : List String) : List String :=
  values.insertionSort fun left right => ¬ stringLess right left

/-- `[...new Set(values)]`: the first occurrence of each value, in order. -/
def distinctValues (values : List α) : List α :=
  values.foldl (fun seen value => if value ∈ seen then seen else seen ++ [value]) []

/-- `values.join(separator)`. -/
def join (separator : String) (values : List String) : String := separator.intercalate values

theorem mem_sortStrings : value ∈ sortStrings values ↔ value ∈ values :=
  List.mem_insertionSort _

private theorem mem_distinct_fold (values seen : List α) :
    value ∈ values.foldl (fun seen value => if value ∈ seen then seen else seen ++ [value]) seen ↔
      value ∈ seen ∨ value ∈ values := by
  induction values generalizing seen with
  | nil => simp
  | cons first rest ih =>
    rw [List.foldl_cons, ih]
    split
    · rename_i present
      constructor
      · rintro (held | held)
        · exact Or.inl held
        · exact Or.inr (List.mem_cons_of_mem _ held)
      rintro (held | held)
      · exact Or.inl held
      · rcases List.mem_cons.mp held with rfl | held
        · exact Or.inl present
        · exact Or.inr held
    · simp [or_assoc]

theorem mem_distinctValues {value : α} : value ∈ distinctValues values ↔ value ∈ values := by
  simp [distinctValues, mem_distinct_fold]

/-- The host's `Date`: milliseconds since the epoch, written and read as text.
`parse` is `none` where `Date.parse` is `NaN`; which texts beyond the ISO format it
reads, and the zone of a text without one, are the host's. -/
structure Dates where
  parse : String → Option Int
  toISOString : Int → String
  toISOString_nonempty : ∀ instant, toISOString instant ≠ ""

variable (dates : Dates)

@[simp] theorem Dates.truthy_toISOString (instant : Int) : truthy (some (dates.toISOString instant)) = true := by
  simp [truthy, dates.toISOString_nonempty]

/-- `expiresAt !== undefined && Date.parse(expiresAt) <= now`; a text that is no date
never expires. -/
def isExpired (expiresAt : Option String) (now : Int) : Bool :=
  match expiresAt.bind dates.parse with
  | some instant => instant ≤ now
  | none => false

/-! ### The ISO format in UTC

The concrete dates of examples: `YYYY-MM-DDTHH:mm:ss.sssZ`, with or without the
milliseconds, on the proleptic Gregorian calendar. -/

def digits (chars : List Char) : Option Nat :=
  if chars ≠ [] ∧ chars.all Char.isDigit then
    some (chars.foldl (fun value c => value * 10 + (c.toNat - 48)) 0)
  else none

def daysFromCivil (year month day : Int) : Int :=
  let y := if month ≤ 2 then year - 1 else year
  let era := y / 400
  let yearOfEra := y - era * 400
  let dayOfYear := (153 * (month + (if month > 2 then -3 else 9)) + 2) / 5 + day - 1
  let dayOfEra := yearOfEra * 365 + yearOfEra / 4 - yearOfEra / 100 + dayOfYear
  era * 146097 + dayOfEra - 719468

/-- The instant of a civil date and time of day, when the fields are in range. -/
def instantOf (year month day hour minute second millisecond : Nat) : Option Int :=
  if 1 ≤ month ∧ month ≤ 12 ∧ 1 ≤ day ∧ day ≤ 31 ∧ hour < 24 ∧ minute < 60 ∧ second < 60 then
    some (((daysFromCivil year month day * 24 + hour) * 60 + minute) * 60000 + second * 1000 + millisecond)
  else none

def parseUtc : Option Int :=
  match text.toList with
  | [y1, y2, y3, y4, '-', m1, m2, '-', d1, d2, 'T', h1, h2, ':', n1, n2, ':', s1, s2, 'Z'] => do
    instantOf (← digits [y1, y2, y3, y4]) (← digits [m1, m2]) (← digits [d1, d2])
      (← digits [h1, h2]) (← digits [n1, n2]) (← digits [s1, s2]) 0
  | [y1, y2, y3, y4, '-', m1, m2, '-', d1, d2, 'T', h1, h2, ':', n1, n2, ':', s1, s2, '.', f1, f2, f3, 'Z'] => do
    instantOf (← digits [y1, y2, y3, y4]) (← digits [m1, m2]) (← digits [d1, d2])
      (← digits [h1, h2]) (← digits [n1, n2]) (← digits [s1, s2]) (← digits [f1, f2, f3])
  | _ => none

def padded (width : Nat) (value : Int) : String :=
  let text := toString value.toNat
  String.ofList (List.replicate (width - text.length) '0') ++ text

def formatUtc (instant : Int) : String :=
  let day := instant / 86400000 + 719468
  let clock := instant % 86400000
  let era := day / 146097
  let dayOfEra := day - era * 146097
  let yearOfEra := (dayOfEra - dayOfEra / 1460 + dayOfEra / 36524 - dayOfEra / 146096) / 365
  let dayOfYear := dayOfEra - (365 * yearOfEra + yearOfEra / 4 - yearOfEra / 100)
  let shifted := (5 * dayOfYear + 2) / 153
  let date := dayOfYear - (153 * shifted + 2) / 5 + 1
  let month := if shifted < 10 then shifted + 3 else shifted - 9
  let year := yearOfEra + era * 400 + (if month ≤ 2 then 1 else 0)
  padded 4 year ++ "-" ++ padded 2 month ++ "-" ++ padded 2 date ++ "T" ++
    padded 2 (clock / 3600000) ++ ":" ++ padded 2 (clock / 60000 % 60) ++ ":" ++
    padded 2 (clock / 1000 % 60) ++ "." ++ padded 3 (clock % 1000) ++ "Z"

def utcDates : Dates where
  parse := parseUtc
  toISOString := formatUtc
  toISOString_nonempty instant := by
    simp [formatUtc, String.append_eq_empty_iff]

example : parseUtc "2026-07-29T00:00:00.500Z" = some 1785283200500 := by decide
example : formatUtc 1785283200500 = "2026-07-29T00:00:00.500Z" := by decide

end Applik8s
