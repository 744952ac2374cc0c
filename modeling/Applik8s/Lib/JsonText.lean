import Mathlib.Data.List.TakeWhile
import Mathlib.Tactic.Ring
import Applik8s.Lib.Decimal
import Applik8s.Lib.Json
import Applik8s.Lib.Record

/-! JSON as text: `JSON.stringify` and `JSON.parse`. Numbers are exact, and of the numbers only integers have
a text here; half of a surrogate pair that stands alone is read as a replacement character. What is written is
read back. -/
namespace Applik8s.Lib.JsonText
open List Option Nat
open Char (isDigit ofNat)

def quote : Char := ofNat 34
def backslash : Char := ofNat 92

def escaped (char : Char) : List Char :=
  let code := char.toNat
  if code = 34 then [backslash, quote]
  else if code = 92 then [backslash, backslash]
  else if code = 8 then [backslash, 'b']
  else if code = 9 then [backslash, 't']
  else if code = 10 then [backslash, 'n']
  else if code = 12 then [backslash, 'f']
  else if code = 13 then [backslash, 'r']
  else if code < 32 then [backslash, 'u', '0', '0', digitChar (code / 16), digitChar (code % 16)]
  else [char]

def quoted (text : String) : List Char := quote :: text.toList.flatMap escaped ++ [quote]

mutual

def stringify : Json → List Char
  | .null => ['n', 'u', 'l', 'l']
  | .boolean true => ['t', 'r', 'u', 'e']
  | .boolean false => ['f', 'a', 'l', 's', 'e']
  | .number value => decimal value.num
  | .string text => quoted text
  | .array [] => ['[', ']']
  | .array (item :: items) => '[' :: (stringify item ++ stringifyItems items)
  | .object [] => ['{', '}']
  | .object ((name, value) :: members) => '{' :: (quoted name ++ ':' :: stringify value ++ stringifyMembers members)

def stringifyItems : List Json → List Char
  | [] => [']']
  | item :: items => ',' :: (stringify item ++ stringifyItems items)

def stringifyMembers : List (String × Json) → List Char
  | [] => ['}']
  | (name, value) :: members => ',' :: (quoted name ++ ':' :: stringify value ++ stringifyMembers members)

end

def isBlank (char : Char) : Bool :=
  char.toNat = 32 || char.toNat = 9 || char.toNat = 10 || char.toNat = 13

variable (input : List Char)

def skip : List Char := input.dropWhile isBlank

def unhex (char : Char) : Option Nat :=
  let code := char.toNat
  if 48 ≤ code ∧ code ≤ 57 then some (code - 48)
  else if 97 ≤ code ∧ code ≤ 102 then some (code - 87)
  else if 65 ≤ code ∧ code ≤ 70 then some (code - 55)
  else none

def unit (a b c d : Char) : Option Nat := do
  some ((((← unhex a) * 16 + (← unhex b)) * 16 + (← unhex c)) * 16 + (← unhex d))

/-- The character of a code unit, unless it is half of a pair. -/
def ofUnit (value : Nat) : Char :=
  if 0xD800 ≤ value ∧ value ≤ 0xDFFF then ofNat 0xFFFD else ofNat value

/-- What a mark stands for behind a backslash, other than `u`. -/
def unescaped (mark : Char) : Option Char :=
  if mark.toNat = 34 ∨ mark.toNat = 92 ∨ mark = '/' then some mark
  else if mark = 'b' then some (ofNat 8)
  else if mark = 't' then some (ofNat 9)
  else if mark = 'n' then some (ofNat 10)
  else if mark = 'f' then some (ofNat 12)
  else if mark = 'r' then some (ofNat 13)
  else none

def parseString : List Char → Option (List Char × List Char)
  | [] => none
  | char :: rest =>
    if char.toNat = 34 then some ([], rest)
    else if char.toNat < 32 then none
    else if char.toNat = 92 then
      match rest with
      | 'u' :: a :: b :: c :: d :: rest =>
        match unit a b c d with
        | none => none
        | some high =>
          match rest with
          | mark :: 'u' :: e :: f :: g :: h :: later =>
            match unit e f g h with
            | some low =>
              if mark.toNat = 92 ∧ 0xD800 ≤ high ∧ high ≤ 0xDBFF ∧ 0xDC00 ≤ low ∧ low ≤ 0xDFFF then
                (parseString later).map fun (text, after) =>
                  (ofNat (0x10000 + (high - 0xD800) * 0x400 + (low - 0xDC00)) :: text, after)
              else
                (parseString (mark :: 'u' :: e :: f :: g :: h :: later)).map fun (text, after) =>
                  (ofUnit high :: text, after)
            | none =>
              (parseString (mark :: 'u' :: e :: f :: g :: h :: later)).map fun (text, after) =>
                (ofUnit high :: text, after)
          | rest => (parseString rest).map fun (text, after) => (ofUnit high :: text, after)
      | mark :: rest =>
        match unescaped mark with
        | none => none
        | some char => (parseString rest).map fun (text, after) => (char :: text, after)
      | [] => none
    else (parseString rest).map fun (text, after) => (char :: text, after)

def spanDigits : List Char × List Char :=
  (input.takeWhile isDigit, input.dropWhile isDigit)

/-- `.` and digits. -/
def parseFraction : Option (Rat × List Char) :=
  match input with
  | '.' :: rest =>
    let (digits, after) := spanDigits rest
    if digits = [] then none
    else some (ofDigitChars 10 digits 0 / (10 ^ digits.length : Nat), after)
  | _ => some (0, input)

/-- `e`, a sign and digits. -/
def parseExponent : Option (Rat × List Char) :=
  match input with
  | mark :: rest =>
    if mark = 'e' ∨ mark = 'E' then
      let negative := rest.head? = some '-'
      let rest := if rest.head? = some '-' ∨ rest.head? = some '+' then rest.tail else rest
      let (digits, after) := spanDigits rest
      if digits = [] then none
      else
        let power : Rat := (10 ^ ofDigitChars 10 digits 0 : Nat)
        some (if negative then 1 / power else power, after)
    else some (1, input)
  | [] => some (1, input)

def parseNumber : Option (Rat × List Char) := do
  let negative := input.head? = some '-'
  let (digits, rest) := spanDigits (if negative then input.tail else input)
  if digits = [] ∨ (digits.head? = some '0' ∧ 1 < digits.length) then none
  else
    let (fraction, rest) ← parseFraction rest
    let (power, rest) ← parseExponent rest
    let value := (ofDigitChars 10 digits 0 + fraction) * power
    some (if negative then -value else value, rest)

def parseLiteral (literal : List Char) (value : Json) (input : List Char) : Option (Json × List Char) :=
  if literal.isPrefixOf input then some (value, input.drop literal.length) else none

def parseName : Option (String × List Char) :=
  match skip input with
  | [] => none
  | char :: rest =>
    if char.toNat = 34 then
      match parseString rest with
      | none => none
      | some (name, after) =>
        match skip after with
        | ':' :: after => some (String.ofList name, after)
        | _ => none
    else none

mutual

def parseValue : Nat → List Char → Option (Json × List Char)
  | 0, _ => none
  | fuel + 1, input =>
    match skip input with
    | [] => none
    | char :: rest =>
      if char.toNat = 34 then (parseString rest).map fun (text, after) => (.string (String.ofList text), after)
      else if char = '[' then
        match skip rest with
        | ']' :: after => some (.array [], after)
        | rest =>
          match parseValue fuel rest with
          | none => none
          | some (item, after) => (parseItems fuel after).map fun (items, after) => (.array (item :: items), after)
      else if char = '{' then
        match skip rest with
        | '}' :: after => some (.object [], after)
        | rest => (parseMember fuel [] rest).map fun (members, after) => (.object members, after)
      else if char = 'n' then parseLiteral ['n', 'u', 'l', 'l'] .null (char :: rest)
      else if char = 't' then parseLiteral ['t', 'r', 'u', 'e'] (.boolean true) (char :: rest)
      else if char = 'f' then parseLiteral ['f', 'a', 'l', 's', 'e'] (.boolean false) (char :: rest)
      else (parseNumber (char :: rest)).map fun (value, after) => (.number value, after)

def parseItems : Nat → List Char → Option (List Json × List Char)
  | 0, _ => none
  | fuel + 1, input =>
    match skip input with
    | ']' :: after => some ([], after)
    | ',' :: rest =>
      match parseValue fuel rest with
      | none => none
      | some (item, after) => (parseItems fuel after).map fun (items, after) => (item :: items, after)
    | _ => none

/-- A member of an object. A name that comes again replaces the value. -/
def parseMember : Nat → Record Json → List Char → Option (Record Json × List Char)
  | 0, _, _ => none
  | fuel + 1, members, input =>
    match parseName input with
    | none => none
    | some (name, rest) =>
      match parseValue fuel rest with
      | none => none
      | some (value, after) => parseMembers fuel (members.set name value) after

def parseMembers : Nat → Record Json → List Char → Option (Record Json × List Char)
  | 0, _, _ => none
  | fuel + 1, members, input =>
    match skip input with
    | '}' :: after => some (members, after)
    | ',' :: rest => parseMember fuel members rest
    | _ => none

end

/-- `JSON.parse`. -/
def parse (text : List Char) : Option Json :=
  match parseValue (text.length + 1) text with
  | some (value, rest) => if skip rest = [] then some value else none
  | none => none

/-! ### What is written is read back -/

mutual

/-- A value whose numbers are integers and whose objects name no member twice. -/
def Proper : Json → Prop
  | .number value => value.den = 1
  | .array items => ProperItems items
  | .object members => (members.map Prod.fst).Nodup ∧ ProperMembers members
  | .null | .boolean _ | .string _ => True

def ProperItems : List Json → Prop
  | [] => True
  | item :: items => Proper item ∧ ProperItems items

def ProperMembers : List (String × Json) → Prop
  | [] => True
  | (_, value) :: members => Proper value ∧ ProperMembers members

end

theorem skip_cons (bare : isBlank char = false) (rest : List Char) : skip (char :: rest) = char :: rest := by
  rw [skip, dropWhile_cons_of_neg (by simp [bare])]

private theorem unhex_digitChar (small : value < 16) : unhex (digitChar value) = some value := by
  have each : ∀ value : Fin 16, unhex (digitChar value) = some value.val := by decide +kernel
  exact each ⟨value, small⟩

private theorem parseString_unit (is : unit a b c d = some value) (low : value < 0xD800) (tail : List Char) :
    parseString (backslash :: 'u' :: a :: b :: c :: d :: tail) =
      (parseString tail).map fun (text, after) => (ofUnit value :: text, after) := by
  rw [parseString.eq_def]
  dsimp only
  rw [if_neg (by decide), if_neg (by decide), if_pos (by decide)]
  split
  · next same =>
    cases same
    rw [is]
    dsimp only
    split
    · split
      · rw [if_neg (by omega)]
      · rfl
    · rfl
  · next other same =>
    cases same
    exact (other _ _ _ _ _ rfl rfl).elim
  · next same => cases same

theorem parseString_escaped (char : Char) (tail : List Char) : parseString (escaped char ++ tail) =
      (parseString tail).map fun (text, after) => (char :: text, after) := by
  have same : ∀ code, char.toNat = code → char = ofNat code := fun code is => by
    rw [← is, Char.ofNat_toNat]
  unfold escaped
  dsimp only
  split
  · next is => rw [same _ is]; rfl
  split
  · next is => rw [same _ is]; rfl
  split
  · next is => rw [same _ is]; rfl
  split
  · next is => rw [same _ is]; rfl
  split
  · next is => rw [same _ is]; rfl
  split
  · next is => rw [same _ is]; rfl
  split
  · next is => rw [same _ is]; rfl
  split
  · next small =>
    have read : unit '0' '0' (digitChar (char.toNat / 16)) (digitChar (char.toNat % 16)) =
        some char.toNat := by
      rw [unit, unhex_digitChar (by omega), unhex_digitChar (by omega)]
      exact congrArg some (by omega : ((0 * 16 + 0) * 16 + char.toNat / 16) * 16 + char.toNat % 16 = char.toNat)
    have itself : ofUnit char.toNat = char := by rw [ofUnit, if_neg (by omega), Char.ofNat_toNat]
    rw [cons_append, cons_append, cons_append, cons_append, cons_append,
      cons_append, nil_append, parseString_unit read (by omega), itself]
  · next quoteless slashless _ _ _ _ _ printable =>
    rw [singleton_append, parseString.eq_def]
    dsimp only
    rw [if_neg quoteless, if_neg printable, if_neg slashless]

theorem parseString_quoted (text : List Char) (rest : List Char) :
    parseString (text.flatMap escaped ++ quote :: rest) = some (text, rest) := by
  induction text with
  | nil =>
    rw [flatMap_nil, nil_append, parseString.eq_def]
    exact if_pos (by decide)
  | cons char text ih =>
    rw [flatMap_cons, append_assoc, parseString_escaped, ih]
    rfl

theorem parseName_quoted (name : String) (rest : List Char) :
    parseName (quoted name ++ ':' :: rest) = some (name, rest) := by
  unfold parseName quoted
  rw [cons_append, cons_append, append_assoc, skip_cons (by decide)]
  dsimp only
  rw [if_pos (by decide), singleton_append, parseString_quoted]
  dsimp only
  rw [skip_cons (by decide), String.ofList_toList]
  rfl

def Ends (rest : List Char) : Prop :=
  ∀ char ∈ rest.head?, char.isDigit = false ∧ char ≠ '.' ∧ char ≠ 'e' ∧ char ≠ 'E'

private theorem spanDigits_append (all : ∀ char ∈ front, char.isDigit = true) (ends : Ends rest)
    : spanDigits (front ++ rest) = (front, rest) := by
  have none_ : rest.takeWhile isDigit = [] ∧ rest.dropWhile isDigit = rest := by
    cases rest with
    | nil => exact ⟨rfl, rfl⟩
    | cons char rest =>
      have not := (ends char rfl).1
      exact ⟨takeWhile_cons_of_neg (by simp [not]), dropWhile_cons_of_neg (by simp [not])⟩
  rw [spanDigits, takeWhile_append_of_pos all, dropWhile_append_of_pos all, none_.1, none_.2, append_nil]

private theorem parse_whole (ends : Ends rest) :
    parseFraction rest = some (0, rest) ∧ parseExponent rest = some (1, rest) := by
  cases rest with
  | nil => exact ⟨rfl, rfl⟩
  | cons char rest =>
    obtain ⟨-, point, small, large⟩ := ends char rfl
    refine ⟨?_, ?_⟩
    · unfold parseFraction
      split
      · next is => exact absurd (cons.inj is).1 point
      · rfl
    · unfold parseExponent
      dsimp only
      rw [if_neg (by simp [small, large])]

private theorem toDigits_leading (value : Nat) (positive : 0 < value) : (toDigits 10 value).head? ≠ some '0' := by
  induction value using Nat.strongRecOn with
  | ind value ih =>
    by_cases small : value < 10
    · rw [toDigits_of_lt_base small, head?_cons]
      intro zero
      exact positive.ne' (digitChar_eq_zero.mp (some.inj zero))
    · rw [toDigits_of_base_le (by decide) (by omega), head?_append_of_ne_nil _ toDigits_ne_nil]
      exact ih (value / 10) (by omega) (by omega)

private theorem single_zero (value : Nat) : ¬ (toDigits 10 value = [] ∨
      ((toDigits 10 value).head? = some '0' ∧ 1 < (toDigits 10 value).length)) := by
  rintro (empty | ⟨zero, long⟩)
  · exact toDigits_ne_nil empty
  by_cases positive : 0 < value
  · exact toDigits_leading value positive zero
  · rw [Nat.eq_zero_of_not_pos positive] at long
    exact absurd long (by decide)

theorem parseNumber_decimal (value : Int) (ends : Ends rest) :
    parseNumber (decimal value ++ rest) = some ((value : Rat), rest) := by
  obtain ⟨fraction, exponent⟩ := parse_whole ends
  have digits : ∀ value, spanDigits (toDigits 10 value ++ rest) = (toDigits 10 value, rest) :=
    fun value => spanDigits_append (fun char among => toDigits_isDigit among) ends
  have read : ∀ value : Nat, ((ofDigitChars 10 (toDigits 10 value) 0 : Rat) + 0) * 1 = value := by
    intro value
    rw [ofDigitChars_ten_toDigits]
    ring
  cases value with
  | ofNat value =>
    have positive : ((toDigits 10 value ++ rest).head? = some '-') = False := by
      rw [head?_append_of_ne_nil _ toDigits_ne_nil]
      exact eq_false (toDigits_head value)
    simp only [parseNumber, decimal, positive, if_false, digits, if_neg (single_zero value), fraction, exponent,
      read, bind_eq_bind, bind_some]
    rfl
  | negSucc value =>
    simp only [parseNumber, decimal, cons_append, head?_cons, tail_cons, if_true, digits,
      if_neg (single_zero (value + 1)), fraction, exponent, read, bind_eq_bind, bind_some]
    simp

private theorem stringify_head (value : Json) :
    ∃ char more, stringify value = char :: more ∧ isBlank char = false ∧ char ≠ ']' := by
  cases value with
  | null => exact ⟨_, _, rfl, by decide, by decide⟩
  | boolean value => cases value <;> exact ⟨_, _, rfl, by decide, by decide⟩
  | string text => exact ⟨_, _, rfl, by decide, by decide⟩
  | array items => cases items <;> exact ⟨_, _, rfl, by decide, by decide⟩
  | object members => cases members <;> exact ⟨_, _, rfl, by decide, by decide⟩
  | number value =>
    obtain ⟨char, more, is⟩ := exists_cons_of_ne_nil (decimal_ne_nil value.num)
    have range := decimal_range value.num char (by rw [is]; exact mem_cons_self)
    refine ⟨char, more, is, ?_, ?_⟩
    · simp only [isBlank, Bool.or_eq_false_iff, decide_eq_false_iff_not]
      omega
    · rintro rfl
      exact absurd range.2 (by decide)

private theorem skip_stringify (value : Json) (tail : List Char) :
    skip (stringify value ++ tail) = stringify value ++ tail := by
  obtain ⟨_, _, is, bare, -⟩ := stringify_head value
  rw [is, cons_append, skip_cons bare]

private theorem ends_items (items : List Json) (rest : List Char) : Ends (stringifyItems items ++ rest) := by
  cases items <;> (rintro _ ⟨⟩; decide)

private theorem ends_members (members : List (String × Json)) (rest : List Char) :
    Ends (stringifyMembers members ++ rest) := by
  rcases members with _ | ⟨⟨_, _⟩, _⟩ <;> (rintro _ ⟨⟩; decide)

private theorem parseMember_of {after : List Char} (read : parseValue fuel (text ++ after) = some (value, after))
    (others : parseMembers fuel (acc.set name value) after = some (members, rest)) :
    parseMember (fuel + 1) acc (quoted name ++ ':' :: text ++ after) = some (members, rest) := by
  unfold parseMember
  rw [append_assoc, cons_append, parseName_quoted]
  dsimp only
  rw [read]
  exact others

private theorem parseItems_of {after : List Char} (read : parseValue fuel (text ++ after) = some (item, after))
    (others : parseItems fuel after = some (items, rest)) :
    parseItems (fuel + 1) (',' :: (text ++ after)) = some (item :: items, rest) := by
  unfold parseItems
  rw [skip_cons (by decide)]
  split
  · next is => exact absurd (cons.inj is).1 (by decide)
  · next is =>
    obtain rfl := (cons.inj is).2
    rw [read]
    dsimp only
    rw [others]
    rfl
  · next other => exact (other _ rfl).elim

private theorem parseMembers_of (read : parseMember fuel acc (quoted name ++ text) = some (members, rest)) :
    parseMembers (fuel + 1) acc (',' :: (quoted name ++ text)) = some (members, rest) := by
  unfold parseMembers
  rw [skip_cons (by decide)]
  split
  · next is => exact absurd (cons.inj is).1 (by decide)
  · next is =>
    obtain rfl := (cons.inj is).2
    exact read
  · next other => exact (other _ rfl).elim

mutual

theorem parseValue_stringify (value : Json) (proper : Proper value) (fuel : Nat) (rest : List Char)
    (ends : Ends rest) (enough : (stringify value ++ rest).length < fuel) :
    parseValue fuel (stringify value ++ rest) = some (value, rest) := by
  obtain ⟨fuel, rfl⟩ : ∃ less, fuel = less + 1 := ⟨fuel - 1, by omega⟩
  unfold parseValue
  rw [skip_stringify]
  cases value with
  | null => rfl
  | boolean value => cases value <;> rfl
  | string text =>
    rw [stringify, quoted, cons_append, cons_append, append_assoc]
    dsimp only
    rw [if_pos (by decide), singleton_append, parseString_quoted]
    simp
  | number value =>
    obtain ⟨char, more, is⟩ := exists_cons_of_ne_nil (decimal_ne_nil value.num)
    have range := decimal_range value.num char (by rw [is]; exact mem_cons_self)
    have apart : ∀ other : Char, 57 < other.toNat → char ≠ other := by
      rintro other _ rfl
      omega
    have read := parseNumber_decimal value.num ends
    rw [stringify]
    rw [is, cons_append] at read ⊢
    dsimp only
    rw [if_neg (by omega), if_neg (apart _ (by decide)), if_neg (apart _ (by decide)), if_neg (apart _ (by decide)),
      if_neg (apart _ (by decide)), if_neg (apart _ (by decide)), read]
    change some (Json.number value.num, rest) = some (Json.number value, rest)
    rw [Rat.coe_int_num_of_den_eq_one proper]
  | array items =>
    cases items with
    | nil => rfl
    | cons item items =>
      rw [stringify, cons_append, append_assoc] at enough ⊢
      dsimp only
      rw [if_neg (by decide), if_pos rfl, skip_stringify]
      split
      · next after is =>
        obtain ⟨_, _, begins, -, other⟩ := stringify_head item
        rw [begins] at is
        exact absurd (cons.inj is).1 other
      have shorter : (stringify item ++ (stringifyItems items ++ rest)).length < fuel := by
        simpa using enough
      rw [parseValue_stringify item proper.1 fuel _ (ends_items items rest) shorter]
      dsimp only
      rw [parseItems_stringify items proper.2 fuel rest (by simp only [length_append] at shorter ⊢; omega)]
      rfl
  | object members =>
    rcases members with _ | ⟨⟨name, value⟩, members⟩
    · rfl
    rw [stringify, cons_append, append_assoc] at enough ⊢
    dsimp only
    rw [if_neg (by decide), if_neg (by decide), if_pos rfl]
    have bare : skip (quoted name ++ ':' :: stringify value ++ (stringifyMembers members ++ rest)) =
        quoted name ++ ':' :: stringify value ++ (stringifyMembers members ++ rest) := skip_cons (by decide) _
    rw [bare]
    split
    · next after is => exact absurd (cons.inj is).1 (by decide)
    have shorter : (stringify value ++ (stringifyMembers members ++ rest)).length + 2 < fuel := by
      simp only [quoted, length_append, length_cons] at enough ⊢
      omega
    obtain ⟨fuel, rfl⟩ : ∃ less, fuel = less + 1 := ⟨fuel - 1, by omega⟩
    obtain ⟨fresh, distinct⟩ := nodup_cons.mp proper.1
    rw [parseMember_of (parseValue_stringify value proper.2.1 fuel _ (ends_members members rest) (by omega))
      (parseMembers_stringify members proper.2.2 distinct _ (fun member among => ?_) fuel rest ?_)]
    · rfl
    · simp only [length_append] at shorter ⊢
      omega
    · rw [Record.set, Record.get_cons, if_neg fun same => fresh ?_]
      · rfl
      · exact mem_map.mpr ⟨member, among, same.symm⟩

theorem parseItems_stringify (items : List Json) (proper : ProperItems items) (fuel : Nat) (rest : List Char)
    (enough : (stringifyItems items ++ rest).length < fuel) :
    parseItems fuel (stringifyItems items ++ rest) = some (items, rest) := by
  obtain ⟨fuel, rfl⟩ : ∃ less, fuel = less + 1 := ⟨fuel - 1, by omega⟩
  cases items with
  | nil => rfl
  | cons item items =>
    rw [stringifyItems, cons_append, append_assoc] at enough ⊢
    have shorter : (stringify item ++ (stringifyItems items ++ rest)).length < fuel := by
      simpa using enough
    exact parseItems_of (parseValue_stringify item proper.1 fuel _ (ends_items items rest) shorter)
      (parseItems_stringify items proper.2 fuel rest (by simp only [length_append] at shorter ⊢; omega))

theorem parseMembers_stringify (members : List (String × Json)) (proper : ProperMembers members)
    (distinct : (members.map Prod.fst).Nodup) (acc : Record Json)
    (apart : ∀ member ∈ members, acc.get member.1 = none) (fuel : Nat) (rest : List Char)
    (enough : (stringifyMembers members ++ rest).length < fuel) :
    parseMembers fuel acc (stringifyMembers members ++ rest) = some (acc ++ members, rest) := by
  obtain ⟨fuel, rfl⟩ : ∃ less, fuel = less + 1 := ⟨fuel - 1, by omega⟩
  rcases members with _ | ⟨⟨_, value⟩, members⟩
  · rw [append_nil]
    rfl
  obtain ⟨fresh, distinct⟩ := nodup_cons.mp distinct
  obtain ⟨here, apart⟩ := forall_mem_cons.mp apart
  rw [stringifyMembers, cons_append, append_assoc] at enough ⊢
  have shorter : (stringify value ++ (stringifyMembers members ++ rest)).length + 2 < fuel := by
    simp only [quoted, length_append, length_cons] at enough ⊢
    omega
  obtain ⟨fuel, rfl⟩ : ∃ less, fuel = less + 1 := ⟨fuel - 1, by omega⟩
  rw [append_assoc]
  refine parseMembers_of ?_
  rw [← append_assoc]
  refine parseMember_of (parseValue_stringify value proper.1 fuel _ (ends_members members rest) (by omega)) ?_
  rw [parseMembers_stringify members proper.2 distinct _ (fun member among => ?_) fuel rest ?_]
  · rw [Record.set_absent here, append_assoc]
    rfl
  · simp only [length_append] at shorter ⊢
    omega
  · rw [Record.get_set_ne _ fun same => fresh ?_]
    · exact apart member among
    · exact mem_map.mpr ⟨member, among, same⟩

end

theorem parse_stringify (value : Json) (proper : Proper value) : parse (stringify value) = some value := by
  have read := parseValue_stringify value proper ((stringify value).length + 1) [] (by simp [Ends]) (by simp)
  rw [append_nil] at read
  rw [parse, read]
  rfl

end Applik8s.Lib.JsonText
