import Applik8s.Lib.JsonText
import Applik8s.Lib.Utf8
import Applik8s.Platform

/-! The text of a command's target: `packages/applik8s/src/command-runtime-contract.ts`. It tells names and values of
a record apart, but not a number or a boolean from the string it prints as, nor a string from the record it spells. -/
namespace Applik8s.CommandKeys
open List Lib

abbrev Text := List Char

/-- The numbers of the host are a parameter, with the text that each one has. -/
inductive Scalar (ν : Type) where
  | string (text : Text) | number (value : ν) | boolean (value : Bool)

/-- A flat record: no two of its members have one name. -/
structure Members (ν : Type) where
  entries : List (Text × Scalar ν)
  distinct : (entries.map Prod.fst).Nodup

/-- `ApplicationCommandKey`. -/
inductive CommandKey (ν : Type) where
  | scalar (value : Scalar ν) | record (members : Members ν)

def isUnreserved (c : Char) : Bool :=
  ('A' ≤ c && c ≤ 'Z') || ('a' ≤ c && c ≤ 'z') || c.isDigit || c ∈ "-_.!~*'()".toList

def hexDigit (value : Nat) : Char := if value < 10 then Char.ofNat (48 + value) else Char.ofNat (55 + value)
def percent (byte : UInt8) : Text := ['%', hexDigit (byte.toNat / 16), hexDigit (byte.toNat % 16)]

def encodeURIComponent (text : Text) : Text :=
  text.flatMap fun c => if isUnreserved c then [c] else (encode [c]).flatMap percent

variable (localeCompare : Text → Text → Int) (numberText : ν → Text)

/-- `String(value)`. -/
def Scalar.text : Scalar ν → Text
  | .string text => text
  | .number value => numberText value
  | .boolean value => if value then "true".toList else "false".toList

def before (left right : Text × α) : Prop := localeCompare left.1 right.1 ≤ 0

instance : DecidableRel (before localeCompare (α := α)) := fun _ _ => inferInstanceAs (Decidable (_ ≤ _))

def canonicalApplicationCommandKey : CommandKey ν → Text
  | .record members =>
    let entries := members.entries.insertionSort (before localeCompare)
    ['&'].intercalate (entries.map fun (key, item) =>
      encodeURIComponent key ++ '=' :: encodeURIComponent (item.text numberText))
  | .scalar value => value.text numberText

/-- `digest` is the SHA-256 of a text, in hexadecimal. -/
def applicationCommandScope (digest : Text → String) (bindingId model : String) (targetKey : Text)
    (idempotencyKey contextDigest : String) : Except String String :=
  if blank contextDigest then .error "Application command scope requires an admitted context digest."
  else .ok ("sha256:" ++ digest (JsonText.stringify (.array [.string "v2", .string bindingId, .string model,
    .string (String.ofList targetKey), .string idempotencyKey, .string contextDigest])))

/-! ### The encoding read back -/

def hexValue (c : Char) : Nat := if c.isDigit then c.toNat - 48 else c.toNat - 55

def decodeURIComponent : Text → List UInt8
  | '%' :: high :: low :: rest => UInt8.ofNat (16 * hexValue high + hexValue low) :: decodeURIComponent rest
  | c :: rest => UInt8.ofNat c.toNat :: decodeURIComponent rest
  | [] => []

theorem hexDigit_spec : ∀ value < 16, hexValue (hexDigit value) = value ∧ isUnreserved (hexDigit value) := by decide

theorem unreserved_range (plain : isUnreserved c) : c.toNat < 128 ∧ c ≠ '%' ∧ c ≠ '&' ∧ c ≠ '=' := by
  refine ⟨?_, ?_, ?_, ?_⟩
  · simp only [isUnreserved, Bool.or_eq_true, Bool.and_eq_true, decide_eq_true_eq] at plain
    rcases plain with ((⟨-, upper⟩ | ⟨-, lower⟩) | digit) | mark
    · exact Nat.lt_of_le_of_lt (UInt32.le_iff_toNat_le.mp upper) (by decide)
    · exact Nat.lt_of_le_of_lt (UInt32.le_iff_toNat_le.mp lower) (by decide)
    · exact Nat.lt_of_le_of_lt (isDigit_range digit).2 (by decide)
    · exact (by simp : ∀ c ∈ "-_.!~*'()".toList, c.toNat < 128) c mark
  all_goals
    rintro rfl
    exact absurd plain (by decide)

theorem decode_percent (byte : UInt8) (rest : Text) :
    decodeURIComponent (percent byte ++ rest) = byte :: decodeURIComponent rest := by
  have high := (hexDigit_spec (byte.toNat / 16) (by have := byte.toNat_lt; omega)).1
  have low := (hexDigit_spec (byte.toNat % 16) (by omega)).1
  simp only [percent, cons_append, nil_append, decodeURIComponent, high, low]
  rw [Nat.div_add_mod, UInt8.ofNat_toNat]

theorem decode_encodeURIComponent (text : Text) : decodeURIComponent (encodeURIComponent text) = encode text := by
  induction text with
  | nil => rfl
  | cons c rest ih =>
    have bytes : ∀ bytes : List UInt8,
        decodeURIComponent (bytes.flatMap percent ++ encodeURIComponent rest) = bytes ++ encode rest := by
      intro bytes
      induction bytes with
      | nil => exact ih
      | cons byte bytes ih => rw [flatMap_cons, append_assoc, decode_percent, ih, cons_append]
    have step : encodeURIComponent (c :: rest) =
        (if isUnreserved c then [c] else (encode [c]).flatMap percent) ++ encodeURIComponent rest := flatMap_cons
    have whole : encode (c :: rest) = encode [c] ++ encode rest := encode_append [c] rest
    rw [step, whole]
    split
    · next plain =>
      obtain ⟨ascii, percent, -⟩ := unreserved_range plain
      have single : encode [c] = [UInt8.ofNat c.toNat] := by
        have small : c.val.toNat ≤ 127 := Nat.le_of_lt_succ ascii
        rw [encode, flatMap_singleton, String.utf8EncodeChar]
        exact if_pos small
      rw [single, singleton_append, singleton_append, ← ih]
      simp [decodeURIComponent, percent]
    · exact bytes _

theorem encodeURIComponent_inj (same : encodeURIComponent one = encodeURIComponent two) : one = two := by
  have bytes : encode one = encode two := by rw [← decode_encodeURIComponent, same, decode_encodeURIComponent]
  have := Decoder.decode_encode one
  rw [bytes, Decoder.decode_encode] at this
  exact (Prod.mk.inj this).2.symm

theorem mem_encodeURIComponent (among : c ∈ encodeURIComponent text) : c ≠ '&' ∧ c ≠ '=' := by
  obtain ⟨source, -, among⟩ := mem_flatMap.mp among
  split at among
  · next plain =>
    obtain rfl := mem_singleton.mp among
    exact (unreserved_range plain).2.2
  obtain ⟨byte, -, among⟩ := mem_flatMap.mp among
  have high := (hexDigit_spec (byte.toNat / 16) (by have := byte.toNat_lt; omega)).2
  have low := (hexDigit_spec (byte.toNat % 16) (by omega)).2
  simp only [percent, mem_cons, not_mem_nil, or_false] at among
  rcases among with rfl | rfl | rfl
  · decide
  · exact (unreserved_range high).2.2
  · exact (unreserved_range low).2.2

/-- The host's collation is a total preorder; it takes some different names for equal. -/
structure Collates : Prop where
  total : ∀ left right, localeCompare left right ≤ 0 ∨ localeCompare right left ≤ 0
  trans : ∀ {left middle right}, localeCompare left middle ≤ 0 → localeCompare middle right ≤ 0 →
    localeCompare left right ≤ 0

/-- No two names of the key compare equal. -/
def Apart : CommandKey ν → Prop
  | .record members => ∀ one ∈ members.entries, ∀ two ∈ members.entries,
      localeCompare one.1 two.1 ≤ 0 → localeCompare two.1 one.1 ≤ 0 → one.1 = two.1
  | .scalar _ => True

def Members.spelled (members : Members ν) : List (Text × Text) :=
  members.entries.map fun (key, item) => (key, item.text numberText)

/-- The same scalar text, or the same names with the same texts in any order. A scalar stands for a record where its
text is the record's. -/
def SameSpelling : CommandKey ν → CommandKey ν → Prop
  | .scalar one, .scalar two => one.text numberText = two.text numberText
  | .record one, .record two => one.spelled numberText ~ two.spelled numberText
  | .scalar value, record | record, .scalar value =>
    canonicalApplicationCommandKey localeCompare numberText record = value.text numberText

def SameTarget : CommandKey ν → CommandKey ν → Prop
  | .scalar one, .scalar two => one = two
  | .record one, .record two => one.entries ~ two.entries
  | _, _ => False

def Scalar.SameType : Scalar ν → Scalar ν → Prop
  | .string _, .string _ | .number _, .number _ | .boolean _, .boolean _ => True
  | _, _ => False

/-- Scalars of one type, or records whose members of one name are of one type. -/
def SameType : CommandKey ν → CommandKey ν → Prop
  | .scalar one, .scalar two => one.SameType two
  | .record one, .record two => ∀ left ∈ one.entries, ∀ right ∈ two.entries, left.1 = right.1 → left.2.SameType right.2
  | _, _ => False

variable {localeCompare} {numberText}

def piece (entry : Text × Text) : Text := encodeURIComponent entry.1 ++ '=' :: encodeURIComponent entry.2

theorem piece_inj (same : piece one = piece two) : one = two := by
  have free : ∀ text, '=' ∉ encodeURIComponent text := fun text among => (mem_encodeURIComponent among).2 rfl
  obtain ⟨name, -, value⟩ := (append_cons_inj_of_notMem (free _) (free _)).mp same
  exact Prod.ext (encodeURIComponent_inj name) (encodeURIComponent_inj value)

theorem pieces_inj {one two : List (Text × Text)}
    (same : ['&'].intercalate (one.map piece) = ['&'].intercalate (two.map piece)) : one = two := by
  have free : ∀ entries : List (Text × Text), ∀ part ∈ entries.map piece, '&' ∉ part := by
    intro entries part among separator
    obtain ⟨entry, -, rfl⟩ := mem_map.mp among
    rcases mem_append.mp separator with name | value
    · exact (mem_encodeURIComponent name).1 rfl
    rcases mem_cons.mp value with equals | value
    · cases equals
    · exact (mem_encodeURIComponent value).1 rfl
  have read : ∀ entries : List (Text × Text), (['&'].intercalate (entries.map piece)).splitOn '&' =
      if entries = [] then [[]] else entries.map piece := by
    intro entries
    split
    · next none => rw [none]; rfl
    · next some => exact splitOn_intercalate '&' (free entries) (by simpa using some)
  have parts := congrArg (splitOn '&') same
  have filled : ∀ entries : List (Text × Text), entries ≠ [] → entries.map piece ≠ [[]] := fun entries some is => by
    cases entries with
    | nil => exact some rfl
    | cons entry rest => simpa [piece] using (cons.inj is).1
  rw [read, read] at parts
  split at parts <;> split at parts
  · next first second => rw [first, second]
  · next some => exact (filled two some parts.symm).elim
  · next some _ => exact (filled one some parts).elim
  · exact map_injective_iff.mpr (fun _ _ => piece_inj) parts

theorem canonical_record (members : Members ν) :
    canonicalApplicationCommandKey localeCompare numberText (.record members) =
      ['&'].intercalate (((members.spelled numberText).insertionSort (before localeCompare)).map piece) := by
  have sorted := map_insertionSort (before localeCompare) (before localeCompare)
    (fun entry : Text × Scalar ν => (entry.1, entry.2.text numberText)) members.entries fun _ _ _ _ => .rfl
  unfold canonicalApplicationCommandKey Members.spelled
  rw [← sorted, map_map]
  rfl

theorem records_canonical_iff (collates : Collates localeCompare) {one two : Members ν}
    (apart : Apart localeCompare (.record one)) :
    canonicalApplicationCommandKey localeCompare numberText (.record one) =
      canonicalApplicationCommandKey localeCompare numberText (.record two) ↔
      one.spelled numberText ~ two.spelled numberText := by
  rw [canonical_record, canonical_record]
  constructor
  · intro same
    have sorted := pieces_inj same
    have first := perm_insertionSort (before localeCompare) (one.spelled numberText)
    rw [sorted] at first
    exact first.symm.trans (perm_insertionSort _ _)
  intro same
  have : Std.Total (before localeCompare (α := Text)) := ⟨fun _ _ => collates.total _ _⟩
  have : IsTrans _ (before localeCompare (α := Text)) := ⟨fun _ _ _ => collates.trans⟩
  congr 2
  refine Perm.eq_of_pairwise ?_ (pairwise_insertionSort _ _) (pairwise_insertionSort _ _)
    ((perm_insertionSort _ _).trans (same.trans (perm_insertionSort _ _).symm))
  intro left right inOne inTwo before after
  obtain ⟨⟨name, item⟩, among, rfl⟩ := mem_map.mp ((perm_insertionSort _ _).mem_iff.mp inOne)
  obtain ⟨⟨other, value⟩, present, rfl⟩ :=
    mem_map.mp (same.mem_iff.mpr ((perm_insertionSort _ _).mem_iff.mp inTwo))
  obtain rfl : name = other := apart _ among _ present before after
  rw [inj_on_of_nodup_map one.distinct among present rfl]

/-- Which keys have the same text, and so the same scope. -/
theorem keys_canonical_iff (collates : Collates localeCompare) (one two : CommandKey ν)
    (apart : Apart localeCompare one) : canonicalApplicationCommandKey localeCompare numberText one =
      canonicalApplicationCommandKey localeCompare numberText two ↔
      SameSpelling localeCompare numberText one two := by
  cases one with
  | scalar value =>
    cases two with
    | scalar => rfl
    | record => exact eq_comm
  | record members =>
    cases two with
    | scalar => rfl
    | record => exact records_canonical_iff collates apart

theorem Scalar.text_inj {one two : Scalar ν} (printed : Function.Injective numberText) (type : one.SameType two)
    (same : one.text numberText = two.text numberText) : one = two := by
  cases one with
  | string =>
    cases two with
    | string => exact congrArg _ same
    | _ => cases type
  | number =>
    cases two with
    | number => exact congrArg _ (printed same)
    | _ => cases type
  | boolean one =>
    cases two with
    | boolean two => cases one <;> cases two <;> first | rfl | cases same
    | _ => cases type

theorem Members.subset_of_spelled {one two : Members ν} (printed : Function.Injective numberText)
    (type : ∀ left ∈ one.entries, ∀ right ∈ two.entries, left.1 = right.1 → left.2.SameType right.2)
    (spelled : one.spelled numberText ⊆ two.spelled numberText) : one.entries ⊆ two.entries := by
  rintro ⟨name, item⟩ among
  obtain ⟨⟨other, value⟩, present, is⟩ := mem_map.mp (spelled (mem_map_of_mem among))
  obtain ⟨rfl, text⟩ := Prod.mk.inj is
  obtain rfl := Scalar.text_inj printed (type _ among _ present rfl) text.symm
  exact present

theorem Scalar.SameType.symm {one two : Scalar ν} (type : one.SameType two) : two.SameType one := by
  cases one <;> cases two <;> trivial

theorem spelling_iff_target (printed : Function.Injective numberText) {one two : CommandKey ν}
    (type : SameType one two) : SameSpelling localeCompare numberText one two ↔ SameTarget one two := by
  cases one with
  | scalar value =>
    cases two with
    | scalar other => exact ⟨Scalar.text_inj printed type, congrArg _⟩
    | record => cases type
  | record one =>
    cases two with
    | scalar => cases type
    | record two =>
      refine ⟨fun same => ?_, Perm.map _⟩
      have back := Members.subset_of_spelled printed
        (fun left among right present is => (type right present left among is.symm).symm) same.symm.subset
      have distinct (members : Members ν) : members.entries.Nodup := .of_map _ members.distinct
      exact (perm_ext_iff_of_nodup (distinct one) (distinct two)).mpr fun _ =>
        ⟨(Members.subset_of_spelled printed type same.subset ·), (back ·)⟩

theorem applicationCommandScope_inj {digest : Text → String} (injective : Function.Injective digest)
    (admitted : blank contextDigest = false)
    (same : applicationCommandScope digest bindingId model one idempotencyKey contextDigest =
      applicationCommandScope digest bindingId model two idempotencyKey contextDigest) : one = two := by
  simp only [applicationCommandScope, admitted, Bool.false_eq_true, if_false, Except.ok.injEq] at same
  have hashed := injective (String.toList_inj.mp (by simpa using congrArg String.toList same))
  have parsed := congrArg JsonText.parse hashed
  rw [JsonText.parse_stringify _ (by simp [JsonText.Proper, JsonText.ProperItems]),
    JsonText.parse_stringify _ (by simp [JsonText.Proper, JsonText.ProperItems])] at parsed
  exact String.ofList_inj.mp (by simpa using parsed)

/-- Keys have one text when they are spelled alike, and so, of one type, when they are one target; and commands that
differ in nothing else have one scope when their keys have one text. -/
theorem command_keys_canonical {digest : Text → String} (collates : Collates localeCompare)
    (printed : Function.Injective numberText) (injective : Function.Injective digest) (one two : CommandKey ν)
    (apart : Apart localeCompare one) : let text := canonicalApplicationCommandKey localeCompare numberText
    (text one = text two ↔ SameSpelling localeCompare numberText one two) ∧
      (SameType one two → (text one = text two ↔ SameTarget one two)) ∧
      ∀ bindingId model idempotencyKey contextDigest, blank contextDigest = false →
        (applicationCommandScope digest bindingId model (text one) idempotencyKey contextDigest =
          applicationCommandScope digest bindingId model (text two) idempotencyKey contextDigest ↔
          text one = text two) := by
  have spelled : _ ↔ SameSpelling localeCompare numberText one two := keys_canonical_iff collates one two apart
  exact ⟨spelled, fun type => spelled.trans (spelling_iff_target printed type), fun _ _ _ _ admitted =>
    ⟨applicationCommandScope_inj injective admitted, fun same => by rw [same]⟩⟩

/-- The order of two names of different lengths, shorter first. -/
def byLength (left right : Text) : Int := left.length - right.length

def tenantKey : Members Nat := ⟨[("id".toList, .number 42), ("tenant".toList, .string "a".toList)], by decide⟩
def reordered : Members Nat := ⟨[("tenant".toList, .string "a".toList), ("id".toList, .number 42)], by decide⟩

theorem reordered_canonical : canonicalApplicationCommandKey byLength (Nat.toDigits 10) (.record tenantKey) =
    canonicalApplicationCommandKey byLength (Nat.toDigits 10) (.record reordered) := by
  have collates : Collates byLength :=
    ⟨fun _ _ => by unfold byLength; omega, fun one two => by unfold byLength at *; omega⟩
  have apart : Apart byLength (.record tenantKey) := by
    simp [Apart, tenantKey, byLength]
  have type : SameType (.record tenantKey) (.record reordered) := by
    simp [SameType, tenantKey, reordered, Scalar.SameType]
  have injective : Function.Injective String.ofList := fun _ _ => String.ofList_inj.mp
  exact ((command_keys_canonical collates (fun _ _ => decimal_natCast_inj) injective _ _ apart).2.1 type).mpr
    (.swap _ _ _)

theorem number_spells_string : canonicalApplicationCommandKey byLength (Nat.toDigits 10) (.scalar (.number 42)) =
      canonicalApplicationCommandKey byLength (Nat.toDigits 10) (.scalar (.string "42".toList)) ∧
    ¬ SameTarget (.scalar (.number 42)) (.scalar (.string "42".toList) : CommandKey Nat) :=
  ⟨by decide, fun same => by cases same⟩

end Applik8s.CommandKeys
