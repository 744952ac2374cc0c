import Mathlib.Data.List.DropRight
import Applik8s.Lib.Decimal
import Applik8s.Lib.Utf8
import Applik8s.Platform

/-! `assertStripeSignature` of `packages/billing-stripe/src/index.ts`. Of several signatures it reads the last one only,
and up to the first pair that is not hexadecimal; what it authenticates is the body as UTF-8 decoding leaves it, and
the time as a number is printed. -/
namespace Applik8s.Signature
open List Option
open Lib (encode Decoder)

abbrev Text := List Char
abbrev Bytes := List UInt8

def trim (text : Text) : Text := (text.dropWhile isTrimmed).rdropWhile isTrimmed

/-- `part.trim().split('=', 2)`. -/
def element (part : Text) : Text × Option Text :=
  match (trim part).splitOn '=' with
  | key :: value :: _ => (key, some value)
  | key :: [] => (key, none)
  | [] => ([], none)

def elements (header : String) : List (Text × Option Text) := (header.toList.splitOn ',').map element

def withKey (header : String) (key : String) : List (Option Text) :=
  ((elements header).filter (·.1 = key.toList)).map Prod.snd

/-- A member of `Object.fromEntries`: the last one of its key. -/
def entry (header : String) (key : String) : Option Text := ((withKey header key).getLast?).join

/-- `Number(text)`, where that is a safe integer. Of all texts we read decimal digits only. -/
def safeInteger (text : Text) : Option Nat :=
  if text ≠ [] ∧ text.all Char.isDigit ∧ Nat.ofDigitChars 10 text 0 < 2 ^ 53 then
    some (Nat.ofDigitChars 10 text 0)
  else none

/-- `new TextDecoder().decode(body)`: a byte order mark is left out. -/
def textDecode (body : Bytes) : Text :=
  let (decoder, decoded) := ({} : Decoder).decode body
  let text := if decoder.needed = 0 then decoded else decoded ++ [Decoder.replacement]
  if text.head? = some (Char.ofNat 0xFEFF) then text.tail else text

def hexDigit (c : Char) : Option Nat :=
  if c.isDigit then some (c.toNat - 48)
  else if 'a' ≤ c ∧ c ≤ 'f' then some (c.toNat - 87)
  else if 'A' ≤ c ∧ c ≤ 'F' then some (c.toNat - 55)
  else none

/-- `Buffer.from(text, 'hex')`: up to the first pair that is not two digits. -/
def fromHex : Text → Bytes
  | high :: low :: rest =>
    match hexDigit high, hexDigit low with
    | some h, some l => UInt8.ofNat (16 * h + l) :: fromHex rest
    | _, _ => []
  | _ => []

def signedBytes (timestamp : Nat) (body : Bytes) : Bytes :=
  encode (Nat.toDigits 10 timestamp ++ '.' :: textDecode body)

/-- `now` is in milliseconds, and `hmac` is HMAC-SHA256. -/
def assertStripeSignature (hmac : String → Bytes → Bytes) (body : Bytes) (signatureHeader secret : String) (now : Int)
    (toleranceSeconds : Int) : Except String Unit :=
  match (entry signatureHeader "t").bind safeInteger, entry signatureHeader "v1" with
  | some timestamp, some (first :: rest) =>
    if toleranceSeconds < (now / 1000 - timestamp).natAbs then
      .error "Stripe webhook signature is outside the accepted timestamp window."
    else
      let expected := hmac secret (signedBytes timestamp body)
      let actual := fromHex (first :: rest)
      if expected.length ≠ actual.length ∨ expected ≠ actual then .error "Stripe webhook signature is invalid."
      else .ok ()
  | _, _ => .error "Stripe webhook signature is malformed."

/-- The bytes that a hexadecimal text denotes. -/
def hexBytes (text : Text) : Option Bytes :=
  if text.length % 2 = 0 ∧ text.all fun c => (hexDigit c).isSome then some (fromHex text) else none

/-- A header of Stripe's scheme: one time, in decimal digits, and at least one signature. -/
structure Scheme (header : String) (time : Text) (signatures : List Text) : Prop where
  timed : withKey header "t" = [some time]
  digits : time ≠ [] ∧ ∀ c ∈ time, c.isDigit = true
  signs : withKey header "v1" = signatures.map some
  signed : signatures ≠ []

variable (time : Text) (signatures : List Text) (body : Bytes) (now toleranceSeconds : Int)

abbrev InWindow : Prop := (now / 1000 - Nat.ofDigitChars 10 time 0).natAbs ≤ toleranceSeconds

/-- What a signature authenticates. -/
def Authentic (mac : Bytes → Bytes) : Prop := InWindow time now toleranceSeconds ∧
  ∃ signature ∈ signatures, hexBytes signature = some (mac (encode (time ++ ['.']) ++ body))

/-- Under every secret, and whatever the digests are, what is accepted is what is authentic. -/
def Exact (header : String) : Prop :=
  ∀ hmac : String → Bytes → Bytes, (∀ secret message, (hmac secret message).length = 32) → ∀ secret,
    assertStripeSignature hmac body header secret now toleranceSeconds = .ok () ↔
      Authentic time signatures body now toleranceSeconds (hmac secret)

/-- In the window the last signature is read as the only one that is there is, and if it is read as a digest, the time
is a safe integer as a number is printed and the body is kept by decoding and encoding. -/
def Faithful : Prop :=
  InWindow time now toleranceSeconds → ∀ mac : Bytes, mac.length = 32 →
    ((∃ signature ∈ signatures, hexBytes signature = some mac) ↔
      (safeInteger time).isSome ∧ signatures.getLast?.map fromHex = some mac) ∧
    ((safeInteger time).isSome → signatures.getLast?.map fromHex = some mac →
      Nat.toDigits 10 (Nat.ofDigitChars 10 time 0) = time ∧ encode (textDecode body) = body)

variable {time signatures body now toleranceSeconds} {header : String}

theorem safeInteger_eq_some (read : safeInteger time = some value) : value = Nat.ofDigitChars 10 time 0 := by
  unfold safeInteger at read
  split at read <;> cases read
  rfl

/-- What is accepted of a header of Stripe's scheme. -/
theorem assert_ok_iff (scheme : Scheme header time signatures) (secret : String)
    (digest : ∀ secret msg, (hmac secret msg).length = 32) :
    assertStripeSignature hmac body header secret now toleranceSeconds = .ok () ↔
      InWindow time now toleranceSeconds ∧ (safeInteger time).isSome ∧
        signatures.getLast?.map fromHex = some (hmac secret (signedBytes (Nat.ofDigitChars 10 time 0) body)) := by
  have timed : entry header "t" = some time := by simp [entry, scheme.timed]
  have last : entry header "v1" = some (signatures.getLast scheme.signed) := by
    simp [entry, scheme.signs, getLast?_eq_some_getLast scheme.signed]
  simp only [assertStripeSignature, timed, last, getLast?_eq_some_getLast scheme.signed, bind_some,
    map_some, some.injEq, InWindow]
  have long := digest secret (signedBytes (Nat.ofDigitChars 10 time 0) body)
  cases safe : safeInteger time with
  | none => simp
  | some timestamp =>
    cases safeInteger_eq_some safe
    cases signatures.getLast scheme.signed with
    | nil =>
      have : fromHex [] ≠ hmac secret (signedBytes (Nat.ofDigitChars 10 time 0) body) := fun same => by simp [← same, fromHex] at long
      simp [this]
    | cons first rest =>
      dsimp only
      split
      · next late => exact iff_of_false nofun fun accepted => absurd accepted.1 (Int.not_le.mpr late)
      next timely =>
      split
      · next differ =>
        refine iff_of_false nofun fun ⟨_, _, same⟩ => ?_
        rcases differ with shorter | other
        · exact shorter (congrArg List.length same.symm)
        · exact other same.symm
      · next same =>
        push Not at same
        exact iff_of_true rfl ⟨Int.not_lt.mp timely, rfl, same.2.symm⟩

theorem dot_not_mem {text : Text} (digits : ∀ c ∈ text, c.isDigit = true) : 46 ∉ encode text := by
  intro dot
  obtain ⟨c, among, dot⟩ := mem_flatMap.mp dot
  obtain ⟨low, high⟩ : 48 ≤ c.val.toNat ∧ c.val.toNat ≤ 57 := Lib.isDigit_range (digits c among)
  rw [String.utf8EncodeChar, if_pos (by omega), mem_singleton] at dot
  have := congrArg UInt8.toNat dot
  have point : c.val.toNat = c.toNat := rfl
  simp at this
  omega

/-- What stands before the first of a byte, and what behind it. -/
theorem split_at {left more others : Bytes} (without : byte ∉ left) (neither : byte ∉ right)
    (same : left ++ byte :: more = right ++ byte :: others) : left = right ∧ more = others := by
  rcases append_eq_append_iff.mp same with ⟨middle, rfl, tail⟩ | ⟨middle, rfl, tail⟩ <;>
    cases middle <;> simp_all

/-- The first `.` of what is signed ends the time. -/
theorem signedBytes_eq_iff (digits : ∀ c ∈ time, c.isDigit = true) :
    signedBytes (Nat.ofDigitChars 10 time 0) body = encode (time ++ ['.']) ++ body ↔
      Nat.toDigits 10 (Nat.ofDigitChars 10 time 0) = time ∧ encode (textDecode body) = body := by
  have one : ∀ text rest, encode (text ++ '.' :: rest) = encode text ++ 46 :: encode rest := fun text rest => by
    rw [encode, flatMap_append, flatMap_cons]
    rfl
  rw [signedBytes, one, one, append_assoc]
  change encode _ ++ 46 :: _ = _ ++ 46 :: body ↔ _
  constructor
  · intro same
    obtain ⟨printed, kept⟩ := split_at (dot_not_mem fun c => Lib.toDigits_isDigit) (dot_not_mem digits) same
    have := congrArg (({} : Decoder).decode · |>.2) printed
    exact ⟨by simpa only [Decoder.decode_encode] using this, kept⟩
  · rintro ⟨printed, kept⟩
    rw [printed, kept]

/-- The code authenticates exactly where it reads the header and the body faithfully. -/
theorem exact_iff (time : Text) (signatures : List Text) (body : Bytes) (now toleranceSeconds : Int) (header : String)
    (scheme : Scheme header time signatures) :
    Exact time signatures body now toleranceSeconds header ↔ Faithful time signatures body now toleranceSeconds := by
  constructor
  · intro exact window mac length
    have constant := fun mac (length : mac.length = 32) =>
      (assert_ok_iff scheme "" fun _ _ => length).symm.trans (exact (fun _ _ => mac) (fun _ _ => length) "")
    have only : ∀ mac : Bytes, mac.length = 32 → ((∃ signature ∈ signatures, hexBytes signature = some mac) ↔
        (safeInteger time).isSome ∧ signatures.getLast?.map fromHex = some mac) := fun mac length => by
      simpa only [window, Authentic, true_and] using (constant mac length).symm
    refine ⟨only mac length, fun safe read => ?_⟩
    rw [← signedBytes_eq_iff scheme.digits.2]
    by_contra differ
    obtain ⟨other, long, unlike⟩ : ∃ other : Bytes, other.length = 32 ∧ other ≠ mac := by
      by_cases is : mac = List.replicate 32 0
      · exact ⟨List.replicate 32 1, rfl, by rw [is]; decide⟩
      · exact ⟨List.replicate 32 0, rfl, Ne.symm is⟩
    have digest : ∀ (_ : String) (message : Bytes),
        (if message = signedBytes (Nat.ofDigitChars 10 time 0) body then mac else other).length = 32 := by
      intro _ message
      split <;> assumption
    have accepted := (assert_ok_iff scheme "" digest).mpr ⟨window, safe, by rw [if_pos rfl]; exact read⟩
    obtain ⟨-, genuine⟩ := (exact _ digest "").mp accepted
    simp only [if_neg (Ne.symm differ)] at genuine
    exact unlike (some.inj (((only other long).mp genuine).2.symm.trans read))
  · intro faithful hmac digest secret
    rw [assert_ok_iff scheme secret digest, Authentic]
    refine and_congr_right fun window => ?_
    have same := faithful window
    constructor
    · rintro ⟨safe, read⟩
      obtain ⟨genuine, kept⟩ := same _ (digest _ _)
      rw [← (signedBytes_eq_iff scheme.digits.2).mpr (kept safe read)]
      exact genuine.mpr ⟨safe, read⟩
    intro genuine
    obtain ⟨read, kept⟩ := same _ (digest secret (encode (time ++ ['.']) ++ body))
    obtain ⟨safe, read⟩ := read.mp genuine
    rw [(signedBytes_eq_iff scheme.digits.2).mpr (kept safe read)]
    exact ⟨safe, read⟩

def instant : Text := "1767225600".toList
def current : Text := List.replicate 64 'a'
def former : Text := List.replicate 64 'b'

/-- The header of a delivery that is signed with one secret, and with two while they are rolled. -/
def single : String := "t=1767225600,v1=aaaaaaaaaaaaaaaaaaaaaaaaaaaaaaaaaaaaaaaaaaaaaaaaaaaaaaaaaaaaaaaa"

def rolled : String := "t=1767225600,v1=aaaaaaaaaaaaaaaaaaaaaaaaaaaaaaaaaaaaaaaaaaaaaaaaaaaaaaaaaaaaaaaa,v1=bbbbbbbbbbbbbbbbbbbbbbbbbbbbbbbbbbbbbbbbbbbbbbbbbbbbbbbbbbbbbbbb"

theorem single_scheme : Scheme single instant [current] :=
  ⟨by decide +kernel, ⟨nofun, all_eq_true.mp rfl⟩, by decide +kernel, nofun⟩

theorem exact_of_single : Exact instant [current] [123, 125] 1767225600000 300 single := by
  refine (exact_iff _ _ _ _ _ _ single_scheme).mpr fun _ mac _ => ?_
  have safe : (safeInteger instant).isSome = true := by decide
  have read : hexBytes current = some (fromHex current) := by decide +kernel
  refine ⟨by simp [safe, read], fun _ _ => ⟨by decide, by decide +kernel⟩⟩

/-- The first signature is genuine, and the delivery in time. -/
theorem rolled_signature_refused : ¬ Exact instant [current, former] [123, 125] 1767225600000 300 rolled := by
  intro exact
  have := (exact (fun _ _ => List.replicate 32 0xaa) (fun _ _ => rfl) "whsec").mpr
    ⟨by decide +kernel, current, mem_cons_self, by decide +kernel⟩
  exact absurd this (by decide +kernel)

end Applik8s.Signature
