import Mathlib.Data.List.TakeWhile

/-! `base64url` without padding, as `Buffer` writes it and reads it: a reader takes either alphabet, passes over
what belongs to neither and stops at padding. -/
namespace Applik8s.Lib.Base64
open List

def symbol (bits : Nat) : Char :=
  if bits < 26 then Char.ofNat (65 + bits)
  else if bits < 52 then Char.ofNat (97 + (bits - 26))
  else if bits < 62 then Char.ofNat (48 + (bits - 52))
  else if bits = 62 then '-' else '_'

def bits (char : Char) : Option Nat :=
  let code := char.toNat
  if 65 ≤ code ∧ code ≤ 90 then some (code - 65)
  else if 97 ≤ code ∧ code ≤ 122 then some (code - 97 + 26)
  else if 48 ≤ code ∧ code ≤ 57 then some (code - 48 + 52)
  else if code = 45 ∨ code = 43 then some 62
  else if code = 95 ∨ code = 47 then some 63
  else none

theorem bits_symbol (small : value < 64) : bits (symbol value) = some value := by
  have each : ∀ value : Fin 64, bits (symbol value) = some value.val := by decide +kernel
  exact each ⟨value, small⟩

theorem symbol_ne_padding (small : value < 64) : symbol value ≠ '=' := by
  have each : ∀ value : Fin 64, symbol value ≠ '=' := by decide +kernel
  exact each ⟨value, small⟩

def sextets : List UInt8 → List Nat
  | [] => []
  | [first] => [first.toNat / 4, first.toNat % 4 * 16]
  | [first, second] => [first.toNat / 4, first.toNat % 4 * 16 + second.toNat / 16, second.toNat % 16 * 4]
  | first :: second :: third :: rest =>
    first.toNat / 4 :: (first.toNat % 4 * 16 + second.toNat / 16) ::
      (second.toNat % 16 * 4 + third.toNat / 64) :: third.toNat % 64 :: sextets rest

/-- Four sextets at a time, as three bytes; bits that make no byte are dropped. -/
def octets : List Nat → List UInt8
  | first :: second :: third :: fourth :: rest =>
    UInt8.ofNat (first * 4 + second / 16) :: UInt8.ofNat (second % 16 * 16 + third / 4) ::
      UInt8.ofNat (third % 4 * 64 + fourth) :: octets rest
  | [first, second, third] => [UInt8.ofNat (first * 4 + second / 16), UInt8.ofNat (second % 16 * 16 + third / 4)]
  | [first, second] => [UInt8.ofNat (first * 4 + second / 16)]
  | _ => []

variable (bytes : List UInt8)

def encode : List Char := (sextets bytes).map symbol
def decode (text : List Char) : List UInt8 := octets ((text.takeWhile (· ≠ '=')).filterMap bits)

theorem sextets_small : ∀ value ∈ sextets bytes, value < 64 := by
  induction bytes using sextets.induct with
  | case1 => simp [sextets]
  | case2 first =>
    have := first.toNat_lt
    simp only [sextets, mem_cons, not_mem_nil, or_false]
    rintro value (rfl | rfl) <;> omega
  | case3 first second =>
    have := first.toNat_lt
    have := second.toNat_lt
    simp only [sextets, mem_cons, not_mem_nil, or_false]
    rintro value (rfl | rfl | rfl) <;> omega
  | case4 first second third rest ih =>
    have := first.toNat_lt
    have := second.toNat_lt
    have := third.toNat_lt
    simp only [sextets, mem_cons]
    rintro value (rfl | rfl | rfl | rfl | among)
    · omega
    · omega
    · omega
    · omega
    · exact ih value among

theorem octets_sextets : octets (sextets bytes) = bytes := by
  have byte : ∀ (byte : UInt8) (value : Nat), value = byte.toNat → UInt8.ofNat value = byte := by
    rintro byte _ rfl
    exact UInt8.ofNat_toNat
  induction bytes using sextets.induct with
  | case1 => rfl
  | case2 first =>
    simp only [sextets, octets, cons.injEq, and_true]
    exact byte _ _ (by omega)
  | case3 first second =>
    have := second.toNat_lt
    simp only [sextets, octets, cons.injEq, and_true]
    exact ⟨byte _ _ (by omega), byte _ _ (by omega)⟩
  | case4 first second third rest ih =>
    have := second.toNat_lt
    have := third.toNat_lt
    simp only [sextets, octets, ih, cons.injEq, and_true]
    exact ⟨byte _ _ (by omega), byte _ _ (by omega), byte _ _ (by omega)⟩

theorem decode_encode : decode (encode bytes) = bytes := by
  have small := sextets_small bytes
  have kept : (encode bytes).takeWhile (· ≠ '=') = encode bytes := by
    refine takeWhile_eq_self_iff.mpr fun char among => ?_
    obtain ⟨value, given, rfl⟩ := mem_map.mp among
    exact decide_eq_true (symbol_ne_padding (small value given))
  have read : ∀ values : List Nat, (∀ value ∈ values, value < 64) → (values.map symbol).filterMap bits = values := by
    intro values small
    induction values with
    | nil => rfl
    | cons value rest ih =>
      rw [map_cons, filterMap_cons_some (bits_symbol (small value mem_cons_self)),
        ih fun other among => small other (mem_cons_of_mem _ among)]
  rw [decode, kept, encode, read _ small, octets_sextets]

end Applik8s.Lib.Base64
