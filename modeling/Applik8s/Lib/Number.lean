import Mathlib.Algebra.Group.Int.Even

/-! Integral numbers in double precision, and the operators that take them as words of 32 bits. A sum is the double
next to it; the operators wrap what they are given, and give back a signed word, or an unsigned one. -/
namespace Applik8s.Lib.Number
open Nat
variable (value : Int) (left right : Int)

def nearest : Int :=
  let unit := 2 ^ (value.natAbs.log2 - 52)
  let quotient := value.natAbs / unit
  let excess := 2 * (value.natAbs % unit)
  let whole := if unit < excess ∨ excess = unit ∧ quotient % 2 = 1 then quotient + 1 else quotient
  value.sign * (whole * unit : Nat)

def plus : Int := nearest (left + right)
def times : Int := nearest (left * right)

/-- `ToInt32` and `ToUint32`, before they are read as a number. -/
def word : BitVec 32 := BitVec.ofInt 32 value

def bitOr : Int := (word left ||| word right).toInt
def bitAnd : Int := (word left &&& word right).toInt
def bitXor : Int := (word left ^^^ word right).toInt
def bitNot : Int := (~~~word value).toInt

/-- `<<`. -/
def shiftLeft (bits : Nat) : Int := (word value <<< (bits % 32)).toInt

/-- `>>>`. -/
def shiftRight (bits : Nat) : Int := (word value >>> (bits % 32)).toNat

/-! ### Integers that are doubles -/

theorem nearest_of_small {value : Int} (small : value.natAbs < 2 ^ 53) : nearest value = value := by
  have unit : value.natAbs.log2 - 52 = 0 := by
    by_cases zero : value.natAbs = 0
    · simp [zero]
    · have := (Nat.log2_lt zero).mpr small
      omega
  unfold nearest
  simp only [unit, Nat.pow_zero, Nat.div_one, Nat.mod_one, Nat.mul_zero]
  rw [if_neg (by omega), Nat.mul_one, Int.sign_mul_natAbs]

theorem plus_of_small {left right : Int} (small : (left + right).natAbs < 2 ^ 53) : plus left right = left + right :=
  nearest_of_small small

theorem times_of_small {left right : Int} (small : (left * right).natAbs < 2 ^ 53) : times left right = left * right :=
  nearest_of_small small

@[simp] theorem word_toInt (value : BitVec 32) : word value.toInt = value := BitVec.ofInt_toInt
@[simp] theorem word_natCast (value : Nat) : word value = BitVec.ofNat 32 value := BitVec.ofInt_natCast ..
@[simp] theorem word_bitOr : word (bitOr left right) = word left ||| word right := word_toInt _
@[simp] theorem word_bitAnd : word (bitAnd left right) = word left &&& word right := word_toInt _
@[simp] theorem word_bitXor : word (bitXor left right) = word left ^^^ word right := word_toInt _
@[simp] theorem word_bitNot : word (bitNot value) = ~~~word value := word_toInt _

@[simp] theorem word_shiftLeft (bits : Nat) : word (shiftLeft value bits) = word value <<< (bits % 32) :=
  word_toInt _

@[simp] theorem word_shiftRight (bits : Nat) : word (shiftRight value bits) = word value >>> (bits % 32) := by
  unfold shiftRight
  rw [word_natCast, BitVec.ofNat_toNat, BitVec.setWidth_eq]

theorem word_add : word (left + right) = word left + word right := BitVec.ofInt_add ..

def number (value : BitVec 32) : Int := value.toNat

@[simp] theorem word_number (value : BitVec 32) : word (number value) = value := by
  rw [number, word_natCast, BitVec.ofNat_toNat, BitVec.setWidth_eq]

/-- `>>> 0` reads the word of a number without its sign. -/
theorem shiftRight_zero : shiftRight value 0 = number (word value) := rfl

theorem shiftRight_natCast {value : Nat} (small : value < 2 ^ 32) (few : wide < 32) :
    shiftRight value wide = (value / 2 ^ wide : Nat) := by
  rw [shiftRight, word_natCast, mod_eq_of_lt few, BitVec.toNat_ushiftRight, BitVec.toNat_ofNat,
    mod_eq_of_lt small, shiftRight_eq_div_pow]

theorem bitAnd_natCast (value : Nat) {mask : Int} (bits : Nat) (masks : mask = (2 ^ bits - 1 : Nat)) (few : bits < 32) :
    bitAnd value mask = (value % 2 ^ bits : Nat) := by
  subst masks
  have power : 2 ^ bits ≤ 2 ^ 31 := Nat.pow_le_pow_right (by decide) (by omega)
  have positive : 0 < 2 ^ bits := Nat.two_pow_pos bits
  have whole : 2 ^ bits ∣ 2 ^ 32 := Nat.pow_dvd_pow 2 (by omega)
  have bits : (word value &&& word (2 ^ bits - 1 : Nat)).toNat = value % 2 ^ bits := by
    rw [word_natCast, word_natCast, BitVec.toNat_and, BitVec.toNat_ofNat, BitVec.toNat_ofNat,
      mod_eq_of_lt (show 2 ^ bits - 1 < 2 ^ 32 by omega), and_two_pow_sub_one_eq_mod,
      mod_mod_of_dvd _ whole]
  have below := mod_lt value positive
  rw [bitAnd, BitVec.toInt_eq_toNat_of_lt (by omega), bits]

theorem bitOr_natCast {upper : Nat} (below : lower < 2 ^ wide) (small : 2 ^ wide * upper + lower < 2 ^ 31) :
    bitOr (2 ^ wide * upper : Nat) lower = (2 ^ wide * upper + lower : Nat) := by
  have sum : (word (2 ^ wide * upper : Nat) ||| word lower).toNat = 2 ^ wide * upper + lower := by
    rw [word_natCast, word_natCast, BitVec.toNat_or, BitVec.toNat_ofNat, BitVec.toNat_ofNat,
      mod_eq_of_lt (by omega), mod_eq_of_lt (by omega), two_pow_add_eq_or_of_lt below]
  rw [bitOr, BitVec.toInt_eq_toNat_of_lt (by omega), sum]

/-! ### Sums of words -/

/-- A number no larger than a sum of some words, signed or unsigned. -/
def Within (words : Nat) (value : Int) : Prop := value.natAbs ≤ words * 2 ^ 32

theorem within_toInt (value : BitVec 32) : Within 1 value.toInt := by
  have low : -2 ^ 31 ≤ value.toInt := BitVec.le_toInt value
  have high : value.toInt < 2 ^ 31 := BitVec.toInt_lt
  unfold Within
  omega

theorem within_number (value : BitVec 32) : Within 1 (number value) := by
  have bound := value.isLt
  unfold Within number
  omega

theorem Within.plus {left right : Int} (one : Within words left) (other : Within more right)
    (few : words + more < 2 ^ 21) :
    Within (words + more) (plus left right) ∧ word (plus left right) = word left + word right := by
  unfold Within at one other
  rw [plus_of_small (by omega), word_add]
  refine ⟨?_, rfl⟩
  unfold Within
  omega

end Applik8s.Lib.Number
