import Mathlib.Algebra.Polynomial.Div
import Mathlib.Algebra.Field.ZMod
import Mathlib.Tactic.LinearCombination

/-! Cyclic redundancy checks: the bits of a number as the coefficients of a polynomial over the two-element field, and a
check as the remainder of a message by a generator. A register that is shifted bit by bit holds that remainder. -/
namespace Applik8s.Lib
open Polynomial Nat

/-- The polynomial whose coefficients are the bits. -/
noncomputable def bitPolynomial (value : Nat) : (ZMod 2)[X] :=
  ∑ place ∈ Finset.range value, if value.testBit place then X ^ place else 0

private theorem coeff_bit (bit : Bool) (power place : Nat) :
    (if bit then (X : (ZMod 2)[X]) ^ power else 0).coeff place = if bit ∧ place = power then 1 else 0 := by
  cases bit <;> simp [coeff_X_pow]

@[simp] theorem coeff_bitPolynomial (value place : Nat) :
    (bitPolynomial value).coeff place = if value.testBit place then 1 else 0 := by
  simp only [bitPolynomial, finsetSum_coeff, coeff_bit]
  by_cases inside : place < value
  · rw [Finset.sum_eq_single_of_mem place (Finset.mem_range.mpr inside) fun other _ differ => if_neg (by simp [differ.symm])]
    simp
  have small : value < 2 ^ place := lt_of_le_of_lt (Nat.le_of_not_lt inside) Nat.lt_two_pow_self
  rw [Nat.testBit_lt_two_pow small, if_neg (by simp)]
  refine Finset.sum_eq_zero fun other among => if_neg ?_
  rintro ⟨-, rfl⟩
  exact inside (Finset.mem_range.mp among)

theorem bitPolynomial_injective : Function.Injective bitPolynomial := by
  intro one two same
  refine eq_of_testBit_eq fun place => ?_
  have coefficients := congrArg (coeff · place) same
  simp only [coeff_bitPolynomial] at coefficients
  by_cases first : one.testBit place <;> by_cases second : two.testBit place <;>
    simp only [first, second, if_true, if_false, Bool.false_eq_true] at coefficients ⊢
  · exact absurd coefficients one_ne_zero
  · exact absurd coefficients.symm one_ne_zero

/-- The number whose bits are the coefficients. -/
noncomputable def bitNumber : (ZMod 2)[X] → Nat := Function.invFun bitPolynomial

@[simp] theorem bitNumber_bitPolynomial (value : Nat) : bitNumber (bitPolynomial value) = value :=
  Function.leftInverse_invFun bitPolynomial_injective value

@[simp] theorem bitPolynomial_zero : bitPolynomial 0 = 0 := rfl

@[simp] theorem bitPolynomial_xor (one two : Nat) :
    bitPolynomial (one ^^^ two) = bitPolynomial one + bitPolynomial two := by
  ext place
  rw [coeff_add, coeff_bitPolynomial, coeff_bitPolynomial, coeff_bitPolynomial, testBit_xor]
  cases one.testBit place <;> cases two.testBit place <;> rfl

@[simp] theorem bitPolynomial_shiftLeft (value count : Nat) :
    bitPolynomial (value <<< count) = bitPolynomial value * X ^ count := by
  ext place
  rw [coeff_mul_X_pow', coeff_bitPolynomial, coeff_bitPolynomial, testBit_shiftLeft]
  by_cases reaches : count ≤ place <;> simp [reaches]

theorem degree_bitPolynomial {width : Nat} (small : value < 2 ^ width) : (bitPolynomial value).degree < width := by
  rw [degree_lt_iff_coeff_zero]
  intro place beyond
  rw [coeff_bitPolynomial, Nat.testBit_lt_two_pow (lt_of_lt_of_le small (Nat.pow_le_pow_right (by decide) beyond))]
  rfl

/-- What a message says, its first byte leading. -/
noncomputable def messagePolynomial (bytes : List UInt8) : (ZMod 2)[X] :=
  bytes.foldl (fun message byte => message * X ^ 8 + bitPolynomial byte.toNat) 0

/-- The generator of a check: its leading term, and the others as bits. -/
noncomputable def generator (width tail : Nat) : (ZMod 2)[X] := X ^ width + bitPolynomial tail

/-- The check of a message: the remainder of the message, moved up by the width, by the generator. -/
noncomputable def crc (width tail : Nat) (bytes : List UInt8) : Nat :=
  bitNumber ((messagePolynomial bytes * X ^ width) %ₘ generator width tail)

def crcShift (width tail register : Nat) : Nat :=
  if register.testBit (width - 1) then ((register <<< 1) ^^^ tail) % 2 ^ width else (register <<< 1) % 2 ^ width

def crcByte (width tail register : Nat) (byte : UInt8) : Nat :=
  (crcShift width tail)^[8] (register ^^^ byte.toNat <<< (width - 8))

variable {width tail : Nat}

theorem crcShift_lt (width tail register : Nat) : crcShift width tail register < 2 ^ width := by
  unfold crcShift
  split <;> exact Nat.mod_lt _ (Nat.two_pow_pos width)

theorem bitPolynomial_mod (small : value < 2 ^ (width + 1)) :
    bitPolynomial (value % 2 ^ width) = bitPolynomial value + if value.testBit width then X ^ width else 0 := by
  ext place
  rw [coeff_add, coeff_bitPolynomial, coeff_bitPolynomial, coeff_bit, Nat.testBit_mod_two_pow]
  rcases Nat.lt_trichotomy place width with inside | rfl | beyond
  · simp [inside, Nat.ne_of_lt inside]
  · cases value.testBit place <;> simp [CharTwo.add_self_eq_zero]
  have none : value.testBit place = false :=
    Nat.testBit_lt_two_pow (lt_of_lt_of_le small (Nat.pow_le_pow_right (by decide) beyond))
  simp [none, Nat.ne_of_gt beyond]

theorem generator_monic (small : tail < 2 ^ width) : (generator width tail).Monic :=
  monic_X_pow_add (degree_bitPolynomial small)

theorem degree_generator (small : tail < 2 ^ width) : (generator width tail).degree = width := by
  unfold generator
  rw [degree_add_eq_left_of_degree_lt] <;> rw [degree_X_pow]
  exact degree_bitPolynomial small

/-- The register holds a polynomial, up to multiples of the generator. -/
structure Holds (width tail register : Nat) (polynomial : (ZMod 2)[X]) : Prop where
  small : register < 2 ^ width
  congruent : ∃ quotient, bitPolynomial register + generator width tail * quotient = polynomial

namespace Holds
theorem shift (positive : 0 < width) (tailSmall : tail < 2 ^ width) (holds : Holds width tail register polynomial) :
    Holds width tail (crcShift width tail register) (polynomial * X) := by
  obtain ⟨_, quotient, rfl⟩ := holds
  refine ⟨crcShift_lt width tail register, ?_⟩
  have moved : register <<< 1 < 2 ^ (width + 1) := by
    rw [shiftLeft_eq, pow_succ]
    omega
  have leading : (register <<< 1).testBit width = register.testBit (width - 1) := by
    rw [testBit_shiftLeft]
    simp only [ge_iff_le, Bool.and_eq_right_iff_imp, decide_eq_true_eq]
    omega
  unfold crcShift
  split
  · next high =>
    have wide : tail < 2 ^ (width + 1) := lt_trans tailSmall (Nat.pow_lt_pow_right (by decide) (Nat.lt_succ_self _))
    have leads : ((register <<< 1) ^^^ tail).testBit width = true := by
      rw [testBit_xor, leading, high, testBit_lt_two_pow tailSmall]
      rfl
    refine ⟨quotient * X + 1, ?_⟩
    rw [bitPolynomial_mod (xor_lt_two_pow moved wide), leads, if_pos rfl, bitPolynomial_xor, bitPolynomial_shiftLeft]
    have twice : generator width tail + generator width tail = 0 := CharTwo.add_self_eq_zero _
    unfold generator at *
    linear_combination twice
  · next low =>
    refine ⟨quotient * X, ?_⟩
    rw [bitPolynomial_mod moved, leading, if_neg low, bitPolynomial_shiftLeft]
    ring

theorem shifts (positive : 0 < width) (tailSmall : tail < 2 ^ width) (holds : Holds width tail register polynomial)
    (count : Nat) : Holds width tail ((crcShift width tail)^[count] register) (polynomial * X ^ count) := by
  induction count with
  | zero => simpa using holds
  | succ count ih =>
    rw [Function.iterate_succ_apply', pow_succ, ← mul_assoc]
    exact ih.shift positive tailSmall

theorem byte (wide : 8 ≤ width) (tailSmall : tail < 2 ^ width) (holds : Holds width tail register polynomial)
    (byte : UInt8) : Holds width tail (crcByte width tail register byte)
      (polynomial * X ^ 8 + bitPolynomial byte.toNat * X ^ width) := by
  have entered : Holds width tail (register ^^^ byte.toNat <<< (width - 8))
      (polynomial + bitPolynomial byte.toNat * X ^ (width - 8)) := by
    obtain ⟨small, quotient, rfl⟩ := holds
    refine ⟨xor_lt_two_pow small ?_, quotient, ?_⟩
    · have split : 2 ^ width = 2 ^ 8 * 2 ^ (width - 8) := by
        rw [← pow_add]
        congr 1
        omega
      rw [shiftLeft_eq, split]
      exact Nat.mul_lt_mul_of_pos_right byte.toNat_lt (Nat.two_pow_pos _)
    · rw [bitPolynomial_xor, bitPolynomial_shiftLeft]
      ring
  have shifted := entered.shifts (by omega) tailSmall 8
  have moved : (X : (ZMod 2)[X]) ^ width = X ^ (width - 8) * X ^ 8 := by
    rw [← pow_add]
    congr 1
    omega
  rw [moved]
  rw [add_mul, mul_assoc] at shifted
  exact shifted

theorem bytes (wide : 8 ≤ width) (tailSmall : tail < 2 ^ width) (holds : Holds width tail register (msg * X ^ width))
    (bytes : List UInt8) : Holds width tail (bytes.foldl (crcByte width tail) register)
      (bytes.foldl (fun msg byte => msg * X ^ 8 + bitPolynomial byte.toNat) msg * X ^ width) := by
  induction bytes generalizing register msg with
  | nil => exact holds
  | cons byte rest ih =>
    rw [List.foldl_cons, List.foldl_cons]
    apply ih
    have next := holds.byte wide tailSmall byte
    have same : (msg * X ^ 8 + bitPolynomial byte.toNat) * X ^ width =
        msg * X ^ width * X ^ 8 + bitPolynomial byte.toNat * X ^ width := by ring
    rwa [same]

end Holds

theorem foldl_crcByte (wide : 8 ≤ width) (tailSmall : tail < 2 ^ width) (bytes : List UInt8) :
    bytes.foldl (crcByte width tail) 0 = crc width tail bytes := by
  have start : Holds width tail 0 (0 * X ^ width) := ⟨Nat.two_pow_pos width, 0, by simp⟩
  obtain ⟨small, quotient, congruent⟩ := start.bytes wide tailSmall bytes
  have remainder := (div_modByMonic_unique quotient _ (generator_monic tailSmall)
    ⟨congruent, by rw [degree_generator tailSmall]; exact degree_bitPolynomial small⟩).2
  unfold crc messagePolynomial
  rw [remainder, bitNumber_bitPolynomial]

end Applik8s.Lib
