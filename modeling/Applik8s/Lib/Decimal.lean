import Mathlib.Data.Int.Basic

/-! Integers as decimal text. -/
namespace Applik8s.Lib

def decimal : Int → List Char
  | .ofNat value => Nat.toDigits 10 value
  | .negSucc value => '-' :: Nat.toDigits 10 (value + 1)

theorem toDigits_isDigit (among : char ∈ Nat.toDigits 10 value) : char.isDigit = true :=
  Nat.isDigit_of_mem_toDigits (by decide) (by decide) among

theorem toDigits_head (value : Nat) : (Nat.toDigits 10 value).head? ≠ some '-' := by
  intro dash
  have digit := toDigits_isDigit (List.mem_of_mem_head? dash)
  simp at digit

theorem isDigit_range {char : Char} (digit : char.isDigit = true) : 48 ≤ char.toNat ∧ char.toNat ≤ 57 := by
  simp only [Char.isDigit, Bool.and_eq_true, decide_eq_true_eq] at digit
  exact ⟨UInt32.le_iff_toNat_le.mp digit.1, UInt32.le_iff_toNat_le.mp digit.2⟩

theorem decimal_range (value : Int) : ∀ char ∈ decimal value, 45 ≤ char.toNat ∧ char.toNat ≤ 57 := by
  have digits : ∀ value, ∀ char ∈ Nat.toDigits 10 value, 45 ≤ char.toNat ∧ char.toNat ≤ 57 :=
    fun value char among => ⟨le_trans (by decide) (isDigit_range (toDigits_isDigit among)).1,
      (isDigit_range (toDigits_isDigit among)).2⟩
  cases value with
  | ofNat value => exact digits value
  | negSucc value => exact List.forall_mem_cons.mpr ⟨by decide, digits (value + 1)⟩

theorem decimal_ne_nil (value : Int) : decimal value ≠ [] := by
  cases value with
  | ofNat value => exact Nat.toDigits_ne_nil
  | negSucc value => exact List.cons_ne_nil _ _

theorem decimal_natCast_inj {one two : Nat} (same : decimal one = decimal two) : one = two := by
  have digits : Nat.toDigits 10 one = Nat.toDigits 10 two := same
  have read : Nat.ofDigitChars 10 (Nat.toDigits 10 one) 0 = one := Nat.ofDigitChars_toDigits (by decide) (by decide)
  rw [digits, Nat.ofDigitChars_toDigits (by decide) (by decide)] at read
  exact read.symm

end Applik8s.Lib
