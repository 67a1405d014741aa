import Mathlib.Algebra.Ring.Int.Defs
import Mathlib.Algebra.Ring.Nat
import SelfSimilar.Scalar.Double
import SelfSimilar.Value.Operators

/-!
# Dividing whole numbers

A quotient of two words is cut off towards zero, and the remainder makes up for what is lost. Both
are words unless the divisor is zero, or the quotient is one more than the greatest word: there the
operators go over to real numbers, the remainder too, though zero would be a word.

* `Operators.apply_quotient`, `Operators.apply_remainder`: the operators where both results are
  words
* `Operators.apply_eq_real_iff`: where they are none
* `division_is_integral_within_range`: the law of quotient and remainder, and where it ends
-/

namespace SelfSimilar

namespace Operators

variable {a b : Int64}

/-- The quotient is in range unless the divisor is zero, or the least word is divided by `-1`. -/
theorem dividesWithinRange_iff :
    dividesWithinRange a b = true ↔ b ≠ 0 ∧ ¬ (a = Int64.minValue ∧ b = -1) := by
  simp only [dividesWithinRange, Bool.and_eq_true, bne_iff_ne, Bool.not_eq_true',
    Bool.and_eq_false_iff, beq_eq_false_iff_ne, ne_eq, Decidable.not_and_iff_not_or_not]

/-! ## Words and integers -/

/-- A quotient in range is the exact one, cut off towards zero. -/
theorem toInt_quotient (h : dividesWithinRange a b = true) :
    (a / b).toInt = a.toInt.tdiv b.toInt := by
  have hrange := (dividesWithinRange_iff.1 h).2
  -- the library has the quotient for divisors other than `-1`, and for dividends other than the
  -- least
  by_cases hb : b = -1
  · exact Int64.toInt_div_of_ne_left a b fun ha => hrange ⟨ha, hb⟩
  · exact Int64.toInt_div_of_ne_right a b hb

/-- Quotient and remainder make up the dividend, as whole numbers. -/
theorem toInt_quotient_mul_add (h : dividesWithinRange a b = true) :
    (a / b).toInt * b.toInt + (a % b).toInt = a.toInt := by
  rw [toInt_quotient h, Int64.toInt_mod, Int.tdiv_mul_add_tmod]

/-- As words wrap around, the same holds of words. -/
theorem quotient_mul_add (h : dividesWithinRange a b = true) : a / b * b + a % b = a := by
  have hwords := congrArg Int64.ofInt (toInt_quotient_mul_add h)
  rwa [Int64.ofInt_add, Int64.ofInt_mul, Int64.ofInt_toInt, Int64.ofInt_toInt, Int64.ofInt_toInt,
    Int64.ofInt_toInt] at hwords

/-- The remainder is smaller than the divisor. -/
theorem natAbs_remainder_lt (hb : b ≠ 0) : (a % b).toInt.natAbs < b.toInt.natAbs := by
  have hzero : b.toInt ≠ 0 := fun h => hb (Int64.toInt_inj.1 h)
  rw [Int64.toInt_mod, Int.natAbs_tmod]
  exact Nat.mod_lt _ (by omega)

/-- The remainder is zero or has the sign of the dividend. -/
theorem sign_remainder (a b : Int64) : a % b = 0 ∨ (a % b).toInt.sign = a.toInt.sign := by
  rw [← Int64.toInt_inj, Int64.toInt_mod, Int.sign_tmod]
  by_cases hdvd : b.toInt ∣ a.toInt
  · exact .inl (Int.tmod_eq_zero_of_dvd hdvd)
  · exact .inr (if_neg hdvd)

/-! ## The operators -/

variable {α : Type} [Scalar α]

theorem apply_quotient (h : dividesWithinRange a b = true) :
    standard.apply .div (.int a) (.int b) = .ok (.int (a / b) : Value α) :=
  congrArg Except.ok (if_pos h)

theorem apply_remainder (h : dividesWithinRange a b = true) :
    standard.apply .mod (.int a) (.int b) = .ok (.int (a % b) : Value α) :=
  congrArg Except.ok (if_pos h)

/-- Without a quotient in range, both operators are those of real numbers. -/
theorem apply_of_not_dividesWithinRange {op : BinaryOp} (hop : op = .div ∨ op = .mod)
    (h : ¬ dividesWithinRange a b = true) :
    standard.apply op (.int a) (.int b) =
      .ok (.real (onReals op (Scalar.ofInt a.toInt) (Scalar.ofInt b.toInt)) : Value α) := by
  rcases hop with rfl | rfl <;> exact congrArg Except.ok (if_neg h)

/-- The results are real numbers exactly where the quotient is out of range. -/
theorem apply_eq_real_iff {op : BinaryOp} (hop : op = .div ∨ op = .mod) :
    (∃ x : α, standard.apply op (.int a) (.int b) = .ok (.real x)) ↔
      b = 0 ∨ a = Int64.minValue ∧ b = -1 := by
  have hrange : dividesWithinRange a b = true ↔ ¬ (b = 0 ∨ a = Int64.minValue ∧ b = -1) := by
    rw [dividesWithinRange_iff, not_or]
  by_cases h : dividesWithinRange a b = true
  -- in range both results are words
  · refine iff_of_false ?_ (hrange.1 h)
    rintro ⟨x, hx⟩
    rcases hop with rfl | rfl
    · rw [apply_quotient h] at hx
      cases hx
    · rw [apply_remainder h] at hx
      cases hx
  · exact iff_of_true ⟨_, apply_of_not_dividesWithinRange hop h⟩
      (Decidable.not_not.1 (mt hrange.2 h))

end Operators

open Operators in
/-- Division of words has a whole quotient and a whole remainder, unless the divisor is zero, or the
least word is divided by `-1`. The quotient times the divisor and the remainder add up to the
dividend, also without wrapping around; the remainder is smaller than the divisor, and it is zero or
has the sign of the dividend. In the two exceptions, and only there, both results are real
numbers. -/
theorem division_is_integral_within_range {α : Type} [Scalar α] (a b : Int64) :
    (b ≠ 0 → ¬ (a = Int64.minValue ∧ b = -1) →
      ∃ q r : Int64, standard.apply .div (.int a) (.int b) = .ok (.int q : Value α) ∧
        standard.apply .mod (.int a) (.int b) = .ok (.int r : Value α) ∧
        q * b + r = a ∧ q.toInt * b.toInt + r.toInt = a.toInt ∧
        r.toInt.natAbs < b.toInt.natAbs ∧ (r = 0 ∨ r.toInt.sign = a.toInt.sign)) ∧
    ∀ op : BinaryOp, op = .div ∨ op = .mod →
      ((∃ x : α, standard.apply op (.int a) (.int b) = .ok (.real x)) ↔
        b = 0 ∨ a = Int64.minValue ∧ b = -1) := by
  refine ⟨fun hb hrange => ?_, fun op hop => apply_eq_real_iff hop⟩
  have h : dividesWithinRange a b = true := dividesWithinRange_iff.2 ⟨hb, hrange⟩
  -- the quotient and the remainder of words
  exact ⟨a / b, a % b, apply_quotient h, apply_remainder h, quotient_mul_add h,
    toInt_quotient_mul_add h, natAbs_remainder_lt hb, sign_remainder a b⟩

open Operators in
/-- The least word is divided by seven. Quotient and remainder are negative. -/
theorem division_is_integral_within_range_least :
    (∃ q r : Int64,
      standard.apply .div (.int Int64.minValue) (.int 7) = .ok (.int q : Value Float) ∧
      standard.apply .mod (.int Int64.minValue) (.int 7) = .ok (.int r : Value Float) ∧
      q * 7 + r = Int64.minValue ∧ q = -1317624576693539401 ∧ r = -1) ∧
    ∃ x : Float, standard.apply .mod (.int Int64.minValue) (.int 0) = .ok (.real x) := by
  obtain ⟨hwords, _⟩ := division_is_integral_within_range (α := Float) Int64.minValue 7
  obtain ⟨_, hreal⟩ := division_is_integral_within_range (α := Float) Int64.minValue 0
  obtain ⟨q, r, hq, hr, hsum, _⟩ := hwords (by decide) (by decide)
  have hq' : q = -1317624576693539401 := by
    cases hq
    decide
  have hr' : r = -1 := by
    cases hr
    decide
  exact ⟨⟨q, r, hq, hr, hsum, hq', hr'⟩, (hreal .mod (.inr rfl)).2 (.inl rfl)⟩

open Operators in
/-- The least word is divided by `-1`. The quotient is the double `2 ^ 63` and the remainder is a
zero among the doubles, though the least word and the word zero would obey the law. -/
theorem least_word_has_no_whole_quotient :
    (-1 : Int64) ≠ 0 ∧
    (¬ ∃ q r : Int64,
      standard.apply .div (.int Int64.minValue) (.int (-1)) = .ok (.int q : Value Float) ∧
      standard.apply .mod (.int Int64.minValue) (.int (-1)) = .ok (.int r : Value Float)) ∧
    (∃ x y : Float, standard.apply .div (.int Int64.minValue) (.int (-1)) = .ok (.real x) ∧
      standard.apply .mod (.int Int64.minValue) (.int (-1)) = .ok (.real y) ∧
      Double.ofFloat x = .finite false (2 ^ 52) 11 ∧ Double.ofFloat y = .finite true 0 (-1074)) ∧
    Int64.minValue * -1 + 0 = Int64.minValue := by
  refine ⟨by decide, ?_, ⟨_, _, rfl, rfl, by decide +kernel, by decide +kernel⟩, by decide⟩
  rintro ⟨q, r, hq, _⟩
  cases hq

end SelfSimilar
