import Mathlib.Data.Prod.Lex
import SelfSimilar.Scalar.Double

/-!
# The order of doubles

Doubles are compared by sign, exponent and significand, in this order. A double that is no number
cannot be compared with any other one, so `≤` is not reflexive, but it is transitive.

* `Double.le_eq_true_iff`: comparison by keys
* `Double.leTransitive`: comparison of doubles is transitive
-/

namespace SelfSimilar

open Float.Model (UnpackedFloat)

/-- Comparison is transitive. -/
def Scalar.LeTransitive (α : Type) [Scalar α] : Prop :=
  ∀ x y z : α, Scalar.le x y = true → Scalar.le y z = true → Scalar.le x z = true

namespace Double

section

variable {e f : Int} {m n : Nat}

/-- Pairs of an exponent and a significand are compared by the exponent first. -/
private theorem isLE_compare_then :
    ((compare e f).then (compare m n)).isLE = true ↔ e < f ∨ e = f ∧ m ≤ n := by
  rcases Int.lt_trichotomy e f with h | h | h
  · simp [h, Std.compare_eq_lt.2 h]
  · simp [h, Nat.isLE_compare]
  · have hlt : ¬ e < f := by omega
    have hne : e ≠ f := by omega
    simp [Std.compare_eq_gt.2 h, hlt, hne]

/-- The same for the opposite comparison, which negative numbers are compared by. -/
private theorem isGE_compare_then :
    ((compare e f).then (compare m n)).isGE = true ↔ f < e ∨ e = f ∧ n ≤ m := by
  rcases Int.lt_trichotomy e f with h | h | h
  · have hlt : ¬ f < e := by omega
    have hne : e ≠ f := by omega
    simp [Std.compare_eq_lt.2 h, hlt, hne]
  · simp [h, Nat.isGE_compare]
  · simp [h, Std.compare_eq_gt.2 h]

end

/-- What a double is compared by: its kind, from minus infinity to infinity, then exponent and
significand. -/
def key? : UnpackedFloat → Option (ℤ ×ₗ ℤ ×ₗ ℤ)
  | .infinity .negative => some (toLex (-2, toLex (0, 0)))
  | .finite .negative m e _ => some (toLex (-1, toLex (-e, -m)))
  | .zero _ => some (toLex (0, toLex (0, 0)))
  | .finite .positive m e _ => some (toLex (1, toLex (e, m)))
  | .infinity .positive => some (toLex (2, toLex (0, 0)))
  | .notANumber => none

/-- A number is at most another one if both can be compared, and its key is at most the other
one. -/
theorem le_eq_true_iff (x y : UnpackedFloat) :
    x.le y = true ↔ ∃ k ∈ key? x, ∃ l ∈ key? y, k ≤ l := by
  -- six kinds each, with both signs apart; only two finite numbers of one sign look at more than
  -- that
  rcases x with ⟨_ | _⟩ | _ | ⟨_ | _⟩ | ⟨_ | _, m, e, _⟩ <;>
    rcases y with ⟨_ | _⟩ | _ | ⟨_ | _⟩ | ⟨_ | _, n, f, _⟩ <;>
    dsimp only [UnpackedFloat.le, UnpackedFloat.compare, key?] <;>
    simp [isLE_compare_then, isGE_compare_then, Prod.Lex.toLex_le_toLex]
  -- what is left are signs
  all_goals decide

/-- The comparison of doubles is that of their unpacked forms. -/
theorem le_eq (x y : Float) : Scalar.le x y = x.toModel.unpack.le y.toModel.unpack := by
  rw [Bool.eq_iff_iff]
  show decide (x ≤ y) = true ↔ _
  rw [decide_eq_true_iff]
  exact decide_eq_true_iff

/-- The comparison of doubles is transitive. -/
theorem leTransitive : Scalar.LeTransitive Float := by
  intro x y z hxy hyz
  rw [le_eq, le_eq_true_iff] at hxy hyz ⊢
  obtain ⟨k, hk, l, hl, hkl⟩ := hxy
  obtain ⟨l', hl', m, hm, hlm⟩ := hyz
  -- the number in the middle has one key, or none
  cases Option.mem_unique hl hl'
  exact ⟨k, hk, m, hm, hkl.trans hlm⟩

end Double

end SelfSimilar
