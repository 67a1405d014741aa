import Mathlib.Tactic.LinearCombination
import Mathlib.Tactic.Ring
import SelfSimilar.Geometry.Frame
import SelfSimilar.Proofs.Scalar.Exact

/-!
# Collapsed frames

A frame has collapsed if its determinant is zero, and no place can be read back in it. To derive a
frame between two points multiplies the determinant by the square of their distance, so in an
ordered field only a draw from a point to itself makes a frame collapse.

* `Frame.unapply?_eq_none_iff`, `Frame.apply_of_unapply?`: when a place is read back, and as what
* `Frame.det_derive`: the determinant of a derived frame
-/

namespace SelfSimilar

namespace Frame

/-- The last row of the matrix is `(0, 0, 1)`. -/
structure HasUnitRow {α : Type} [Scalar α] (F : Frame α) : Prop where
  m20_eq : F.toScreen.m20 = 0
  m21_eq : F.toScreen.m21 = 0
  m22_eq : F.toScreen.m22 = 1

variable {K : Type} [ScalarField K] {F : Frame K}

/-- A derived frame has the same last row. -/
theorem HasUnitRow.derive (h : F.HasUnitRow) (start stop : Point K) :
    (F.derive start stop).HasUnitRow := by
  constructor <;> simp only [Frame.derive, andThen, Matrix3.mul, Matrix3.dot, ontoSegment,
    Matrix3.ontoSegment, h.m20_eq, h.m21_eq, h.m22_eq] <;> ring

/-- The determinant of a derived frame is that of the frame by the square of a distance. -/
theorem det_derive (F : Frame K) (start stop : Point K) :
    (F.derive start stop).toScreen.det = F.toScreen.det *
      ((stop.x - start.x) * (stop.x - start.x) + (stop.y - start.y) * (stop.y - start.y)) := by
  simp only [derive, andThen, ontoSegment, Matrix3.ontoSegment, Point.toPosition, Matrix3.mul,
    Matrix3.dot, Matrix3.det]
  ring

/-! ## Reading back -/

variable [ScalarField.IsExact K]

/-- If the determinant is not zero, the inverse is the adjugate by its reciprocal. -/
theorem inverse?_eq_some_iff {inverse : Matrix3 K} :
    F.toScreen.inverse? = some inverse ↔
      F.toScreen.det ≠ 0 ∧ F.toScreen.adjugate (1 / F.toScreen.det) = inverse := by
  simp [Matrix3.inverse?, ScalarField.IsExact.isFinite_eq, ScalarField.IsExact.beq_iff]

/-- No place is read back in a collapsed frame. -/
theorem unapply?_eq_none_iff {place : Position K} :
    F.unapply? place = none ↔ F.toScreen.det = 0 := by
  simp [Matrix3.inverse?, unapply?, ScalarField.IsExact.isFinite_eq, ScalarField.IsExact.beq_iff]

/-- What is read back is the point that lies at the place. -/
theorem apply_of_unapply? (hF : F.HasUnitRow) {place : Position K} {p : Point K}
    (h : F.unapply? place = some p) : F.apply p = place := by
  obtain ⟨inverse, hinverse, rfl⟩ := Option.map_eq_some_iff.1 h
  obtain ⟨hdet, rfl⟩ := inverse?_eq_some_iff.1 hinverse
  have hone : F.toScreen.det * (1 / F.toScreen.det) = 1 := mul_one_div_cancel hdet
  generalize 1 / F.toScreen.det = factor at hone
  simp only [Matrix3.det, hF.m20_eq, hF.m21_eq, hF.m22_eq] at hone
  simp only [apply, Point.toPosition, Point.round, ScalarField.IsExact.single_eq, Matrix3.apply,
    Matrix3.adjugate, hF.m20_eq, hF.m21_eq, hF.m22_eq]
  -- the cofactors of a row add up to the determinant, which the factor cancels
  congr 1
  · linear_combination (place.x - F.toScreen.m02) * hone
  · linear_combination (place.y - F.toScreen.m12) * hone

end Frame

end SelfSimilar
