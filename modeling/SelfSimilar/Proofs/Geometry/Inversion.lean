import Mathlib.Algebra.Field.Rat
import SelfSimilar.Proofs.Geometry.Frame

/-!
# Inverting matrices and frames

In exact arithmetic, a matrix has an inverse unless its determinant is zero, and the inverse is one
from both sides. An affine frame whose determinant is not zero is then a bijection between points
and places: `Frame.unapply?` never fails and undoes `Frame.apply`, which undoes it in turn.

* `Matrix3.exists_inverse`: a matrix whose determinant is not zero has an inverse
* `Frame.unapply?_apply`, `Frame.exists_unapply?`: there and back, in either order
* `inversion_is_exact`: when matrices and frames can be inverted, and that nothing is lost
-/

namespace SelfSimilar

variable {K : Type} [Field K] [DecidableEq K] [ExactArithmetic K]

/-- Exact arithmetic refuses no determinant but zero. -/
theorem Matrix3.exists_inverse {m : Matrix3 K} (h : m.det ≠ 0) : ∃ n, m.inverse? = some n :=
  Option.ne_none_iff_exists'.1 fun hnone => h (inverse?_eq_none_iff.1 hnone)

namespace Frame

variable {F : Frame K}

/-- A frame reads places back by the inverse of its matrix. -/
theorem unapply?_of_inverse {n : Matrix3 K} (h : F.toScreen.inverse? = some n)
    (place : Position K) :
    F.unapply? place = some ⟨(n.apply place).x, (n.apply place).y⟩ := by
  unfold unapply?
  rw [h]
  rfl

/-- The point at the place of a point is that point. -/
theorem unapply?_apply (hF : F.IsAffine) (h : F.toScreen.det ≠ 0) (p : Point K) :
    F.unapply? (F.apply p) = some p := by
  obtain ⟨n, hn⟩ := Matrix3.exists_inverse h
  have hback : n.apply (F.apply p) = p.toPosition := Matrix3.inverse_apply hF hn p.toPosition
  rw [unapply?_of_inverse hn, hback]
  rfl

/-- Each place is that of a point, which is the one that is read back there. -/
theorem exists_unapply? (hF : F.IsAffine) (h : F.toScreen.det ≠ 0) (place : Position K) :
    ∃ p, F.unapply? place = some p ∧ F.apply p = place := by
  obtain ⟨n, hn⟩ := Matrix3.exists_inverse h
  exact ⟨_, unapply?_of_inverse hn place, Matrix3.apply_inverse hF hn place⟩

/-- In a collapsed frame, no place is read back. -/
theorem unapply?_of_det_eq_zero (h : F.toScreen.det = 0) (place : Position K) :
    F.unapply? place = none := by
  unfold unapply?
  rw [Matrix3.inverse?_eq_none_iff.2 h]
  rfl

end Frame

/-- Over any field, a matrix has no inverse exactly if its determinant is zero, and an inverse is
one from both sides. The determinant of a product is the product of the determinants. A frame whose
last row is `(0, 0, 1)` gives back each point at its place, and a point for each place, if its
determinant is not zero. If it is zero, no place is read back. -/
theorem inversion_is_exact :
    (∀ m : Matrix3 K, m.inverse? = none ↔ m.det = 0) ∧
    (∀ m : Matrix3 K, m.det ≠ 0 →
      ∃ n, m.inverse? = some n ∧ m.mul n = .identity ∧ n.mul m = .identity) ∧
    (∀ m n : Matrix3 K, (m.mul n).det = m.det * n.det) ∧
    ∀ F : Frame K, F.toScreen.m20 = 0 → F.toScreen.m21 = 0 → F.toScreen.m22 = 1 →
      (F.toScreen.det ≠ 0 →
        (∀ p, F.unapply? (F.apply p) = some p) ∧
        ∀ place, ∃ p, F.unapply? place = some p ∧ F.apply p = place) ∧
      (F.toScreen.det = 0 → ∀ place, F.unapply? place = none) := by
  refine ⟨fun m => Matrix3.inverse?_eq_none_iff, fun m h => ?_, Matrix3.det_mul, ?_⟩
  · obtain ⟨n, hn⟩ := Matrix3.exists_inverse h
    exact ⟨n, hn, Matrix3.mul_inverse hn, Matrix3.inverse_mul hn⟩
  · intro F h20 h21 h22
    have hF : F.IsAffine := ⟨h20, h21, h22⟩
    exact ⟨fun h => ⟨Frame.unapply?_apply hF h, Frame.exists_unapply? hF h⟩,
      Frame.unapply?_of_det_eq_zero⟩

/-- A matrix without zeros, a sheared frame that turns the plane over, and a frame that has
collapsed. -/
theorem inversion_is_exact_sheared :
    let m : Matrix3 ℚ := ⟨1, 2, 3, 4, 5, 6, 7, 8, 10⟩
    let F : Frame ℚ := ⟨⟨1 / 2, 3, -5, 2, 1 / 4, 7, 0, 0, 1⟩⟩
    let G : Frame ℚ := ⟨⟨1, 2, -5, 2, 4, 7, 0, 0, 1⟩⟩
    (m.det = -3 ∧ ∃ n, m.inverse? = some n ∧ m.mul n = .identity ∧ n.mul m = .identity) ∧
    (F.toScreen.det = -47 / 8 ∧ F.unapply? (F.apply ⟨3, 4 / 5⟩) = some ⟨3, 4 / 5⟩ ∧
      ∃ p, F.unapply? ⟨1, 2⟩ = some p ∧ F.apply p = ⟨1, 2⟩) ∧
    G.toScreen.det = 0 ∧ G.unapply? ⟨1, 2⟩ = none := by
  intro m F G
  obtain ⟨_, hinverse, _, hframe⟩ := inversion_is_exact (K := ℚ)
  have hm : m.det = -3 := by decide +kernel
  have hF : F.toScreen.det = -47 / 8 := by decide +kernel
  have hG : G.toScreen.det = 0 := by decide +kernel
  obtain ⟨hback, hplace⟩ := (hframe F rfl rfl rfl).1 (by rw [hF]; decide +kernel)
  exact ⟨⟨hm, hinverse m (by rw [hm]; decide)⟩, ⟨hF, hback ⟨3, 4 / 5⟩, hplace ⟨1, 2⟩⟩, hG,
    (hframe G rfl rfl rfl).2 hG ⟨1, 2⟩⟩

end SelfSimilar
