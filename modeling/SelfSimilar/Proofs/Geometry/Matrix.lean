import Mathlib.Tactic.LinearCombination
import Mathlib.Tactic.Ring
import SelfSimilar.Geometry.Matrix3
import SelfSimilar.Proofs.Scalar.Exact

/-!
# Matrices in exact arithmetic

Over a field, the product of matrices is associative, the determinant is multiplicative, and a
matrix has an inverse exactly if its determinant is not zero. A position stands for a column whose
last entry is one, which a matrix keeps if its last row is `(0, 0, 1)`. Such matrices are affine,
and for them products are maps one after another.

* `det_mul`, `mul_inverse`, `inverse_mul`: determinants and inverses
* `apply_mul`: a product of affine matrices, as a map
* `apply_inverse`, `inverse_apply`: the inverse of an affine matrix, as a map
-/

namespace SelfSimilar

namespace Matrix3

variable {K : Type} [Field K] [DecidableEq K] [ExactArithmetic K] {m n : Matrix3 K}

/-- The product of matrices is associative. -/
theorem mul_assoc (a b c : Matrix3 K) : (a.mul b).mul c = a.mul (b.mul c) := by
  simp only [mul, dot, Matrix3.mk.injEq]
  refine ⟨?_, ?_, ?_, ?_, ?_, ?_, ?_, ?_, ?_⟩ <;> ring

/-- The determinant of a product. -/
theorem det_mul (a b : Matrix3 K) : (a.mul b).det = a.det * b.det := by
  simp only [mul, dot, det]
  ring

/-! ## Inverses -/

/-- The adjugate is an inverse up to the determinant. -/
theorem mul_adjugate {factor : K} (h : m.det * factor = 1) :
    m.mul (m.adjugate factor) = identity := by
  simp only [det] at h
  simp only [mul, dot, adjugate, identity, Matrix3.mk.injEq]
  -- on the diagonal the cofactors add up to the determinant, and elsewhere to nothing
  refine ⟨?_, ?_, ?_, ?_, ?_, ?_, ?_, ?_, ?_⟩ <;> first | ring1 | linear_combination h

/-- The adjugate is an inverse from the other side as well. -/
theorem adjugate_mul {factor : K} (h : m.det * factor = 1) :
    (m.adjugate factor).mul m = identity := by
  simp only [det] at h
  simp only [mul, dot, adjugate, identity, Matrix3.mk.injEq]
  refine ⟨?_, ?_, ?_, ?_, ?_, ?_, ?_, ?_, ?_⟩ <;> first | ring1 | linear_combination h

/-- A matrix has no inverse exactly if its determinant is zero. -/
theorem inverse?_eq_none_iff : m.inverse? = none ↔ m.det = 0 := by
  simp [inverse?, Scalar.isFinite, BEq.beq]

/-- The inverse is the adjugate by the reciprocal of the determinant. -/
theorem inverse?_eq_some_iff : m.inverse? = some n ↔ m.det ≠ 0 ∧ m.adjugate (1 / m.det) = n := by
  simp [inverse?, Scalar.isFinite, BEq.beq]

/-- A matrix by its inverse. -/
theorem mul_inverse (h : m.inverse? = some n) : m.mul n = identity := by
  obtain ⟨hdet, rfl⟩ := inverse?_eq_some_iff.1 h
  exact mul_adjugate (mul_one_div_cancel hdet)

/-- The inverse by the matrix. -/
theorem inverse_mul (h : m.inverse? = some n) : n.mul m = identity := by
  obtain ⟨hdet, rfl⟩ := inverse?_eq_some_iff.1 h
  exact adjugate_mul (mul_one_div_cancel hdet)

/-! ## Affine matrices -/

/-- The last row is `(0, 0, 1)`. -/
structure IsAffine (m : Matrix3 K) : Prop where
  m20_eq : m.m20 = 0
  m21_eq : m.m21 = 0
  m22_eq : m.m22 = 1

/-- The product of affine matrices is affine. -/
theorem IsAffine.mul (hm : m.IsAffine) (hn : n.IsAffine) : (m.mul n).IsAffine := by
  obtain ⟨h20, h21, h22⟩ := hm
  obtain ⟨h20', h21', h22'⟩ := hn
  constructor <;> simp only [Matrix3.mul, dot, h20, h21, h22, h20', h21', h22'] <;> ring

/-- The last row of an affine matrix leaves one minor of the determinant. -/
theorem IsAffine.det_eq (hm : m.IsAffine) : m.det = m.m00 * m.m11 - m.m01 * m.m10 := by
  simp only [det, hm.m20_eq, hm.m21_eq, hm.m22_eq]
  ring

/-- The inverse of an affine matrix is affine. -/
theorem IsAffine.inverse (hm : m.IsAffine) (h : m.inverse? = some n) : n.IsAffine := by
  obtain ⟨hdet, rfl⟩ := inverse?_eq_some_iff.1 h
  constructor
  · simp only [adjugate, hm.m20_eq, hm.m21_eq]
    ring
  · simp only [adjugate, hm.m20_eq, hm.m21_eq]
    ring
  · -- what stands in the corner is the determinant by the factor
    simp only [adjugate]
    rw [← hm.det_eq]
    exact mul_one_div_cancel hdet

/-- A product is a map after another one, if the first one keeps positions positions. -/
theorem apply_mul (m : Matrix3 K) (hn : n.IsAffine) (p : Position K) :
    (m.mul n).apply p = m.apply (n.apply p) := by
  obtain ⟨h20, h21, h22⟩ := hn
  simp only [apply, mul, dot, h20, h21, h22, Position.mk.injEq]
  constructor <;> ring

/-- The identity leaves positions where they are. -/
theorem apply_identity (p : Position K) : (identity : Matrix3 K).apply p = p := by
  simp only [apply, identity]
  congr 1 <;> ring

/-- A matrix undoes its inverse. -/
theorem apply_inverse (hm : m.IsAffine) (h : m.inverse? = some n) (p : Position K) :
    m.apply (n.apply p) = p := by
  rw [← apply_mul m (hm.inverse h), mul_inverse h, apply_identity]

/-- The inverse undoes the matrix. -/
theorem inverse_apply (hm : m.IsAffine) (h : m.inverse? = some n) (p : Position K) :
    n.apply (m.apply p) = p := by
  rw [← apply_mul n hm, inverse_mul h, apply_identity]

end Matrix3

end SelfSimilar
