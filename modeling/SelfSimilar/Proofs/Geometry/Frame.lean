import Mathlib.Tactic.LinearCombination
import SelfSimilar.Geometry.Frame
import SelfSimilar.Proofs.Geometry.Matrix

/-!
# Frames and motions in exact arithmetic

Every frame that can be built is affine. A frame that keeps lengths and right angles is rigid: put
around another frame, it moves what that frame places about the screen. Nothing of this can be told
from inside. The unit segment has the same length, the frame collapses exactly if it did before, and
a place that was moved along is read back as the same point.

* `Built.isAffine`: the frames that can be built
* `apply_andThen`, `derive_andThen`: what is placed by a moved frame is moved
* `scale_andThen`, `unapply?_andThen`: what a rigid motion does not change
-/

namespace SelfSimilar

namespace Frame

variable {K : Type} [Field K] [DecidableEq K] [ExactArithmetic K] {R S F : Frame K}

/-! ## Affine frames -/

/-- The matrix of the frame is affine. -/
def IsAffine (F : Frame K) : Prop := F.toScreen.IsAffine

/-- The frames that can be built. A frame that is derived from another one is of the last kind. -/
inductive Built : Frame K → Prop where
  | identity : Built identity
  | shift (x y : K) : Built (shift x y)
  | rotation (angle : K) : Built (rotation angle)
  | scaling (x y : K) : Built (scaling x y)
  | ontoSegment (start stop : Point K) : Built (ontoSegment start stop)
  | andThen {outer inner : Frame K} : Built outer → Built inner → Built (outer.andThen inner)

/-- The frame of a segment is affine. -/
theorem isAffine_ontoSegment (start stop : Point K) : (ontoSegment start stop).IsAffine :=
  ⟨rfl, rfl, rfl⟩

/-- Affine frames are composed to affine ones. -/
theorem IsAffine.andThen (hR : R.IsAffine) (hF : F.IsAffine) : (R.andThen F).IsAffine :=
  Matrix3.IsAffine.mul hR hF

/-- A frame that is derived from an affine one is affine. -/
theorem IsAffine.derive (hF : F.IsAffine) (start stop : Point K) : (F.derive start stop).IsAffine :=
  hF.andThen (isAffine_ontoSegment start stop)

/-- Every frame that can be built is affine. -/
theorem Built.isAffine (h : F.Built) : F.IsAffine := by
  induction h with
  | andThen _ _ ihOuter ihInner => exact ihOuter.andThen ihInner
  | _ => exact ⟨rfl, rfl, rfl⟩

/-! ## Moving a frame -/

/-- Where a place on the screen is taken. -/
def carry (R : Frame K) (place : Position K) : Position K := R.toScreen.apply place

/-- A composed frame takes a place where both frames take it, one after the other. -/
theorem carry_andThen (R : Frame K) (hF : F.IsAffine) (place : Position K) :
    (R.andThen F).carry place = R.carry (F.carry place) :=
  Matrix3.apply_mul R.toScreen hF place

/-- A moved frame places a point at the image of its place. -/
theorem apply_andThen (R : Frame K) (hF : F.IsAffine) (p : Point K) :
    (R.andThen F).apply p = R.carry (F.apply p) :=
  carry_andThen R hF p.toPosition

/-- To derive a moved frame is to move the derived one. -/
theorem derive_andThen (R F : Frame K) (start stop : Point K) :
    (R.andThen F).derive start stop = R.andThen (F.derive start stop) :=
  congrArg Frame.mk (Matrix3.mul_assoc _ _ _)

/-! ## Rigid motions -/

/-- The frame keeps lengths and right angles: the images of the two unit vectors are orthonormal. -/
structure IsRigid (R : Frame K) : Prop where
  isAffine : R.IsAffine
  /-- The image of the first unit vector has length one. -/
  first : R.toScreen.m00 * R.toScreen.m00 + R.toScreen.m10 * R.toScreen.m10 = 1
  /-- The image of the second one has length one. -/
  second : R.toScreen.m01 * R.toScreen.m01 + R.toScreen.m11 * R.toScreen.m11 = 1
  /-- There is a right angle between them. -/
  right : R.toScreen.m00 * R.toScreen.m01 + R.toScreen.m10 * R.toScreen.m11 = 0

/-- A shift is rigid. -/
theorem isRigid_shift (x y : K) : (shift x y).IsRigid := by
  refine ⟨⟨rfl, rfl, rfl⟩, ?_, ?_, ?_⟩ <;> simp only [shift, Matrix3.shift] <;> ring

/-- A turn is rigid, if sine and cosine lie on the unit circle. -/
theorem isRigid_rotation {angle : K}
    (h : Scalar.cos angle * Scalar.cos angle + Scalar.sin angle * Scalar.sin angle = 1) :
    (rotation angle).IsRigid := by
  refine ⟨⟨rfl, rfl, rfl⟩, h, ?_, ?_⟩ <;> simp only [rotation, Matrix3.rotation]
  · linear_combination h
  · ring

/-- The product of two vectors is that of their images. -/
theorem IsRigid.product_eq (hR : R.IsRigid) (x y u v : K) :
    (R.toScreen.m00 * x + R.toScreen.m01 * y) * (R.toScreen.m00 * u + R.toScreen.m01 * v) +
      (R.toScreen.m10 * x + R.toScreen.m11 * y) * (R.toScreen.m10 * u + R.toScreen.m11 * v) =
      x * u + y * v := by
  -- expanded, each product of coordinates has one of the three sums for a factor
  linear_combination (x * u) * hR.first + (y * v) * hR.second + (x * v + y * u) * hR.right

/-- One rigid motion after another is rigid. -/
theorem IsRigid.andThen (hR : R.IsRigid) (hS : S.IsRigid) : (R.andThen S).IsRigid := by
  obtain ⟨hS', hfirst, hsecond, hright⟩ := hS
  -- the first two columns of the product are the images of those of `S`
  refine ⟨hR.isAffine.andThen hS', ?_, ?_, ?_⟩ <;>
    simp only [Frame.andThen, Matrix3.mul, Matrix3.dot, hS'.m20_eq, hS'.m21_eq]
  · linear_combination
      hR.product_eq S.toScreen.m00 S.toScreen.m10 S.toScreen.m00 S.toScreen.m10 + hfirst
  · linear_combination
      hR.product_eq S.toScreen.m01 S.toScreen.m11 S.toScreen.m01 S.toScreen.m11 + hsecond
  · linear_combination
      hR.product_eq S.toScreen.m00 S.toScreen.m10 S.toScreen.m01 S.toScreen.m11 + hright

/-- A rigid motion does not collapse: the square of its determinant is one. -/
theorem IsRigid.det_ne_zero (hR : R.IsRigid) : R.toScreen.det ≠ 0 := by
  have hsquare : R.toScreen.det * R.toScreen.det = 1 := by
    -- the square of the determinant is the product of the lengths of both columns, less that of
    -- their inner product
    rw [hR.isAffine.det_eq]
    linear_combination
      (R.toScreen.m01 * R.toScreen.m01 + R.toScreen.m11 * R.toScreen.m11) * hR.first + hR.second
        - (R.toScreen.m00 * R.toScreen.m01 + R.toScreen.m10 * R.toScreen.m11) * hR.right
  intro h
  rw [h, mul_zero] at hsquare
  exact zero_ne_one hsquare

/-- The unit segment lies along the first column. -/
theorem scale_eq (F : Frame K) :
    F.scale = ExactArithmetic.length
      (F.toScreen.m00 * F.toScreen.m00 + F.toScreen.m10 * F.toScreen.m10) := by
  simp only [scale, Matrix3.apply, Scalar.hypot]
  congr 1
  ring

/-- A rigid motion keeps the scale. -/
theorem scale_andThen (hR : R.IsRigid) (hF : F.IsAffine) : (R.andThen F).scale = F.scale := by
  have hcolumn := hR.product_eq F.toScreen.m00 F.toScreen.m10 F.toScreen.m00 F.toScreen.m10
  -- the first column of the product is the image of the first column
  rw [scale_eq, scale_eq, ← hcolumn]
  simp only [andThen, Matrix3.mul, Matrix3.dot, hF.m20_eq]
  congr 1
  ring

/-- What was moved along is read back as the same point, or as none. -/
theorem unapply?_andThen (hR : R.IsRigid) (hF : F.IsAffine) (place : Position K) :
    Frame.unapply? (R.andThen F) (R.carry place) = F.unapply? place := by
  have hdet : (R.andThen F).toScreen.det = R.toScreen.det * F.toScreen.det :=
    Matrix3.det_mul _ _
  unfold unapply?
  -- the determinant of a rigid motion is not zero, so both frames collapse or neither does
  cases hinv : F.toScreen.inverse? with
  | none =>
    have hcollapsed : (R.andThen F).toScreen.inverse? = none := by
      rw [Matrix3.inverse?_eq_none_iff, hdet, Matrix3.inverse?_eq_none_iff.1 hinv, mul_zero]
    rw [hcollapsed]
    rfl
  | some inner =>
    cases hmoved : (R.andThen F).toScreen.inverse? with
    | none =>
      obtain ⟨hne, _⟩ := Matrix3.inverse?_eq_some_iff.1 hinv
      rw [Matrix3.inverse?_eq_none_iff, hdet] at hmoved
      exact absurd hmoved (mul_ne_zero hR.det_ne_zero hne)
    | some outer =>
      -- the place is the image of a position, which both inverses give back
      have hplace : F.carry (inner.apply place) = place := Matrix3.apply_inverse hF hinv place
      have hback : outer.apply (R.carry place) = inner.apply place :=
        calc outer.apply (R.carry place)
            = outer.apply (R.carry (F.carry (inner.apply place))) := by rw [hplace]
          _ = outer.apply ((R.andThen F).carry (inner.apply place)) := by rw [carry_andThen R hF]
          _ = inner.apply place := Matrix3.inverse_apply (hR.isAffine.andThen hF) hmoved _
      simp only [Option.map_some, hback]

end Frame

end SelfSimilar
