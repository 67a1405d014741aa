import Mathlib.Analysis.Real.Sqrt
import Mathlib.Analysis.SpecialFunctions.Trigonometric.Basic
import Mathlib.Tactic.LinearCombination
import SelfSimilar.Proofs.Geometry.Inversion

/-!
# The algebra of frames

In exact arithmetic, frames compose like the maps that they are. A frame that is built without
stretching an axis is a similarity: its matrix is that of a complex product and a shift, so it turns
and enlarges the plane without turning it over, and the square of its scale is its determinant.

* `Frame.andThen_assoc`, `Frame.andThen_identity`, `Frame.identity_andThen`: composition
* `Frame.scale_mul_scale`, `Frame.scale_mul_scale_derive`: the square of the scale, of any frame and
  of a derived one
* `Frame.Unstretched.isSimilarity`: what is built without a stretch is a similarity
* `frames_compose_as_maps`: all of it together
-/

namespace SelfSimilar

/-- The square of the distance of two places. -/
def Position.squareTo {K : Type} [Field K] (p q : Position K) : K :=
  (q.x - p.x) * (q.x - p.x) + (q.y - p.y) * (q.y - p.y)

variable {K : Type} [Field K] [DecidableEq K] [ExactArithmetic K]

/-- The length of the way from one place to another one. -/
def Position.lengthTo (p q : Position K) : K := Scalar.hypot (q.x - p.x) (q.y - p.y)

/-- The identity is neutral on the right. -/
theorem Matrix3.mul_identity (m : Matrix3 K) : m.mul identity = m := by
  simp only [mul, dot, identity]
  congr 1 <;> ring

/-- The identity is neutral on the left. -/
theorem Matrix3.identity_mul (m : Matrix3 K) : identity.mul m = m := by
  simp only [mul, dot, identity]
  congr 1 <;> ring

namespace Frame

variable {F G : Frame K}

/-! ## Composition -/

/-- Composition is associative. -/
theorem andThen_assoc (F G H : Frame K) : (F.andThen G).andThen H = F.andThen (G.andThen H) :=
  congrArg Frame.mk (Matrix3.mul_assoc _ _ _)

/-- The determinant of a composed frame. -/
theorem det_andThen (F G : Frame K) :
    (F.andThen G).toScreen.det = F.toScreen.det * G.toScreen.det :=
  Matrix3.det_mul _ _

/-- The identity inside of a frame changes nothing. -/
theorem andThen_identity (F : Frame K) : F.andThen identity = F :=
  congrArg Frame.mk (Matrix3.mul_identity _)

/-- The identity around a frame changes nothing. -/
theorem identity_andThen (F : Frame K) : identity.andThen F = F :=
  congrArg Frame.mk (Matrix3.identity_mul _)

/-! ## Derived frames -/

/-- The frame of a segment takes the origin to its start. -/
theorem carry_ontoSegment_origin (start stop : Point K) :
    (ontoSegment start stop).carry ⟨0, 0⟩ = start.toPosition := by
  simp only [carry, ontoSegment, Matrix3.ontoSegment, Matrix3.apply, Point.toPosition]
  congr 1 <;> ring

/-- The frame of a segment takes `(1, 0)` to its stop. -/
theorem carry_ontoSegment_xUnit (start stop : Point K) :
    (ontoSegment start stop).carry ⟨1, 0⟩ = stop.toPosition := by
  simp only [carry, ontoSegment, Matrix3.ontoSegment, Matrix3.apply, Point.toPosition]
  congr 1 <;> ring

/-- The unit segment of a derived frame starts at the place of `start`. -/
theorem apply_derive_origin (F : Frame K) (start stop : Point K) :
    (F.derive start stop).apply .origin = F.apply start := by
  rw [derive, apply_andThen F (isAffine_ontoSegment start stop)]
  exact congrArg F.carry (carry_ontoSegment_origin start stop)

/-- The unit segment of a derived frame ends at the place of `stop`. -/
theorem apply_derive_xUnit (F : Frame K) (start stop : Point K) :
    (F.derive start stop).apply .xUnit = F.apply stop := by
  rw [derive, apply_andThen F (isAffine_ontoSegment start stop)]
  exact congrArg F.carry (carry_ontoSegment_xUnit start stop)

/-- The determinant grows by the square of the distance that the frame is derived over. -/
theorem det_derive_eq (F : Frame K) (start stop : Point K) :
    (F.derive start stop).toScreen.det =
      F.toScreen.det * start.toPosition.squareTo stop.toPosition := by
  have hsegment : (ontoSegment start stop).toScreen.det =
      start.toPosition.squareTo stop.toPosition := by
    simp only [ontoSegment, Matrix3.ontoSegment, Matrix3.det, Position.squareTo]
    ring
  rw [derive, det_andThen, hsegment]

/-! ## Scales -/

/-- Lengths are square roots of sums of two squares. -/
def LengthIsRoot (K : Type) [Field K] [DecidableEq K] [ExactArithmetic K] : Prop :=
  ∀ x y : K, Scalar.hypot x y * Scalar.hypot x y = x * x + y * y

/-- The scale is the length of the image of the unit segment. -/
theorem scale_eq_lengthTo (F : Frame K) :
    F.scale = (F.apply .origin).lengthTo (F.apply .xUnit) := rfl

/-- The scale of a derived frame is the length between the two places. -/
theorem scale_derive (F : Frame K) (start stop : Point K) :
    (F.derive start stop).scale = (F.apply start).lengthTo (F.apply stop) := by
  rw [scale_eq_lengthTo, apply_derive_origin, apply_derive_xUnit]

/-- The square of the scale is that of the length of the unit segment. -/
theorem scale_mul_scale (hlength : LengthIsRoot K) (F : Frame K) :
    F.scale * F.scale = (F.apply .origin).squareTo (F.apply .xUnit) :=
  hlength _ _

/-- The square of the scale of a derived frame is that of the distance of the two places. -/
theorem scale_mul_scale_derive (hlength : LengthIsRoot K) (F : Frame K) (start stop : Point K) :
    (F.derive start stop).scale * (F.derive start stop).scale =
      (F.apply start).squareTo (F.apply stop) := by
  rw [scale_mul_scale hlength, apply_derive_origin, apply_derive_xUnit]

/-! ## Similarities -/

/-- The frames that are built without a stretch of an axis. -/
inductive Unstretched : Frame K → Prop where
  | identity : Unstretched identity
  | shift (x y : K) : Unstretched (shift x y)
  | rotation (angle : K) : Unstretched (rotation angle)
  | ontoSegment (start stop : Point K) : Unstretched (ontoSegment start stop)
  | andThen {outer inner : Frame K} :
      Unstretched outer → Unstretched inner → Unstretched (outer.andThen inner)

/-- The matrix is that of a complex product and a shift. -/
structure IsSimilarity (F : Frame K) : Prop where
  isAffine : F.IsAffine
  m01_eq : F.toScreen.m01 = -F.toScreen.m10
  m11_eq : F.toScreen.m11 = F.toScreen.m00

/-- The matrix of a similarity has four entries to choose. -/
theorem IsSimilarity.exists_toScreen_eq (hF : F.IsSimilarity) :
    ∃ p q x y, F.toScreen = ⟨p, -q, x, q, p, y, 0, 0, 1⟩ := by
  obtain ⟨⟨m00, m01, m02, m10, m11, m12, m20, m21, m22⟩⟩ := F
  obtain ⟨⟨h20, h21, h22⟩, h01, h11⟩ := hF
  dsimp only at h20 h21 h22 h01 h11
  subst h20 h21 h22 h01 h11
  exact ⟨_, _, _, _, rfl⟩

/-- One similarity after another is a similarity. -/
theorem IsSimilarity.andThen (hF : F.IsSimilarity) (hG : G.IsSimilarity) :
    (F.andThen G).IsSimilarity := by
  obtain ⟨hF', hF01, hF11⟩ := hF
  obtain ⟨hG', hG01, hG11⟩ := hG
  -- complex numbers are multiplied, which leaves the same pattern of entries
  refine ⟨hF'.andThen hG', ?_, ?_⟩ <;>
    simp only [Frame.andThen, Matrix3.mul, Matrix3.dot, hG'.m20_eq, hG'.m21_eq, hF01, hF11, hG01,
      hG11] <;>
    ring

/-- What is built without a stretch is a similarity. -/
theorem Unstretched.isSimilarity (h : F.Unstretched) : F.IsSimilarity := by
  induction h with
  | identity => exact ⟨⟨rfl, rfl, rfl⟩, neg_zero.symm, rfl⟩
  | shift x y => exact ⟨⟨rfl, rfl, rfl⟩, neg_zero.symm, rfl⟩
  | rotation angle => exact ⟨⟨rfl, rfl, rfl⟩, rfl, rfl⟩
  | ontoSegment start stop => exact ⟨isAffine_ontoSegment start stop, rfl, rfl⟩
  | andThen _ _ ihOuter ihInner => exact ihOuter.andThen ihInner

/-- The determinant of a similarity is a sum of two squares. -/
theorem IsSimilarity.det_eq (hF : F.IsSimilarity) :
    F.toScreen.det = F.toScreen.m00 * F.toScreen.m00 + F.toScreen.m10 * F.toScreen.m10 := by
  rw [hF.isAffine.det_eq, hF.m01_eq, hF.m11_eq]
  ring

/-- The first column of the matrix is the image of the unit vector. -/
theorem squareTo_apply_xUnit (F : Frame K) : (F.apply .origin).squareTo (F.apply .xUnit) =
    F.toScreen.m00 * F.toScreen.m00 + F.toScreen.m10 * F.toScreen.m10 := by
  simp only [Position.squareTo, apply, Matrix3.apply, Point.toPosition, Point.origin, Point.xUnit]
  ring

/-- The determinant of a similarity is the square of its scale. -/
theorem IsSimilarity.det_eq_scale (hF : F.IsSimilarity) (hlength : LengthIsRoot K) :
    F.toScreen.det = F.scale * F.scale := by
  rw [scale_mul_scale hlength, squareTo_apply_xUnit, hF.det_eq]

/-- A similarity enlarges all distances alike. -/
theorem IsSimilarity.squareTo_apply (hF : F.IsSimilarity) (p q : Point K) :
    (F.apply p).squareTo (F.apply q) = F.toScreen.det * p.toPosition.squareTo q.toPosition := by
  simp only [hF.det_eq, Position.squareTo, apply, Matrix3.apply, Point.toPosition, hF.m01_eq,
    hF.m11_eq]
  ring

/-- A similarity can be inverted unless it has shrunk everything to a point. -/
theorem IsSimilarity.exists_inverse_iff (hF : F.IsSimilarity) (hlength : LengthIsRoot K) :
    (∃ n, F.toScreen.inverse? = some n) ↔ F.scale ≠ 0 := by
  rw [← Option.ne_none_iff_exists', ne_eq, Matrix3.inverse?_eq_none_iff, hF.det_eq_scale hlength,
    mul_self_eq_zero]

end Frame

/-- Over an ordered field:

* All frames that can be built have the last row `(0, 0, 1)`, and frames that are derived from them
  can be built too.
* A composed frame places a point where the outer frame places what the inner one makes of it.
  Composition is associative, and the identity is neutral.
* A derived frame takes the ends of the unit segment to the places of the two points, and its scale
  is the length from one place to the other. The determinant is multiplied by the square of the
  distance of the points.
* A frame that is built without a stretch has the matrix of a complex product and a shift. It
  enlarges all distances alike and does not turn the plane over.

If lengths are square roots of sums of squares, then the square of the scale of a derived frame is
that of the distance of the two places. A frame that is built without a stretch has the square of
its scale for its determinant, so it can be inverted exactly if the scale is not zero. -/
theorem frames_compose_as_maps {K : Type} [Field K] [LinearOrder K] [IsStrictOrderedRing K]
    [ExactArithmetic K] :
    (∀ F : Frame K, F.Built →
      F.toScreen.m20 = 0 ∧ F.toScreen.m21 = 0 ∧ F.toScreen.m22 = 1 ∧
      ∀ a b, (F.derive a b).Built) ∧
    (∀ F G : Frame K, F.Built → G.Built → ∀ p,
      (F.andThen G).apply p = F.apply (.round (G.apply p).x (G.apply p).y)) ∧
    (∀ F G H : Frame K, (F.andThen G).andThen H = F.andThen (G.andThen H)) ∧
    (∀ F : Frame K, F.andThen .identity = F ∧ Frame.identity.andThen F = F) ∧
    (∀ (F : Frame K) (a b : Point K),
      (F.derive a b).apply .origin = F.apply a ∧ (F.derive a b).apply .xUnit = F.apply b ∧
      (F.derive a b).scale = (F.apply a).lengthTo (F.apply b) ∧
      (Frame.LengthIsRoot K →
        (F.derive a b).scale * (F.derive a b).scale = (F.apply a).squareTo (F.apply b)) ∧
      (F.derive a b).toScreen.det = F.toScreen.det * a.toPosition.squareTo b.toPosition) ∧
    ∀ F : Frame K, F.Unstretched →
      (∀ a b, (F.derive a b).Unstretched) ∧
      (∃ p q x y, F.toScreen = ⟨p, -q, x, q, p, y, 0, 0, 1⟩) ∧
      (∀ p q, (F.apply p).squareTo (F.apply q) =
        F.toScreen.det * p.toPosition.squareTo q.toPosition) ∧
      0 ≤ F.toScreen.det ∧
      (Frame.LengthIsRoot K → F.toScreen.det = F.scale * F.scale ∧
        ((∃ n, F.toScreen.inverse? = some n) ↔ F.scale ≠ 0)) := by
  refine ⟨fun F hF => ?_, fun F _ _ hG => Frame.apply_andThen F hG.isAffine, Frame.andThen_assoc,
    fun F => ⟨F.andThen_identity, F.identity_andThen⟩, fun F a b => ?_, fun F hF => ?_⟩
  · obtain ⟨h20, h21, h22⟩ := hF.isAffine
    exact ⟨h20, h21, h22, fun a b => hF.andThen (.ontoSegment a b)⟩
  · exact ⟨F.apply_derive_origin a b, F.apply_derive_xUnit a b, F.scale_derive a b,
      fun hlength => F.scale_mul_scale_derive hlength a b, F.det_derive_eq a b⟩
  -- without a stretch, the determinant is a sum of two squares and so not negative
  · have hsim : F.IsSimilarity := hF.isSimilarity
    have hdet : 0 ≤ F.toScreen.det :=
      hsim.det_eq ▸ add_nonneg (mul_self_nonneg _) (mul_self_nonneg _)
    exact ⟨fun a b => hF.andThen (.ontoSegment a b), hsim.exists_toScreen_eq, hsim.squareTo_apply,
      hdet, fun hlength => ⟨hsim.det_eq_scale hlength, hsim.exists_inverse_iff hlength⟩⟩

/-- Real numbers, with their square root, sine and cosine. -/
noncomputable instance ExactArithmetic.real : ExactArithmetic ℝ where
  lt x y := decide (x < y)
  le x y := decide (x ≤ y)
  abs x := |x|
  sqrt := Real.sqrt
  length := Real.sqrt
  sin := Real.sin
  cos := Real.cos
  rem x y := x - y * (if 0 ≤ x / y then ⌊x / y⌋ else ⌈x / y⌉)
  floor x := Int64.ofInt ⌊x⌋
  text _ x := toString ⌊x⌋

/-- A stretch that turns the plane over is put around a turn and a shift, none of which commute, and
a frame is derived inside the turn and the shift. -/
theorem frames_compose_as_maps_turned :
    let F : Frame ℝ := .scaling 2 (-3)
    let G : Frame ℝ := .andThen (.rotation 1) (.shift 1 2)
    let a : Point ℝ := ⟨0, 1⟩
    let b : Point ℝ := ⟨3, 5⟩
    let child := G.derive a b
    Frame.LengthIsRoot ℝ ∧ F.Built ∧ G.Built ∧
      (F.andThen G).apply a = F.apply (.round (G.apply a).x (G.apply a).y) ∧
      (F.derive a b).toScreen.det = F.toScreen.det * a.toPosition.squareTo b.toPosition ∧
      G.Unstretched ∧ child.Unstretched ∧ child.toScreen.det = 25 ∧
      child.scale * child.scale = 25 ∧ ∃ n, child.toScreen.inverse? = some n := by
  intro F G a b child
  have hlength : Frame.LengthIsRoot ℝ := fun x y =>
    Real.mul_self_sqrt (add_nonneg (mul_self_nonneg x) (mul_self_nonneg y))
  have hbuilt : G.Built := .andThen (.rotation 1) (.shift 1 2)
  have hG : G.Unstretched := .andThen (.rotation 1) (.shift 1 2)
  -- the turn has the determinant one, by `sin² + cos² = 1`, and the shift as well
  have hdetG : G.toScreen.det = 1 := by
    rw [Frame.det_andThen]
    simp only [Frame.rotation, Matrix3.rotation, Frame.shift, Matrix3.shift, Matrix3.det,
      Scalar.sin, Scalar.cos, ExactArithmetic.sin, ExactArithmetic.cos]
    linear_combination Real.sin_sq_add_cos_sq 1
  have hsquare : a.toPosition.squareTo b.toPosition = 25 := by
    simp only [a, b, Point.toPosition, Position.squareTo]
    norm_num
  obtain ⟨_, hplace, _, _, hderive, hsimilar⟩ := frames_compose_as_maps (K := ℝ)
  obtain ⟨_, _, _, _, hdetF⟩ := hderive F a b
  obtain ⟨_, _, _, _, hdet⟩ := hderive G a b
  rw [hdetG, hsquare, one_mul] at hdet
  have hchild : child.Unstretched := (hsimilar G hG).1 a b
  obtain ⟨hscale, hinverse⟩ := (hsimilar child hchild).2.2.2.2 hlength
  rw [hdet] at hscale
  refine ⟨hlength, .scaling 2 (-3), hbuilt, hplace F G (.scaling 2 (-3)) hbuilt a, hdetF, hG,
    hchild, hdet, hscale.symm, hinverse.2 fun hzero => ?_⟩
  rw [hzero] at hscale
  norm_num at hscale

end SelfSimilar
