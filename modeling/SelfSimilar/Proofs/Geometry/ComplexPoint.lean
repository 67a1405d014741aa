import Mathlib.Tactic.FieldSimp
import Mathlib.Tactic.LinearCombination
import SelfSimilar.Proofs.Geometry.Similarity

/-!
# Points as complex numbers

In exact arithmetic, points are multiplied and divided as complex numbers are. The quotient, the
inverse and the projection are computed by formulas of their own, and all of them agree with the one
product: the inverse undoes it, a quotient is a product by the inverse, and a point is the sum of
its projection onto a line and of a remainder at a right angle to that line.

* `Point.mul_comm`, `Point.mul_assoc`, `Point.mul_add`, `Point.mul_xUnit`: the product
* `Point.square_mul`: squares of magnitudes are multiplied
* `Point.mul_invert`, `Point.div_eq_mul_invert`: the inverse, and quotients as products
* `Point.proj_scale`, `Point.proj_of_dot_eq_zero`: what is on the line, and what is at a right angle
  to it
* `Point.proj_add_mod`, `Point.dot_mod`: the two parts of a point
* `points_are_complex_numbers`: all of it together
-/

namespace SelfSimilar

namespace Point

section

variable {K : Type} [Field K]

/-- The inner product. -/
def dot (p q : Point K) : K := p.x * q.x + p.y * q.y

/-- The square of the magnitude. -/
def square (p : Point K) : K := p.dot p

end

variable {K : Type} [Field K] [DecidableEq K] [ExactArithmetic K] {p q : Point K}

/-! ## Coordinates

Without rounding, the coordinates of a result are what its formula says. -/

theorem add_eq (p q : Point K) : p.add q = ⟨p.x + q.x, p.y + q.y⟩ := rfl

theorem sub_eq (p q : Point K) : p.sub q = ⟨p.x - q.x, p.y - q.y⟩ := rfl

theorem mul_eq (p q : Point K) : p.mul q = ⟨p.x * q.x - p.y * q.y, p.x * q.y + p.y * q.x⟩ := rfl

theorem scale_eq (p : Point K) (factor : K) : p.scale factor = ⟨factor * p.x, factor * p.y⟩ := rfl

/-- The inverse is divided by the square of the magnitude, not by the magnitude. -/
theorem invert_eq (p : Point K) : p.invert = ⟨p.x / p.square, -p.y / p.square⟩ := rfl

/-- The quotient, by a formula of its own. -/
theorem div_eq (p q : Point K) :
    p.div q = ⟨(p.x * q.x + p.y * q.y) / q.square, (p.y * q.x - p.x * q.y) / q.square⟩ := rfl

/-- The projection onto the line through the origin and a point. -/
theorem proj_eq (p q : Point K) : p.proj q = q.scale (p.dot q / q.square) := rfl

/-- The remainder is what the projection leaves. -/
theorem mod_eq (p q : Point K) : p.mod q = p.sub (p.proj q) := rfl

/-! ## Products -/

theorem mul_comm (p q : Point K) : p.mul q = q.mul p := by
  simp only [mul_eq]
  congr 1 <;> ring

theorem mul_assoc (p q r : Point K) : (p.mul q).mul r = p.mul (q.mul r) := by
  simp only [mul_eq]
  congr 1 <;> ring

theorem mul_add (p q r : Point K) : p.mul (q.add r) = (p.mul q).add (p.mul r) := by
  simp only [mul_eq, add_eq]
  congr 1 <;> ring

/-- The point `(1, 0)` is neutral. -/
theorem mul_xUnit (p : Point K) : p.mul .xUnit = p := by
  show Point.mk (p.x * 1 - p.y * 0) (p.x * 0 + p.y * 1) = ⟨p.x, p.y⟩
  congr 1 <;> ring

/-- Squares of magnitudes are multiplied. -/
theorem square_mul (p q : Point K) : (p.mul q).square = p.square * q.square := by
  simp only [square, dot, mul_eq]
  ring

/-! ## Inverses and quotients -/

/-- A point by its inverse is `(1, 0)`. -/
theorem mul_invert (h : q.square ≠ 0) : q.mul q.invert = .xUnit := by
  -- the two squares add up to what they are divided by
  have hone : q.x * (q.x / q.square) - q.y * (-q.y / q.square) = 1 := by
    field_simp
    rw [square, dot]
    ring
  have hzero : q.x * (-q.y / q.square) + q.y * (q.x / q.square) = 0 := by ring
  simp only [mul_eq, invert_eq, hone, hzero]
  rfl

/-- The quotient has a formula of its own, without the rounding of the inverse. -/
theorem div_eq_mul_invert (p q : Point K) : p.div q = p.mul q.invert := by
  simp only [div_eq, mul_eq, invert_eq]
  congr 1 <;> ring

/-- A quotient undoes a product. -/
theorem mul_div_cancel (p : Point K) (h : q.square ≠ 0) : (p.mul q).div q = p := by
  rw [div_eq_mul_invert, mul_assoc, mul_invert h, mul_xUnit]

/-- A product undoes a quotient. -/
theorem div_mul_cancel (p : Point K) (h : q.square ≠ 0) : (p.div q).mul q = p := by
  rw [div_eq_mul_invert, mul_assoc, mul_comm _ q, mul_invert h, mul_xUnit]

theorem div_self (h : q.square ≠ 0) : q.div q = .xUnit := by
  rw [div_eq_mul_invert, mul_invert h]

/-! ## Projections and remainders -/

/-- The inner product with a point on the same line. -/
theorem dot_scale (q : Point K) (factor : K) : (q.scale factor).dot q = factor * q.square := by
  simp only [dot, square, scale_eq]
  ring

/-- The inner product of a difference. -/
theorem dot_sub (p q r : Point K) : (p.sub q).dot r = p.dot r - q.dot r := by
  simp only [dot, sub_eq]
  ring

theorem sub_origin (p : Point K) : p.sub .origin = p := by
  show Point.mk (p.x - 0) (p.y - 0) = ⟨p.x, p.y⟩
  congr 1 <;> ring

/-- What is on the line stays where it is. -/
theorem proj_scale (h : q.square ≠ 0) (factor : K) : (q.scale factor).proj q = q.scale factor := by
  rw [proj_eq, dot_scale, mul_div_cancel_right₀ _ h]

/-- What is at a right angle to the line is taken to the origin. -/
theorem proj_of_dot_eq_zero (h : p.dot q = 0) : p.proj q = .origin := by
  rw [proj_eq, h]
  show Point.mk (0 / q.square * q.x) (0 / q.square * q.y) = ⟨0, 0⟩
  congr 1 <;> ring

/-- A point is the sum of its projection and its remainder. -/
theorem proj_add_mod (p q : Point K) : (p.proj q).add (p.mod q) = p := by
  rw [mod_eq, sub_eq, add_eq]
  show _ = Point.mk p.x p.y
  congr 1 <;> ring

/-- The remainder is at a right angle to the divisor. -/
theorem dot_mod (p : Point K) (h : q.square ≠ 0) : (p.mod q).dot q = 0 := by
  rw [mod_eq, dot_sub, proj_eq, dot_scale, div_mul_cancel₀ _ h, sub_self]

/-- A projection is on the line already. -/
theorem proj_proj (p : Point K) (h : q.square ≠ 0) : (p.proj q).proj q = p.proj q :=
  proj_scale h _

/-- The projection of a remainder is the origin. -/
theorem proj_mod (p : Point K) (h : q.square ≠ 0) : (p.mod q).proj q = .origin :=
  proj_of_dot_eq_zero (dot_mod p h)

/-- A remainder is its own remainder. -/
theorem mod_mod (p : Point K) (h : q.square ≠ 0) : (p.mod q).mod q = p.mod q := by
  rw [mod_eq, proj_mod p h, sub_origin]

/-! ## Magnitudes -/

/-- The square root of what is not negative is one. -/
def SqrtIsRoot (K : Type) [Field K] [LE K] [DecidableEq K] [ExactArithmetic K] : Prop :=
  ∀ x : K, 0 ≤ x → Scalar.sqrt x * Scalar.sqrt x = x

section

variable {K : Type} [Field K] [LinearOrder K] [IsStrictOrderedRing K]

theorem square_nonneg (p : Point K) : 0 ≤ p.square :=
  add_nonneg (mul_self_nonneg _) (mul_self_nonneg _)

/-- The magnitude is the square root of its square. -/
theorem magnitude_mul_magnitude [ExactArithmetic K] (hroot : SqrtIsRoot K) (p : Point K) :
    p.magnitude * p.magnitude = p.square :=
  hroot _ p.square_nonneg

/-- In an ordered field, only the origin has no magnitude. -/
theorem square_ne_zero [ExactArithmetic K] {p : Point K} (h : p ≠ .origin) : p.square ≠ 0 := by
  intro hzero
  -- two squares that add up to zero are both zero
  obtain ⟨hx, hy⟩ := mul_self_add_mul_self_eq_zero.1 hzero
  apply h
  show Point.mk p.x p.y = ⟨0, 0⟩
  rw [hx, hy]

end

end Point

/-- Over an ordered field, points are complex numbers.

* The product is commutative and associative, it is distributive over sums, and `(1, 0)` is neutral.
  The square of the magnitude of a product is the product of those of its factors.
* By any point but the origin, division undoes multiplication and the other way round; it is
  multiplication by the inverse. A point divided by itself is `(1, 0)`.
* The remainder of a point by such a point is at a right angle to it, and a point is the sum of its
  projection and its remainder. A projection is its own projection and a remainder is its own
  remainder, and the projection of a remainder is the origin. -/
theorem points_are_complex_numbers {K : Type} [Field K] [LinearOrder K] [IsStrictOrderedRing K]
    [ExactArithmetic K] :
    (∀ p q : Point K, p.mul q = q.mul p) ∧
    (∀ p q r : Point K, (p.mul q).mul r = p.mul (q.mul r)) ∧
    (∀ p q r : Point K, p.mul (q.add r) = (p.mul q).add (p.mul r)) ∧
    (∀ p : Point K, p.mul .xUnit = p) ∧
    (∀ p q : Point K, (p.mul q).square = p.square * q.square) ∧
    (Point.SqrtIsRoot K → ∀ p q : Point K,
      (p.mul q).magnitude * (p.mul q).magnitude =
        p.magnitude * p.magnitude * (q.magnitude * q.magnitude)) ∧
    ∀ q : Point K, q ≠ .origin →
      q.mul q.invert = .xUnit ∧ q.div q = .xUnit ∧
      ∀ p : Point K, (p.mul q).div q = p ∧ (p.div q).mul q = p ∧ p.div q = p.mul q.invert ∧
        (p.mod q).dot q = 0 ∧ (p.proj q).add (p.mod q) = p ∧
        (p.proj q).proj q = p.proj q ∧ (p.mod q).mod q = p.mod q ∧ (p.mod q).proj q = .origin := by
  refine ⟨Point.mul_comm, Point.mul_assoc, Point.mul_add, Point.mul_xUnit, Point.square_mul,
    fun hroot p q => ?_, fun q hq => ?_⟩
  · simp only [Point.magnitude_mul_magnitude hroot]
    exact Point.square_mul p q
  · have h : q.square ≠ 0 := Point.square_ne_zero hq
    exact ⟨Point.mul_invert h, Point.div_self h, fun p =>
      ⟨Point.mul_div_cancel p h, Point.div_mul_cancel p h, Point.div_eq_mul_invert p q,
        Point.dot_mod p h, Point.proj_add_mod p q, Point.proj_proj p h, Point.mod_mod p h,
        Point.proj_mod p h⟩⟩

/-- Neither point lies on an axis, their product is turned and stretched, and they are not at a
right angle. -/
theorem points_are_complex_numbers_oblique :
    let p : Point ℝ := ⟨2, 3⟩
    let q : Point ℝ := ⟨1, -2⟩
    q ≠ .origin ∧ Point.SqrtIsRoot ℝ ∧ p.mul q = ⟨8, -1⟩ ∧ (p.mul q).div q = p ∧
      p.magnitude * p.magnitude = 13 ∧ (p.mul q).magnitude * (p.mul q).magnitude = 13 * 5 ∧
      p.div q = p.mul q.invert ∧ (p.div q).mul q = p ∧ q.div q = .xUnit ∧
      p.proj q = ⟨-4 / 5, 8 / 5⟩ ∧ (p.mod q).dot q = 0 ∧ (p.proj q).add (p.mod q) = p ∧
      (p.mod q).proj q = .origin := by
  intro p q
  -- the first coordinates differ
  have hq : q ≠ .origin := by
    intro h
    have hx : (1 : ℝ) = 0 := congrArg Point.x h
    norm_num at hx
  have hroot : Point.SqrtIsRoot ℝ := fun x hx => Real.mul_self_sqrt hx
  obtain ⟨_, _, _, _, _, hmagnitude, hpoint⟩ := points_are_complex_numbers (K := ℝ)
  obtain ⟨_, hone, hall⟩ := hpoint q hq
  obtain ⟨hundone, hdone, hinverse, hangle, hsum, _, _, horigin⟩ := hall p
  have hproduct : p.mul q = ⟨8, -1⟩ := by
    rw [Point.mul_eq]
    congr 1 <;> norm_num [p, q]
  have hproj : p.proj q = ⟨-4 / 5, 8 / 5⟩ := by
    simp only [Point.proj_eq, Point.scale_eq, Point.square, Point.dot]
    congr 1 <;> norm_num [p, q]
  have hp : p.magnitude * p.magnitude = 13 := by
    rw [Point.magnitude_mul_magnitude hroot, Point.square, Point.dot]
    norm_num [p]
  have hq' : q.magnitude * q.magnitude = 5 := by
    rw [Point.magnitude_mul_magnitude hroot, Point.square, Point.dot]
    norm_num [q]
  have hboth := hmagnitude hroot p q
  rw [hp, hq'] at hboth
  exact ⟨hq, hroot, hproduct, hundone, hp, hboth, hinverse, hdone, hone, hproj, hangle, hsum,
    horigin⟩

end SelfSimilar
