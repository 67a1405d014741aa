import Mathlib.Algebra.Field.Rat
import SelfSimilar.Scalar.Basic

/-!
# Exact arithmetic

Everything that draws is written over `Scalar`, so it can be read over the elements of a field as
well as over doubles. Then the four operations are those of the field, rounding does nothing, and
every scalar is a number. What a field does not determine may be any function: the comparisons, the
absolute value, the root, sine and cosine, the remainder, the whole part and the text. The length of
a vector may be any function of its square.

What needs no more than the four operations holds in any `ScalarField`, whatever else the scalars
can do: there, the length of a vector may be any function of its coordinates. `ScalarField.IsExact`
adds that rounding does nothing.
-/

namespace SelfSimilar

/-- The functions on scalars that a field does not determine. They may be any functions. -/
class ExactArithmetic (K : Type) where
  lt : K → K → Bool
  le : K → K → Bool
  abs : K → K
  sqrt : K → K
  /-- The length of a vector, given the sum of the squares of its coordinates. -/
  length : K → K
  sin : K → K
  cos : K → K
  rem : K → K → K
  floor : K → Int64
  text : NumberStyle → K → String

instance ExactArithmetic.toScalar {K : Type} [Field K] [DecidableEq K] [ExactArithmetic K] :
    Scalar K where
  ofInt n := n
  single x := x
  rem := rem
  abs := abs
  sqrt := sqrt
  hypot x y := length (x * x + y * y)
  sin := sin
  cos := cos
  lt := lt
  le := le
  beq x y := decide (x = y)
  isFinite _ := true
  floor := floor
  text := text

/-- Rational numbers, with the square of a vector for its length, and angles given by the tangents
of their halves. -/
instance ExactArithmetic.rational : ExactArithmetic ℚ where
  lt x y := decide (x < y)
  le x y := decide (x ≤ y)
  abs x := if x < 0 then -x else x
  sqrt x := x
  length square := square
  sin t := 2 * t / (1 + t * t)
  cos t := (1 - t * t) / (1 + t * t)
  rem x y := x - y * (x / y).num.tdiv (x / y).den
  floor x := Int64.ofInt x.floor
  text _ x := toString x

/-- A field whose elements are scalars. Only the four operations are those of the field. -/
class ScalarField (K : Type) extends Field K, Scalar K

/-- Exact arithmetic makes a field one of scalars. -/
@[reducible] def ExactArithmetic.toScalarField {K : Type} [Field K] [DecidableEq K]
    [ExactArithmetic K] : ScalarField K :=
  { ‹Field K›, (ExactArithmetic.toScalar : Scalar K) with }

/-- Scalars are computed with exactly: rounding does nothing, and every scalar is a number. -/
class ScalarField.IsExact (K : Type) [ScalarField K] : Prop where
  single_eq : ∀ x : K, Scalar.single x = x
  isFinite_eq : ∀ x : K, Scalar.isFinite x = true
  beq_iff : ∀ x y : K, (x == y) = true ↔ x = y

/-- Exact arithmetic computes exactly. -/
theorem ExactArithmetic.isExact {K : Type} [Field K] [DecidableEq K] [ExactArithmetic K] :
    @ScalarField.IsExact K toScalarField :=
  letI : ScalarField K := toScalarField
  { single_eq := fun _ => rfl
    isFinite_eq := fun _ => rfl
    beq_iff := fun _ _ => decide_eq_true_iff }

end SelfSimilar
