/-!
# Scalars

Coordinates, lengths and angles are scalars. Everything that draws is written over the class
`Scalar`, so the same definitions run on double-precision numbers (`SelfSimilar.Scalar.Double`)
and can be read over exact arithmetic, where rounding is the identity.

Local coordinates of points are kept to single precision: they pass through `Scalar.single`
whenever a point is built. Screen positions, real values and matrix entries are not rounded.
-/

namespace SelfSimilar

/-- The ways in which a scalar is written. -/
inductive NumberStyle where
  /-- The fewest digits that read back, never an exponent, and no point after a whole number. -/
  | plain
  /-- As `plain`, for a number of single precision: the digits need only read back as that. -/
  | plainSingle
  /-- The fewest digits that read back, always marked as a real number: `1.0`, `1e16`, `2.5e-7`. -/
  | literal
  /-- Exactly six places after the point. -/
  | sixPlaces
deriving DecidableEq, Repr

/-- Numbers that a drawing can be computed with. -/
class Scalar (α : Type) extends Zero α, One α, Add α, Sub α, Mul α, Div α, Neg α, BEq α where
  /-- The scalar nearest to an integer. -/
  ofInt : Int → α
  /-- The nearest number of single precision. -/
  single : α → α
  /-- The remainder of a division that truncates: it has the sign of the dividend. -/
  rem : α → α → α
  /-- The absolute value. -/
  abs : α → α
  /-- The square root. -/
  sqrt : α → α
  /-- The length of the vector with these two coordinates. -/
  hypot : α → α → α
  /-- The sine of an angle in radians. -/
  sin : α → α
  /-- The cosine of an angle in radians. -/
  cos : α → α
  /-- Strict comparison. -/
  lt : α → α → Bool
  /-- Comparison. -/
  le : α → α → Bool
  /-- Whether the scalar is a number, neither infinite nor undefined. -/
  isFinite : α → Bool
  /-- The greatest integer that is not above the scalar, brought into the range of a word;
  an undefined scalar counts as zero. -/
  floor : α → Int64
  /-- The scalar as text. -/
  text : NumberStyle → α → String

namespace Scalar

variable {α : Type} [Scalar α]

/-- Whether the scalar differs from itself, as an undefined result does. -/
def isUndefined (x : α) : Bool := !(x == x)

/-- The smaller of two scalars; an undefined one gives way to the other. -/
def least (x y : α) : α :=
  if isUndefined x then y
  else if isUndefined y then x
  else if lt y x then y else x

end Scalar

end SelfSimilar
