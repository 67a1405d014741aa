import SelfSimilar.Geometry.Point

/-!
# Matrices of the affine plane

Three rows of three entries; `mRC` is the entry in row `R` and column `C`. A position is read as
the column `(x, y, 1)`, so `a.mul b` applies `b` first. Nothing here knows of points or fractals.
-/

namespace SelfSimilar

/-- A matrix with three rows and three columns. -/
structure Matrix3 (α : Type) where
  /-- First row, first column. -/
  m00 : α
  /-- First row, second column. -/
  m01 : α
  /-- First row, third column. -/
  m02 : α
  /-- Second row, first column. -/
  m10 : α
  /-- Second row, second column. -/
  m11 : α
  /-- Second row, third column. -/
  m12 : α
  /-- Third row, first column. -/
  m20 : α
  /-- Third row, second column. -/
  m21 : α
  /-- Third row, third column. -/
  m22 : α
deriving BEq, DecidableEq, Repr

namespace Matrix3

variable {α : Type} [Scalar α]

/-- The entries, row by row. -/
def entries (m : Matrix3 α) : List α :=
  [m.m00, m.m01, m.m02, m.m10, m.m11, m.m12, m.m20, m.m21, m.m22]

/-- The matrix that moves nothing. -/
def identity : Matrix3 α := ⟨1, 0, 0, 0, 1, 0, 0, 0, 1⟩

/-- The product of a row and a column, added up from zero and from the left. -/
def dot (a b c x y z : α) : α := 0 + a * x + b * y + c * z

/-- The matrix product: apply `b`, then `a`. -/
def mul (a b : Matrix3 α) : Matrix3 α where
  m00 := dot a.m00 a.m01 a.m02 b.m00 b.m10 b.m20
  m01 := dot a.m00 a.m01 a.m02 b.m01 b.m11 b.m21
  m02 := dot a.m00 a.m01 a.m02 b.m02 b.m12 b.m22
  m10 := dot a.m10 a.m11 a.m12 b.m00 b.m10 b.m20
  m11 := dot a.m10 a.m11 a.m12 b.m01 b.m11 b.m21
  m12 := dot a.m10 a.m11 a.m12 b.m02 b.m12 b.m22
  m20 := dot a.m20 a.m21 a.m22 b.m00 b.m10 b.m20
  m21 := dot a.m20 a.m21 a.m22 b.m01 b.m11 b.m21
  m22 := dot a.m20 a.m21 a.m22 b.m02 b.m12 b.m22

/-- The image of a position under the first two rows. -/
def apply (m : Matrix3 α) (p : Position α) : Position α :=
  ⟨m.m00 * p.x + m.m01 * p.y + m.m02, m.m10 * p.x + m.m11 * p.y + m.m12⟩

/-- The determinant. -/
def det (m : Matrix3 α) : α :=
  m.m00 * (m.m11 * m.m22 - m.m12 * m.m21)
    - m.m01 * (m.m10 * m.m22 - m.m12 * m.m20)
    + m.m02 * (m.m10 * m.m21 - m.m11 * m.m20)

/-- The matrix of signed cofactors, transposed and stretched by `factor`. -/
def adjugate (m : Matrix3 α) (factor : α) : Matrix3 α where
  m00 := (m.m11 * m.m22 - m.m12 * m.m21) * factor
  m01 := -(m.m01 * m.m22 - m.m02 * m.m21) * factor
  m02 := (m.m01 * m.m12 - m.m02 * m.m11) * factor
  m10 := -(m.m10 * m.m22 - m.m12 * m.m20) * factor
  m11 := (m.m00 * m.m22 - m.m02 * m.m20) * factor
  m12 := -(m.m00 * m.m12 - m.m02 * m.m10) * factor
  m20 := (m.m10 * m.m21 - m.m11 * m.m20) * factor
  m21 := -(m.m00 * m.m21 - m.m01 * m.m20) * factor
  m22 := (m.m00 * m.m11 - m.m01 * m.m10) * factor

/-- The inverse, unless the determinant is zero or no finite number. -/
def inverse? (m : Matrix3 α) : Option (Matrix3 α) :=
  if m.det == 0 || !Scalar.isFinite m.det then none
  else some (m.adjugate (1 / m.det))

/-- A shift. -/
def shift (x y : α) : Matrix3 α := ⟨1, 0, x, 0, 1, y, 0, 0, 1⟩

/-- A turn about the origin, counter-clockwise. -/
def rotation (angle : α) : Matrix3 α :=
  let sin := Scalar.sin angle
  let cos := Scalar.cos angle
  ⟨cos, -sin, 0, sin, cos, 0, 0, 0, 1⟩

/-- A stretch along each axis. -/
def scaling (x y : α) : Matrix3 α := ⟨x, 0, 0, 0, y, 0, 0, 0, 1⟩

/-- The similarity that takes `(0, 0)` to `start` and `(1, 0)` to `stop`. The second axis is the
first one after a quarter turn, with the same length. -/
def ontoSegment (start stop : Position α) : Matrix3 α :=
  let dx := stop.x - start.x
  let dy := stop.y - start.y
  ⟨dx, -dy, start.x, dy, dx, start.y, 0, 0, 1⟩

end Matrix3

end SelfSimilar
