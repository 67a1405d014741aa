import SelfSimilar.Scalar.Basic

/-!
# Points and positions

A `Point` is given in the local coordinates of a fractal, to single precision. Points double as
complex numbers: a product turns and stretches, a quotient undoes it. Every operation computes
without rounding to single precision and rounds once, when the result is built.

A `Position` is a place on the screen; its coordinates are not rounded.
-/

namespace SelfSimilar

/-- A place on the screen. -/
structure Position (α : Type) where
  /-- The coordinate to the right. -/
  x : α
  /-- The coordinate across it. -/
  y : α
deriving BEq, DecidableEq, Repr

/-- A point in local coordinates. -/
structure Point (α : Type) where
  /-- The coordinate along the unit segment. -/
  x : α
  /-- The coordinate across it. -/
  y : α
deriving DecidableEq, Repr

variable {α : Type} [Scalar α]

namespace Point

/-- The start of the unit segment. -/
def origin : Point α := ⟨0, 0⟩

/-- The end of the unit segment. -/
def xUnit : Point α := ⟨1, 0⟩

/-- The unit point a quarter turn from `xUnit`. -/
def yUnit : Point α := ⟨0, 1⟩

/-- The point with the given coordinates, rounded to single precision. -/
def round (x y : α) : Point α := ⟨Scalar.single x, Scalar.single y⟩

/-- The same two numbers, read as a place on the screen. -/
def toPosition (p : Point α) : Position α := ⟨p.x, p.y⟩

/-- The distance from the origin. -/
def magnitude (p : Point α) : α := Scalar.sqrt (p.x * p.x + p.y * p.y)

/-- The distance between two points. -/
def distance (p q : Point α) : α := Scalar.hypot (p.x - q.x) (p.y - q.y)

/-- The sum of two points. -/
def add (p q : Point α) : Point α := round (p.x + q.x) (p.y + q.y)

/-- The difference of two points. -/
def sub (p q : Point α) : Point α := round (p.x - q.x) (p.y - q.y)

/-- The complex product: `p` turned by the angle of `q` and stretched by its magnitude. -/
def mul (p q : Point α) : Point α :=
  round (p.x * q.x - p.y * q.y) (p.x * q.y + p.y * q.x)

/-- The complex quotient. -/
def div (p q : Point α) : Point α :=
  let square := q.x * q.x + q.y * q.y
  round ((p.x * q.x + p.y * q.y) / square) ((p.y * q.x - p.x * q.y) / square)

/-- The point stretched by a factor. -/
def scale (p : Point α) (factor : α) : Point α := round (factor * p.x) (factor * p.y)

/-- The projection of `p` onto the line through the origin and `q`. -/
def proj (p q : Point α) : Point α :=
  let dot := p.x * q.x + p.y * q.y
  q.scale (dot / (q.x * q.x + q.y * q.y))

/-- The part of `p` at a right angle to `q`. -/
def mod (p q : Point α) : Point α := p.sub (p.proj q)

/-- The remainder of each coordinate by an integer. -/
def rem (p : Point α) (divisor : Int) : Point α :=
  round (Scalar.rem p.x (Scalar.ofInt divisor)) (Scalar.rem p.y (Scalar.ofInt divisor))

/-- The multiplicative inverse. -/
def invert (p : Point α) : Point α :=
  let square := p.x * p.x + p.y * p.y
  round (p.x / square) (-p.y / square)

/-- The opposite point. -/
def negate (p : Point α) : Point α := ⟨-p.x, -p.y⟩

/-- How far two coordinates may lie apart and still count as one: `1e-7`, in single precision. -/
def tolerance : α := Scalar.single (1 / Scalar.ofInt 10000000)

/-- Whether two coordinates lie closer together than the tolerance. -/
def close (x y : α) : Bool := Scalar.lt (Scalar.abs (Scalar.single (x - y))) tolerance

/-- Whether two points count as the same: both coordinates are close. -/
def near (p q : Point α) : Bool := close p.x q.x && close p.y q.y

/-- The point as text, with six places. -/
def text (p : Point α) : String :=
  let x := Scalar.text .sixPlaces p.x
  let y := Scalar.text .sixPlaces p.y
  s!"POINT: ({x}, {y})"

end Point

end SelfSimilar
