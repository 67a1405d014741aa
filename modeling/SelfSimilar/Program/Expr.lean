import SelfSimilar.Geometry.Point

/-!
# Expressions

The expressions of drawing programs, each with its place in the source, and their text. The text
names an expression in messages; it shows neither the place nor the sort of a name.
-/

namespace SelfSimilar

/-- A place in the source of a program. -/
structure Span where
  /-- The line. -/
  line : Nat := 0
  /-- The column. -/
  column : Nat := 0
deriving DecidableEq, Repr, Inhabited

/-- An operator between two values. -/
inductive BinaryOp where
  | add
  | sub
  | mul
  | div
  | mod
deriving DecidableEq, Repr

/-- The sign of an operator. -/
def BinaryOp.symbol : BinaryOp → String
  | .add => "+"
  | .sub => "-"
  | .mul => "*"
  | .div => "/"
  | .mod => "mod"

/-- A value that stands in the program. -/
inductive Literal (α : Type) where
  /-- A whole number. -/
  | int (n : Int64)
  /-- A real number. -/
  | real (x : α)
  /-- A point. -/
  | point (p : Point α)
deriving DecidableEq, Repr

/-- What a name is written as. The sort does not matter to its meaning. -/
inductive NameSort where
  /-- The name of a number. -/
  | number
  /-- The name of a point. -/
  | point
  /-- The name of a fractal. -/
  | fractal
deriving DecidableEq, Repr

/-- An expression. -/
inductive Expr (α : Type) where
  /-- A value written out. -/
  | literal (value : Literal α) (span : Span)
  /-- A name. -/
  | name (sort : NameSort) (id : String) (span : Span)
  /-- Two operands and an operator. -/
  | binary (op : BinaryOp) (left right : Expr α) (span : Span)
  /-- The opposite of an operand. -/
  | negate (operand : Expr α) (span : Span)
  /-- The unit point at an angle in radians. -/
  | rotation (angle : Expr α) (span : Span)
  /-- The place of the pen, in local coordinates. -/
  | here (span : Span)
deriving DecidableEq, Repr

/-- The place of an expression in the source. -/
def Expr.span {α : Type} : Expr α → Span
  | .literal _ span => span
  | .name _ _ span => span
  | .binary _ _ _ span => span
  | .negate _ span => span
  | .rotation _ span => span
  | .here span => span

variable {α : Type} [Scalar α]

/-- A literal as text. -/
def Literal.text : Literal α → String
  | .int n => toString n.toInt
  | .real x => Scalar.text .literal x
  | .point p =>
    let x := Scalar.text .plainSingle p.x
    let y := Scalar.text .plainSingle p.y
    s!"({x}, {y})"

/-- An expression as text. Every operator has its own brackets. -/
def Expr.text : Expr α → String
  | .literal value _ => value.text
  | .name _ id _ => id
  | .binary op left right _ => s!"({left.text} {op.symbol} {right.text})"
  | .negate operand _ => s!"-{operand.text}"
  | .rotation angle _ => s!"(cos {angle.text}, sin {angle.text})"
  | .here _ => "HERE"

end SelfSimilar
