import SelfSimilar.Value.Basic

/-!
# Tables of operators

Which operators are defined on which kinds of operands, and what they compute. An entry of a table
is a function on operands of the two kinds that it stands at, so it is never given others. Two
operands whose kinds have no entry are a mismatch that names the left kind as the expected one.

`Operators.standard` is the table that programs are run with.
-/

namespace SelfSimilar

/-- What an operator computes from operands of two kinds. -/
abbrev Operators.Entry (α : Type) (left right : Kind) : Type :=
  left.Content α → right.Content α → Except Fault (Value α)

/-- A table of operators. -/
structure Operators (α : Type) where
  /-- The entry at an operator and two kinds. -/
  entry? : (op : BinaryOp) → (left right : Kind) → Option (Operators.Entry α left right)

namespace Operators

variable {α : Type}

/-- The table without entries. -/
def empty : Operators α := ⟨fun _ _ _ => none⟩

/-- The table with one more entry, which takes the place of an older one. -/
def register (t : Operators α) (op : BinaryOp) (left right : Kind) (f : Entry α left right) :
    Operators α where
  entry? op' left' right' :=
    if h : op' = op ∧ left' = left ∧ right' = right then
      some fun l r => f (h.2.1 ▸ l) (h.2.2 ▸ r)
    else t.entry? op' left' right'

/-- Whether the table has an entry. -/
def supports (t : Operators α) (op : BinaryOp) (left right : Kind) : Bool :=
  (t.entry? op left right).isSome

/-- The result of an operator on two values. -/
def apply (t : Operators α) (op : BinaryOp) (l r : Value α) : Except Fault (Value α) :=
  match t.entry? op l.kind r.kind with
  | some f => f l.content r.content
  | none => .error (.kindMismatch l.kind r.kind)

variable [Scalar α]

/-- An operator on two real numbers. -/
def onReals : BinaryOp → α → α → α
  | .add, x, y => x + y
  | .sub, x, y => x - y
  | .mul, x, y => x * y
  | .div, x, y => x / y
  | .mod, x, y => Scalar.rem x y

/-- Whether the quotient of two words is a word: the divisor is not zero, and the quotient is not
one more than the greatest word. -/
def dividesWithinRange (a b : Int64) : Bool := b != 0 && !(a == Int64.minValue && b == -1)

/-- An operator on two whole numbers, which wraps around. A division without a whole result is one
of real numbers. -/
def onIntegers (op : BinaryOp) (a b : Int64) : Value α :=
  match op with
  | .add => .int (a + b)
  | .sub => .int (a - b)
  | .mul => .int (a * b)
  | .div =>
    if dividesWithinRange a b then .int (a / b)
    else .real (onReals .div (Scalar.ofInt a.toInt) (Scalar.ofInt b.toInt))
  | .mod =>
    if dividesWithinRange a b then .int (a % b)
    else .real (onReals .mod (Scalar.ofInt a.toInt) (Scalar.ofInt b.toInt))

/-- An operator on two points. -/
def onPoints : BinaryOp → Point α → Point α → Point α
  | .add, p, q => p.add q
  | .sub, p, q => p.sub q
  | .mul, p, q => p.mul q
  | .div, p, q => p.div q
  | .mod, p, q => p.mod q

/-- The table that programs are run with. Numbers of both kinds mix and give a real number; a
point is stretched by a number on its right, and shrunk by one; the remainder of a point is taken
by whole numbers only. -/
def standard : Operators α where
  entry?
    | op, .integer, .integer => some fun a b => .ok (onIntegers op a b)
    | op, .real, .real => some fun x y => .ok (.real (onReals op x y))
    | op, .real, .integer => some fun x b => .ok (.real (onReals op x (Scalar.ofInt b.toInt)))
    | op, .integer, .real => some fun a y => .ok (.real (onReals op (Scalar.ofInt a.toInt) y))
    | op, .point, .point => some fun p q => .ok (.point (onPoints op p q))
    | .mul, .point, .real => some fun p x => .ok (.point (p.scale x))
    | .mul, .point, .integer => some fun p n => .ok (.point (p.scale (Scalar.ofInt n.toInt)))
    | .div, .point, .real => some fun p x => .ok (.point (p.scale (1 / x)))
    | .div, .point, .integer => some fun p n => .ok (.point (p.scale (1 / Scalar.ofInt n.toInt)))
    | .mod, .point, .integer => some fun p n => .ok (.point (p.rem n.toInt))
    | _, _, _ => none

end Operators

end SelfSimilar
