import SelfSimilar.Fault
import SelfSimilar.Program.Stmt

/-!
# Values

The values of programs, and what is read from them. `Kind.Content` says what a value of a kind
consists of, so that an operation on operands of known kinds needs no case for the other kinds.
-/

namespace SelfSimilar

/-- The handle of a scope: the number of scopes that are older. -/
structure ScopeId where
  /-- How many scopes are older. -/
  index : Nat
deriving DecidableEq, Repr

/-- The oldest scope, in which the predefined points are bound. -/
def ScopeId.root : ScopeId := ⟨0⟩

/-- A named drawing that may draw itself. -/
structure Fractal (α : Type) where
  /-- The name that it was defined under. -/
  name : String
  /-- The statements that draw it. -/
  body : List (Stmt α)
  /-- The scope that it was defined in; its body is run there. -/
  scope : ScopeId

/-- A fractal as text. -/
def Fractal.text {α : Type} (f : Fractal α) : String := s!"<Fractal {f.name}>"

/-- The values of programs. -/
inductive Value (α : Type) where
  /-- A whole number. -/
  | int (n : Int64)
  /-- A real number. -/
  | real (x : α)
  /-- A point. -/
  | point (p : Point α)
  /-- A fractal. -/
  | fractal (f : Fractal α)
  /-- What a statement yields that yields nothing. -/
  | noValue

/-- What a value of a kind consists of. -/
abbrev Kind.Content (α : Type) : Kind → Type
  | .integer => Int64
  | .real => α
  | .point => Point α
  | .fractal => Fractal α
  | .noValue => Unit

namespace Value

variable {α : Type}

/-- The kind of a value. -/
def kind : Value α → Kind
  | int _ => .integer
  | real _ => .real
  | point _ => .point
  | fractal _ => .fractal
  | noValue => .noValue

/-- What a value consists of. -/
def content : (v : Value α) → v.kind.Content α
  | int n => n
  | real x => x
  | point p => p
  | fractal f => f
  | noValue => ()

/-- The value of a kind with a given content. -/
def ofContent : (k : Kind) → k.Content α → Value α
  | .integer, n => int n
  | .real, x => real x
  | .point, p => point p
  | .fractal, f => fractal f
  | .noValue, () => noValue

/-- A value is put together again from its kind and its content. -/
@[simp] theorem ofContent_content (v : Value α) : ofContent v.kind v.content = v := by
  cases v <;> rfl

/-- A value that is made of content of a kind is of that kind. -/
@[simp] theorem kind_ofContent (k : Kind) (c : k.Content α) : (ofContent k c).kind = k := by
  cases k <;> rfl

/-! ## Reading a value as one of a kind -/

/-- The point that a value is. -/
def asPoint : Value α → Except Fault (Point α)
  | point p => .ok p
  | v => .error (.kindMismatch .point v.kind)

/-- The whole number that a value is. -/
def asInt : Value α → Except Fault Int64
  | int n => .ok n
  | v => .error (.kindMismatch .integer v.kind)

/-- The fractal that a value is. -/
def asFractal : Value α → Except Fault (Fractal α)
  | fractal f => .ok f
  | v => .error (.kindMismatch .fractal v.kind)

variable [Scalar α]

/-- The real number that a value is; whole numbers count as real. -/
def asReal : Value α → Except Fault α
  | real x => .ok x
  | int n => .ok (Scalar.ofInt n.toInt)
  | v => .error (.kindMismatch .real v.kind)

/-- The opposite of a number or a point. The least whole number is its own opposite. -/
def negate : Value α → Except Fault (Value α)
  | int n => .ok (int (-n))
  | real x => .ok (real (-x))
  | point p => .ok (point p.negate)
  | v => .error (.notNegatable v.kind)

/-- A value as text. -/
def text : Value α → String
  | int n => toString n.toInt
  | real x => Scalar.text .plain x
  | point p => p.text
  | fractal f => f.text
  | noValue => Kind.noValue.text

end Value

/-- The value of a literal. -/
def Literal.value {α : Type} : Literal α → Value α
  | .int n => .int n
  | .real x => .real x
  | .point p => .point p

end SelfSimilar
