import SelfSimilar.Program.Expr

/-!
# Statements

The statements of drawing programs. A program is a list of statements, and so are a block and the
body of a fractal.
-/

namespace SelfSimilar

/-- The ends of something drawn. Without a source it starts where the pen is. -/
structure Segment (α : Type) where
  /-- Where it starts. -/
  source : Option (Expr α)
  /-- Where it ends. -/
  target : Expr α
deriving DecidableEq, Repr

/-- The ends are two points that are written out. -/
def Segment.between {α : Type} (start stop : Point α) : Segment α :=
  ⟨some (.literal (.point start) {}), .literal (.point stop) {}⟩

/-- A statement. -/
inductive Stmt (α : Type) where
  /-- Statements that are run in order and count as one. -/
  | block (body : List (Stmt α)) (span : Span)
  /-- Bind a name to a fractal. -/
  | define (name : String) (body : List (Stmt α)) (span : Span)
  /-- Draw the fractal that a name is bound to. -/
  | draw (name : String) (segment : Segment α) (span : Span)
  /-- Draw the fractal whose body this is, smaller, or a line once it is small enough. -/
  | drawSelf (segment : Segment α) (span : Span)
  /-- Draw a straight line. -/
  | line (segment : Segment α) (span : Span)
  /-- Bind a name to a value. -/
  | assign (id : String) (value : Expr α) (span : Span)
  /-- Erase everything drawn and go to the origin. -/
  | clear (span : Span)
  /-- Go to the origin. -/
  | home (span : Span)

/-- A program is a list of statements. -/
abbrev Program (α : Type) := List (Stmt α)

/-- The place of a statement in the source. -/
def Stmt.span {α : Type} : Stmt α → Span
  | .block _ span => span
  | .define _ _ span => span
  | .draw _ _ span => span
  | .drawSelf _ span => span
  | .line _ span => span
  | .assign _ _ span => span
  | .clear span => span
  | .home span => span

variable {α : Type} [Scalar α]

/-- The ends of something drawn, as text. -/
def Segment.text (s : Segment α) : String :=
  match s.source with
  | some source => s!"FROM {source.text} TO {s.target.text}"
  | none => s!"TO {s.target.text}"

/-- A statement as text. Of statements inside another one only their number is shown. -/
def Stmt.text : Stmt α → String
  | .block body _ => s!"\x7b {body.length} statements \x7d"
  | .define name body _ => s!"FRACTAL {name} \x7b {body.length} statements \x7d"
  | .draw name segment _ => s!"DRAW {name} {segment.text}"
  | .drawSelf segment _ => s!"DRAW SELF {segment.text}"
  | .line segment _ => s!"LINE {segment.text}"
  | .assign id value _ => s!"LET {id} = {value.text}"
  | .clear _ => "CLEAR()"
  | .home _ => "HOME()"

end SelfSimilar
