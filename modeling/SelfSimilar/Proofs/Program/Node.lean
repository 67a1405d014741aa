import SelfSimilar.Proofs.Program.Occurrence

/-!
# Nodes

A failure names a node of a program, which is a statement or an expression, by its text and its
place in the source. This module says where in a program a node is.

* `Expr.PartOf`: an expression is another one or an operand inside it
* `Node.BelongsTo`: a node is a statement or part of an expression that the statement holds
* `Node.OccursIn`: a node belongs to a statement of a body or to one inside another
-/

namespace SelfSimilar

variable {α : Type}

/-- A node of a program. -/
inductive Node (α : Type) where
  /-- An expression. -/
  | expr (e : Expr α)
  /-- A statement. -/
  | stmt (s : Stmt α)

/-- The text of a node. -/
def Node.text [Scalar α] : Node α → String
  | .expr e => e.text
  | .stmt s => s.text

/-- The place of a node in the source. -/
def Node.span : Node α → Span
  | .expr e => e.span
  | .stmt s => s.span

namespace Expr

/-- The expressions that an expression is made of. -/
def operands : Expr α → List (Expr α)
  | .binary _ left right _ => [left, right]
  | .negate operand _ => [operand]
  | .rotation angle _ => [angle]
  | _ => []

/-- An expression is another one, or it is inside one of its operands. -/
inductive PartOf (e : Expr α) : Expr α → Prop
  | itself : PartOf e e
  | inOperand {operand whole} (mem : operand ∈ whole.operands) (part : PartOf e operand) :
      PartOf e whole

end Expr

/-- The ends of a segment that are written out. -/
def Segment.exprs (segment : Segment α) : List (Expr α) :=
  segment.source.toList ++ [segment.target]

namespace Stmt

/-- The ends of what a statement draws. -/
def segment? : Stmt α → Option (Segment α)
  | .draw _ segment _ => some segment
  | .drawSelf segment _ => some segment
  | .line segment _ => some segment
  | _ => none

/-- The expressions that a statement holds. -/
def exprs : Stmt α → List (Expr α)
  | .assign _ value _ => [value]
  | s => (s.segment?.map Segment.exprs).getD []

/-- The ends of what a statement draws are expressions of the statement. -/
theorem mem_exprs_of_segment {s : Stmt α} {segment : Segment α} {e : Expr α}
    (h : s.segment? = some segment) (he : e ∈ segment.exprs) : e ∈ s.exprs := by
  -- only statements that draw have such ends
  cases s <;> cases h <;> exact he

end Stmt

namespace Node

/-- A node is a statement itself, or part of an expression that the statement holds. -/
inductive BelongsTo : Node α → Stmt α → Prop
  | itself {s} : BelongsTo (.stmt s) s
  | part {e whole s} (mem : whole ∈ s.exprs) (part : e.PartOf whole) : BelongsTo (.expr e) s

/-- A node belongs to a statement of a body or to one inside another. -/
def OccursIn (n : Node α) (body : List (Stmt α)) : Prop :=
  ∃ s : Stmt α, s.OccursIn body ∧ n.BelongsTo s

end Node

end SelfSimilar
