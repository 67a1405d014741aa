import SelfSimilar.Proofs.Program.Node

/-!
# Reading the pen

There are two ways for a program to read where the pen is: HERE stands for the place, and what is
drawn without a source starts there.

* `Expr.ReadsPen`, `Segment.ReadsPen`, `Stmt.ReadsPen`: what reads the pen by itself
-/

namespace SelfSimilar

variable {α : Type}

/-- HERE stands in the expression. -/
def Expr.ReadsPen (e : Expr α) : Prop := ∃ span, (Expr.here span).PartOf e

/-- The segment has no source, or HERE stands in one of its ends. -/
def Segment.ReadsPen (segment : Segment α) : Prop :=
  segment.source = none ∨ ∃ e ∈ segment.exprs, e.ReadsPen

/-- The statement draws something without a source, or HERE stands in one of its expressions. What
is inside a block or a definition is not counted. -/
def Stmt.ReadsPen (s : Stmt α) : Prop :=
  (∃ segment, s.segment? = some segment ∧ segment.source = none) ∨ ∃ e ∈ s.exprs, e.ReadsPen

/-- An operand that reads the pen does so for the whole expression. -/
theorem Expr.ReadsPen.of_operand {operand whole : Expr α} (h : operand.ReadsPen)
    (mem : operand ∈ whole.operands) : whole.ReadsPen := by
  obtain ⟨span, hpart⟩ := h
  exact ⟨span, .inOperand mem hpart⟩

/-- What draws a segment reads the pen exactly if the segment does. -/
theorem Stmt.readsPen_iff_of_segment {segment : Segment α} {s : Stmt α}
    (hs : s.segment? = some segment) : s.ReadsPen ↔ segment.ReadsPen := by
  -- a block, a definition or an assignment draws no segment
  cases s <;> cases hs <;> simp [ReadsPen, Segment.ReadsPen, segment?, exprs]

/-- Numbers and points are read without the pen. -/
theorem Expr.not_readsPen_literal (value : Literal α) (span : Span) :
    ¬ (literal value span).ReadsPen := by
  rintro ⟨_, _ | ⟨mem, _⟩⟩
  cases mem

end SelfSimilar
