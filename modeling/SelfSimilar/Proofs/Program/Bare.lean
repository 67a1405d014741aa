import SelfSimilar.Proofs.Program.Rewriting

/-!
# Bare programs

The place of a node in the source and the sort that a name is written as are there for the reader. A
bare program has neither: all its places are the default one, and all its names are of one sort. Two
programs that differ in nothing else have the same bare form.

* `Expr.bare`, `Stmt.bare`: bare forms of expressions and statements
* `Expr.text_bare`, `Stmt.text_bare`: the text of a node shows nothing that its bare form lacks
* `Stmt.rewriting_bare`: a bare block or definition holds bare statements
-/

namespace SelfSimilar

variable {α : Type}

/-- The expression without places, and with all names of one sort. -/
def Expr.bare : Expr α → Expr α
  | .literal value _ => .literal value {}
  | .name _ id _ => .name .number id {}
  | .binary op left right _ => .binary op left.bare right.bare {}
  | .negate operand _ => .negate operand.bare {}
  | .rotation angle _ => .rotation angle.bare {}
  | .here _ => .here {}

/-- The segment with bare ends. -/
def Segment.bare (segment : Segment α) : Segment α :=
  ⟨segment.source.map Expr.bare, segment.target.bare⟩

mutual

/-- The statement without places, and with all names of one sort, also inside blocks and
definitions. -/
def Stmt.bare : Stmt α → Stmt α
  | .block body _ => .block (bareAll body) {}
  | .define name body _ => .define name (bareAll body) {}
  | .draw name segment _ => .draw name segment.bare {}
  | .drawSelf segment _ => .drawSelf segment.bare {}
  | .line segment _ => .line segment.bare {}
  | .assign id value _ => .assign id value.bare {}
  | .clear _ => .clear {}
  | .home _ => .home {}

/-- The statements of a body, each without places. -/
def Stmt.bareAll : List (Stmt α) → List (Stmt α)
  | [] => []
  | s :: rest => s.bare :: bareAll rest

end

/-- The bare statements of a body, one by one. -/
theorem Stmt.bareAll_eq_map (body : List (Stmt α)) : bareAll body = body.map bare := by
  induction body with
  | nil => rfl
  | cons s rest ih => rw [bareAll, ih, List.map_cons]

/-- A bare block or definition holds the bare statements. -/
theorem Stmt.rewriting_bare : Stmt.Rewriting (bare : Stmt α → Stmt α) where
  block body span := ⟨{}, by rw [bare, bareAll_eq_map]⟩
  define name body span := ⟨{}, by rw [bare, bareAll_eq_map]⟩

/-- A bare expression is at the default place. -/
theorem Expr.span_bare (e : Expr α) : e.bare.span = {} := by cases e <;> rfl

/-- A bare statement is at the default place. -/
theorem Stmt.span_bare (s : Stmt α) : s.bare.span = {} := by
  cases s <;> simp only [bare, span]

variable [Scalar α]

/-- The text of an expression shows neither places nor the sorts of names. -/
theorem Expr.text_bare (e : Expr α) : e.bare.text = e.text := by
  induction e with
  | literal value _ => rfl
  | name sort id _ => rfl
  | binary op left right _ ihLeft ihRight => simp only [bare, text, ihLeft, ihRight]
  | negate operand _ ih => simp only [bare, text, ih]
  | rotation angle _ ih => simp only [bare, text, ih]
  | here _ => rfl

/-- The text of a segment is that of its ends. -/
theorem Segment.text_bare (segment : Segment α) : segment.bare.text = segment.text := by
  unfold bare text
  cases segment.source <;> simp only [Option.map, Expr.text_bare]

/-- The text of a statement shows no places either, and of the statements inside only their
number. -/
theorem Stmt.text_bare (s : Stmt α) : s.bare.text = s.text := by
  cases s with
  -- the text of a block or definition tells how many statements it holds
  | block body _ => simp only [bare, text, bareAll_eq_map, List.length_map]
  | define name body _ => simp only [bare, text, bareAll_eq_map, List.length_map]
  | draw name segment _ => simp only [bare, text, Segment.text_bare]
  | drawSelf segment _ => simp only [bare, text, Segment.text_bare]
  | line segment _ => simp only [bare, text, Segment.text_bare]
  | assign id value _ => simp only [bare, text, Expr.text_bare]
  | clear _ => simp only [bare, text]
  | home _ => simp only [bare, text]

end SelfSimilar
