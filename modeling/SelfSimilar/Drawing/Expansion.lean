import SelfSimilar.Drawing.Run

/-!
# Expanding a chain of points

A fractal that is drawn without a program: while the branch is resolvable, go on in a child between
each two neighbouring points of a chain, and draw the unit segment where it is not.
-/

namespace SelfSimilar

namespace Branch

variable {α ε : Type} [Scalar α]

/-- Expand a chain with so many levels left. -/
def expandWithin (points : List (Point α)) : Nat → Branch α → Run α ε Unit
  | 0, b => Run.change (b.lineTo .xUnit)
  | levels + 1, b =>
    if b.isResolvable then
      (points.zip (points.drop 1)).forM fun ends => do
        let child := b.child ends.1 ends.2
        child.enter
        expandWithin points levels child
    else Run.change (b.lineTo .xUnit)

/-- Expand a chain of points. Nothing is resolvable once `selfLimit` levels are reached. -/
def expand (b : Branch α) (points : List (Point α)) : Run α ε Unit :=
  expandWithin points (b.settings.selfLimit - b.level) b

end Branch

end SelfSimilar
