import SelfSimilar.Program.Expr
import SelfSimilar.Value.Kind

/-!
# Faults and failures

A `Fault` is what went wrong, as a cause; a `Failure` adds the node of the program that it went
wrong at. The wording of both stands here and nowhere else.
-/

namespace SelfSimilar

/-- What can go wrong. -/
inductive Fault where
  /-- A value of one kind stands where another kind is needed. -/
  | kindMismatch (expected actual : Kind)
  /-- A name is not bound. -/
  | unbound (id : String)
  /-- Values of this kind have no opposite. -/
  | notNegatable (kind : Kind)
  /-- There is no fractal that SELF could stand for. -/
  | noActiveFractal
  /-- Fractals are drawn by name inside one another beyond the limit. -/
  | tooDeep (limit : Nat)
  /-- The place of the pen was needed in a frame that has collapsed. -/
  | singularFrame
deriving DecidableEq, Repr

namespace Fault

/-- The short code of a fault. -/
def code : Fault → String
  | kindMismatch _ _ => "E001"
  | unbound _ => "E002"
  | notNegatable _ => "E003"
  | noActiveFractal => "E004"
  | tooDeep _ => "E005"
  | singularFrame => "F001"

/-- Whether the drawing cannot go on after the fault. -/
def isFatal : Fault → Bool
  | singularFrame => true
  | _ => false

/-- A fault as text. -/
def message : Fault → String
  | kindMismatch expected actual =>
    s!"type error: expected a {expected.text}, but got a {actual.text}"
  | unbound id => s!"unbound variable `{id}`"
  | notNegatable kind => s!"{kind.text} does not support operation `negate`"
  | noActiveFractal => "SELF used outside of a fractal body"
  | tooDeep limit => s!"named draws nested deeper than {limit} levels"
  | singularFrame => "unrecoverable: fractal frame is non-invertible"

end Fault

/-- A fault at a node of a program. -/
structure Failure where
  /-- What went wrong. -/
  fault : Fault
  /-- The text of the node. -/
  node : String
  /-- The place of the node in the source. -/
  span : Span
deriving DecidableEq, Repr

/-- A failure as text. -/
def Failure.message (f : Failure) : String :=
  s!"[{f.fault.code}] {f.span.line}:{f.span.column}: {f.fault.message} when evaluating {f.node}"

end SelfSimilar
