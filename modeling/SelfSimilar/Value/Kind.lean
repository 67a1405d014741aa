/-!
# Kinds

The kinds of the values that programs compute with.
-/

namespace SelfSimilar

/-- The kinds of values. -/
inductive Kind where
  | integer
  | real
  | point
  | fractal
  | noValue
deriving DecidableEq, Repr

/-- A kind as text. -/
def Kind.text : Kind → String
  | .integer => "INTEGER"
  | .real => "REAL"
  | .point => "POINT"
  | .fractal => "FRACTAL"
  | .noValue => "NO VALUE"

end SelfSimilar
