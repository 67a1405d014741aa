import SelfSimilar.Geometry.Point

/-!
# Hash of a path

The displacements of the drawn segments, read as the digits of two numbers in base ten, one for
each coordinate, modulo a prime. Only displacements count, so a path that is shifted keeps its
hash; only what was drawn before is multiplied, so another order of the segments changes it.
-/

namespace SelfSimilar

/-- What is kept of the segments drawn so far. -/
structure PathHash (α : Type) where
  /-- The number read from the displacements along the first axis. -/
  x : α
  /-- The number read from the displacements along the second axis. -/
  y : α
  /-- How many segments were folded in. -/
  count : Nat
deriving BEq, DecidableEq, Repr

namespace PathHash

variable {α : Type} [Scalar α]

/-- The prime that everything is reduced by. -/
def modulus : Nat := 1000000007

/-- The hash of no segments. -/
def fresh : PathHash α := ⟨0, 0, 0⟩

/-- Append a digit to a number. -/
def append (number digit : α) : α :=
  Scalar.rem (number * Scalar.ofInt 10 + digit) (Scalar.ofInt modulus)

/-- Fold in the segment from `start` to `stop`. -/
def add (h : PathHash α) (start stop : Position α) : PathHash α where
  x := append h.x (stop.x - start.x)
  y := append h.y (stop.y - start.y)
  count := (h.count + 1) % modulus

/-- The hash as one word: the whole parts of both numbers, as two digits in base `modulus`. -/
def value (h : PathHash α) : Int64 :=
  Scalar.floor h.x * Int64.ofNat modulus + Scalar.floor h.y

end PathHash

end SelfSimilar
