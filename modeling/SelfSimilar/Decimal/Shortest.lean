import SelfSimilar.Scalar.Dyadic

/-!
# Shortest decimals

The decimal with the fewest digits among those that a format reads back as a given number. A
number of a format stands for all reals that round to it; the decimal is the nearest to the number
of the coarsest decimal grid that meets these reals, and the larger of two that are equally near.
-/

namespace SelfSimilar

/-- The decimal number `digits · 10 ^ exponent`. -/
structure Decimal where
  /-- The digits, as a number. -/
  digits : Nat
  /-- The place of the last digit. -/
  exponent : Int
deriving DecidableEq, Repr

namespace Decimal

/-- The power of ten with a natural exponent. -/
def pow10 (k : Nat) : Nat := Nat.pow 10 k

/-- The reals that round to a number of a format, as multiples of a quarter of its last bit:
`low ≤ r ≤ high`, or both strict. -/
structure Neighbourhood where
  /-- The lower end. -/
  low : Nat
  /-- The number itself. -/
  value : Nat
  /-- The upper end. -/
  high : Nat
  /-- Whether the ends belong to it. -/
  closed : Bool
  /-- The unit is `2 ^ unit`. -/
  unit : Int

/-- The neighbourhood of the number with significand `m` and last bit `2 ^ e`. Below a power of
two the grid is twice as fine, and the ends round to the number if its significand is even. -/
def Neighbourhood.of (f : Format) (m : Nat) (e : Int) : Neighbourhood :=
  let finerBelow := m = Dyadic.pow2 (f.digits - 1) ∧ f.leastExponent < e
  { low := 4 * m - (if finerBelow then 1 else 2)
    value := 4 * m
    high := 4 * m + 2
    closed := m % 2 = 0
    unit := e - 2 }

/-- Together with `step`, the unit in steps of the grid `10 ^ place`: `v` units are
`v * scale / step` steps. -/
def Neighbourhood.scale (n : Neighbourhood) (place : Int) : Nat :=
  Dyadic.pow2 n.unit.toNat * pow10 (-place).toNat

/-- The denominator that belongs to `scale`. -/
def Neighbourhood.step (n : Neighbourhood) (place : Int) : Nat :=
  Dyadic.pow2 (-n.unit).toNat * pow10 place.toNat

/-- The decimal of the grid `10 ^ place` that lies in the neighbourhood and nearest to its number,
if there is one. If any decimal of the grid lies there, then one of the number's two neighbours on
the grid does. -/
def onGrid (n : Neighbourhood) (place : Int) : Option Decimal :=
  let scale := n.scale place
  let step := n.step place
  let inside (c : Nat) : Bool :=
    if n.closed then n.low * scale ≤ c * step && c * step ≤ n.high * scale
    else n.low * scale < c * step && c * step < n.high * scale
  let below := n.value * scale / step
  let rest := n.value * scale % step
  let nearer := if rest = 0 ∨ 2 * rest < step then below else below + 1
  let farther := if nearer = below then below + 1 else below
  if inside nearer then some ⟨nearer, place⟩
  else if inside farther then some ⟨farther, place⟩
  else none

/-- The first decimal found on grids that become finer from `10 ^ place` on. -/
def search (n : Neighbourhood) : Nat → Int → Decimal
  | 0, place => ⟨n.value * n.scale place / n.step place, place⟩
  | more + 1, place => (onGrid n place).getD (search n more (place - 1))

/-- The shortest decimal that `f` reads back as `m · 2 ^ e`, which is a positive number of `f`. The
search starts above the number, at an upper bound for its logarithm, and seventeen digits are
always enough. -/
def shortest (f : Format) (m : Nat) (e : Int) : Decimal :=
  let (significand, last) := Dyadic.round f m e
  let bound := (((significand.log2 : Int) + last + 1) * 1233).fdiv 4096 + 1
  search (.of f significand last) 20 bound

end Decimal

end SelfSimilar
