/-!
# Dyadic numbers

A finite binary floating-point number is `m · 2 ^ e` with a natural `m` and an integer `e`. This
module rounds such numbers to the grid of a format, halves to the even neighbour, and takes the
root of a natural number.
-/

namespace SelfSimilar

/-- A binary floating-point format. -/
structure Format where
  /-- How many significant bits a number has. -/
  digits : Nat
  /-- The exponent of the last bit of the smallest numbers. -/
  leastExponent : Int
  /-- Numbers from `2 ^ overflow` on are out of range. -/
  overflow : Int

namespace Format

/-- Double precision. -/
def binary64 : Format := ⟨53, -1074, 1024⟩

/-- Single precision. -/
def binary32 : Format := ⟨24, -149, 128⟩

end Format

namespace Dyadic

/-- The power of two with a natural exponent. -/
def pow2 (k : Nat) : Nat := 1 <<< k

/-- The quotient `m / 2 ^ k`, rounded to the nearest natural number and to the even one of two. -/
def roundShift (m k : Nat) : Nat :=
  let quotient := m >>> k
  let twice := 2 * (m % pow2 k)
  if twice < pow2 k then quotient
  else if twice = pow2 k then quotient + quotient % 2
  else quotient + 1

/-- The exponent of the last bit that `f` keeps of `m · 2 ^ e`. -/
def lastExponent (f : Format) (m : Nat) (e : Int) : Int :=
  max ((m.log2 : Int) + e - (f.digits - 1)) f.leastExponent

/-- The number `m · 2 ^ e` on the grid of `f`: the new significand, with the exponent of its last
bit. The significand may be one more than the bits of `f` can hold, namely a power of two. -/
def round (f : Format) (m : Nat) (e : Int) : Nat × Int :=
  let last := lastExponent f m e
  if last ≤ e then (m <<< (e - last).toNat, last)
  else (roundShift m (last - e).toNat, last)

/-- One step of Newton's iteration for the root of `n`, repeated as long as it falls. -/
def sqrtBelow (n guess : Nat) : Nat :=
  let next := (guess + n / guess) / 2
  if next < guess then sqrtBelow n next else guess
termination_by guess

/-- The integer part of the square root of `n`. -/
def sqrt (n : Nat) : Nat :=
  if n = 0 then 0 else sqrtBelow n (pow2 (n.log2 / 2 + 1))

end Dyadic

end SelfSimilar
