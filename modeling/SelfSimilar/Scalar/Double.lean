import SelfSimilar.Decimal.Layout
import SelfSimilar.Scalar.Basic

/-!
# Doubles as scalars

Double-precision numbers are the scalars that programs are run with. The four operations and the
square root are those of the number type itself. Remainder, length, floor and the rounding to
single precision take the numbers apart, compute exactly on `Nat` and `Int`, and round once.
-/

namespace SelfSimilar

/-- What a double stands for. -/
inductive Double where
  /-- No number. -/
  | undefined
  /-- Infinite, with a sign. -/
  | infinite (negative : Bool)
  /-- The number `significand · 2 ^ exponent`, with a sign that zero has too. -/
  | finite (negative : Bool) (significand : Nat) (exponent : Int)
deriving DecidableEq, Repr

namespace Double

/-- The bit that marks negative numbers. -/
def signBit : Nat := 1 <<< 63

/-- The leading bit of a significand, which the pattern of a normal number leaves out. -/
def hiddenBit : Nat := 1 <<< 52

/-- The pattern of positive infinity; the patterns of positive numbers lie below it. -/
def infinityBits : Nat := 2047 <<< 52

/-- Take a double apart. -/
def ofFloat (x : Float) : Double :=
  let bits := x.toBits.toNat
  let negative := signBit ≤ bits
  let biased := (bits >>> 52) % 2048
  let fraction := bits % hiddenBit
  if biased = 2047 then
    if fraction = 0 then .infinite negative else .undefined
  else if biased = 0 then .finite negative fraction (-1074)
  else .finite negative (hiddenBit + fraction) ((biased : Int) - 1075)

/-- The pattern of the positive double nearest to `m · 2 ^ e`. Patterns grow with the numbers, so
a significand that rounds up to the next power of two, or past the largest number, needs no case
of its own. -/
def magnitudeBits (m : Nat) (e : Int) : Nat :=
  if m = 0 then 0
  else
    let (significand, last) := Dyadic.round .binary64 m e
    min (((last + 1074).toNat <<< 52) + significand) infinityBits

/-- The double with a sign and the pattern of a positive number. -/
def ofMagnitude (negative : Bool) (bits : Nat) : Float :=
  Float.ofBits (UInt64.ofNat (if negative then signBit + bits else bits))

/-- The double nearest to `m · 2 ^ e`, with a sign. -/
def nearest (negative : Bool) (m : Nat) (e : Int) : Float :=
  ofMagnitude negative (magnitudeBits m e)

/-- An infinite double. -/
def infinity (negative : Bool) : Float := ofMagnitude negative infinityBits

/-- A double that is no number. -/
def notANumber : Float := Float.ofBits 0x7ff8000000000000

/-- The double nearest to an integer. -/
def ofInt (n : Int) : Float := nearest (n < 0) n.natAbs 0

/-- The number of single precision nearest to a double. -/
def single (x : Float) : Float :=
  match ofFloat x with
  | .finite negative m e =>
    let (significand, last) := Dyadic.round .binary32 m e
    if significand ≠ 0 ∧ Format.binary32.overflow ≤ (significand.log2 : Int) + last then
      infinity negative
    else nearest negative significand last
  | _ => x

/-- The remainder of a truncating division of doubles. It is exact: both numbers are whole
multiples of the smaller of their last bits, and so is the remainder. -/
def rem (x y : Float) : Float :=
  match ofFloat x, ofFloat y with
  | .finite negative m e, .finite _ n f =>
    if n = 0 then notANumber
    else
      let last := min e f
      nearest negative ((m <<< (e - last).toNat) % (n <<< (f - last).toNat)) last
  | .finite .., .infinite _ => x
  | _, _ => notANumber

/-- The length of the vector `(x, y)`: the exact root of the exact sum of squares, rounded once.
An infinite coordinate makes the length infinite whatever the other one is. The root is taken with
more bits than a double keeps, and one more bit tells whether something is left over. -/
def hypot (x y : Float) : Float :=
  match ofFloat x, ofFloat y with
  | .infinite _, _ => infinity false
  | _, .infinite _ => infinity false
  | .undefined, _ => notANumber
  | _, .undefined => notANumber
  | .finite _ m e, .finite _ n f =>
    let last := min e f
    let first := m <<< (e - last).toNat
    let second := n <<< (f - last).toNat
    let square := first * first + second * second
    let widening := 56 - square.log2 / 2
    let widened := square <<< (2 * widening)
    let root := Dyadic.sqrt widened
    let rest := if root * root = widened then 0 else 1
    nearest false (2 * root + rest) (last - widening - 1)

/-- The greatest word that is not above a double. -/
def floor (x : Float) : Int64 :=
  match ofFloat x with
  | .undefined => 0
  | .infinite negative => if negative then Int64.minValue else Int64.maxValue
  | .finite negative m e =>
    let signed : Int := if negative then -m else m
    Int64.ofIntClamp
      (if 0 ≤ e then signed * Dyadic.pow2 e.toNat else signed >>> (-e).toNat)

/-- A number of the format `f` in the given layout, with its sign. -/
def shortestText (layout : Layout) (f : Format) (x : Float) : String :=
  match ofFloat x with
  | .undefined => "NaN"
  | .infinite negative => if negative then "-inf" else "inf"
  | .finite negative m e =>
    (if negative then "-" else "")
      ++ (if m = 0 then layout.writeZero else layout.write (Decimal.shortest f m e))

/-- A double with a fixed count of places, with its sign. -/
def fixedText (places : Nat) (x : Float) : String :=
  match ofFloat x with
  | .undefined => "NaN"
  | .infinite negative => if negative then "-inf" else "inf"
  | .finite negative m e => (if negative then "-" else "") ++ Decimal.fixed places m e

/-- A double in a given style. -/
def text : NumberStyle → Float → String
  | .plain => shortestText .plain .binary64
  | .plainSingle => shortestText .plain .binary32
  | .literal => shortestText .literal .binary64
  | .sixPlaces => fixedText 6

end Double

instance : Scalar Float where
  zero := Float.ofBits 0
  one := Float.ofBits 0x3ff0000000000000
  ofInt := Double.ofInt
  single := Double.single
  rem := Double.rem
  abs := Float.abs
  sqrt := Float.sqrt
  hypot := Double.hypot
  sin := Float.sin
  cos := Float.cos
  lt x y := decide (x < y)
  le x y := decide (x ≤ y)
  isFinite := Float.isFinite
  floor := Double.floor
  text := Double.text

end SelfSimilar
