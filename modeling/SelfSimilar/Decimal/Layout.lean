import SelfSimilar.Decimal.Shortest

/-!
# Layout of decimals

How digits become text: where the point goes, when an exponent is written, and what marks a whole
number. `Layout.plain` and `Layout.literal` are the two layouts that the library writes numbers in;
`fixed` writes a number with a fixed count of places instead.
-/

namespace SelfSimilar

/-- The choices of a way to write decimals. -/
structure Layout where
  /-- Whether a number is written with an exponent, given the exponent of its first digit. -/
  scientific : Int → Bool
  /-- What follows the digits of a whole number that is written without an exponent. -/
  wholeMark : String

namespace Layout

/-- All digits in place, and whole numbers without a point. -/
def plain : Layout := ⟨fun _ => false, ""⟩

/-- An exponent below `0.0001` and from `10 ^ 16` on, and whole numbers end in `.0`. -/
def literal : Layout := ⟨fun place => place < -4 || 16 ≤ place, ".0"⟩

/-- A run of zeros. -/
def zeros (n : Nat) : String := String.ofList (List.replicate n '0')

/-- A positive decimal as text. -/
def write (layout : Layout) (d : Decimal) : String :=
  let digits := (toString d.digits).toList
  let first := (digits.length : Int) - 1 + d.exponent
  if layout.scientific first then
    let rest := digits.drop 1
    String.ofList (digits.take 1)
      ++ (if rest.isEmpty then "" else "." ++ String.ofList rest)
      ++ "e" ++ toString first
  else if 0 ≤ d.exponent then
    String.ofList digits ++ zeros d.exponent.toNat ++ layout.wholeMark
  else if 0 ≤ first then
    let whole := (first + 1).toNat
    String.ofList (digits.take whole) ++ "." ++ String.ofList (digits.drop whole)
  else
    "0." ++ zeros (-first - 1).toNat ++ String.ofList digits

/-- Zero as text. -/
def writeZero (layout : Layout) : String := "0" ++ layout.wholeMark

end Layout

namespace Decimal

/-- The number `m · 2 ^ e` with `places` places after the point, rounded to the nearest such decimal
and to the even one of two. -/
def fixed (places m : Nat) (e : Int) : String :=
  let scaled :=
    if 0 ≤ e then m * Dyadic.pow2 e.toNat * pow10 places
    else Dyadic.roundShift (m * pow10 places) (-e).toNat
  let fraction := toString (scaled % pow10 places)
  toString (scaled / pow10 places) ++ "." ++ Layout.zeros (places - fraction.length) ++ fraction

end Decimal

end SelfSimilar
