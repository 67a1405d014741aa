import Mathlib.Algebra.Ring.Int.Defs
import Mathlib.Algebra.Ring.Nat
import Mathlib.Tactic.SplitIfs
import SelfSimilar.Scalar.Double

/-!
# How doubles are packed

A double is a word of 64 bits: a sign, eleven bits of exponent and 52 of fraction. The operations of
the number type unpack their operands, compute, and pack the result. Here both ways of taking a
double apart are shown to agree, and packing to lose nothing of a number that is stored as it
stands.

* `Double.ofFloat_eq`: taking a double apart is unpacking it
* `Double.ofFloat_ofModel`: a stored number is found again after packing
* `Double.ofFloat_ofMagnitude`: the same for a number put together from its pattern
-/

namespace SelfSimilar.Double

open Float.Model (UnpackedFloat)
open Float.Model.UnpackedFloat

/-! ## The fields of a word -/

/-- What the fields of a word stand for. -/
def ofFields (negative : Bool) (biased fraction : Nat) : Double :=
  if biased = 2047 then
    if fraction = 0 then .infinite negative else .undefined
  else if biased = 0 then .finite negative fraction (-1074)
  else .finite negative (hiddenBit + fraction) ((biased : Int) - 1075)

/-- What a pattern stands for. -/
def ofPattern (bits : Nat) : Double :=
  ofFields (signBit ≤ bits) ((bits >>> 52) % 2048) (bits % hiddenBit)

/-- A number as it is stored: its significand has at most 53 bits, and fewer only if the exponent
is the least one. -/
def IsStored : Double → Prop
  | .finite _ m e => m < 2 ^ 53 ∧ -1074 ≤ e ∧ e ≤ 971 ∧ (2 ^ 52 ≤ m ∨ e = -1074)
  | _ => True

/-- The pattern that has the given fields stands for what they do. -/
theorem ofPattern_add (negative : Bool) {biased fraction : Nat} (hbiased : biased < 2048)
    (hfraction : fraction < 2 ^ 52) :
    ofPattern ((if negative then signBit else 0) + (biased * 2 ^ 52 + fraction)) =
      ofFields negative biased fraction := by
  have hsign : signBit = 2 ^ 63 := rfl
  have hhidden : hiddenBit = 2 ^ 52 := rfl
  rw [ofPattern, Nat.shiftRight_eq_div_pow, hsign, hhidden]
  -- the sign bit is the highest one, so that it is there if and only if the pattern is large enough
  cases negative with
  | false =>
    simp only [Bool.false_eq_true, if_false]
    rw [decide_eq_false (by omega)]
    congr 1 <;> omega
  | true =>
    simp only [if_true]
    rw [decide_eq_true (by omega)]
    congr 1 <;> omega

/-- What fields stand for is stored as it stands. -/
theorem isStored_ofFields (negative : Bool) {biased fraction : Nat} (hbiased : biased < 2048)
    (hfraction : fraction < 2 ^ 52) : (ofFields negative biased fraction).IsStored := by
  have hhidden : hiddenBit = 2 ^ 52 := rfl
  unfold ofFields
  -- infinity, no number, numbers with the least exponent, and those with the hidden bit
  split_ifs
  · trivial
  · trivial
  · exact ⟨by omega, by omega, by omega, .inr rfl⟩
  · exact ⟨by omega, by omega, by omega, .inl (by omega)⟩

/-- What a pattern stands for is stored as it stands. -/
theorem isStored_ofPattern (bits : Nat) : (ofPattern bits).IsStored :=
  isStored_ofFields _ (Nat.mod_lt _ (by decide)) (Nat.mod_lt _ (by decide))

/-- Every double is a stored number. -/
theorem isStored_ofFloat (x : Float) : (ofFloat x).IsStored := isStored_ofPattern _

/-! ## Unpacked numbers -/

/-- Whether a sign marks negative numbers. -/
def isNegative : Sign → Bool
  | .negative => true
  | .positive => false

/-- What an unpacked number stands for. -/
def ofUnpacked : UnpackedFloat → Double
  | .notANumber => .undefined
  | .infinity s => .infinite (isNegative s)
  | .zero s => .finite (isNegative s) 0 (-1074)
  | .finite s m e _ => .finite (isNegative s) m e

/-- The sign bit is set for negative numbers. -/
private theorem isNegative_ofBitVec (b : BitVec 1) :
    isNegative (.ofBitVec b) = decide (b.toNat = 1) := by
  decide +revert

/-- The sign is the highest bit of a word. -/
private theorem toNat_unpackSign (b : BitVec 64) :
    (@unpackSign .binary64 b).toNat = b.toNat / 2 ^ 63 % 2 := by
  have hfield : (@unpackSign .binary64 b).toNat = (b.extractLsb 63 63).toNat := rfl
  rw [hfield, BitVec.extractLsb_toNat, Nat.shiftRight_eq_div_pow]

/-- The exponent is eleven bits of a word, above the fraction. -/
private theorem toNat_unpackExponent (b : BitVec 64) :
    (@unpackExponent .binary64 b).toNat = (b.toNat >>> 52) % 2048 := by
  have hfield : (@unpackExponent .binary64 b).toNat = (b.extractLsb 62 52).toNat := rfl
  rw [hfield, BitVec.extractLsb_toNat]

/-- The fraction is the lowest 52 bits of a word. -/
private theorem toNat_unpackMantissa (b : BitVec 64) :
    (@unpackMantissa .binary64 b).toNat = b.toNat % hiddenBit := by
  have hfield : (@unpackMantissa .binary64 b).toNat = (b.extractLsb 51 0).toNat := rfl
  rw [hfield, BitVec.extractLsb_toNat]
  rfl

/-- Unpacking a word finds what the fields of its pattern stand for. -/
theorem ofUnpacked_unpack (b : BitVec 64) :
    ofUnpacked (UnpackedFloat.unpack .binary64 b) = ofPattern b.toNat := by
  have hsign : isNegative (.ofBitVec (@unpackSign .binary64 b)) =
      decide (signBit ≤ b.toNat) := by
    have hbit : signBit = 2 ^ 63 := rfl
    rw [isNegative_ofBitVec, toNat_unpackSign, decide_eq_decide, hbit]
    omega
  rw [ofPattern, ← hsign, ← toNat_unpackExponent, ← toNat_unpackMantissa, ofFields]
  -- the conditions of both sides, as numbers and as words
  have hzero : @unpackMantissa .binary64 b = 0#52 ↔
      (@unpackMantissa .binary64 b).toNat = 0 := BitVec.toNat_inj.symm
  have hlast : @unpackExponent .binary64 b = -1#11 ↔
      (@unpackExponent .binary64 b).toNat = 2047 := BitVec.toNat_inj.symm
  have hfirst : @unpackExponent .binary64 b = 0#11 ↔
      (@unpackExponent .binary64 b).toNat = 0 := BitVec.toNat_inj.symm
  -- both sides look at the exponent first, and then at the fraction
  by_cases h1 : @unpackExponent .binary64 b = -1#11
  · rw [if_pos (hlast.1 h1)]
    by_cases h2 : @unpackMantissa .binary64 b = 0#52
    · have hinfinity : UnpackedFloat.unpack .binary64 b = .infinity _ :=
        (if_pos h1).trans (if_pos h2)
      rw [hinfinity, if_pos (hzero.1 h2)]
      rfl
    · have hundefined : UnpackedFloat.unpack .binary64 b = .notANumber :=
        (if_pos h1).trans (if_neg h2)
      rw [hundefined, if_neg (mt hzero.2 h2)]
      rfl
  · rw [if_neg (mt hlast.2 h1)]
    by_cases h2 : @unpackExponent .binary64 b = 0#11
    · rw [if_pos (hfirst.1 h2)]
      by_cases h3 : @unpackMantissa .binary64 b = 0#52
      · have hnothing : UnpackedFloat.unpack .binary64 b = .zero _ :=
          ((if_neg h1).trans (if_pos h2)).trans (dif_pos h3)
        rw [hnothing, hzero.1 h3]
        rfl
      · have hsubnormal : ofUnpacked (UnpackedFloat.unpack .binary64 b) = .finite _ _ _ :=
          congrArg ofUnpacked (((if_neg h1).trans (if_pos h2)).trans (dif_neg h3))
        rw [hsubnormal, hfirst.1 h2]
        rfl
    · have hnormal : ofUnpacked (UnpackedFloat.unpack .binary64 b) = .finite _ _ _ :=
        congrArg ofUnpacked ((if_neg h1).trans (if_neg h2))
      have happend : (1#1 ++ @unpackMantissa .binary64 b).toNat =
          hiddenBit + (@unpackMantissa .binary64 b).toNat := by
        rw [BitVec.toNat_append, ← Nat.shiftLeft_add_eq_or_of_lt (BitVec.isLt _)]
        rfl
      rw [hnormal, if_neg (mt hfirst.2 h2), happend]
      rfl

/-- Taking a double apart is unpacking it. -/
theorem ofFloat_eq (x : Float) : ofFloat x = ofUnpacked x.toModel.unpack :=
  (ofUnpacked_unpack _).symm

/-- The pattern that fields are put together to. -/
private theorem toNat_packComponents (s : Sign) (biased : BitVec 11) (fraction : BitVec 52) :
    (packComponents .binary64 s biased fraction).toNat =
      (if isNegative s then signBit else 0) + (biased.toNat * 2 ^ 52 + fraction.toNat) := by
  have hfields : (packComponents .binary64 s biased fraction).toNat =
      s.toBitVec.toNat * 2 ^ 63 + (biased.toNat * 2 ^ 52 + fraction.toNat) := by
    -- the fields do not overlap, so that to put them side by side is to add them
    unfold packComponents
    rw [BitVec.toNat_append, BitVec.toNat_append, ← Nat.shiftLeft_add_eq_or_of_lt biased.isLt,
      ← Nat.shiftLeft_add_eq_or_of_lt fraction.isLt]
    simp only [Nat.shiftLeft_eq]
    omega
  rw [hfields]
  cases s <;> rfl

/-- What is put together from fields stands for what the fields do. -/
private theorem ofPattern_packComponents (s : Sign) {biased fraction : Nat}
    (hbiased : biased < 2048) (hfraction : fraction < 2 ^ 52) :
    ofPattern (packComponents .binary64 s (BitVec.ofNat 11 biased)
      (BitVec.ofNat 52 fraction)).toNat = ofFields (isNegative s) biased fraction := by
  rw [toNat_packComponents, BitVec.toNat_ofNat, BitVec.toNat_ofNat, Nat.mod_eq_of_lt hbiased,
    Nat.mod_eq_of_lt hfraction, ofPattern_add _ hbiased hfraction]

/-- The exponent is stored with the bias of the format and for a significand that is a fraction. -/
private theorem toNat_biased (e : Int) :
    (e + Float.Model.Format.binary64.exponentBias +
      Float.Model.Format.binary64.mantissaBitsWithoutImplicit).toNat = (e + 1075).toNat := by
  show (e + 1023 + 52).toNat = _
  omega

/-- A number is packed as infinity if its exponent is too large, and otherwise with or without the
bit that goes without saying. -/
private theorem pack_finite (s : Sign) (m : Nat) (e : Int) (hpos : 0 < m) :
    UnpackedFloat.pack .binary64 (.finite s m e hpos) =
      if 2 ^ 11 ≤ (e + 1075).toNat + 1 then packedInfinity .binary64 s
      else if m.log2 + 1 = 53 then
        packComponents .binary64 s (BitVec.ofNat 11 (e + 1075).toNat) (BitVec.ofNat 52 m)
      else packComponents .binary64 s (BitVec.ofNat 11 0) (BitVec.ofNat 52 m) := by
  rw [← toNat_biased]
  rfl

/-- A significand of 53 bits is stored without the first one. -/
private theorem pack_of_full (s : Sign) {m : Nat} {e : Int} (hpos : 0 < m) (hfull : 2 ^ 52 ≤ m)
    (hlt : m < 2 ^ 53) (hmax : e ≤ 971) :
    UnpackedFloat.pack .binary64 (.finite s m e hpos) =
      packComponents .binary64 s (BitVec.ofNat 11 (e + 1075).toNat)
        (BitVec.ofNat 52 (m - 2 ^ 52)) := by
  have hlog : m.log2 = 52 := (Nat.log2_eq_iff (by omega)).2 ⟨hfull, hlt⟩
  -- the first bit does not fit into the fraction, and the exponent tells that it is there
  have hfraction : BitVec.ofNat 52 m = BitVec.ofNat 52 (m - 2 ^ 52) := by
    apply BitVec.eq_of_toNat_eq
    rw [BitVec.toNat_ofNat, BitVec.toNat_ofNat]
    omega
  rw [pack_finite, if_neg (by omega), if_pos (by omega), hfraction]

/-- A significand of fewer bits is stored with the exponent field zero. -/
private theorem pack_of_short (s : Sign) {m : Nat} {e : Int} (hpos : 0 < m) (hlt : m < 2 ^ 52)
    (hmax : e ≤ 971) :
    UnpackedFloat.pack .binary64 (.finite s m e hpos) =
      packComponents .binary64 s (BitVec.ofNat 11 0) (BitVec.ofNat 52 m) := by
  have hlog : m.log2 < 52 := (Nat.log2_lt (by omega)).2 hlt
  rw [pack_finite, if_neg (by omega), if_neg (by omega)]

/-- The pattern of an unpacked number that is stored as it stands. -/
theorem ofPattern_pack (u : UnpackedFloat) (h : (ofUnpacked u).IsStored) :
    ofPattern (UnpackedFloat.pack .binary64 u).toNat = ofUnpacked u := by
  have hhidden : hiddenBit = 2 ^ 52 := rfl
  cases u with
  | notANumber => rfl
  | infinity s => cases s <;> rfl
  | zero s => cases s <;> rfl
  | finite s m e hpos =>
    obtain ⟨hlt, hmin, hmax, hfull⟩ := h
    -- with fewer than 53 bits the exponent is the least one, which the field zero stands for
    rcases Nat.lt_or_ge m (2 ^ 52) with hshort | hfull'
    · obtain rfl : e = -1074 := hfull.resolve_left (by omega)
      rw [pack_of_short s hpos hshort hmax, ofPattern_packComponents s (by omega) hshort]
      rfl
    · have hm : 2 ^ 52 + (m - 2 ^ 52) = m := by omega
      have he : ((e + 1075).toNat : Int) - 1075 = e := by omega
      rw [pack_of_full s hpos hfull' hlt hmax,
        ofPattern_packComponents s (by omega) (by omega), ofFields, if_neg (by omega),
        if_neg (by omega), hhidden, hm, he]
      rfl

/-- A stored number is found again after packing. -/
theorem ofFloat_ofModel (u : UnpackedFloat) (h : (ofUnpacked u).IsStored) :
    ofFloat (.ofModel (.pack u)) = ofUnpacked u :=
  ofPattern_pack u h

/-- A double that is given by its pattern stands for what the pattern does. -/
theorem ofFloat_ofBits (b : UInt64) : ofFloat (Float.ofBits b) = ofPattern b.toNat := by
  show ofFloat (.ofModel (.pack (UnpackedFloat.unpack .binary64 b.toBitVec))) = _
  -- the pattern is unpacked and packed again
  rw [ofFloat_ofModel, ofUnpacked_unpack, UInt64.toNat_toBitVec]
  rw [ofUnpacked_unpack]
  exact isStored_ofPattern _

/-! ## Patterns of magnitudes -/

/-- A double that is given by its sign, its exponent field and its fraction. -/
private theorem ofFloat_ofMagnitude_add (negative : Bool) {biased fraction : Nat}
    (hbiased : biased < 2048) (hfraction : fraction < 2 ^ 52) :
    ofFloat (ofMagnitude negative (biased * 2 ^ 52 + fraction)) =
      ofFields negative biased fraction := by
  have hsign : signBit = 2 ^ 63 := rfl
  have hbits : (if negative then signBit + (biased * 2 ^ 52 + fraction)
      else biased * 2 ^ 52 + fraction) =
        (if negative then signBit else 0) + (biased * 2 ^ 52 + fraction) := by
    cases negative <;> simp
  have hlt : (if negative then signBit else 0) + (biased * 2 ^ 52 + fraction) < UInt64.size := by
    rw [hsign, UInt64.size]
    split <;> omega
  rw [ofMagnitude, hbits, ofFloat_ofBits, UInt64.toNat_ofNat_of_lt' hlt,
    ofPattern_add negative hbiased hfraction]

/-- A stored number is found again in the double with its pattern. -/
theorem ofFloat_ofMagnitude {negative : Bool} {m : Nat} {e : Int}
    (h : (Double.finite negative m e).IsStored) :
    ofFloat (ofMagnitude negative (min (((e + 1074).toNat <<< 52) + m) infinityBits)) =
      .finite negative m e := by
  obtain ⟨hlt, hmin, hmax, hfull⟩ := h
  have hinfinity : infinityBits = 2047 * 2 ^ 52 := rfl
  have hhidden : hiddenBit = 2 ^ 52 := rfl
  rw [Nat.shiftLeft_eq, hinfinity, Nat.min_eq_left (by omega)]
  -- the pattern is the sum of an exponent field and a fraction, with the hidden bit carried over
  rcases Nat.lt_or_ge m (2 ^ 52) with hshort | hfull'
  · obtain rfl : e = -1074 := hfull.resolve_left (by omega)
    have hbits : (-1074 + 1074 : Int).toNat * 2 ^ 52 + m = 0 * 2 ^ 52 + m := rfl
    rw [hbits, ofFloat_ofMagnitude_add negative (by omega) hshort]
    rfl
  · have hbits : (e + 1074).toNat * 2 ^ 52 + m =
        (e + 1075).toNat * 2 ^ 52 + (m - 2 ^ 52) := by omega
    have hm : 2 ^ 52 + (m - 2 ^ 52) = m := by omega
    have he : ((e + 1075).toNat : Int) - 1075 = e := by omega
    rw [hbits, ofFloat_ofMagnitude_add negative (by omega) (by omega), ofFields,
      if_neg (by omega), if_neg (by omega), hhidden, hm, he]

end SelfSimilar.Double
