import Mathlib.Algebra.Order.Field.Power
import Mathlib.Algebra.Order.Field.Rat
import Mathlib.Tactic.Positivity
import Mathlib.Tactic.Ring
import SelfSimilar.Proofs.Scalar.Packing

/-!
# Rounding what needs no rounding

A finite double stands for a rational number `n · 2 ^ f`. When the result of an operation is such
a number again, with few enough bits (`Double.Fits`), then both ways of rounding keep it: the one
of the number type, which shifts bits out of a significand, and `Double.nearest`.

* `Double.exists_stored`: a number that fits has a stored significand
* `Double.eq_of_isStored`: and only one
* `Double.holds_roundWithAccuracy`, `Double.holds_normalize`: the number type keeps it
* `Double.stands_nearest`: so does `Double.nearest`
-/

namespace SelfSimilar.Double

open Float.Model (UnpackedFloat)
open Float.Model.UnpackedFloat

/-! ## Numbers -/

/-- A number with a sign. -/
def signed (negative : Bool) (q : ℚ) : ℚ := if negative then -q else q

@[simp] theorem signed_true (q : ℚ) : signed true q = -q := rfl

@[simp] theorem signed_false (q : ℚ) : signed false q = q := rfl

@[simp] theorem abs_signed (negative : Bool) (q : ℚ) : |signed negative q| = |q| := by
  cases negative <;> simp

/-- The number that a finite double stands for. -/
def value? : Double → Option ℚ
  | .finite negative m e => some (signed negative (m * 2 ^ e))
  | _ => none

/-- The double stands for a number. -/
def Stands (x : Float) (q : ℚ) : Prop := (ofFloat x).value? = some q

/-- A number with so few bits that a double can stand for it. -/
def Fits (q : ℚ) : Prop :=
  ∃ n f : ℤ, q = n * 2 ^ f ∧ |n| < 2 ^ 53 ∧ -1074 ≤ f ∧ f ≤ 971

/-- Integers of at most 53 bits fit. -/
theorem fits_intCast {n : ℤ} (h : |n| < 2 ^ 53) : Fits n := ⟨n, 0, by simp, h, by omega, by omega⟩

/-- With a number its opposite fits. -/
theorem Fits.neg {q : ℚ} : Fits q → Fits (-q) := by
  rintro ⟨n, f, rfl, hn, hf⟩
  exact ⟨-n, f, by push_cast; ring, by rwa [abs_neg], hf⟩

/-- A number fits if it does with a sign. -/
theorem Fits.of_signed {negative : Bool} {q : ℚ} (h : Fits (signed negative q)) : Fits q := by
  cases negative with
  | false => exact h
  | true => simpa using h.neg

/-! ## Significands -/

section

variable {m k : ℕ} {e f : ℤ}

/-- The exponent of the last bit of `m · 2 ^ e`. -/
abbrev last (m : ℕ) (e : ℤ) : ℤ := Dyadic.lastExponent .binary64 m e

/-- The last bit is 52 places after the leading one, but not below the least exponent. -/
theorem last_eq (m : ℕ) (e : ℤ) : last m e = max (m.log2 + e - 52) (-1074) := rfl

/-- The number type shifts to the same bit. -/
theorem targetExponent_eq (m : ℕ) (e : ℤ) :
    Float.Model.Format.binary64.targetExponent (Float.Model.totalExponent m e) = last m e := by
  show max ((m.log2 : ℤ) + 1 + e - 53) (-1074) = max (m.log2 + e - 52) (-1074)
  congr 1
  omega

/-- A number is at least the power of two at its leading bit. -/
theorem two_zpow_le (hm : m ≠ 0) : (2 : ℚ) ^ (m.log2 + e) ≤ m * 2 ^ e := by
  rw [zpow_add₀ two_ne_zero, zpow_natCast]
  gcongr
  exact_mod_cast Nat.log2_self_le hm

/-- A number is below the power of two above its leading bit. -/
theorem lt_two_zpow : (m : ℚ) * 2 ^ e < 2 ^ ((m.log2 : ℤ) + 1 + e) := by
  rw [zpow_add₀ two_ne_zero]
  gcongr
  exact_mod_cast Nat.lt_log2_self

/-- The leading bit of a number is below a bound on the number. -/
theorem log2_add_lt (hm : m ≠ 0) (h : (m : ℚ) * 2 ^ e < 2 ^ f) : m.log2 + e < f :=
  (zpow_lt_zpow_iff_right₀ one_lt_two).1 ((two_zpow_le hm).trans_lt h)

/-- A significand can be shifted up to a lower exponent. -/
theorem shiftLeft_mul_zpow (m : ℕ) (h : f ≤ e) :
    ((m <<< (e - f).toNat : ℕ) : ℚ) * 2 ^ f = m * 2 ^ e := by
  have hexp : (2 : ℚ) ^ e = 2 ^ (e - f).toNat * 2 ^ f := by
    rw [← zpow_natCast, ← zpow_add₀ two_ne_zero, Int.toNat_of_nonneg (by omega), sub_add_cancel]
  rw [Nat.shiftLeft_eq, hexp]
  push_cast
  ring

/-- Significands with the same exponent agree when the numbers do. -/
theorem eq_of_mul_zpow_eq (h : (k : ℚ) * 2 ^ e = m * 2 ^ e) : k = m := by
  exact_mod_cast mul_right_cancel₀ (zpow_ne_zero e two_ne_zero) h

/-- A number that fits needs no bit below its last one, nor one that is out of range. -/
theorem exists_eq_mul_last (hm : m ≠ 0) (h : Fits (m * 2 ^ e)) :
    ∃ k : ℕ, (k : ℚ) * 2 ^ last m e = m * 2 ^ e ∧ last m e ≤ 971 := by
  obtain ⟨n, f, hq, hn, hmin, hmax⟩ := h
  -- the number is positive, so its significand is as well
  have hnonneg : 0 ≤ n := by
    have hpos : (0 : ℚ) < n * 2 ^ f := by
      rw [← hq]
      positivity
    exact_mod_cast (pos_of_mul_pos_left hpos (by positivity)).le
  lift n to ℕ using hnonneg
  rw [Nat.abs_cast] at hn
  rw [Int.cast_natCast] at hq
  -- the leading bit is at most 52 places above the given exponent, so the last bit is not above it
  have htop : (m : ℚ) * 2 ^ e < 2 ^ (53 + f) :=
    calc (m : ℚ) * 2 ^ e = n * 2 ^ f := hq
      _ < 2 ^ (53 : ℤ) * 2 ^ f := by
        gcongr
        exact_mod_cast hn
      _ = 2 ^ (53 + f) := (zpow_add₀ two_ne_zero _ _).symm
  have hlast : last m e ≤ f := by
    have hlog := log2_add_lt hm htop
    rw [last_eq]
    omega
  exact ⟨n <<< (f - last m e).toNat, by rw [shiftLeft_mul_zpow n hlast, hq], hlast.trans hmax⟩

/-- A significand with the exponent of the last bit is stored as it is. -/
theorem isStored_last (hm : m ≠ 0) (hk : (k : ℚ) * 2 ^ last m e = m * 2 ^ e)
    (hmax : last m e ≤ 971) (negative : Bool) : (Double.finite negative k (last m e)).IsStored := by
  have hlast := last_eq m e
  generalize last m e = t at hlast hk hmax ⊢
  -- at most 53 bits, and as many as that unless the exponent is the least one
  refine ⟨?_, by omega, hmax, ?_⟩
  · have hlt : (k : ℚ) * 2 ^ t < 2 ^ (53 : ℤ) * 2 ^ t :=
      calc (k : ℚ) * 2 ^ t = m * 2 ^ e := hk
        _ < 2 ^ ((m.log2 : ℤ) + 1 + e) := lt_two_zpow
        _ ≤ 2 ^ (53 + t) := zpow_le_zpow_right₀ one_le_two (by omega)
        _ = 2 ^ (53 : ℤ) * 2 ^ t := zpow_add₀ two_ne_zero _ _
    exact_mod_cast lt_of_mul_lt_mul_right hlt (by positivity)
  · rcases eq_or_ne t (-1074) with ht | ht
    · exact .inr ht
    · have htop : 52 + t = m.log2 + e := by omega
      have hle : (2 : ℚ) ^ (52 : ℤ) * 2 ^ t ≤ k * 2 ^ t :=
        calc (2 : ℚ) ^ (52 : ℤ) * 2 ^ t = 2 ^ (m.log2 + e) := by
              rw [← htop, zpow_add₀ two_ne_zero]
          _ ≤ m * 2 ^ e := two_zpow_le hm
          _ = k * 2 ^ t := hk.symm
      exact .inl (by exact_mod_cast le_of_mul_le_mul_right hle (by positivity))

/-- A number that fits has a significand that can be stored, and its exponent is the one of
the last bit. -/
theorem exists_stored (hm : m ≠ 0) (h : Fits (m * 2 ^ e)) :
    ∃ k : ℕ, k ≠ 0 ∧ (k : ℚ) * 2 ^ last m e = m * 2 ^ e ∧
      ∀ negative, (Double.finite negative k (last m e)).IsStored := by
  obtain ⟨k, hk, hmax⟩ := exists_eq_mul_last hm h
  refine ⟨k, ?_, hk, isStored_last hm hk hmax⟩
  -- it is not zero, as the number is not
  rintro rfl
  have hpos : (0 : ℚ) < m * 2 ^ e := by positivity
  rw [Nat.cast_zero, zero_mul] at hk
  exact hpos.ne hk

/-- The last bit of a stored number is where its exponent says. -/
theorem last_of_isStored {negative : Bool} (hm : m ≠ 0)
    (h : (Double.finite negative m e).IsStored) : last m e = e := by
  obtain ⟨hlt, hmin, -, hfull⟩ := h
  have hlog : m.log2 < 53 := (Nat.log2_lt hm).2 hlt
  have hlog' : 52 ≤ m.log2 ∨ e = -1074 := hfull.imp_left (Nat.le_log2 hm).2
  rw [last_eq]
  omega

/-- A number is stored in one way only. -/
theorem eq_of_isStored {negative sign : Bool} (hm : m ≠ 0) (hk : k ≠ 0)
    (hme : (Double.finite negative m e).IsStored) (hkf : (Double.finite sign k f).IsStored)
    (h : (m : ℚ) * 2 ^ e = k * 2 ^ f) : m = k ∧ e = f := by
  -- both numbers have the same leading bit, and therefore the same last bit
  have hlt := log2_add_lt hm (h.trans_lt lt_two_zpow)
  have hgt := log2_add_lt hk (h.symm.trans_lt lt_two_zpow)
  have hef : e = f := by
    rw [← last_of_isStored hm hme, ← last_of_isStored hk hkf, last_eq, last_eq]
    omega
  subst hef
  exact ⟨eq_of_mul_zpow_eq h, rfl⟩

/-! ## Rounding in the number type -/

/-- What is stored and stands for a number. -/
structure Holds (d : Double) (q : ℚ) : Prop where
  /-- It is stored as it is. -/
  isStored : d.IsStored
  /-- It stands for the number. -/
  value_eq : d.value? = some q

/-- Shifting out zeros leaves nothing behind. -/
private theorem shiftRight_shiftLeft (k i j : ℕ) :
    (⟨k <<< (i + j), false, false⟩ : ExtendedMantissa) >>> j = ⟨k <<< i, false, false⟩ := by
  show Nat.repeat ExtendedMantissa.shiftRightOne j _ = _
  -- on how far is left to shift; the last step of the shift is the outermost one
  induction j generalizing i with
  | zero => rfl
  | succ j ih =>
    have hsplit : i + (j + 1) = i + 1 + j := by omega
    rw [Nat.repeat, hsplit, ih]
    simp [ExtendedMantissa.shiftRightOne, Nat.shiftLeft_succ]

/-- The number type shifts to the last bit, and not at all if the exponent is above it. -/
private theorem shiftToTargetExponent_eq (m : ℕ) (e : ℤ) :
    shiftToTargetExponent .binary64 m e .exact =
      ((⟨m, false, false⟩ : ExtendedMantissa) >>> (last m e - e).toNat,
        e + (last m e - e).toNat) := by
  rw [shiftToTargetExponent, targetExponent_eq]
  rfl

/-- There is no shift if the exponent is not below the last bit. -/
private theorem shiftToTargetExponent_of_le (h : last m e ≤ e) :
    shiftToTargetExponent .binary64 m e .exact = (⟨m, false, false⟩, e) := by
  rw [shiftToTargetExponent_eq, Int.toNat_of_nonpos (by omega), Nat.cast_zero, add_zero]
  rfl

/-- If the bits that are shifted out are zeros, the significand is what is left. -/
private theorem shiftToTargetExponent_of_shiftLeft (hle : e ≤ last m e)
    (hm : k <<< (last m e - e).toNat = m) :
    shiftToTargetExponent .binary64 m e .exact = (⟨k, false, false⟩, last m e) := by
  have hshift := shiftRight_shiftLeft k 0 (last m e - e).toNat
  rw [Nat.zero_add, hm, Nat.shiftLeft_zero] at hshift
  rw [shiftToTargetExponent_eq, hshift, Int.toNat_of_nonneg (by omega), add_sub_cancel]

/-- Shifting bits out of a significand keeps a number that fits. -/
theorem holds_roundWithAccuracy (s : Sign) (hm : m ≠ 0) (hle : e ≤ last m e)
    (h : Fits (m * 2 ^ e)) :
    Holds (ofUnpacked (roundWithAccuracy .binary64 s m e .exact))
      (signed (isNegative s) (m * 2 ^ e)) := by
  obtain ⟨k, hk0, hk, hstored⟩ := exists_stored hm h
  -- what the first shift moves out are zeros
  have hshift : k <<< (last m e - e).toNat = m :=
    eq_of_mul_zpow_eq ((shiftLeft_mul_zpow k hle).trans hk)
  -- the second shift finds nothing to do
  have hlast : last k (last m e) ≤ last m e := (last_of_isStored hk0 (hstored true)).le
  unfold roundWithAccuracy
  rw [shiftToTargetExponent_of_shiftLeft hle hshift]
  -- without residual bits there is nothing to round
  dsimp only [ExtendedMantissa.roundedMantissa, ExtendedMantissa.accuracy,
    Accuracy.roundToNearestEven]
  rw [shiftToTargetExponent_of_le hlast, dif_neg hk0]
  refine ⟨hstored _, ?_⟩
  show some (signed (isNegative s) (k * 2 ^ last m e)) = _
  rw [hk]

/-- A shift moves the leading bit. -/
private theorem log2_shiftLeft (hm : m ≠ 0) (j : ℕ) : (m <<< j).log2 = m.log2 + j := by
  rw [Nat.shiftLeft_eq, Nat.log2_eq_iff (by positivity)]
  constructor
  · rw [pow_add]
    exact Nat.mul_le_mul_right _ (Nat.log2_self_le hm)
  · rw [add_right_comm, pow_add]
    exact Nat.mul_lt_mul_of_pos_right Nat.lt_log2_self (by positivity)

/-- A significand is given bits enough, and then bits are shifted out of it. -/
theorem exists_round_eq (s : Sign) (hm : m ≠ 0) :
    ∃ (k : ℕ) (f : ℤ), k ≠ 0 ∧ (k : ℚ) * 2 ^ f = m * 2 ^ e ∧ f ≤ last k f ∧
      UnpackedFloat.round .binary64 s m e = roundWithAccuracy .binary64 s k f .exact := by
  -- as many places as the exponent is above the last bit
  obtain ⟨j, hj⟩ : ∃ j, j = (e - last m e).toNat := ⟨_, rfl⟩
  refine ⟨m <<< j, e - j, ?_, ?_, ?_, ?_⟩
  · rw [Nat.shiftLeft_eq]
    positivity
  · have hshift := shiftLeft_mul_zpow m (show e - j ≤ e by omega)
    rwa [sub_sub_cancel, Int.toNat_natCast] at hshift
  · rw [last_eq] at hj
    rw [last_eq, log2_shiftLeft hm]
    omega
  · unfold UnpackedFloat.round decreaseExponent
    dsimp only
    rw [targetExponent_eq, ← hj]

/-- Rounding a significand keeps a number that fits. -/
theorem holds_round (s : Sign) (hm : m ≠ 0) (h : Fits (m * 2 ^ e)) :
    Holds (ofUnpacked (UnpackedFloat.round .binary64 s m e))
      (signed (isNegative s) (m * 2 ^ e)) := by
  obtain ⟨k, f, hk, hvalue, hlast, hround⟩ := exists_round_eq (e := e) s hm
  rw [← hvalue] at h ⊢
  rw [hround]
  exact holds_roundWithAccuracy s hk hlast h

/-- A zero of either sign is stored and stands for zero. -/
theorem holds_zero (s : Sign) : Holds (ofUnpacked (.zero s)) 0 := by
  refine ⟨⟨by omega, by omega, by omega, .inr rfl⟩, ?_⟩
  show some (signed (isNegative s) ((0 : ℕ) * 2 ^ (-1074 : ℤ))) = _
  cases s <;> simp [isNegative]

/-- Rounding a significand with a sign keeps a number that fits. -/
theorem holds_normalize {n : ℤ} (s : Sign) (h : Fits (n * 2 ^ e)) :
    Holds (ofUnpacked (UnpackedFloat.normalize .binary64 n e s)) (n * 2 ^ e) := by
  -- the sign of the significand becomes that of the number, and zero has the sign that was asked
  -- for
  rcases Int.lt_trichotomy n 0 with hn | rfl | hn
  · obtain ⟨m, rfl⟩ : ∃ m : ℕ, n = -m := ⟨n.natAbs, by omega⟩
    have hm : m ≠ 0 := by omega
    have hround := holds_round .negative hm (by simpa using h.neg)
    rw [UnpackedFloat.normalize, Std.compare_eq_lt.2 hn]
    simpa [isNegative] using hround
  · rw [Int.cast_zero, zero_mul]
    exact holds_zero s
  · obtain ⟨m, rfl⟩ : ∃ m : ℕ, n = m := ⟨n.natAbs, by omega⟩
    have hm : m ≠ 0 := by omega
    have hround := holds_round .positive hm (by simpa using h)
    rw [UnpackedFloat.normalize, Std.compare_eq_gt.2 hn]
    simpa [isNegative] using hround

/-! ## The nearest double -/

/-- Shifting out zeros rounds nothing. -/
private theorem roundShift_shiftLeft (k j : ℕ) : Dyadic.roundShift (k <<< j) j = k := by
  have hpow : Dyadic.pow2 j = 2 ^ j := Nat.one_shiftLeft j
  simp [Dyadic.roundShift, hpow, Nat.shiftLeft_eq, Nat.shiftRight_eq_div_pow]

/-- A number that has no bits below its last one is rounded to itself. -/
private theorem round_eq (hk : (k : ℚ) * 2 ^ last m e = m * 2 ^ e) :
    Dyadic.round .binary64 m e = (k, last m e) := by
  -- the significand is given zeros, or zeros are taken from it
  rcases le_or_gt (last m e) e with hle | hlt
  · have hshift : m <<< (e - last m e).toNat = k :=
      eq_of_mul_zpow_eq ((shiftLeft_mul_zpow m hle).trans hk.symm)
    exact (if_pos hle).trans (by rw [hshift])
  · have hshift : k <<< (last m e - e).toNat = m :=
      eq_of_mul_zpow_eq ((shiftLeft_mul_zpow k hlt.le).trans hk)
    have hround := roundShift_shiftLeft k (last m e - e).toNat
    rw [hshift] at hround
    exact (if_neg hlt.not_ge).trans (by rw [hround])

/-- The double nearest to zero is the zero with the sign. -/
private theorem ofFloat_nearest_zero (negative : Bool) (e : ℤ) :
    ofFloat (nearest negative 0 e) = .finite negative 0 (-1074) := by
  have hstored : (Double.finite negative 0 (-1074)).IsStored :=
    ⟨by omega, by omega, by omega, .inr rfl⟩
  have hbits : min (((-1074 + 1074 : ℤ).toNat <<< 52) + 0) infinityBits = 0 := rfl
  have hzero := ofFloat_ofMagnitude hstored
  rwa [hbits] at hzero

/-- The double nearest to a number that fits stands for it. -/
theorem stands_nearest (negative : Bool) (h : Fits (m * 2 ^ e)) :
    Stands (nearest negative m e) (signed negative (m * 2 ^ e)) := by
  rcases eq_or_ne m 0 with rfl | hm
  · rw [Stands, ofFloat_nearest_zero]
    simp [value?]
  · obtain ⟨k, -, hk, hstored⟩ := exists_stored hm h
    -- rounding gives the stored significand, and its pattern the number again
    rw [nearest, magnitudeBits, if_neg hm, round_eq hk]
    dsimp only
    rw [Stands, ofFloat_ofMagnitude (hstored negative), value?, hk]

end

end SelfSimilar.Double
