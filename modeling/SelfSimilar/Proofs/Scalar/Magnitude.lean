import SelfSimilar.Proofs.Scalar.Operations

/-!
# Magnitudes of rounded numbers

Rounding passes no power of two: what is at most `2 ^ n` is rounded to at most `2 ^ n`, and what is
at least `2 ^ n` to at least `2 ^ n`. So the result of an operation is on the same side of each
power of two as the exact result, as long as the power is a double.

* `Double.ceiling_shiftRight_le`: what shifting bits out of a significand does to a bound
* `Double.isRounded_shifted`: what the number type rounds to
* `Double.Rounds`: being on the same side of each power of two
* `Double.rounds_mul`, `Double.rounds_add`, `Double.rounds_sub`, `Double.rounds_div`: so is each
  operation
-/

namespace SelfSimilar.Double

open Float.Model (UnpackedFloat)
open Float.Model.UnpackedFloat

/-! ## Shifting with residual bits -/

/-- The least significand that is not below one with residual bits. -/
def ceiling (em : ExtendedMantissa) : ℕ :=
  em.mantissa + if em.roundBit || em.stickyBit then 1 else 0

section

variable {em : ExtendedMantissa} {b j m k : ℕ} {e f n : ℤ}

/-- Rounding does not go below the significand without residual bits. -/
theorem le_roundedMantissa (em : ExtendedMantissa) : em.mantissa ≤ em.roundedMantissa := by
  obtain ⟨m, _ | _, _ | _⟩ := em <;>
    simp only [ExtendedMantissa.roundedMantissa, ExtendedMantissa.accuracy,
      Accuracy.roundToNearestEven] <;> omega

/-- Rounding does not go above the next significand. -/
theorem roundedMantissa_le (em : ExtendedMantissa) : em.roundedMantissa ≤ ceiling em := by
  obtain ⟨m, _ | _, _ | _⟩ := em <;>
    simp only [ExtendedMantissa.roundedMantissa, ExtendedMantissa.accuracy,
      Accuracy.roundToNearestEven, ceiling, Bool.or_false, Bool.or_true, if_true, if_false,
      Bool.false_eq_true] <;> omega

/-- A shift by one place stays below half of an even bound. -/
theorem ceiling_shiftRightOne_le (h : ceiling em ≤ b * 2) : ceiling em.shiftRightOne ≤ b := by
  obtain ⟨m, round, sticky⟩ := em
  -- the bit that is shifted out becomes the round bit, and the one before it joins the sticky ones
  rcases Nat.mod_two_eq_zero_or_one m with hm | hm
  · simp only [ceiling, ExtendedMantissa.shiftRightOne, hm] at h ⊢
    cases round <;> cases sticky <;> simp at h ⊢ <;> omega
  · simp only [ceiling, ExtendedMantissa.shiftRightOne, hm] at h ⊢
    simp
    omega

/-- The significand itself is divided, and what is left over goes into the residual bits. -/
theorem mantissa_shiftRight (em : ExtendedMantissa) (j : ℕ) :
    (em >>> j).mantissa = em.mantissa / 2 ^ j := by
  show (Nat.repeat ExtendedMantissa.shiftRightOne j em).mantissa = _
  induction j with
  | zero => rw [pow_zero, Nat.div_one]; rfl
  | succ j ih =>
    rw [Nat.repeat, ExtendedMantissa.shiftRightOne, ih, Nat.div_div_eq_div_mul, pow_succ]

/-- A shift stays below a bound from which it takes zeros only. -/
theorem ceiling_shiftRight_le (h : ceiling em ≤ b * 2 ^ j) : ceiling (em >>> j) ≤ b := by
  show ceiling (Nat.repeat ExtendedMantissa.shiftRightOne j em) ≤ b
  -- on the places; the bound for all but the last of them is twice as large
  induction j generalizing b with
  | zero => rwa [pow_zero, mul_one] at h
  | succ j ih =>
    refine ceiling_shiftRightOne_le (ih ?_)
    rwa [mul_assoc, ← pow_succ']

/-- The significand to which the first shift of a rounding leads. -/
def shifted (m : ℕ) (e : ℤ) (acc : Accuracy) : ℕ :=
  (ExtendedMantissa.ofMantissaAndAccuracy m acc >>> (last m e - e).toNat).roundedMantissa

/-- The accuracy goes into the residual bits only. -/
theorem mantissa_ofMantissaAndAccuracy (m : ℕ) (acc : Accuracy) :
    (ExtendedMantissa.ofMantissaAndAccuracy m acc).mantissa = m := by
  obtain _ | _ | _ | _ := acc <;> rfl

/-- Whatever was cut off was less than one. -/
theorem ceiling_ofMantissaAndAccuracy_le (m : ℕ) (acc : Accuracy) :
    ceiling (.ofMantissaAndAccuracy m acc) ≤ m + 1 := by
  obtain _ | _ | _ | _ := acc <;> simp [ceiling, ExtendedMantissa.ofMantissaAndAccuracy]

/-- The first shift does not go below the quotient. -/
theorem le_shifted (acc : Accuracy) : m / 2 ^ (last m e - e).toNat ≤ shifted m e acc := by
  have h := le_roundedMantissa
    (ExtendedMantissa.ofMantissaAndAccuracy m acc >>> (last m e - e).toNat)
  rwa [mantissa_shiftRight, mantissa_ofMantissaAndAccuracy] at h

/-- The first shift stays below a bound from which it takes zeros only. -/
theorem shifted_le {acc : Accuracy}
    (h : ceiling (.ofMantissaAndAccuracy m acc) ≤ b * 2 ^ (last m e - e).toNat) :
    shifted m e acc ≤ b :=
  (roundedMantissa_le _).trans (ceiling_shiftRight_le h)

/-- The significand has 53 bits, or it is the next power of two. -/
theorem shifted_le_two_pow (acc : Accuracy) : shifted m e acc ≤ 2 ^ 53 := by
  refine shifted_le ((ceiling_ofMantissaAndAccuracy_le m acc).trans ?_)
  have hlast := last_eq m e
  calc m + 1 ≤ 2 ^ (m.log2 + 1) := Nat.lt_log2_self
    _ ≤ 2 ^ (53 + (last m e - e).toNat) := Nat.pow_le_pow_right two_pos (by omega)
    _ = 2 ^ 53 * 2 ^ (last m e - e).toNat := pow_add ..

/-- It has fewer bits only if its exponent is the least one. -/
theorem two_pow_le_shifted (hle : e ≤ last m e) (acc : Accuracy) :
    2 ^ 52 ≤ shifted m e acc ∨ last m e = -1074 := by
  have hlast := last_eq m e
  refine or_iff_not_imp_right.2 fun hne => le_trans ?_ (le_shifted acc)
  rw [Nat.le_div_iff_mul_le (by positivity), ← pow_add]
  -- zero has no leading bit, but then the exponent is the least one
  rcases eq_or_ne m 0 with rfl | hm
  · rw [Nat.log2_zero] at hlast
    omega
  · exact (Nat.pow_le_pow_right two_pos (by omega)).trans (Nat.log2_self_le hm)

/-! ## Bounds by powers of two -/

/-- A power of two in units of a lower one. -/
theorem two_zpow_eq (h : e ≤ n) : (2 : ℚ) ^ n = (2 ^ (n - e).toNat : ℕ) * 2 ^ e := by
  rw [Nat.cast_pow, Nat.cast_ofNat, ← zpow_natCast, ← zpow_add₀ two_ne_zero,
    Int.toNat_of_nonneg (by omega), sub_add_cancel]

/-- A power of two is below a number if it is below the significand, in units of the exponent. -/
theorem two_zpow_le_iff (h : e ≤ n) : (2 : ℚ) ^ n ≤ m * 2 ^ e ↔ 2 ^ (n - e).toNat ≤ m := by
  rw [two_zpow_eq h, mul_le_mul_iff_left₀ (by positivity), Nat.cast_le]

/-- The same for a power of two above a number. -/
theorem le_two_zpow_iff (h : e ≤ n) : (m : ℚ) * 2 ^ e ≤ 2 ^ n ↔ m ≤ 2 ^ (n - e).toNat := by
  rw [two_zpow_eq h, mul_le_mul_iff_left₀ (by positivity), Nat.cast_le]

/-- The leading bit of a number is not above a power of two that bounds the number. -/
theorem log2_add_le (hm : m ≠ 0) (h : (m : ℚ) * 2 ^ e ≤ 2 ^ n) : m.log2 + e ≤ n :=
  (zpow_le_zpow_iff_right₀ one_lt_two).1 ((two_zpow_le hm).trans h)

/-- A number is not below its last bit. -/
theorem two_zpow_le_of_le (hm : 1 ≤ m) (h : n ≤ e) : (2 : ℚ) ^ n ≤ m * 2 ^ e :=
  calc (2 : ℚ) ^ n ≤ 1 * 2 ^ e := by
        rw [one_mul]
        exact zpow_le_zpow_right₀ one_le_two h
    _ ≤ m * 2 ^ e := by
        gcongr
        exact_mod_cast hm

/-- The shift reaches the last bit. -/
private theorem two_pow_toNat (he : e ≤ f) (hn : f ≤ n) :
    2 ^ (n - e).toNat = 2 ^ (n - f).toNat * 2 ^ (f - e).toNat := by
  rw [← pow_add]
  congr 1
  omega

/-- The first shift does not go below a power of two. -/
theorem two_zpow_le_shifted (hle : e ≤ last m e) (acc : Accuracy) (hn : -1074 ≤ n)
    (h : (2 : ℚ) ^ n ≤ m * 2 ^ e) : (2 : ℚ) ^ n ≤ shifted m e acc * 2 ^ last m e := by
  -- a power above the last bit is a whole number of its units, and those are not rounded
  rcases le_or_gt (last m e) n with hlast | hlast
  · rw [two_zpow_le_iff hlast]
    refine le_trans ?_ (le_shifted acc)
    rwa [two_zpow_le_iff (hle.trans hlast), two_pow_toNat hle hlast,
      ← Nat.le_div_iff_mul_le (by positivity)] at h
  · -- the power lies below the last bit
    have hfull := (two_pow_le_shifted hle acc).resolve_right (by omega)
    exact two_zpow_le_of_le (le_trans (by norm_num) hfull) hlast.le

/-- The last bit of a number is not above a power of two that bounds the number. -/
theorem last_le (hle : e ≤ last m e) (hn : -1074 ≤ n) (h : (m : ℚ) * 2 ^ e ≤ 2 ^ n) :
    last m e ≤ n := by
  have hlast := last_eq m e
  rcases eq_or_ne m 0 with rfl | hm
  · rw [Nat.log2_zero] at hlast
    omega
  · have hlog := log2_add_le hm h
    omega

/-- The first shift does not go above a power of two. -/
theorem shifted_le_two_zpow (hle : e ≤ last m e) {acc : Accuracy} (hn : -1074 ≤ n)
    (h : (ceiling (.ofMantissaAndAccuracy m acc) : ℚ) * 2 ^ e ≤ 2 ^ n) :
    (shifted m e acc : ℚ) * 2 ^ last m e ≤ 2 ^ n := by
  have hm : m ≤ ceiling (.ofMantissaAndAccuracy m acc) :=
    (mantissa_ofMantissaAndAccuracy m acc).ge.trans (Nat.le_add_right _ _)
  have hlast : last m e ≤ n := by
    refine last_le hle hn (le_trans ?_ h)
    gcongr
  rw [le_two_zpow_iff hlast]
  refine shifted_le ?_
  rwa [le_two_zpow_iff (hle.trans hlast), two_pow_toNat hle hlast] at h

/-! ## Rounding -/

/-- What rounding can leave: a finite number that is stored as it is unless its exponent is too
large. -/
def IsRounded (u : UnpackedFloat) (q : ℚ) : Prop :=
  ∃ negative r t, ofUnpacked u = .finite negative r t ∧ q = signed negative (r * 2 ^ t) ∧
    r < 2 ^ 53 ∧ -1074 ≤ t ∧ (2 ^ 52 ≤ r ∨ t = -1074)

/-- What rounding leaves of a number: both are on the same side of each power of two. -/
def Rounds (u : UnpackedFloat) (a : ℚ) : Prop :=
  ∃ q, IsRounded u q ∧
    ∀ n : ℤ, -1074 ≤ n → ((2 : ℚ) ^ n ≤ |a| → (2 : ℚ) ^ n ≤ |q|) ∧ (|a| ≤ 2 ^ n → |q| ≤ 2 ^ n)

/-- The magnitude of a finite number. -/
theorem abs_signed_mul (negative : Bool) (m : ℕ) (e : ℤ) :
    |signed negative (m * 2 ^ e)| = m * 2 ^ e := by
  rw [abs_signed, abs_of_nonneg (by positivity)]

/-- The number type shifts to the last bit, with what was cut off before among the residual bits. -/
private theorem shiftToTargetExponent_eq_last (m : ℕ) (e : ℤ) (acc : Accuracy) :
    shiftToTargetExponent .binary64 m e acc =
      (ExtendedMantissa.ofMantissaAndAccuracy m acc >>> (last m e - e).toNat,
        e + (last m e - e).toNat) := by
  rw [shiftToTargetExponent, targetExponent_eq]
  rfl

/-- A significand of at most 53 bits is not shifted again. -/
private theorem last_shifted_of_lt {r : ℕ} {t : ℤ} (hr : r < 2 ^ 53) (ht : -1074 ≤ t) :
    (last r t - t).toNat = 0 := by
  have hlog : r.log2 ≤ 52 := by
    rcases eq_or_ne r 0 with rfl | hr0
    · rw [Nat.log2_zero]
      omega
    · exact Nat.le_of_lt_succ ((Nat.log2_lt hr0).2 hr)
  rw [last_eq]
  omega

/-- Rounding leaves what the first shift leads to. -/
theorem isRounded_shifted (s : Sign) (hle : e ≤ last m e) (acc : Accuracy) :
    IsRounded (roundWithAccuracy .binary64 s m e acc)
      (signed (isNegative s) (shifted m e acc * 2 ^ last m e)) := by
  have hmin : -1074 ≤ last m e := by
    rw [last_eq]
    omega
  have hfirst : shiftToTargetExponent .binary64 m e acc =
      (ExtendedMantissa.ofMantissaAndAccuracy m acc >>> (last m e - e).toNat, last m e) := by
    rw [shiftToTargetExponent_eq_last, Int.toNat_of_nonneg (by omega), add_sub_cancel]
  unfold roundWithAccuracy
  rw [hfirst]
  dsimp only
  have hshift : (ExtendedMantissa.ofMantissaAndAccuracy m acc >>>
      (last m e - e).toNat).roundedMantissa = shifted m e acc := rfl
  rw [hshift, shiftToTargetExponent_eq_last]
  dsimp only
  rw [mantissa_shiftRight, mantissa_ofMantissaAndAccuracy]
  have hfull := two_pow_le_shifted hle acc
  have hbits := shifted_le_two_pow (m := m) (e := e) acc
  generalize shifted m e acc = r at hfull hbits ⊢
  generalize last m e = t at hmin hfull ⊢
  -- rounding up can leave a power of two, which has one bit more than there is room for
  rcases hbits.lt_or_eq with hlt | rfl
  · rw [last_shifted_of_lt hlt hmin, pow_zero, Nat.div_one, Nat.cast_zero, add_zero]
    by_cases hzero : r = 0
    · rw [dif_pos hzero, hzero]
      exact ⟨_, 0, -1074, rfl, by simp, by omega, by omega, .inr rfl⟩
    · rw [dif_neg hzero]
      exact ⟨_, r, t, rfl, rfl, hlt, hmin, hfull⟩
  · -- one bit too many, which is zero
    have hlast : (last (2 ^ 53) t - t).toNat = 1 := by
      rw [last_eq, Nat.log2_two_pow]
      omega
    rw [hlast, dif_neg (by decide)]
    refine ⟨_, 2 ^ 53 / 2 ^ 1, t + 1, rfl, ?_, by omega, by omega, .inl (by omega)⟩
    congr 1
    rw [zpow_add₀ two_ne_zero]
    norm_num
    ring

/-- Rounding passes no power of two, be it in either direction. -/
theorem rounds_roundWithAccuracy {a : ℚ} (s : Sign) (hle : e ≤ last m e) (acc : Accuracy)
    (hlow : ∀ n : ℤ, -1074 ≤ n → (2 : ℚ) ^ n ≤ |a| → (2 : ℚ) ^ n ≤ m * 2 ^ e)
    (hhigh : ∀ n : ℤ, -1074 ≤ n → |a| ≤ 2 ^ n →
      (ceiling (.ofMantissaAndAccuracy m acc) : ℚ) * 2 ^ e ≤ 2 ^ n) :
    Rounds (roundWithAccuracy .binary64 s m e acc) a := by
  -- the bounds on what was given, and then those on the first shift
  refine ⟨_, isRounded_shifted s hle acc, fun n hn => ?_⟩
  rw [abs_signed_mul]
  exact ⟨fun h => two_zpow_le_shifted hle acc hn (hlow n hn h),
    fun h => shifted_le_two_zpow hle hn (hhigh n hn h)⟩

/-- Rounding a number of which nothing was cut off. -/
theorem rounds_exact (s : Sign) (hle : e ≤ last m e) :
    Rounds (roundWithAccuracy .binary64 s m e .exact) (signed (isNegative s) (m * 2 ^ e)) := by
  refine rounds_roundWithAccuracy s hle .exact (fun n _ h => ?_) fun n _ h => ?_
  · rwa [abs_signed_mul] at h
  · rwa [abs_signed_mul] at h

section

variable {u v : UnpackedFloat} {a b q : ℚ}

/-- A number that is stored is rounded to itself. -/
theorem Holds.rounds (h : Holds (ofUnpacked u) a) : Rounds u a := by
  refine ⟨a, ?_, fun n _ => ⟨id, id⟩⟩
  obtain ⟨hstored, hvalue⟩ := h
  generalize hd : ofUnpacked u = d at hstored hvalue
  cases d with
  | undefined => cases hvalue
  | infinite negative => cases hvalue
  | finite negative r t =>
    obtain ⟨hlt, hmin, -, hfull⟩ := hstored
    exact ⟨negative, r, t, hd, (Option.some.inj hvalue).symm, hlt, hmin, hfull⟩

/-- Rounding a significand. -/
theorem rounds_round (s : Sign) (hm : m ≠ 0) :
    Rounds (UnpackedFloat.round .binary64 s m e) (signed (isNegative s) (m * 2 ^ e)) := by
  obtain ⟨k, f, -, hvalue, hlast, hround⟩ := exists_round_eq (e := e) s hm
  rw [hround, ← hvalue]
  exact rounds_exact s hlast

/-- Rounding a significand with a sign. -/
theorem rounds_normalize {k : ℤ} (s : Sign) (e : ℤ) :
    Rounds (UnpackedFloat.normalize .binary64 k e s) (k * 2 ^ e) := by
  rcases Int.lt_trichotomy k 0 with hk | rfl | hk
  · obtain ⟨m, rfl⟩ : ∃ m : ℕ, k = -m := ⟨k.natAbs, by omega⟩
    have hround := rounds_round (e := e) .negative (show m ≠ 0 by omega)
    rw [UnpackedFloat.normalize, Std.compare_eq_lt.2 hk]
    simpa [isNegative] using hround
  · rw [Int.cast_zero, zero_mul]
    exact (holds_zero s).rounds
  · obtain ⟨m, rfl⟩ : ∃ m : ℕ, k = m := ⟨k.natAbs, by omega⟩
    have hround := rounds_round (e := e) .positive (show m ≠ 0 by omega)
    rw [UnpackedFloat.normalize, Std.compare_eq_gt.2 hk]
    simpa [isNegative] using hround

/-! ## Operations -/

/-- The product of doubles, rounded. -/
theorem rounds_mul (hu : Holds (ofUnpacked u) a) (hv : Holds (ofUnpacked v) b) :
    Rounds (UnpackedFloat.mul .binary64 u v) (a * b) := by
  obtain ⟨s, rfl, rfl⟩ | ⟨s, m, e, hm, rfl, rfl⟩ := hu.zero_or_finite
  · rw [zero_mul]
    obtain ⟨t, rfl, rfl⟩ | ⟨t, k, f, hk, rfl, rfl⟩ := hv.zero_or_finite
    · exact (holds_zero (s * t)).rounds
    · exact (holds_zero (s * t)).rounds
  · obtain ⟨t, rfl, rfl⟩ | ⟨t, k, f, hk, rfl, rfl⟩ := hv.zero_or_finite
    · rw [mul_zero]
      exact (holds_zero (s * t)).rounds
    · have hproduct : (m : ℚ) * 2 ^ e * (k * 2 ^ f) = (m * k : ℕ) * 2 ^ (e + f) := by
        rw [zpow_add₀ two_ne_zero]
        push_cast
        ring
      rw [signed_mul_signed, ← isNegative_mul, hproduct]
      exact rounds_exact (s * t) (le_last_mul hm hk hu.isStored hv.isStored)

/-- The sum of doubles, rounded. -/
theorem rounds_add (hu : Holds (ofUnpacked u) a) (hv : Holds (ofUnpacked v) b) :
    Rounds (UnpackedFloat.add .binary64 u v) (a + b) := by
  obtain ⟨s, rfl, rfl⟩ | ⟨s, m, e, hm, rfl, rfl⟩ := hu.zero_or_finite
  · obtain ⟨t, rfl, rfl⟩ | ⟨t, k, f, hk, rfl, rfl⟩ := hv.zero_or_finite
    · rw [add_zero]
      cases s <;> cases t <;> exact (holds_zero _).rounds
    · rw [zero_add]
      exact hv.rounds
  · obtain ⟨t, rfl, rfl⟩ | ⟨t, k, f, hk, rfl, rfl⟩ := hv.zero_or_finite
    · rw [add_zero]
      exact hu.rounds
    · rw [← cast_decreaseExponent s m (min_le_left e f),
        ← cast_decreaseExponent t k (min_le_right e f), ← add_mul, ← Int.cast_add]
      exact rounds_normalize .positive (min e f)

/-- The difference of doubles, rounded. -/
theorem rounds_sub (hu : Holds (ofUnpacked u) a) (hv : Holds (ofUnpacked v) b) :
    Rounds (UnpackedFloat.sub .binary64 u v) (a - b) := by
  rw [unpacked_sub, sub_eq_add_neg]
  exact rounds_add hu hv.neg

end

/-! ## Quotients -/

/-- A division with remainder, of a dividend that is given bits enough. -/
theorem exists_div_eq (s t : Sign) (hm : 0 < m) (hk : 0 < k) :
    ∃ (i : ℕ) (g : ℤ), (i : ℚ) * 2 ^ g * 2 ^ f = m * 2 ^ e ∧ (2 ^ 52 ≤ i / k ∨ g ≤ -1074) ∧
      UnpackedFloat.div .binary64 (.finite s m e hm) (.finite t k f hk) =
        roundWithAccuracy .binary64 (s / t) (i / k) g (accuracyOfFraction (i % k) k) := by
  -- the last bit of the quotient, by the leading bits of both, or the exponent there is without a
  -- shift
  obtain ⟨g, hg⟩ : ∃ g : ℤ, g = min (e - f) (max ((m.log2 : ℤ) + e - (k.log2 + f) - 53) (-1074)) :=
    ⟨_, rfl⟩
  have htarget : g = min (e - f) (Float.Model.Format.binary64.targetExponent
      (Float.Model.totalExponent m e - Float.Model.totalExponent k f)) := by
    show g = min (e - f) (max ((m.log2 : ℤ) + 1 + e - (k.log2 + 1 + f) - 53) (-1074))
    omega
  refine ⟨m <<< (e - f - g).toNat, g, ?_, ?_, ?_⟩
  · rw [shiftLeft_mul_zpow m (by omega), mul_assoc, ← zpow_add₀ two_ne_zero, sub_add_cancel]
  · refine or_iff_not_imp_right.2 fun hlow => ?_
    rw [Nat.le_div_iff_mul_le hk, Nat.shiftLeft_eq]
    -- the divisor has one bit more than its logarithm, and the dividend is given 53 more than that
    calc 2 ^ 52 * k ≤ 2 ^ 52 * 2 ^ (k.log2 + 1) := by
          gcongr
          exact Nat.lt_log2_self.le
      _ = 2 ^ (k.log2 + 53) := by
          rw [← pow_add]
          congr 1
          omega
      _ ≤ 2 ^ (m.log2 + (e - f - g).toNat) := Nat.pow_le_pow_right two_pos (by omega)
      _ = 2 ^ m.log2 * 2 ^ (e - f - g).toNat := pow_add ..
      _ ≤ m * 2 ^ (e - f - g).toNat := by
          gcongr
          exact Nat.log2_self_le hm.ne'
  · unfold UnpackedFloat.div divCore
    dsimp only
    rw [← htarget]

/-- Rounded up, a quotient stays below an integer that bounds it. -/
theorem ceiling_div_le {i b : ℕ} (hk : 0 < k) (h : i ≤ b * k) :
    ceiling (.ofMantissaAndAccuracy (i / k) (accuracyOfFraction (i % k) k)) ≤ b := by
  rw [accuracyOfFraction]
  -- without a remainder the quotient is exact, and otherwise it is below the bound by one
  split
  next => exact Nat.div_le_of_le_mul (by rwa [mul_comm])
  next hrest =>
    have hlt : i / k < b := by
      refine (Nat.div_lt_iff_lt_mul hk).2 (lt_of_le_of_ne h ?_)
      rintro rfl
      exact hrest (Nat.mul_mod_left b k)
    exact (ceiling_ofMantissaAndAccuracy_le _ _).trans hlt

/-- The last bit that a quotient is computed to is not above a power of two that bounds the
quotient. -/
private theorem exponent_le {i : ℕ} {g : ℤ} (hk : 0 < k) (hfull : 2 ^ 52 ≤ i / k ∨ g ≤ -1074)
    (hn : -1074 ≤ n) (h : (i : ℚ) * 2 ^ g ≤ 2 ^ n * k) : g ≤ n := by
  rcases hfull with hfull | hlow
  · rw [Nat.le_div_iff_mul_le hk] at hfull
    have hpow : (2 : ℚ) ^ g * k ≤ 2 ^ n * k :=
      calc (2 : ℚ) ^ g * k = (k : ℕ) * 2 ^ g := mul_comm ..
        _ ≤ i * 2 ^ g := by
          gcongr
          omega
        _ ≤ 2 ^ n * k := h
    exact (zpow_le_zpow_iff_right₀ one_lt_two).1 (le_of_mul_le_mul_right hpow (by positivity))
  · omega

/-- The quotient of finite numbers, rounded. -/
theorem rounds_div_finite (s t : Sign) (hm : 0 < m) (hk : 0 < k) :
    Rounds (UnpackedFloat.div .binary64 (.finite s m e hm) (.finite t k f hk))
      (signed (isNegative s) (m * 2 ^ e) / signed (isNegative t) (k * 2 ^ f)) := by
  obtain ⟨i, g, hvalue, hfull, hdiv⟩ := exists_div_eq (e := e) (f := f) s t hm hk
  have hlast : g ≤ last (i / k) g := by
    rw [last_eq]
    rcases hfull with hfull | hlow
    · have : 52 ≤ (i / k).log2 := (Nat.le_log2 (by omega)).2 hfull
      omega
    · omega
  have habs : |signed (isNegative s) ((m : ℚ) * 2 ^ e) / signed (isNegative t) (k * 2 ^ f)| =
      i * 2 ^ g / k := by
    rw [abs_div, abs_signed_mul, abs_signed_mul, ← hvalue, mul_div_mul_right _ _ (by positivity)]
  rw [hdiv]
  -- the quotient is not rounded below a power of two, and not above one
  refine rounds_roundWithAccuracy (s / t) hlast _ (fun n hn h => ?_) fun n hn h => ?_
  · rw [habs, le_div_iff₀ (by positivity)] at h
    rcases le_or_gt g n with hgn | hgn
    · rw [two_zpow_le_iff hgn, Nat.le_div_iff_mul_le hk]
      rw [two_zpow_eq hgn, mul_right_comm, mul_le_mul_iff_left₀ (by positivity)] at h
      exact_mod_cast h
    · -- the power lies below the last bit of the quotient
      have hone : 1 ≤ i / k := le_trans (by norm_num) (hfull.resolve_right (by omega))
      exact two_zpow_le_of_le hone hgn.le
  · rw [habs, div_le_iff₀ (by positivity)] at h
    have hgn := exponent_le hk hfull hn h
    rw [le_two_zpow_iff hgn]
    refine ceiling_div_le hk ?_
    rw [two_zpow_eq hgn, mul_right_comm, mul_le_mul_iff_left₀ (by positivity)] at h
    exact_mod_cast h

/-- The quotient of doubles, rounded, if the divisor is not zero. -/
theorem rounds_div {u v : UnpackedFloat} {a b : ℚ} (hu : Holds (ofUnpacked u) a)
    (hv : Holds (ofUnpacked v) b) (hb : b ≠ 0) :
    Rounds (UnpackedFloat.div .binary64 u v) (a / b) := by
  obtain ⟨t, rfl, rfl⟩ | ⟨t, k, f, hk, rfl, rfl⟩ := hv.zero_or_finite
  · exact absurd rfl hb
  · obtain ⟨s, rfl, rfl⟩ | ⟨s, m, e, hm, rfl, rfl⟩ := hu.zero_or_finite
    · rw [zero_div]
      exact (holds_zero (s / t)).rounds
    · exact rounds_div_finite s t hm hk

end

end SelfSimilar.Double
