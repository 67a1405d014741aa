import Mathlib.Data.Rat.Floor
import SelfSimilar.Proofs.Scalar.Rounding

/-!
# Operations that lose nothing

A sum, difference or product of doubles stands for the exact result when that fits. A remainder
always fits. So doubles compute with integers below `2 ^ 53` as integers do.

* `Double.stands_add`, `Double.stands_sub`, `Double.stands_mul`: exact operations
* `Double.stands_add_int`, `Double.stands_sub_int`, `Double.stands_mul_int`, `Double.stands_rem`:
  the operations on integers
* `Double.undefined_or_abs_rem_lt`: any remainder is below the divisor, or no number
* `Double.toInt_floor`: the whole part
* `Double.beq_of_stands`: what stands for the same number is equal
* `Double.isUndefined_iff` and what follows: no number stays no number
-/

namespace SelfSimilar.Double

open Float.Model (UnpackedFloat)
open Float.Model.UnpackedFloat

/-! ## Signs -/

theorem isNegative_neg (s : Sign) : isNegative (-s) = !isNegative s := by cases s <;> rfl

theorem isNegative_mul (s t : Sign) : isNegative (s * t) = (isNegative s ^^ isNegative t) := by
  cases s <;> cases t <;> rfl

/-- The opposite sign is that of the opposite. -/
theorem signed_not (negative : Bool) (q : ℚ) : signed (!negative) q = -signed negative q := by
  cases negative <;> simp

/-- Signs are multiplied apart from magnitudes. -/
theorem signed_mul_signed (b c : Bool) (p q : ℚ) :
    signed b p * signed c q = signed (b ^^ c) (p * q) := by
  cases b <;> cases c <;> simp

/-- A sign that is given to an integer. -/
theorem cast_apply (s : Sign) (n : ℤ) : ((s.apply n : ℤ) : ℚ) = signed (isNegative s) n := by
  cases s <;> simp [isNegative, Sign.apply]

/-- A factor that has a sign, and one that has none. -/
theorem signed_mul (negative : Bool) (p q : ℚ) :
    signed negative p * q = signed negative (p * q) := by
  cases negative <;> simp

/-- A number that is not zero has one sign and one magnitude. -/
theorem eq_of_signed_eq {s t : Sign} {p q : ℚ} (hp : 0 < p) (hq : 0 < q)
    (h : signed (isNegative s) p = signed (isNegative t) q) : s = t ∧ p = q := by
  cases s <;> cases t <;> simp only [isNegative, signed_true, signed_false, neg_inj] at h
  · exact ⟨rfl, h⟩
  · linarith
  · linarith
  · exact ⟨rfl, h⟩

/-! ## Sums and products -/

section

variable {u v : UnpackedFloat} {a b : ℚ}

/-- What stands for a number is a zero, or it has a sign and a significand. -/
theorem Holds.zero_or_finite (h : Holds (ofUnpacked u) a) :
    (∃ s, u = .zero s ∧ a = 0) ∨
      ∃ s m e hm, u = .finite s m e hm ∧ a = signed (isNegative s) (m * 2 ^ e) := by
  -- what is infinite or no number stands for none
  cases u with
  | notANumber => cases h.value_eq
  | infinity s => cases h.value_eq
  | zero s => exact .inl ⟨s, rfl, Option.some.inj (h.value_eq.symm.trans (holds_zero s).value_eq)⟩
  | finite s m e hm => exact .inr ⟨s, m, e, hm, rfl, (Option.some.inj h.value_eq).symm⟩

/-- The opposite is stored as well. -/
theorem Holds.neg (h : Holds (ofUnpacked u) a) : Holds (ofUnpacked u.neg) (-a) := by
  obtain ⟨s, rfl, rfl⟩ | ⟨s, m, e, hm, rfl, rfl⟩ := h.zero_or_finite
  · rw [neg_zero]
    exact holds_zero (-s)
  · rw [← signed_not, ← isNegative_neg]
    exact ⟨h.isStored, rfl⟩

/-- A significand that is brought to a lower exponent, with its sign. -/
theorem cast_decreaseExponent (s : Sign) (m : ℕ) {e f : ℤ} (h : f ≤ e) :
    ((s.apply (decreaseExponent m e f).1 : ℤ) : ℚ) * 2 ^ f =
      signed (isNegative s) (m * 2 ^ e) := by
  rw [← shiftLeft_mul_zpow m h, cast_apply, signed_mul]
  rfl

/-- A sum that fits is computed exactly. -/
theorem Holds.add (hu : Holds (ofUnpacked u) a) (hv : Holds (ofUnpacked v) b) (h : Fits (a + b)) :
    Holds (ofUnpacked (UnpackedFloat.add .binary64 u v)) (a + b) := by
  obtain ⟨s, rfl, rfl⟩ | ⟨s, m, e, hm, rfl, rfl⟩ := hu.zero_or_finite
  · obtain ⟨t, rfl, rfl⟩ | ⟨t, n, f, hn, rfl, rfl⟩ := hv.zero_or_finite
    · rw [add_zero]
      cases s <;> cases t <;> exact holds_zero _
    · rw [zero_add]
      exact hv
  · obtain ⟨t, rfl, rfl⟩ | ⟨t, n, f, hn, rfl, rfl⟩ := hv.zero_or_finite
    · rw [add_zero]
      exact hu
    -- both are brought to the lower exponent, and then their significands are added
    · rw [← cast_decreaseExponent s m (min_le_left e f),
        ← cast_decreaseExponent t n (min_le_right e f), ← add_mul, ← Int.cast_add] at h ⊢
      exact holds_normalize .positive h

/-- A product has no bits below its last one. -/
theorem le_last_mul {b c : Bool} {m n : ℕ} {e f : ℤ} (hm : 0 < m) (hn : 0 < n)
    (hu : (Double.finite b m e).IsStored) (hv : (Double.finite c n f).IsStored) :
    e + f ≤ last (m * n) (e + f) := by
  -- one factor with 53 bits is enough for a product of 53 bits
  have hlog {k : ℕ} (hk : 2 ^ 52 ≤ k) (hle : k ≤ m * n) : 52 ≤ (m * n).log2 :=
    (Nat.le_log2 (by positivity)).2 (hk.trans hle)
  rw [last_eq]
  obtain ⟨-, -, -, hfull | he⟩ := hu
  · have := hlog hfull (Nat.le_mul_of_pos_right m hn)
    omega
  -- if neither has 53 bits, both exponents are the least one, and the product is far below
  · obtain ⟨-, -, -, hfull | hf⟩ := hv
    · have := hlog hfull (Nat.le_mul_of_pos_left n hm)
      omega
    · omega

/-- A product that fits is computed exactly. -/
theorem Holds.mul (hu : Holds (ofUnpacked u) a) (hv : Holds (ofUnpacked v) b) (h : Fits (a * b)) :
    Holds (ofUnpacked (UnpackedFloat.mul .binary64 u v)) (a * b) := by
  obtain ⟨s, rfl, rfl⟩ | ⟨s, m, e, hm, rfl, rfl⟩ := hu.zero_or_finite
  · rw [zero_mul]
    obtain ⟨t, rfl, rfl⟩ | ⟨t, n, f, hn, rfl, rfl⟩ := hv.zero_or_finite
    · exact holds_zero (s * t)
    · exact holds_zero (s * t)
  · obtain ⟨t, rfl, rfl⟩ | ⟨t, n, f, hn, rfl, rfl⟩ := hv.zero_or_finite
    · rw [mul_zero]
      exact holds_zero (s * t)
    -- significands are multiplied, exponents added, and signs multiplied
    · have hproduct : (m : ℚ) * 2 ^ e * (n * 2 ^ f) = (m * n : ℕ) * 2 ^ (e + f) := by
        rw [zpow_add₀ two_ne_zero]
        push_cast
        ring
      rw [signed_mul_signed, ← isNegative_mul, hproduct] at h ⊢
      exact holds_roundWithAccuracy (s * t) (by positivity)
        (le_last_mul hm hn hu.isStored hv.isStored) h.of_signed

/-- To subtract is to add what is negated. -/
theorem unpacked_sub (u v : UnpackedFloat) :
    UnpackedFloat.sub .binary64 u v = UnpackedFloat.add .binary64 u v.neg := by
  have happly (s : Sign) (n : ℤ) : (-s).apply n = -s.apply n := by
    cases s
    · exact (neg_neg n).symm
    · rfl
  -- two finite numbers are brought to the lower exponent; all other cases are decided by the signs
  cases u with
  | finite =>
    cases v with
    | finite =>
      show UnpackedFloat.normalize _ (_ - _) _ _ = UnpackedFloat.normalize _ (_ + _) _ _
      rw [sub_eq_add_neg, happly]
    | _ => rfl
  | infinity s =>
    cases v with
    | infinity t => cases s <;> cases t <;> rfl
    | _ => rfl
  | zero s =>
    cases v with
    | zero t => cases s <;> cases t <;> rfl
    | _ => rfl
  | notANumber => rfl

end

section

variable {x y : Float} {a b : ℚ}

/-- A double that stands for a number is unpacked to it. -/
theorem Stands.holds (h : Stands x a) : Holds (ofUnpacked x.toModel.unpack) a := by
  rw [← ofFloat_eq]
  exact ⟨isStored_ofFloat x, h⟩

/-- What is stored and packed stands for the number. -/
theorem Holds.stands {u : UnpackedFloat} (h : Holds (ofUnpacked u) a) :
    Stands (.ofModel (.pack u)) a := by
  rw [Stands, ofFloat_ofModel u h.isStored, h.value_eq]

/-- A sum of doubles that fits is exact. -/
theorem stands_add (hx : Stands x a) (hy : Stands y b) (h : Fits (a + b)) :
    Stands (x + y) (a + b) :=
  (hx.holds.add hy.holds h).stands

/-- A difference of doubles that fits is exact. -/
theorem stands_sub (hx : Stands x a) (hy : Stands y b) (h : Fits (a - b)) :
    Stands (x - y) (a - b) := by
  rw [sub_eq_add_neg] at h ⊢
  have hsum := hx.holds.add hy.holds.neg h
  rw [← unpacked_sub] at hsum
  exact hsum.stands

/-- A product of doubles that fits is exact. -/
theorem stands_mul (hx : Stands x a) (hy : Stands y b) (h : Fits (a * b)) :
    Stands (x * y) (a * b) :=
  (hx.holds.mul hy.holds h).stands

/-! ## Integers -/

/-- An integer has a sign and a magnitude. -/
private theorem cast_eq_signed (n : ℤ) : (n : ℚ) = signed (n < 0) n.natAbs := by
  rw [Nat.cast_natAbs]
  rcases lt_or_ge n 0 with hn | hn
  · simp [hn, abs_of_neg hn]
  · simp [hn.not_gt, abs_of_nonneg hn]

/-- Integers with few enough bits are doubles. -/
theorem stands_ofInt {n : ℤ} (h : |n| < 2 ^ 53) : Stands (Scalar.ofInt n) n := by
  have hvalue : (n.natAbs : ℚ) * 2 ^ (0 : ℤ) = n.natAbs := by rw [zpow_zero, mul_one]
  have hfits : Fits ((n.natAbs : ℚ) * 2 ^ (0 : ℤ)) := by
    rw [hvalue, ← Int.cast_natCast]
    exact fits_intCast (by rwa [Int.natCast_natAbs, abs_abs])
  have hnearest := stands_nearest (n < 0) hfits
  rwa [hvalue, ← cast_eq_signed] at hnearest

/-- The sum of integers, if it has few enough bits. -/
theorem stands_add_int {p q : ℤ} (hx : Stands x p) (hy : Stands y q) (h : |p + q| < 2 ^ 53) :
    Stands (x + y) (p + q : ℤ) := by
  have hfits := fits_intCast h
  rw [Int.cast_add] at hfits ⊢
  exact stands_add hx hy hfits

/-- The difference of integers, if it has few enough bits. -/
theorem stands_sub_int {p q : ℤ} (hx : Stands x p) (hy : Stands y q) (h : |p - q| < 2 ^ 53) :
    Stands (x - y) (p - q : ℤ) := by
  have hfits := fits_intCast h
  rw [Int.cast_sub] at hfits ⊢
  exact stands_sub hx hy hfits

/-- The product of integers, if it has few enough bits. -/
theorem stands_mul_int {p q : ℤ} (hx : Stands x p) (hy : Stands y q) (h : |p * q| < 2 ^ 53) :
    Stands (x * y) (p * q : ℤ) := by
  have hfits := fits_intCast h
  rw [Int.cast_mul] at hfits ⊢
  exact stands_mul hx hy hfits

/-- A double that stands for a number comes apart into a sign and a magnitude. -/
theorem Stands.exists_finite (h : Stands x a) :
    ∃ negative m e, ofFloat x = .finite negative m e ∧ a = signed negative (m * 2 ^ e) := by
  unfold Stands at h
  generalize ofFloat x = d at h ⊢
  cases d with
  | undefined => cases h
  | infinite negative => cases h
  | finite negative m e => exact ⟨negative, m, e, rfl, (Option.some.inj h).symm⟩

/-! ## Remainders -/

/-- The remainder of finite doubles, in units of the lower last bit. -/
theorem stands_rem_finite {negative sign : Bool} {m n : ℕ} {e f : ℤ}
    (hx : ofFloat x = .finite negative m e) (hy : ofFloat y = .finite sign n f) (hn : n ≠ 0) :
    Stands (Scalar.rem x y) (signed negative
      ((m <<< (e - min e f).toNat % n <<< (f - min e f).toNat : ℕ) * 2 ^ min e f)) := by
  have hstored : (Double.finite negative m e).IsStored := hx ▸ isStored_ofFloat x
  have hstored' : (Double.finite sign n f).IsStored := hy ▸ isStored_ofFloat y
  obtain ⟨hm, he, he', -⟩ := hstored
  obtain ⟨hn', hf, hf', -⟩ := hstored'
  have hlt : m <<< (e - min e f).toNat % n <<< (f - min e f).toNat < 2 ^ 53 := by
    -- the number with the lower last bit is not shifted
    rcases le_total e f with h | h
    · refine (Nat.mod_le _ _).trans_lt ?_
      rwa [min_eq_left h, sub_self]
    · rw [min_eq_right h, sub_self]
      exact (Nat.mod_lt _ (Nat.pos_of_ne_zero hn)).trans hn'
  have hrem : Scalar.rem x y = nearest negative
      (m <<< (e - min e f).toNat % n <<< (f - min e f).toNat) (min e f) := by
    show Double.rem x y = _
    rw [Double.rem, hx, hy]
    exact if_neg hn
  rw [hrem]
  refine stands_nearest negative ⟨_, _, by rw [Int.cast_natCast], ?_, by omega, by omega⟩
  rw [Nat.abs_cast]
  exact_mod_cast hlt

/-- Remainders do not depend on the unit. -/
private theorem mod_mul_zpow {m n p q : ℕ} {e : ℤ} (hm : (m : ℚ) * 2 ^ e = p)
    (hn : (n : ℚ) * 2 ^ e = q) : ((m % n : ℕ) : ℚ) * 2 ^ e = (p % q : ℕ) := by
  -- the unit is a whole number or one over a whole number
  obtain ⟨j, rfl | rfl⟩ := e.eq_nat_or_neg
  · rw [zpow_natCast] at *
    obtain rfl : m * 2 ^ j = p := by exact_mod_cast hm
    obtain rfl : n * 2 ^ j = q := by exact_mod_cast hn
    rw [Nat.mul_mod_mul_right]
    push_cast
    rfl
  · rw [zpow_neg, zpow_natCast, ← div_eq_mul_inv, div_eq_iff (by positivity)] at *
    obtain rfl : m = p * 2 ^ j := by exact_mod_cast hm
    obtain rfl : n = q * 2 ^ j := by exact_mod_cast hn
    rw [Nat.mul_mod_mul_right]
    push_cast
    rfl

/-- The magnitude of a double that stands for an integer. -/
private theorem Stands.exists_natAbs {p : ℤ} (h : Stands x p) :
    ∃ negative m e, ofFloat x = .finite negative m e ∧ (m : ℚ) * 2 ^ e = p.natAbs ∧
      (p : ℚ) = signed negative p.natAbs := by
  obtain ⟨negative, m, e, hx, hp⟩ := h.exists_finite
  have hm : (m : ℚ) * 2 ^ e = p.natAbs := by
    rw [Nat.cast_natAbs, Int.cast_abs, hp, abs_signed, abs_of_nonneg (by positivity)]
  exact ⟨negative, m, e, hx, hm, hm ▸ hp⟩

/-- A truncated remainder has the sign of the dividend. -/
private theorem cast_tmod {p q : ℤ} {negative : Bool} (hp : (p : ℚ) = signed negative p.natAbs) :
    ((p.tmod q : ℤ) : ℚ) = signed negative (p.natAbs % q.natAbs : ℕ) := by
  -- the sign of the divisor does not matter
  have hmod : ((p.natAbs % q.natAbs : ℕ) : ℤ) = (p.natAbs : ℤ).tmod q := by
    rw [Int.ofNat_tmod]
    rcases q.natAbs_eq with h | h
    · rw [← h]
    · conv_rhs => rw [h, Int.tmod_neg]
  rw [← Int.cast_natCast (R := ℚ), hmod]
  rw [← Int.cast_natCast (R := ℚ) p.natAbs] at hp
  cases negative with
  | false =>
    have habs : p = (p.natAbs : ℤ) := Int.cast_injective hp
    rw [← habs, signed_false]
  | true =>
    rw [signed_true, ← Int.cast_neg] at hp
    have habs : p = -(p.natAbs : ℤ) := Int.cast_injective hp
    rw [signed_true, ← Int.cast_neg, ← Int.neg_tmod, ← habs]

/-- The remainder of integers. -/
theorem stands_rem {p q : ℤ} (hx : Stands x p) (hy : Stands y q) (hq : q ≠ 0) :
    Stands (Scalar.rem x y) (p.tmod q : ℤ) := by
  obtain ⟨negative, m, e, hx, hm, hp⟩ := hx.exists_natAbs
  obtain ⟨sign, n, f, hy, hn, -⟩ := hy.exists_natAbs
  -- the divisor is not zero, so neither is its significand
  have hn0 : n ≠ 0 := by
    rintro rfl
    rw [Nat.cast_zero, zero_mul] at hn
    have : q.natAbs = 0 := by exact_mod_cast hn.symm
    omega
  have hrem := stands_rem_finite hx hy hn0
  rwa [mod_mul_zpow ((shiftLeft_mul_zpow m (min_le_left e f)).trans hm)
    ((shiftLeft_mul_zpow n (min_le_right e f)).trans hn), ← cast_tmod hp] at hrem

@[simp] theorem ofFloat_notANumber : ofFloat notANumber = .undefined := ofFloat_ofBits _

/-- A remainder is smaller than the divisor, or no number. -/
theorem undefined_or_abs_rem_lt (x : Float) (hy : Stands y b) (hb : b ≠ 0) :
    ofFloat (Scalar.rem x y) = .undefined ∨ ∃ r, Stands (Scalar.rem x y) r ∧ |r| < |b| := by
  obtain ⟨sign, n, f, hfinite, rfl⟩ := hy.exists_finite
  have hn : n ≠ 0 := by
    rintro rfl
    cases sign <;> simp at hb
  -- the remainder of what is infinite or no number is no number
  cases hx : ofFloat x with
  | undefined | infinite negative =>
    left
    show ofFloat (Double.rem x y) = _
    simp [Double.rem, hx]
  | finite negative m e =>
    refine .inr ⟨_, stands_rem_finite hx hfinite hn, ?_⟩
    -- both in units of the lower last bit, where the remainder is one of natural numbers
    rw [abs_signed, abs_signed, ← shiftLeft_mul_zpow n (min_le_right e f),
      abs_of_nonneg (by positivity), abs_of_nonneg (by positivity)]
    gcongr
    refine Nat.mod_lt _ ?_
    rw [Nat.shiftLeft_eq]
    positivity

/-! ## Whole parts -/

private theorem floor_mul_zpow (n e : ℤ) : ⌊(n : ℚ) * 2 ^ e⌋ =
    if 0 ≤ e then n * Dyadic.pow2 e.toNat else n >>> (-e).toNat := by
  have hpow (j : ℕ) : Dyadic.pow2 j = 2 ^ j := Nat.one_shiftLeft j
  split_ifs with he
  · obtain ⟨j, rfl⟩ := Int.eq_ofNat_of_zero_le he
    rw [Int.toNat_natCast, hpow, zpow_natCast, ← Int.floor_intCast (R := ℚ) (n * (2 ^ j : ℕ))]
    push_cast
    rfl
  · obtain ⟨j, rfl⟩ : ∃ j : ℕ, e = -j := ⟨(-e).toNat, by omega⟩
    rw [neg_neg, Int.toNat_natCast, Int.shiftRight_eq_div_pow, ← Rat.floor_intCast_div_natCast,
      zpow_neg, zpow_natCast, div_eq_mul_inv]
    push_cast
    rfl

/-- The whole part of a double that stands for a number, when it fits into a word. -/
theorem toInt_floor (h : Stands x a) (hlow : -2 ^ 63 ≤ ⌊a⌋) (hhigh : ⌊a⌋ < 2 ^ 63) :
    (Scalar.floor x).toInt = ⌊a⌋ := by
  obtain ⟨negative, m, e, hx, ha⟩ := h.exists_finite
  have hmin : Int64.minValue.toInt = -2 ^ 63 := rfl
  have hmax : Int64.maxValue.toInt = 2 ^ 63 - 1 := rfl
  have hclamp : Scalar.floor x = Int64.ofIntClamp ⌊a⌋ := by
    have hsigned : a = ((if negative then -(m : ℤ) else m : ℤ) : ℚ) * 2 ^ e := by
      rw [ha]
      cases negative <;> simp
    show Double.floor x = _
    rw [Double.floor, hx, hsigned, floor_mul_zpow]
  rw [hclamp, Int64.toInt_ofIntClamp (by omega) (by omega)]

theorem floor_of_undefined (h : ofFloat x = .undefined) : Scalar.floor x = 0 := by
  show Double.floor x = 0
  rw [Double.floor, h]

/-! ## Equality -/

/-- A significand that is not zero makes a number that is not. -/
private theorem signed_ne_zero {m : ℕ} (negative : Bool) (e : ℤ) (hm : 0 < m) :
    signed negative (m * 2 ^ e) ≠ 0 := by
  have hne : (m : ℚ) * 2 ^ e ≠ 0 := by positivity
  cases negative with
  | false => exact hne
  | true => exact neg_ne_zero.2 hne

/-- A finite number compares as equal to itself. -/
private theorem compare_finite_self (s : Sign) {m : ℕ} (e : ℤ) (hm : 0 < m) :
    UnpackedFloat.compare (.finite s m e hm) (.finite s m e hm) = some .eq := by
  have hself : (compare e e).then (compare m m) = .eq := by simp
  cases s with
  | negative => exact congrArg (some ·.swap) hself
  | positive => exact congrArg some hself

/-- Doubles that stand for the same number are equal, whatever the sign of a zero. -/
theorem beq_of_stands (hx : Stands x a) (hy : Stands y a) : (x == y) = true := by
  show x.toModel.unpack.beq y.toModel.unpack = true
  have hu := hx.holds
  have hv := hy.holds
  generalize x.toModel.unpack = u at hu ⊢
  generalize y.toModel.unpack = v at hv ⊢
  -- zeros are equal, whatever their signs, and other numbers are stored in one way only
  obtain ⟨s, rfl, ha⟩ | ⟨s, m, e, hm, rfl, ha⟩ := hu.zero_or_finite
  · obtain ⟨t, rfl, -⟩ | ⟨t, n, f, hn, rfl, hb⟩ := hv.zero_or_finite
    · rfl
    · exact absurd (hb.symm.trans ha) (signed_ne_zero _ f hn)
  · obtain ⟨t, rfl, hb⟩ | ⟨t, n, f, hn, rfl, hb⟩ := hv.zero_or_finite
    · exact absurd (ha.symm.trans hb) (signed_ne_zero _ e hm)
    · obtain ⟨rfl, hvalue⟩ := eq_of_signed_eq (by positivity) (by positivity) (ha.symm.trans hb)
      obtain ⟨rfl, rfl⟩ := eq_of_isStored hm.ne' hn.ne' hu.isStored hv.isStored hvalue
      show (UnpackedFloat.compare _ _ == some .eq) = true
      rw [compare_finite_self, beq_self_eq_true]

/-! ## No number -/

/-- A double is no number exactly if it is unpacked to that. -/
theorem undefined_iff (x : Float) : ofFloat x = .undefined ↔ x.toModel.unpack = .notANumber := by
  rw [ofFloat_eq]
  cases x.toModel.unpack with
  | notANumber => exact iff_of_true rfl rfl
  | _ => exact iff_of_false nofun nofun

/-- What is not equal to itself is no number, and nothing else is. -/
theorem isUndefined_iff : Scalar.isUndefined x = true ↔ ofFloat x = .undefined := by
  show (!(x.toModel.unpack.compare x.toModel.unpack == some .eq)) = true ↔ _
  rw [undefined_iff]
  cases x.toModel.unpack with
  | notANumber => exact iff_of_true rfl rfl
  | infinity s => exact iff_of_false (by cases s <;> decide) nofun
  | zero s => exact iff_of_false (by cases s <;> decide) nofun
  | finite s m e hm => exact iff_of_false (by rw [compare_finite_self]; decide) nofun

/-- A sum is no number if its first part is none. -/
theorem undefined_add (h : ofFloat x = .undefined) : ofFloat (x + y) = .undefined := by
  show ofFloat (.ofModel (.pack (UnpackedFloat.add .binary64 x.toModel.unpack _))) = _
  rw [(undefined_iff x).1 h]
  exact ofFloat_ofModel .notANumber trivial

/-- A product is no number if its first factor is none. -/
theorem undefined_mul (h : ofFloat x = .undefined) : ofFloat (x * y) = .undefined := by
  show ofFloat (.ofModel (.pack (UnpackedFloat.mul .binary64 x.toModel.unpack _))) = _
  rw [(undefined_iff x).1 h]
  exact ofFloat_ofModel .notANumber trivial

/-- The remainder of what is no number is none. -/
theorem undefined_rem (h : ofFloat x = .undefined) : ofFloat (Scalar.rem x y) = .undefined := by
  show ofFloat (Double.rem x y) = _
  simp [Double.rem, h]

end

end SelfSimilar.Double
