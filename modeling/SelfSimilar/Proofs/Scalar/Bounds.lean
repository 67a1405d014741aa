import SelfSimilar.Proofs.Scalar.Magnitude

/-!
# Bounds on doubles

Powers of two bound the results of operations as they bound the exact results: up to `2 ^ 1023`, a
result is a number again, and from `2 ^ 1024` on it is infinite. From what is no finite number, no
operation leads back to one.

* `Double.IsRounded.stands_or_infinite`: what packing makes of a rounded number
* `Double.AtMost`, `Double.AtLeast`: bounds, and what they say of sums, products and quotients
* `Double.isFinite_mul_right` and what follows: results that are no finite numbers
* `Double.atMost_single`: rounding to single precision
-/

namespace SelfSimilar.Double

open Float.Model (UnpackedFloat)
open Float.Model.UnpackedFloat

/-! ## Packing -/

section

variable {u : UnpackedFloat} {q : ℚ}

/-- A number whose exponent is too large is packed as infinity. -/
theorem ofFloat_pack_of_large {s : Sign} {r : ℕ} {t : ℤ} {hr : 0 < r} (ht : 972 ≤ t) :
    ofFloat (.ofModel (.pack (.finite s r t hr))) = .infinite (isNegative s) := by
  have hpack : UnpackedFloat.pack .binary64 (.finite s r t hr) =
      UnpackedFloat.pack .binary64 (.infinity s) := by
    unfold UnpackedFloat.pack
    dsimp only
    refine if_pos ?_
    show 2 ^ 11 ≤ (t + 1023 + 52).toNat + 1
    omega
  show ofPattern (UnpackedFloat.pack .binary64 (.finite s r t hr)).toNat = _
  rw [hpack]
  exact ofFloat_ofModel (.infinity s) trivial

/-- What rounding leaves is stored, unless it is out of range and becomes infinite. -/
theorem IsRounded.stands_or_infinite (h : IsRounded u q) :
    Stands (.ofModel (.pack u)) q ∨
      2 ^ (1024 : ℤ) ≤ |q| ∧ ∃ negative, ofFloat (.ofModel (.pack u)) = .infinite negative := by
  obtain ⟨negative, r, t, hu, rfl, hlt, hmin, hfull⟩ := h
  rcases le_or_gt t 971 with hmax | hmax
  · have hstored : (ofUnpacked u).IsStored := by
      rw [hu]
      exact ⟨hlt, hmin, hmax, hfull⟩
    exact .inl (Holds.stands ⟨hstored, by rw [hu, value?]⟩)
  -- too large an exponent is not the least one, so the significand has 53 bits
  · have hfull := hfull.resolve_right (by omega)
    refine .inr ⟨?_, ?_⟩
    · rw [abs_signed_mul]
      calc (2 : ℚ) ^ (1024 : ℤ) ≤ 2 ^ ((52 : ℕ) + t) := zpow_le_zpow_right₀ one_le_two (by omega)
        _ = (2 ^ 52 : ℕ) * 2 ^ t := by
          rw [zpow_add₀ two_ne_zero, zpow_natCast, Nat.cast_pow, Nat.cast_ofNat]
        _ ≤ r * 2 ^ t := by gcongr
    · cases u with
      | notANumber => cases hu
      | infinity s => cases hu
      | zero s =>
        cases hu
        omega
      | finite s r t hr =>
        cases hu
        exact ⟨_, ofFloat_pack_of_large (by omega)⟩

end

/-! ## Bounds -/

/-- The double stands for a number of at most this magnitude. -/
def AtMost (x : Float) (n : ℤ) : Prop := ∃ q, Stands x q ∧ |q| ≤ 2 ^ n

/-- If the double stands for a number, then for one of at least this magnitude. -/
def AtLeast (x : Float) (n : ℤ) : Prop := ∀ q, Stands x q → 2 ^ n ≤ |q|

instance (x : Float) (q : ℚ) : Decidable (Stands x q) :=
  inferInstanceAs (Decidable ((ofFloat x).value? = some q))

instance (x : Float) (n : ℤ) : Decidable (AtMost x n) :=
  inferInstanceAs (Decidable (∃ q ∈ (ofFloat x).value?, |q| ≤ 2 ^ n))

section

variable {u : UnpackedFloat} {x y : Float} {a b : ℚ} {i j n k : ℤ}

theorem AtMost.mono (h : AtMost x n) (hn : n ≤ k) : AtMost x k := by
  obtain ⟨q, hx, hq⟩ := h
  exact ⟨q, hx, hq.trans (zpow_le_zpow_right₀ one_le_two hn)⟩

/-- A bound on the exact result bounds the double, as long as it is in range. -/
theorem Rounds.atMost (h : Rounds u a) (ha : |a| ≤ 2 ^ n) (hmin : -1074 ≤ n) (hmax : n ≤ 1023) :
    AtMost (.ofModel (.pack u)) n := by
  obtain ⟨q, hq, hbound⟩ := h
  have hle := (hbound n hmin).2 ha
  obtain hstands | ⟨hlarge, -⟩ := hq.stands_or_infinite
  · exact ⟨q, hstands, hle⟩
  -- it would be infinite only if it were as large as `2 ^ 1024`
  · have : 1024 ≤ n := (zpow_le_zpow_iff_right₀ one_lt_two).1 (hlarge.trans hle)
    omega

/-- A lower bound on the exact result bounds the double, unless that is infinite. -/
theorem Rounds.atLeast (h : Rounds u a) (ha : 2 ^ n ≤ |a|) (hmin : -1074 ≤ n) :
    AtLeast (.ofModel (.pack u)) n := by
  intro p hp
  obtain ⟨q, hq, hbound⟩ := h
  obtain hstands | ⟨-, negative, hinfinite⟩ := hq.stands_or_infinite
  · rw [Option.some.inj (hp.symm.trans hstands)]
    exact (hbound n hmin).1 ha
  · rw [Stands, hinfinite] at hp
    cases hp

/-- A bound on a product. -/
theorem atMost_mul (hx : AtMost x i) (hy : AtMost y j) (hmin : -1074 ≤ i + j)
    (hmax : i + j ≤ 1023) : AtMost (x * y) (i + j) := by
  obtain ⟨p, hp, hpi⟩ := hx
  obtain ⟨q, hq, hqj⟩ := hy
  refine (rounds_mul hp.holds hq.holds).atMost ?_ hmin hmax
  rw [abs_mul, zpow_add₀ two_ne_zero]
  gcongr

/-- Two numbers with the same bound add up to twice as much. -/
private theorem abs_add_le_two_zpow (ha : |a| ≤ 2 ^ n) (hb : |b| ≤ 2 ^ n) : |a + b| ≤ 2 ^ (n + 1) :=
  calc |a + b| ≤ |a| + |b| := abs_add_le a b
    _ ≤ 2 ^ n + 2 ^ n := add_le_add ha hb
    _ = 2 ^ (n + 1) := by
      rw [zpow_add₀ two_ne_zero, zpow_one]
      ring

/-- A bound on a sum. -/
theorem atMost_add (hx : AtMost x n) (hy : AtMost y n) (hmin : -1074 ≤ n + 1)
    (hmax : n + 1 ≤ 1023) : AtMost (x + y) (n + 1) := by
  obtain ⟨p, hp, hpn⟩ := hx
  obtain ⟨q, hq, hqn⟩ := hy
  exact (rounds_add hp.holds hq.holds).atMost (abs_add_le_two_zpow hpn hqn) hmin hmax

/-- A bound on a difference. -/
theorem atMost_sub (hx : AtMost x n) (hy : AtMost y n) (hmin : -1074 ≤ n + 1)
    (hmax : n + 1 ≤ 1023) : AtMost (x - y) (n + 1) := by
  obtain ⟨p, hp, hpn⟩ := hx
  obtain ⟨q, hq, hqn⟩ := hy
  refine (rounds_sub hp.holds hq.holds).atMost ?_ hmin hmax
  rw [sub_eq_add_neg]
  exact abs_add_le_two_zpow hpn ((abs_neg q).trans_le hqn)

/-- The opposite of a double is exact. -/
theorem stands_neg (hx : Stands x a) : Stands (-x) (-a) := hx.holds.neg.stands

theorem atMost_neg (hx : AtMost x n) : AtMost (-x) n := by
  obtain ⟨p, hp, hpn⟩ := hx
  exact ⟨-p, stands_neg hp, (abs_neg p).trans_le hpn⟩

/-- A bound on a quotient, by a lower bound on the divisor. -/
theorem atMost_div (hx : AtMost x i) (hy : Stands y b) (hb : 2 ^ j ≤ |b|) (hmin : -1074 ≤ i - j)
    (hmax : i - j ≤ 1023) : AtMost (x / y) (i - j) := by
  obtain ⟨p, hp, hpi⟩ := hx
  have hpos : 0 < |b| := lt_of_lt_of_le (by positivity) hb
  refine (rounds_div hp.holds hy.holds (abs_pos.1 hpos)).atMost ?_ hmin hmax
  rw [abs_div, zpow_sub₀ two_ne_zero]
  gcongr

/-- A lower bound on a quotient, by a bound on the divisor. -/
theorem atLeast_div (hx : Stands x a) (ha : 2 ^ i ≤ |a|) (hy : Stands y b) (hb0 : b ≠ 0)
    (hb : |b| ≤ 2 ^ j) (hmin : -1074 ≤ i - j) : AtLeast (x / y) (i - j) := by
  have hpos : 0 < |b| := abs_pos.2 hb0
  refine (rounds_div hx.holds hy.holds hb0).atLeast ?_ hmin
  rw [abs_div, zpow_sub₀ two_ne_zero]
  gcongr

end

/-! ## Finite numbers -/

section

variable {x y : Float} {a : ℚ} {i j n : ℤ}

/-- The finite doubles are those that stand for numbers. -/
theorem isFinite_eq (x : Float) : Scalar.isFinite x = (ofFloat x).value?.isSome := by
  show x.toModel.unpack.isFinite = _
  rw [ofFloat_eq]
  cases x.toModel.unpack <;> rfl

/-- What stands for a number is finite. -/
theorem Stands.isFinite (h : Stands x a) : Scalar.isFinite x = true := by
  rw [isFinite_eq, h]
  rfl

/-- What is bounded is finite. -/
theorem AtMost.isFinite (h : AtMost x n) : Scalar.isFinite x = true := by
  obtain ⟨q, hx, -⟩ := h
  exact hx.isFinite

/-- What is finite stands for a number. -/
theorem exists_stands (h : Scalar.isFinite x = true) : ∃ q, Stands x q := by
  rw [isFinite_eq] at h
  exact Option.isSome_iff_exists.1 h

/-- Doubles stand for numbers below `2 ^ 1024`. -/
theorem Stands.abs_lt (h : Stands x a) : |a| < 2 ^ (1024 : ℤ) := by
  obtain ⟨negative, m, e, hx, rfl⟩ := h.exists_finite
  have hstored : (Double.finite negative m e).IsStored := hx ▸ isStored_ofFloat x
  obtain ⟨hlt, -, hmax, -⟩ := hstored
  rw [abs_signed_mul]
  -- 53 bits, with the largest exponent that is stored
  calc (m : ℚ) * 2 ^ e < 2 ^ (53 : ℤ) * 2 ^ e := by
        gcongr
        exact_mod_cast hlt
    _ ≤ 2 ^ (53 : ℤ) * 2 ^ (971 : ℤ) := by
        gcongr
        exact one_le_two
    _ = 2 ^ (1024 : ℤ) := by rw [← zpow_add₀ two_ne_zero]; rfl

/-- What is out of range is no finite number. -/
theorem AtLeast.isFinite (h : AtLeast x n) (hn : 1024 ≤ n) : Scalar.isFinite x = false := by
  rw [← Bool.not_eq_true]
  intro hx
  obtain ⟨q, hq⟩ := exists_stands hx
  have hle : (2 : ℚ) ^ (1024 : ℤ) ≤ 2 ^ n := zpow_le_zpow_right₀ one_le_two hn
  exact (hle.trans (h q hq)).not_gt hq.abs_lt

/-- What stands for no number is bounded below by anything. -/
theorem atLeast_of_isFinite (h : Scalar.isFinite x = false) : AtLeast x n := by
  intro q hq
  rw [hq.isFinite] at h
  cases h

end

/-! ## Results that are no finite numbers -/

section

variable {x y : Float} {i j n : ℤ}

/-- What is infinite or no number is so after packing. -/
private theorem isFinite_pack {u : UnpackedFloat} (h : u.isFinite = false) :
    Scalar.isFinite (Float.ofModel (.pack u)) = false := by
  cases u with
  | notANumber =>
    rw [isFinite_eq, ofFloat_ofModel .notANumber trivial]
    rfl
  | infinity s =>
    rw [isFinite_eq, ofFloat_ofModel (.infinity s) trivial]
    rfl
  | zero s => cases h
  | finite s m e hm => cases h

/-- What is no finite number is unpacked to infinity or to no number. -/
private theorem unpack_of_isFinite (h : Scalar.isFinite x = false) :
    x.toModel.unpack = .notANumber ∨ ∃ s, x.toModel.unpack = .infinity s := by
  have hu : x.toModel.unpack.isFinite = false := h
  generalize x.toModel.unpack = u at hu ⊢
  cases u with
  | notANumber => exact .inl rfl
  | infinity s => exact .inr ⟨s, rfl⟩
  | zero s => cases hu
  | finite s m e hm => cases hu

/-- A product is no finite number if its first factor is none. -/
theorem isFinite_mul_left (hx : Scalar.isFinite x = false) : Scalar.isFinite (x * y) = false := by
  refine isFinite_pack ?_
  obtain hu | ⟨s, hu⟩ := unpack_of_isFinite hx
  · rw [hu]
    rfl
  · rw [hu]
    cases y.toModel.unpack <;> rfl

/-- A product is no finite number if its second factor is none. -/
theorem isFinite_mul_right (hy : Scalar.isFinite y = false) : Scalar.isFinite (x * y) = false := by
  refine isFinite_pack ?_
  obtain hv | ⟨t, hv⟩ := unpack_of_isFinite hy
  · rw [hv]
    cases x.toModel.unpack <;> rfl
  · rw [hv]
    cases x.toModel.unpack <;> rfl

/-- A sum is no finite number if its second part is none. -/
theorem isFinite_add_right (hy : Scalar.isFinite y = false) : Scalar.isFinite (x + y) = false := by
  refine isFinite_pack ?_
  obtain hv | ⟨t, hv⟩ := unpack_of_isFinite hy
  · rw [hv]
    cases x.toModel.unpack <;> rfl
  · rw [hv]
    cases x.toModel.unpack with
    -- two infinities cancel to no number, or they add up to one of them
    | infinity s => cases s <;> cases t <;> rfl
    | _ => rfl

/-- The opposite of what is no finite number is none. -/
theorem isFinite_neg (hx : Scalar.isFinite x = false) : Scalar.isFinite (-x) = false := by
  refine isFinite_pack ?_
  obtain hu | ⟨s, hu⟩ := unpack_of_isFinite hx
  · rw [hu]
    rfl
  · rw [hu]
    rfl

/-- A lower bound on a product. -/
theorem atLeast_mul (hx : AtLeast x i) (hy : AtLeast y j) (hmin : -1074 ≤ i + j) :
    AtLeast (x * y) (i + j) := by
  -- a factor that is no finite number makes a product that is none, and then there is nothing to
  -- show
  cases hfx : Scalar.isFinite x with
  | false => exact atLeast_of_isFinite (isFinite_mul_left hfx)
  | true =>
    cases hfy : Scalar.isFinite y with
    | false => exact atLeast_of_isFinite (isFinite_mul_right hfy)
    | true =>
      obtain ⟨p, hp⟩ := exists_stands hfx
      obtain ⟨q, hq⟩ := exists_stands hfy
      refine (rounds_mul hp.holds hq.holds).atLeast ?_ hmin
      rw [abs_mul, zpow_add₀ two_ne_zero]
      exact mul_le_mul (hx p hp) (hy q hq) (by positivity) (abs_nonneg p)

/-- A lower bound on the opposite. -/
theorem atLeast_neg (hx : AtLeast x n) : AtLeast (-x) n := by
  cases hfx : Scalar.isFinite x with
  | false => exact atLeast_of_isFinite (isFinite_neg hfx)
  | true =>
    obtain ⟨p, hp⟩ := exists_stands hfx
    intro q hq
    rw [← Option.some.inj ((stands_neg hp).symm.trans hq), abs_neg]
    exact hx p hp

end

/-! ## Zero, one and reciprocals -/

section

variable {x : Float} {q : ℚ}

theorem stands_zero : Stands Zero.zero 0 := by
  have hzero : ofFloat Zero.zero = .finite false 0 (-1074) := by decide +kernel
  rw [Stands, hzero]
  simp [value?]

theorem stands_one : Stands One.one 1 := by
  have hone : ofFloat One.one = .finite false (2 ^ 52) (-52) := by decide +kernel
  rw [Stands, hone]
  norm_num [value?]

/-- What is equal to zero stands for zero, whatever its sign. -/
theorem beq_zero_iff : (x == Zero.zero) = true ↔ Stands x 0 := by
  refine ⟨fun h => ?_, fun h => beq_of_stands h stands_zero⟩
  have hzero : (Zero.zero : Float).toModel.unpack = .zero .positive := rfl
  have hbeq : x.toModel.unpack.beq (Zero.zero : Float).toModel.unpack = true := h
  rw [Stands, ofFloat_eq]
  rw [hzero] at hbeq
  -- only zeros compare as equal to zero
  generalize x.toModel.unpack = u at hbeq ⊢
  cases u with
  | zero s => exact (holds_zero s).value_eq
  | notANumber => cases hbeq
  | infinity s => cases s <;> cases hbeq
  | finite s m e hm => cases s <;> cases hbeq

/-- A bound on the reciprocal of what is not too small. -/
theorem atMost_reciprocal {d : ℕ} (hx : Stands x q) (hq : 2 ^ (-d : ℤ) ≤ |q|) (hd : d ≤ 1023) :
    AtMost (One.one / x) d := by
  have hone : AtMost One.one 0 := ⟨1, stands_one, by simp⟩
  have hdiv := atMost_div hone hx hq (by omega) (by omega)
  rwa [zero_sub, neg_neg] at hdiv

/-- A lower bound on the reciprocal of what is small. -/
theorem atLeast_reciprocal {d : ℤ} (hx : Stands x q) (hq0 : q ≠ 0) (hq : |q| ≤ 2 ^ (-d))
    (hd : -1074 ≤ d) : AtLeast (One.one / x) d := by
  have hdiv := atLeast_div (i := 0) stands_one (by simp) hx hq0 hq (by omega)
  rwa [zero_sub, neg_neg] at hdiv

end

/-! ## Single precision -/

section

variable {x : Float} {m k b : ℕ} {e n : ℤ}

/-- Rounding a quotient by a power of two passes no integer above it. -/
theorem roundShift_le (h : m ≤ b * 2 ^ k) : Dyadic.roundShift m k ≤ b := by
  have hpow : Dyadic.pow2 k = 2 ^ k := Nat.one_shiftLeft k
  have hpos : 0 < 2 ^ k := by positivity
  have hle : m / 2 ^ k ≤ b := Nat.div_le_of_le_mul (by rwa [mul_comm])
  -- to round up, there has to be something left
  have hlt : 0 < m % 2 ^ k → m / 2 ^ k < b := fun hrest => by
    refine (Nat.div_lt_iff_lt_mul hpos).2 (lt_of_le_of_ne h ?_)
    rintro rfl
    rw [Nat.mul_mod_left] at hrest
    exact hrest.ne rfl
  rw [Dyadic.roundShift, hpow, Nat.shiftRight_eq_div_pow]
  split_ifs <;> omega

/-- Rounding to the grid of a format passes none of its numbers. -/
theorem round_fst_le {g : Format} (h : (m : ℚ) * 2 ^ e ≤ b * 2 ^ Dyadic.lastExponent g m e) :
    (Dyadic.round g m e).1 ≤ b := by
  rw [Dyadic.round]
  -- shifted up a number is exact, and shifted down it is rounded
  generalize Dyadic.lastExponent g m e = t at h ⊢
  split
  next hle =>
    rw [← shiftLeft_mul_zpow m hle, mul_le_mul_iff_left₀ (by positivity)] at h
    exact_mod_cast h
  next hlt =>
    refine roundShift_le ?_
    rw [two_zpow_eq (not_le.1 hlt).le, ← mul_assoc, mul_le_mul_iff_left₀ (by positivity)] at h
    exact_mod_cast h

/-- A number is rounded at its last bit. -/
theorem round_snd (g : Format) (m : ℕ) (e : ℤ) :
    (Dyadic.round g m e).2 = Dyadic.lastExponent g m e := by
  rw [Dyadic.round]
  split <;> rfl

/-- A number that single precision has room for is rounded past no power of two. -/
theorem atMost_single (hx : AtMost x n) (hmin : -149 ≤ n) (hmax : n ≤ 127) :
    AtMost (Scalar.single x) n := by
  obtain ⟨_, hq, hqn⟩ := hx
  obtain ⟨negative, m, e, hx, rfl⟩ := hq.exists_finite
  rw [abs_signed_mul] at hqn
  -- the last bit is 23 places after the leading one, but not below the least exponent of the format
  have hlast : Dyadic.lastExponent .binary32 m e = max (m.log2 + e - 23) (-149) := rfl
  have hle : Dyadic.lastExponent .binary32 m e ≤ n := by
    rcases eq_or_ne m 0 with rfl | hm
    · have hstored : (Double.finite negative 0 e).IsStored := hx ▸ isStored_ofFloat x
      obtain ⟨-, -, -, hfull⟩ := hstored
      rw [Nat.log2_zero] at hlast
      omega
    · have hlog := log2_add_le hm hqn
      omega
  have hbits : (Dyadic.round .binary32 m e).1 ≤ 2 ^ 24 := by
    refine round_fst_le (lt_two_zpow.le.trans ?_)
    rw [Nat.cast_pow, Nat.cast_ofNat, ← zpow_natCast, ← zpow_add₀ two_ne_zero]
    exact zpow_le_zpow_right₀ one_le_two (by omega)
  have hbound :
      ((Dyadic.round .binary32 m e).1 : ℚ) * 2 ^ (Dyadic.round .binary32 m e).2 ≤ 2 ^ n := by
    rw [round_snd, le_two_zpow_iff hle]
    exact round_fst_le (hqn.trans_eq (two_zpow_eq hle))
  -- the number is in range, so it is the double nearest to what it is rounded to
  have hsingle : Scalar.single x =
      nearest negative (Dyadic.round .binary32 m e).1 (Dyadic.round .binary32 m e).2 := by
    show Double.single x = _
    rw [Double.single, hx]
    refine if_neg ?_
    rintro ⟨hne, hover⟩
    have hlog : ((Dyadic.round .binary32 m e).1.log2 : ℤ) + (Dyadic.round .binary32 m e).2 ≤ n :=
      log2_add_le hne hbound
    have hover : (128 : ℤ) ≤ (Dyadic.round .binary32 m e).1.log2 + (Dyadic.round .binary32 m e).2 :=
      hover
    omega
  rw [hsingle]
  -- 24 bits at an exponent of single precision fit into a double
  refine ⟨_, stands_nearest negative ⟨_, _, by rw [Int.cast_natCast], ?_, ?_, ?_⟩, ?_⟩
  · rw [Nat.abs_cast]
    exact_mod_cast hbits.trans_lt (by norm_num)
  · rw [round_snd]
    omega
  · rw [round_snd]
    omega
  · rwa [abs_signed_mul]

/-- What is no finite number is left as it is. -/
theorem isFinite_single (hx : Scalar.isFinite x = false) :
    Scalar.isFinite (Scalar.single x) = false := by
  have hsame : Scalar.single x = x := by
    rw [isFinite_eq] at hx
    show Double.single x = x
    rw [Double.single]
    cases hd : ofFloat x with
    | undefined => rfl
    | infinite negative => rfl
    | finite negative m e =>
      rw [hd] at hx
      cases hx
  rwa [hsame]

end

end SelfSimilar.Double
