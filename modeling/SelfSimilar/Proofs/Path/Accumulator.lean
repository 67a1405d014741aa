import SelfSimilar.Proofs.Path.Extension
import SelfSimilar.Proofs.Path.Replay
import SelfSimilar.Proofs.Scalar.Operations

/-!
# The accumulators of a hash

A hash over doubles keeps two accumulators, reduced by a prime after every segment. Whatever the
coordinates are, an accumulator is no number or below the prime (`PathHash.IsReduced`), and once it
is no number it stays so. The value of the hash has the whole parts of both as its digits, in the
base of the prime. Digits may be negative, so one more of the first digit can be made up for by the
second one.

* `PathHash.isReduced_ofStrokes`: what every segment keeps
* `PathHash.IsReduced.toInt_value`: the value is computed without overflow
* `PathHash.IsReduced.value_eq_iff`: which hashes have the same value
* `hash_values_never_wrap`: all of it
-/

namespace SelfSimilar

namespace PathHash

/-- An accumulator is no number, or its magnitude is below the prime. -/
def IsBelow (x : Float) : Prop :=
  Scalar.isUndefined x = true ∨ ∃ q : ℚ, Double.Stands x q ∧ |q| < modulus

/-- Both accumulators are reduced. -/
structure IsReduced (h : PathHash Float) : Prop where
  /-- The first one. -/
  x : IsBelow h.x
  /-- The second one. -/
  y : IsBelow h.y

/-- The whole part of an accumulator. -/
def digit (x : Float) : ℤ := (Scalar.floor x).toInt

/-- The prime as an integer, for `omega`. -/
theorem modulus_eq : (modulus : ℤ) = 1000000007 := rfl

/-- The prime is small enough for a double to stand for it exactly. -/
theorem stands_modulus : Double.Stands (Scalar.ofInt modulus) modulus :=
  Double.stands_ofInt (by decide)

/-! ## Folding segments in -/

/-- A number is reduced when a digit is appended, whatever both are. -/
theorem isBelow_append (number digit : Float) : IsBelow (append number digit) := by
  have hmodulus : ((modulus : ℤ) : ℚ) ≠ 0 := by decide
  -- the remainder is taken last, so it does not matter what came before
  rcases Double.undefined_or_abs_rem_lt (number * Scalar.ofInt 10 + digit) stands_modulus hmodulus
    with h | ⟨r, hr, hlt⟩
  · exact .inl (Double.isUndefined_iff.2 h)
  · exact .inr ⟨r, hr, hlt⟩

/-- An accumulator that is no number is none after another segment. -/
theorem isUndefined_append {number : Float} (h : Scalar.isUndefined number = true) (digit : Float) :
    Scalar.isUndefined (append number digit) = true := by
  rw [Double.isUndefined_iff] at h ⊢
  -- no step of the computation gets back to a number: product, sum and remainder
  exact Double.undefined_rem (Double.undefined_add (Double.undefined_mul h))

/-- Both accumulators start at zero. -/
theorem stands_fresh : Double.Stands (fresh : PathHash Float).x 0 ∧
    Double.Stands (fresh : PathHash Float).y 0 := by
  have hzero : Double.Stands (Float.ofBits 0) 0 := by
    -- the pattern without any bits is the zero with the least exponent
    have hparts : Double.ofFloat (Float.ofBits 0) = .finite false 0 (-1074) :=
      Double.ofFloat_ofBits 0
    simp [Double.Stands, hparts, Double.value?]
  exact ⟨hzero, hzero⟩

/-- The hash of no segments is reduced. -/
theorem isReduced_fresh : fresh.IsReduced where
  x := .inr ⟨0, stands_fresh.1, by decide⟩
  y := .inr ⟨0, stands_fresh.2, by decide⟩

/-- One more segment leaves a reduced hash, whatever the hash was before. -/
theorem isReduced_add (h : PathHash Float) (start stop : Position Float) :
    (h.add start stop).IsReduced :=
  ⟨isBelow_append _ _, isBelow_append _ _⟩

/-- The hash of any segments is reduced. -/
theorem isReduced_ofStrokes (strokes : Array (Stroke Float)) : (ofStrokes strokes).IsReduced := by
  -- the hypothesis of the induction is not needed, only that there is a last segment or none
  refine Array.foldl_induction (fun _ (h : PathHash Float) => h.IsReduced) isReduced_fresh ?_
  intro i h _
  exact isReduced_add h _ _

/-! ## The value -/

/-- An integer that fits into a word. -/
def IsWord (n : ℤ) : Prop := -2 ^ 63 ≤ n ∧ n < 2 ^ 63

/-- The digit of no number is zero. -/
theorem digit_of_isUndefined {x : Float} (h : Scalar.isUndefined x = true) : digit x = 0 := by
  rw [digit, Double.floor_of_undefined (Double.isUndefined_iff.1 h)]
  rfl

/-- Rounding down does not pass minus the prime, which is an integer. -/
private theorem floor_bounds {q : ℚ} (h : |q| < modulus) :
    -(modulus : ℤ) ≤ ⌊q⌋ ∧ ⌊q⌋ < modulus := by
  rw [abs_lt] at h
  exact ⟨Int.le_floor.2 (by push_cast; exact h.1.le), Int.floor_lt.2 (by exact_mod_cast h.2)⟩

/-- The digit of a number below the prime is its whole part, since that fits into a word. -/
theorem digit_eq_floor {x : Float} {q : ℚ} (hq : Double.Stands x q) (hlt : |q| < modulus) :
    digit x = ⌊q⌋ := by
  have hbounds := floor_bounds hlt
  rw [modulus_eq] at hbounds
  exact Double.toInt_floor hq (by omega) (by omega)

/-- A digit is between minus the prime and the prime. -/
theorem IsBelow.digit_bounds {x : Float} (h : IsBelow x) :
    -(modulus : ℤ) ≤ digit x ∧ digit x < modulus := by
  -- no number has the digit zero, and a number has its whole part
  rcases h with h | ⟨q, hq, hlt⟩
  · rw [digit_of_isUndefined h]
    decide
  · rw [digit_eq_floor hq hlt]
    exact floor_bounds hlt

variable {h h' : PathHash Float}

/-- Neither step of computing the value leaves the range of a word. -/
theorem IsReduced.isWord (hr : h.IsReduced) :
    IsWord (digit h.x * modulus) ∧ IsWord (digit h.x * modulus + digit h.y) := by
  have hx := hr.x.digit_bounds
  have hy := hr.y.digit_bounds
  -- the square of the prime is about `10 ^ 18`, and a word holds nine times as much
  rw [modulus_eq] at hx hy ⊢
  exact ⟨⟨by omega, by omega⟩, ⟨by omega, by omega⟩⟩

/-- The value is the number with the two digits. -/
theorem IsReduced.toInt_value (hr : h.IsReduced) :
    h.value.toInt = digit h.x * modulus + digit h.y := by
  obtain ⟨hproduct, hsum⟩ := hr.isWord
  -- words are wrapped after each step, which changes nothing in range
  have hbmod {n : ℤ} (hn : IsWord n) : n.bmod (2 ^ 64) = n := Int.bmod_eq_of_le hn.1 hn.2
  have hword : (Int64.ofNat modulus).toInt = modulus := by decide
  calc h.value.toInt
      = ((digit h.x * modulus).bmod (2 ^ 64) + digit h.y).bmod (2 ^ 64) := by
        rw [value, Int64.toInt_add, Int64.toInt_mul, hword, digit, digit]
    _ = digit h.x * modulus + digit h.y := by rw [hbmod hproduct, hbmod hsum]

/-- Reduced hashes have the same value when their digits agree, or when the second digits make up
for a difference of one between the first ones. -/
theorem IsReduced.value_eq_iff (hr : h.IsReduced) (hr' : h'.IsReduced) :
    h.value = h'.value ↔
      digit h.x = digit h'.x ∧ digit h.y = digit h'.y ∨
        digit h'.x - digit h.x = 1 ∧ digit h'.y - digit h.y = -modulus ∨
        digit h'.x - digit h.x = -1 ∧ digit h'.y - digit h.y = modulus := by
  have hy := hr.y.digit_bounds
  have hy' := hr'.y.digit_bounds
  -- the second digits differ by less than two primes, so the first ones by at most one
  rw [← Int64.toInt_inj, hr.toInt_value, hr'.toInt_value]
  rw [modulus_eq] at hy hy' ⊢
  omega

end PathHash

/-! ## Paths -/

/-- What is no number stays no number, whatever the pen is told. -/
theorem Path.isUndefined_extend (p : Path Float) (commands : List (Command Float)) :
    (Scalar.isUndefined p.hash.x = true → Scalar.isUndefined (p.extend commands).hash.x = true) ∧
      (Scalar.isUndefined p.hash.y = true →
        Scalar.isUndefined (p.extend commands).hash.y = true) := by
  induction commands generalizing p with
  | nil => exact ⟨id, id⟩
  | cons command rest ih =>
    -- a move leaves the hash as it is, a line appends a digit to both accumulators
    have hgive : (Scalar.isUndefined p.hash.x = true →
          Scalar.isUndefined (p.give command).hash.x = true) ∧
        (Scalar.isUndefined p.hash.y = true →
          Scalar.isUndefined (p.give command).hash.y = true) := by
      cases command with
      | moveTo place => exact ⟨id, id⟩
      | lineTo place =>
        exact ⟨fun hx => PathHash.isUndefined_append hx _,
          fun hy => PathHash.isUndefined_append hy _⟩
    exact ⟨(ih _).1 ∘ hgive.1, (ih _).2 ∘ hgive.2⟩

open PathHash in
/-- **The value of a hash never wraps, and its collisions are known.** Whatever doubles the
coordinates of segments are, both accumulators of their hash are no number or below the prime, and
an accumulator that is no number stays so until the path is started again, from zero. The digits
are the whole parts of the accumulators, and zero for no number. Neither step of computing the value
from them overflows. Two hashes have the same value exactly when their digits agree, or when the
first ones differ by one and the second ones by the prime, in opposite directions. -/
theorem hash_values_never_wrap (strokes others : Array (Stroke Float)) (p : Path Float)
    (commands : List (Command Float)) (place : Position Float) :
    let h := ofStrokes strokes
    let h' := ofStrokes others
    h.IsReduced ∧
    (Scalar.isUndefined p.hash.x = true → Scalar.isUndefined (p.extend commands).hash.x = true) ∧
    (Scalar.isUndefined p.hash.y = true → Scalar.isUndefined (p.extend commands).hash.y = true) ∧
    Double.Stands (Path.startingAt place).hash.x 0 ∧
    Double.Stands (Path.startingAt place).hash.y 0 ∧
    (∀ x, Scalar.isUndefined x = true → digit x = 0) ∧
    (∀ x q, Double.Stands x q → |q| < modulus → digit x = ⌊q⌋) ∧
    IsWord (digit h.x * modulus) ∧ IsWord (digit h.x * modulus + digit h.y) ∧
    h.value.toInt = digit h.x * modulus + digit h.y ∧
    (h.value = h'.value ↔
      digit h.x = digit h'.x ∧ digit h.y = digit h'.y ∨
        digit h'.x - digit h.x = 1 ∧ digit h'.y - digit h.y = -modulus ∨
        digit h'.x - digit h.x = -1 ∧ digit h'.y - digit h.y = modulus) := by
  have hr := isReduced_ofStrokes strokes
  have hr' := isReduced_ofStrokes others
  obtain ⟨hx, hy⟩ := p.isUndefined_extend commands
  exact ⟨hr, hx, hy, stands_fresh.1, stands_fresh.2, fun _ => digit_of_isUndefined,
    fun _ _ => digit_eq_floor, hr.isWord.1, hr.isWord.2, hr.toInt_value, hr.value_eq_iff hr'⟩

/-- A step of five upwards has the value of a step of one to the right and of 1000000002 downwards.
A line to no place leaves a mark that later lines do not remove. -/
theorem hash_values_never_wrap_collision :
    let place (x y : ℤ) : Position Float := ⟨Scalar.ofInt x, Scalar.ofInt y⟩
    let lost : Path Float := (Path.startingAt (place 0 0)).lineTo ⟨Double.notANumber, 0⟩
    Scalar.isUndefined lost.hash.x = true ∧
      Scalar.isUndefined (lost.extend [.moveTo (place 0 0), .lineTo (place 3 4)]).hash.x = true ∧
      (PathHash.ofStrokes #[⟨place 0 0, place 0 5⟩]).value =
        (PathHash.ofStrokes #[⟨place 0 0, place 1 (-1000000002)⟩]).value := by
  intro place lost
  have hlost : Scalar.isUndefined lost.hash.x = true := by decide +kernel
  -- the digits of the two strokes are 0 and 5, and 1 and 5 less the prime
  obtain ⟨-, hx, -, -, -, -, -, -, -, -, hvalue⟩ := hash_values_never_wrap
    #[⟨place 0 0, place 0 5⟩] #[⟨place 0 0, place 1 (-1000000002)⟩] lost
    [.moveTo (place 0 0), .lineTo (place 3 4)] (place 0 0)
  exact ⟨hlost, hx hlost, hvalue.2 (.inr (.inl (by decide +kernel)))⟩

end SelfSimilar
