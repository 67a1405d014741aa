import Mathlib.Algebra.Order.Ring.Star
import Mathlib.Data.Int.ConditionallyCompleteOrder
import Mathlib.Data.Int.ModEq
import Mathlib.Data.Int.Star
import Mathlib.RingTheory.Coprime.Lemmas
import SelfSimilar.Proofs.Path.Accumulator

/-!
# Hashes as numbers in base ten

Between grid points a hash computes with integers only. Its accumulators are the numbers whose
digits in base ten are the displacements, up to multiples of the prime. The prime has no divisor in
common with nine or ten, so swapping two neighbouring digits that differ, and by less than the
prime, changes what is left of the number.

* `GridStroke.stands_hashOf`: the accumulators as integers
* `PathHash.residue_modEq`: they are the numbers in base ten, up to the prime
* `hash_tells_neighbours_apart`: a swap changes the value, and only displacements count
-/

namespace SelfSimilar

/-! ## Numbers -/

namespace PathHash

/-- The number in base ten with the given digits. The first one counts most, and a digit may be any
integer. -/
def number : List ℤ → ℤ
  | [] => 0
  | d :: rest => d * 10 ^ rest.length + number rest

/-- What is left of a number when another digit is appended. -/
def step (n d : ℤ) : ℤ := (n * 10 + d).tmod modulus

/-- What an accumulator makes of digits. -/
def residue (digits : List ℤ) : ℤ := digits.foldl step 0

/-- The digits of the first list count more, by one place for each digit of the second. -/
theorem number_append (l m : List ℤ) : number (l ++ m) = number l * 10 ^ m.length + number m := by
  induction l with
  | nil => simp [number]
  | cons d rest ih =>
    rw [List.cons_append, number, number, ih, List.length_append, pow_add]
    ring

/-- Two digits of a number are swapped. -/
theorem number_swap (before : List ℤ) (d e : ℤ) (after : List ℤ) :
    number (before ++ d :: e :: after) - number (before ++ e :: d :: after) =
      9 * 10 ^ after.length * (d - e) := by
  -- what stands before and after the two digits is the same in both numbers
  simp only [number_append, number, List.length_cons, pow_succ]
  ring

/-- A remainder is congruent to what it is the remainder of, rounded towards zero or not. -/
theorem step_modEq (n d : ℤ) : step n d ≡ n * 10 + d [ZMOD modulus] := by
  rw [Int.modEq_iff_dvd, step]
  exact ⟨(n * 10 + d).tdiv modulus, by rw [Int.tmod_def]; ring⟩

/-- A remainder is below the prime. -/
theorem abs_step_lt (n d : ℤ) : |step n d| < modulus :=
  abs_lt.2 ⟨Int.lt_tmod_of_pos _ (by decide), Int.tmod_lt_of_pos _ (by decide)⟩

/-- An accumulator is the number in base ten, up to the prime. -/
theorem residue_modEq (digits : List ℤ) : residue digits ≡ number digits [ZMOD modulus] := by
  -- digits are appended at the end, so the induction takes the last one off
  induction digits using List.reverseRecOn with
  | nil => rfl
  | append_singleton digits d ih =>
    calc residue (digits ++ [d])
        = step (residue digits) d := by rw [residue, List.foldl_append]; rfl
      _ ≡ residue digits * 10 + d [ZMOD modulus] := step_modEq _ d
      _ ≡ number digits * 10 + d [ZMOD modulus] := (ih.mul_right 10).add_right d
      _ = number (digits ++ [d]) := by simp [number_append, number]

/-- An accumulator is below the prime. -/
theorem abs_residue_lt (digits : List ℤ) : |residue digits| < modulus := by
  induction digits using List.reverseRecOn with
  | nil => decide
  | append_singleton digits d _ =>
    rw [residue, List.foldl_append]
    exact abs_step_lt _ d

/-- Swapping neighbouring digits that are near each other changes the residue by no multiple of
the prime. -/
theorem eq_of_residue_modEq {before after : List ℤ} {d e : ℤ} (hd : |d| ≤ 500000003)
    (he : |e| ≤ 500000003)
    (h : residue (before ++ d :: e :: after) ≡ residue (before ++ e :: d :: after) [ZMOD modulus]) :
    d = e := by
  -- the difference of the numbers is `9 · 10 ^ k · (d - e)`, by `number_swap`
  have hnumber : (modulus : ℤ) ∣ 9 * 10 ^ after.length * (d - e) := by
    rw [← number_swap before]
    exact (((residue_modEq _).symm.trans h).trans (residue_modEq _)).symm.dvd
  -- so the prime divides `d - e`, which is too small for that unless it is zero
  have hcoprime : IsCoprime (modulus : ℤ) (9 * 10 ^ after.length) := by
    have hnine : IsCoprime (modulus : ℤ) 9 := by
      rw [Int.isCoprime_iff_gcd_eq_one]
      decide
    have hten : IsCoprime (modulus : ℤ) 10 := by
      rw [Int.isCoprime_iff_gcd_eq_one]
      decide
    exact hnine.mul_right hten.pow_right
  have hdiff : |d - e| < (modulus : ℤ) := by
    rw [modulus_eq]
    linarith [abs_sub d e]
  exact sub_eq_zero.1 (Int.eq_zero_of_abs_lt_dvd (hcoprime.dvd_of_dvd_mul_left hnumber) hdiff)

end PathHash

/-! ## Segments between grid points -/

/-- A position whose coordinates are integers, of magnitude at most `2 ^ 50`. -/
structure GridPoint where
  /-- The position. -/
  position : Position Float
  /-- The first coordinate. -/
  x : ℤ
  /-- The second coordinate. -/
  y : ℤ
  stands_x : Double.Stands position.x x
  stands_y : Double.Stands position.y y
  abs_x_le : |x| ≤ 2 ^ 50
  abs_y_le : |y| ≤ 2 ^ 50

/-- A segment between grid points that are not too far apart. -/
structure GridStroke where
  /-- Where the segment starts. -/
  start : GridPoint
  /-- Where the segment stops. -/
  stop : GridPoint
  abs_x_le : |stop.x - start.x| ≤ 500000003
  abs_y_le : |stop.y - start.y| ≤ 500000003

namespace GridStroke

/-- The segment as it is drawn. -/
def stroke (s : GridStroke) : Stroke Float := ⟨s.start.position, s.stop.position⟩

/-- The displacement along the first axis. -/
def dx (s : GridStroke) : ℤ := s.stop.x - s.start.x

/-- The displacement along the second axis. -/
def dy (s : GridStroke) : ℤ := s.stop.y - s.start.y

/-- The displacements along both axes. -/
def displacement (s : GridStroke) : ℤ × ℤ := (s.dx, s.dy)

/-- The hash of segments, folded in one after another. -/
def hashOf (segments : List GridStroke) : PathHash Float :=
  .ofStrokes (segments.map stroke).toArray

/-- The hash of segments between grid points is reduced, as every hash is. -/
theorem isReduced_hashOf (segments : List GridStroke) : (hashOf segments).IsReduced :=
  PathHash.isReduced_ofStrokes _

/-- The difference of coordinates of grid points. -/
private theorem stands_displacement {start stop : Float} {a b : ℤ} (hstart : Double.Stands start a)
    (hstop : Double.Stands stop b) (ha : |a| ≤ 2 ^ 50) (hb : |b| ≤ 2 ^ 50) :
    Double.Stands (stop - start) (b - a : ℤ) :=
  Double.stands_sub_int hstop hstart (by linarith [abs_sub b a])

/-- A digit is appended to an integer that is below the prime. -/
private theorem stands_append {number digit : Float} {n d : ℤ} (hnumber : Double.Stands number n)
    (hdigit : Double.Stands digit d) (hn : |n| < PathHash.modulus) (hd : |d| ≤ 500000003) :
    Double.Stands (PathHash.append number digit) (PathHash.step n d) := by
  rw [PathHash.modulus_eq] at hn
  have hten : Double.Stands (Scalar.ofInt 10) (10 : ℤ) := Double.stands_ofInt (by decide)
  -- before the remainder is taken, all numbers are below `2 ^ 53` and so computed exactly
  have hmul : |n * 10| ≤ 10000000070 := by
    rw [abs_mul]
    norm_num
    linarith
  have hproduct := Double.stands_mul_int hnumber hten (by linarith)
  have hsum := Double.stands_add_int hproduct hdigit (by linarith [abs_add_le (n * 10) d])
  exact Double.stands_rem hsum PathHash.stands_modulus (by decide)

/-- The last segment is folded in last. -/
theorem hashOf_append_singleton (segments : List GridStroke) (s : GridStroke) :
    hashOf (segments ++ [s]) = (hashOf segments).add s.start.position s.stop.position := by
  rw [hashOf, List.map_append, ← List.append_toArray, List.map_singleton, ← Array.push_eq_append,
    PathHash.ofStrokes_push]
  rfl

/-- The accumulators are integers: what the displacements leave. -/
theorem stands_hashOf (segments : List GridStroke) :
    Double.Stands (hashOf segments).x (PathHash.residue (segments.map dx)) ∧
      Double.Stands (hashOf segments).y (PathHash.residue (segments.map dy)) := by
  induction segments using List.reverseRecOn with
  | nil => exact_mod_cast PathHash.stands_fresh
  | append_singleton segments s ih =>
    have hx := stands_displacement s.start.stands_x s.stop.stands_x s.start.abs_x_le s.stop.abs_x_le
    have hy := stands_displacement s.start.stands_y s.stop.stands_y s.start.abs_y_le s.stop.abs_y_le
    -- the accumulators before the last segment are integers, by the induction
    rw [hashOf_append_singleton, List.map_append, List.map_append, PathHash.residue,
      PathHash.residue, List.foldl_append, List.foldl_append]
    exact ⟨stands_append ih.1 hx (PathHash.abs_residue_lt _) s.abs_x_le,
      stands_append ih.2 hy (PathHash.abs_residue_lt _) s.abs_y_le⟩

/-- The digits of the value are what the displacements leave. -/
theorem digit_hashOf (segments : List GridStroke) :
    PathHash.digit (hashOf segments).x = PathHash.residue (segments.map dx) ∧
      PathHash.digit (hashOf segments).y = PathHash.residue (segments.map dy) := by
  have hlt (digits : List ℤ) : |(PathHash.residue digits : ℚ)| < PathHash.modulus := by
    exact_mod_cast PathHash.abs_residue_lt digits
  obtain ⟨hx, hy⟩ := stands_hashOf segments
  -- an integer is its own whole part
  rw [PathHash.digit_eq_floor hx (hlt _), PathHash.digit_eq_floor hy (hlt _), Int.floor_intCast,
    Int.floor_intCast]
  exact ⟨rfl, rfl⟩

/-- When the values agree, so do the second digits up to the prime, and when these agree, so do the
first ones. -/
theorem residues_of_value_eq {segments others : List GridStroke}
    (h : (hashOf segments).value = (hashOf others).value) :
    PathHash.residue (segments.map dy) ≡ PathHash.residue (others.map dy)
        [ZMOD PathHash.modulus] ∧
      (PathHash.residue (segments.map dy) = PathHash.residue (others.map dy) →
        PathHash.residue (segments.map dx) = PathHash.residue (others.map dx)) := by
  -- of the three ways to have the same value, two have second digits that differ by the prime
  have hcases := ((isReduced_hashOf segments).value_eq_iff (isReduced_hashOf others)).1 h
  rw [(digit_hashOf segments).1, (digit_hashOf segments).2, (digit_hashOf others).1,
    (digit_hashOf others).2, PathHash.modulus_eq] at hcases
  rw [Int.ModEq, PathHash.modulus_eq]
  omega

/-- The value changes when two neighbours with different displacements are swapped. -/
theorem value_swap_ne (before : List GridStroke) {s t : GridStroke} (after : List GridStroke)
    (hne : s.displacement ≠ t.displacement) :
    (hashOf (before ++ s :: t :: after)).value ≠ (hashOf (before ++ t :: s :: after)).value := by
  intro hvalue
  obtain ⟨hmod, heq⟩ := residues_of_value_eq hvalue
  simp only [List.map_append, List.map_cons] at hmod heq
  -- the first digits are known to agree only when the second ones do
  have hdy : s.dy = t.dy := PathHash.eq_of_residue_modEq s.abs_y_le t.abs_y_le hmod
  -- now the second digits are those of the same displacements
  have hresidue := heq (by rw [hdy])
  have hdx : s.dx = t.dx :=
    PathHash.eq_of_residue_modEq s.abs_x_le t.abs_x_le
      (congrArg (· % (PathHash.modulus : ℤ)) hresidue)
  exact hne (by rw [displacement, displacement, hdx, hdy])

/-- Only the displacements count. -/
theorem hashOf_beq {segments others : List GridStroke}
    (h : segments.map displacement = others.map displacement) :
    (hashOf segments == hashOf others) = true ∧
      (hashOf segments).value = (hashOf others).value := by
  have hdx : segments.map dx = others.map dx := by
    simpa [Function.comp_def, displacement] using congrArg (List.map Prod.fst) h
  have hdy : segments.map dy = others.map dy := by
    simpa [Function.comp_def, displacement] using congrArg (List.map Prod.snd) h
  obtain ⟨hx, hy⟩ := stands_hashOf segments
  obtain ⟨hx', hy'⟩ := stands_hashOf others
  rw [← hdx] at hx'
  rw [← hdy] at hy'
  -- the counts agree because there are as many segments
  have hlength : segments.length = others.length := by
    simpa using congrArg List.length hdx
  have hcount : (hashOf segments).count = (hashOf others).count := by
    rw [hashOf, hashOf, PathHash.count_ofStrokes, PathHash.count_ofStrokes]
    simp [hlength]
  constructor
  -- doubles that stand for the same integer are equal, be it a zero of the other sign
  · show ((hashOf segments).x == (hashOf others).x && ((hashOf segments).y == (hashOf others).y &&
      (hashOf segments).count == (hashOf others).count)) = true
    rw [Double.beq_of_stands hx hx', Double.beq_of_stands hy hy', hcount]
    simp
  · refine ((isReduced_hashOf segments).value_eq_iff (isReduced_hashOf others)).2 (.inl ?_)
    rw [(digit_hashOf segments).1, (digit_hashOf segments).2, (digit_hashOf others).1,
      (digit_hashOf others).2, hdx, hdy]
    exact ⟨rfl, rfl⟩

end GridStroke

/-- The grid point with these coordinates. -/
def GridPoint.ofInts (x y : ℤ) (hx : |x| ≤ 2 ^ 50) (hy : |y| ≤ 2 ^ 50) : GridPoint where
  position := ⟨Scalar.ofInt x, Scalar.ofInt y⟩
  x := x
  y := y
  stands_x := Double.stands_ofInt (by linarith)
  stands_y := Double.stands_ofInt (by linarith)
  abs_x_le := hx
  abs_y_le := hy

open GridStroke PathHash in
/-- **A hash tells neighbours apart.** Let segments go from grid point to grid point. Both
accumulators of their hash are integers, up to the prime the numbers in base ten whose digits are
the displacements. Swapping two neighbours with different displacements gives another value,
wherever in the list they are. Segments with the same displacements have the same hash, wherever
they lie. -/
theorem hash_tells_neighbours_apart (segments others before after : List GridStroke)
    (s t : GridStroke) :
    (∃ x y : ℤ, Double.Stands (hashOf segments).x x ∧ Double.Stands (hashOf segments).y y ∧
      x ≡ number (segments.map dx) [ZMOD modulus] ∧ y ≡ number (segments.map dy) [ZMOD modulus]) ∧
    (s.displacement ≠ t.displacement →
      (hashOf (before ++ s :: t :: after)).value ≠ (hashOf (before ++ t :: s :: after)).value) ∧
    (segments.map displacement = others.map displacement →
      (hashOf segments == hashOf others) = true ∧
        (hashOf segments).value = (hashOf others).value) := by
  refine ⟨?_, value_swap_ne before after, hashOf_beq⟩
  obtain ⟨hx, hy⟩ := stands_hashOf segments
  exact ⟨_, _, hx, hy, residue_modEq _, residue_modEq _⟩

/-- Three steps to the right and two up, in both orders, between others. -/
theorem hash_tells_neighbours_apart_steps :
    let place (x y : ℤ) (hx : |x| ≤ 3) (hy : |y| ≤ 3) : GridPoint :=
      .ofInts x y (by linarith) (by linarith)
    let origin := place 0 0 (by decide) (by decide)
    let right : GridStroke := ⟨origin, place 3 0 (by decide) (by decide), by decide, by decide⟩
    let up : GridStroke := ⟨origin, place 0 2 (by decide) (by decide), by decide, by decide⟩
    let shifted : GridStroke :=
      ⟨place 0 1 (by decide) (by decide), place 3 1 (by decide) (by decide), by decide, by decide⟩
    right.displacement ≠ up.displacement ∧
      (GridStroke.hashOf [up, right, up, right]).value ≠
        (GridStroke.hashOf [up, up, right, right]).value ∧
      (GridStroke.hashOf [right, up] == GridStroke.hashOf [shifted, up]) = true := by
  intro place origin right up shifted
  have hne : right.displacement ≠ up.displacement := by decide
  obtain ⟨-, hswap, hsame⟩ :=
    hash_tells_neighbours_apart [right, up] [shifted, up] [up] [right] right up
  exact ⟨hne, hswap hne, (hsame rfl).1⟩

end SelfSimilar
