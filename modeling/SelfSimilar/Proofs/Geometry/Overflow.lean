import SelfSimilar.Geometry.Frame
import SelfSimilar.Proofs.Scalar.Bounds

/-!
# Inverses that overflow

The guard of an inversion looks at the determinant only. In double precision, a frame may be so thin
that its determinant is not zero, but the reciprocal is out of range. The inverse is then made of
infinite and undefined entries, and so are the points that are read back. Away from that, powers of
two that bound the minors and the determinant bound the entries of the inverse.

* `Matrix3.inverse?_eq_none_iff_stands`, `Matrix3.inverse?_of_stands`: when there is an inverse
* `Matrix3.forall₂_minors`: its entries are minors by the reciprocal of the determinant
* `Matrix3.atMost_minors`, `Matrix3.atMost_apply`: bounds on minors and on places
* `inversion_is_finite_away_from_collapse`: when the inverse is made of numbers
-/

namespace SelfSimilar

open Double

namespace Matrix3

/-- The guard of an inversion, as a proposition. -/
theorem inverse?_eq {α : Type} [Scalar α] (m : Matrix3 α) :
    m.inverse? = if (m.det == 0) = true ∨ Scalar.isFinite m.det = false then none
      else some (m.adjugate (1 / m.det)) := by
  rw [inverse?]
  refine if_congr ?_ rfl rfl
  rw [Bool.or_eq_true, Bool.not_eq_true']

variable {m : Matrix3 Float} {f : Float}

/-- There is no inverse if the determinant comes out as zero or as no finite number. -/
theorem inverse?_eq_none_iff_stands :
    m.inverse? = none ↔ Stands m.det 0 ∨ Scalar.isFinite m.det = false := by
  rw [inverse?_eq]
  refine Iff.trans ?_ (or_congr_left beq_zero_iff)
  split
  next h => exact iff_of_true rfl h
  next h => exact iff_of_false (nomatch ·) h

/-- If the determinant comes out as another number, there is an inverse. -/
theorem inverse?_of_stands {q : ℚ} (h : Stands m.det q) (hq : q ≠ 0) :
    m.inverse? = some (m.adjugate (1 / m.det)) := by
  rw [inverse?_eq]
  refine if_neg ?_
  rintro (hzero | hinfinite)
  · exact hq (Option.some.inj (h.symm.trans (beq_zero_iff.1 hzero)))
  · rw [h.isFinite] at hinfinite
    cases hinfinite

/-! ## Minors -/

/-- The minors without their signs, each at the place of its entry in the adjugate. -/
def minors {α : Type} [Scalar α] (m : Matrix3 α) : List α :=
  [m.m11 * m.m22 - m.m12 * m.m21, m.m01 * m.m22 - m.m02 * m.m21, m.m01 * m.m12 - m.m02 * m.m11,
    m.m10 * m.m22 - m.m12 * m.m20, m.m00 * m.m22 - m.m02 * m.m20, m.m00 * m.m12 - m.m02 * m.m10,
    m.m10 * m.m21 - m.m11 * m.m20, m.m00 * m.m21 - m.m01 * m.m20, m.m00 * m.m11 - m.m01 * m.m10]

/-- Each entry of the adjugate is a minor or its opposite, stretched by the factor. -/
theorem forall₂_minors (m : Matrix3 Float) (f : Float) :
    List.Forall₂ (fun c x => x = c * f ∨ x = -c * f) m.minors (m.adjugate f).entries := by
  simp [minors, adjugate, entries]

/-- What a relation passes on from the left is true of all that is on the right. -/
private theorem forall_right {α β : Type} {r : α → β → Prop} {p : β → Prop} {l : List α}
    {l' : List β} (h : List.Forall₂ r l l') (hp : ∀ a ∈ l, ∀ b, r a b → p b) : ∀ b ∈ l', p b := by
  induction h with
  | nil => simp
  | cons hab _ ih =>
    rw [List.forall_mem_cons] at hp ⊢
    exact ⟨hp.1 _ hab, ih hp.2⟩

/-- If the factor is no finite number, no entry is one. -/
theorem isFinite_adjugate (h : Scalar.isFinite f = false) :
    ∀ x ∈ (m.adjugate f).entries, Scalar.isFinite x = false := by
  refine forall_right (forall₂_minors m f) fun c _ x hx => ?_
  rcases hx with rfl | rfl <;> exact isFinite_mul_right h

/-- Bounds of the minors and of the factor bound the entries of the adjugate. -/
theorem atMost_adjugate {a d : ℕ} (hm : ∀ c ∈ m.minors, AtMost c a) (hf : AtMost f d)
    (had : a + d ≤ 1023) : ∀ x ∈ (m.adjugate f).entries, AtMost x (a + d) := by
  refine forall_right (forall₂_minors m f) fun c hc x hx => ?_
  rcases hx with rfl | rfl
  · exact atMost_mul (hm c hc) hf (by omega) (by omega)
  · exact atMost_mul (atMost_neg (hm c hc)) hf (by omega) (by omega)

/-- A minor by the reciprocal of the determinant is out of range if the quotient is. -/
theorem isFinite_minor_mul {c det : Float} {q : ℚ} {a d : ℤ} (hc : AtLeast c a)
    (hdet : Stands det q) (hq0 : q ≠ 0) (hq : |q| ≤ 2 ^ (-d)) (had : 1024 ≤ a + d) :
    Scalar.isFinite (c * (One.one / det)) = false := by
  -- the product is bounded below only as long as the bound itself is in range
  rcases lt_or_ge a 1024 with ha | ha
  · exact (atLeast_mul hc (atLeast_reciprocal hdet hq0 hq (by omega)) (by omega)).isFinite had
  · -- the minor is no finite number itself
    exact isFinite_mul_left (hc.isFinite ha)

/-- Bounds of the entries bound the minors. -/
theorem atMost_minors {k : ℕ} (hm : ∀ x ∈ m.entries, AtMost x k) (hk : 2 * k + 1 ≤ 1023) :
    ∀ c ∈ m.minors, AtMost c (2 * k + 1) := by
  -- each minor is a difference of two products of entries
  have hminor {x y z w : Float} (hx : AtMost x k) (hy : AtMost y k) (hz : AtMost z k)
      (hw : AtMost w k) : AtMost (x * y - z * w) (2 * k + 1) := by
    rw [two_mul]
    exact atMost_sub (atMost_mul hx hy (by omega) (by omega))
      (atMost_mul hz hw (by omega) (by omega)) (by omega) (by omega)
  simp only [entries, List.forall_mem_cons] at hm
  obtain ⟨h00, h01, h02, h10, h11, h12, h20, h21, h22, -⟩ := hm
  simp only [minors, List.forall_mem_cons]
  exact ⟨hminor h11 h22 h12 h21, hminor h01 h22 h02 h21, hminor h01 h12 h02 h11,
    hminor h10 h22 h12 h20, hminor h00 h22 h02 h20, hminor h00 h12 h02 h10,
    hminor h10 h21 h11 h20, hminor h00 h21 h01 h20, hminor h00 h11 h01 h10, by simp⟩

/-- Bounds of the entries and of a place bound the image of the place. -/
theorem atMost_apply {i s : ℕ} {place : Position Float} (hm : ∀ y ∈ m.entries, AtMost y i)
    (hx : AtMost place.x s) (hy : AtMost place.y s) (hmax : i + s + 2 ≤ 1023) :
    AtMost (m.apply place).x (i + s + 2) ∧ AtMost (m.apply place).y (i + s + 2) := by
  -- two products and a shift, and each sum doubles the bound
  have hrow {a b c : Float} (ha : AtMost a i) (hb : AtMost b i) (hc : AtMost c i) :
      AtMost (a * place.x + b * place.y + c) (i + s + 2) := by
    have hsum := atMost_add (atMost_mul ha hx (by omega) (by omega))
      (atMost_mul hb hy (by omega) (by omega)) (by omega) (by omega)
    have hshifted := atMost_add hsum (hc.mono (by omega)) (by omega) (by omega)
    rwa [add_assoc _ 1 1] at hshifted
  simp only [entries, List.forall_mem_cons] at hm
  obtain ⟨h00, h01, h02, h10, h11, h12, -⟩ := hm
  exact ⟨hrow h00 h01 h02, hrow h10 h11 h12⟩

end Matrix3

/-- A place is read back by the inverse, in single precision. -/
theorem Frame.unapply?_of_inverse? {F : Frame Float} {n : Matrix3 Float}
    (h : F.toScreen.inverse? = some n) (place : Position Float) :
    F.unapply? place = some ⟨Scalar.single (n.apply place).x, Scalar.single (n.apply place).y⟩ := by
  unfold unapply?
  rw [h]
  rfl

/-- A double-precision matrix has no inverse if its determinant comes out as zero or as no finite
number, and else it has one. Whether an entry of it is a number depends on the magnitudes of its
minor and of the determinant. If the determinant is so small that its reciprocal is out of range, at
most `2 ^ -1024`, no entry is a finite number, and each place is read back as a point without a
finite coordinate. If the entries of the matrix are at most `2 ^ k` and the determinant is at least
`2 ^ -d`, where `2 * k + 1 + d` is at most 1023, all entries are finite. Places are then read back
as points with finite coordinates, as far as single precision has room for them. -/
theorem inversion_is_finite_away_from_collapse (F : Frame Float) :
    (F.toScreen.inverse? = none ↔
      Stands F.toScreen.det 0 ∨ Scalar.isFinite F.toScreen.det = false) ∧
    ∀ q, Stands F.toScreen.det q → q ≠ 0 → ∃ n, F.toScreen.inverse? = some n ∧
      List.Forall₂ (fun minor x =>
          (∀ a d : ℕ, AtMost minor a → 2 ^ (-d : ℤ) ≤ |q| → a + d ≤ 1023 → AtMost x (a + d)) ∧
          ∀ a d : ℤ, AtLeast minor a → |q| ≤ 2 ^ (-d) → 1024 ≤ a + d → Scalar.isFinite x = false)
        F.toScreen.minors n.entries ∧
      (|q| ≤ 2 ^ (-1024 : ℤ) →
        (∀ x ∈ n.entries, Scalar.isFinite x = false) ∧
        ∀ place, ∃ p, F.unapply? place = some p ∧
          Scalar.isFinite p.x = false ∧ Scalar.isFinite p.y = false) ∧
      ∀ k d : ℕ, (∀ x ∈ F.toScreen.entries, AtMost x k) → 2 ^ (-d : ℤ) ≤ |q| →
        2 * k + 1 + d ≤ 1023 →
        (∀ x ∈ n.entries, Scalar.isFinite x = true) ∧
        ∀ (s : ℕ) place, AtMost place.x s → AtMost place.y s → 2 * k + 1 + d + s + 2 ≤ 127 →
          ∃ p, F.unapply? place = some p ∧
            Scalar.isFinite p.x = true ∧ Scalar.isFinite p.y = true := by
  refine ⟨Matrix3.inverse?_eq_none_iff_stands, fun q hdet hq => ?_⟩
  have hinverse := Matrix3.inverse?_of_stands hdet hq
  refine ⟨_, hinverse, ?_, fun hsmall => ?_, fun k d hentries hlarge hkd => ?_⟩
  -- each entry by itself, with bounds on its own minor
  · refine (Matrix3.forall₂_minors _ _).imp ?_
    intro minor x hx
    refine ⟨fun a d hminor hlarge had => ?_, fun a d hminor hsmall had => ?_⟩
    · have hfactor := atMost_reciprocal hdet hlarge (by omega)
      rcases hx with rfl | rfl
      · exact atMost_mul hminor hfactor (by omega) (by omega)
      · exact atMost_mul (atMost_neg hminor) hfactor (by omega) (by omega)
    · rcases hx with rfl | rfl
      · exact Matrix3.isFinite_minor_mul hminor hdet hq hsmall had
      · exact Matrix3.isFinite_minor_mul (atLeast_neg hminor) hdet hq hsmall had
  -- the reciprocal is out of range, and all entries have it for a factor
  · have hfactor : Scalar.isFinite (1 / F.toScreen.det) = false :=
      (atLeast_reciprocal hdet hq hsmall (by omega)).isFinite le_rfl
    exact ⟨Matrix3.isFinite_adjugate hfactor, fun place =>
      ⟨_, Frame.unapply?_of_inverse? hinverse place,
        isFinite_single (isFinite_add_right (isFinite_mul_right hfactor)),
        isFinite_single (isFinite_add_right (isFinite_mul_right hfactor))⟩⟩
  · have hfactor := atMost_reciprocal hdet hlarge (by omega)
    -- all entries at once, with one bound on the entries of the matrix
    have hminors : ∀ c ∈ F.toScreen.minors, AtMost c (2 * k + 1 : ℕ) := by
      exact_mod_cast Matrix3.atMost_minors hentries (by omega)
    have hbound : ∀ x ∈ (F.toScreen.adjugate (1 / F.toScreen.det)).entries,
        AtMost x (2 * k + 1 + d : ℕ) := by
      exact_mod_cast Matrix3.atMost_adjugate hminors hfactor hkd
    refine ⟨fun x hx => (hbound x hx).isFinite, fun s place hx hy hs =>
      ⟨_, Frame.unapply?_of_inverse? hinverse place, ?_⟩⟩
    obtain ⟨hx, hy⟩ := Matrix3.atMost_apply hbound hx hy (by omega)
    exact ⟨(atMost_single hx (by omega) (by omega)).isFinite,
      (atMost_single hy (by omega) (by omega)).isFinite⟩

/-- A stretch of the first axis by the double nearest to `1e-310`. -/
def Frame.thin : Frame Float := .scaling (Float.ofBits 0x12688b70e62b) 1

/-- The frame of the first half of the unit segment. -/
def Frame.half : Frame Float := .ontoSegment ⟨0, 0⟩ ⟨1 / Scalar.ofInt 2, 0⟩

/-- A frame that is too thin, and one that is not. -/
theorem inversion_is_finite_away_from_collapse_half :
    (Stands Frame.thin.toScreen.det (0x12688b70e62b * 2 ^ (-1074 : ℤ)) ∧
      ∃ n, Frame.thin.toScreen.inverse? = some n ∧ (∀ x ∈ n.entries, Scalar.isFinite x = false) ∧
        ∀ place, ∃ p, Frame.thin.unapply? place = some p ∧
          Scalar.isFinite p.x = false ∧ Scalar.isFinite p.y = false) ∧
    Stands Frame.half.toScreen.det (1 / 4) ∧
      ∃ n, Frame.half.toScreen.inverse? = some n ∧ (∀ x ∈ n.entries, Scalar.isFinite x = true) ∧
        ∃ p, Frame.half.unapply? ⟨1, 0⟩ = some p ∧
          Scalar.isFinite p.x = true ∧ Scalar.isFinite p.y = true := by
  have hthin : Stands Frame.thin.toScreen.det (0x12688b70e62b * 2 ^ (-1074 : ℤ)) := by
    decide +kernel
  have hhalf : Stands Frame.half.toScreen.det (1 / 4) := by decide +kernel
  have hentries : ∀ x ∈ Frame.half.toScreen.entries, AtMost x (0 : ℕ) := by decide +kernel
  obtain ⟨_, hinverse⟩ := inversion_is_finite_away_from_collapse Frame.thin
  obtain ⟨n, hn, _, hoverflow, _⟩ := hinverse _ hthin (by decide +kernel)
  obtain ⟨_, hinverse'⟩ := inversion_is_finite_away_from_collapse Frame.half
  obtain ⟨n', hn', _, _, hfinite⟩ := hinverse' _ hhalf (by decide +kernel)
  obtain ⟨hnumbers, hplaces⟩ := hfinite 0 2 hentries (by decide +kernel) (by decide)
  exact ⟨⟨hthin, n, hn, hoverflow (by decide +kernel)⟩, hhalf, n', hn', hnumbers,
    hplaces 0 ⟨1, 0⟩ (by decide +kernel) (by decide +kernel) (by decide)⟩

/-- A matrix of finite entries whose inverse is not refused, but made of entries that are not
finite; so is the point that is read back at the origin. -/
theorem thin_frame_has_no_finite_inverse :
    (∀ x ∈ Frame.thin.toScreen.entries, Scalar.isFinite x = true) ∧
    ¬ (Frame.thin.toScreen.inverse? = none ∨
      ∃ n, Frame.thin.toScreen.inverse? = some n ∧ ∀ x ∈ n.entries, Scalar.isFinite x = true) ∧
    ∃ p, Frame.thin.unapply? ⟨0, 0⟩ = some p ∧
      Scalar.isFinite p.x = false ∧ Scalar.isFinite p.y = false := by
  have hinverse : Frame.thin.toScreen.inverse?.map (fun n => n.entries.map Scalar.isFinite) =
      some (List.replicate 9 false) := by decide +kernel
  have hplace :
      (fun p => (Scalar.isFinite p.x, Scalar.isFinite p.y)) <$> Frame.thin.unapply? ⟨0, 0⟩ =
        some (false, false) := by decide +kernel
  obtain ⟨n, hn, hentries⟩ := Option.map_eq_some_iff.1 hinverse
  obtain ⟨p, hp, hcoordinates⟩ := Option.map_eq_some_iff.1 hplace
  refine ⟨by decide +kernel, ?_, p, hp, Prod.mk.inj hcoordinates⟩
  -- the inverse is not refused, and its first entry is not finite
  rw [hn]
  rintro (hnone | ⟨n', hsome, hfinite⟩)
  · cases hnone
  · cases hsome
    have hfirst := hfinite n.m00 List.mem_cons_self
    rw [(List.cons.inj hentries).1] at hfirst
    cases hfirst

end SelfSimilar
