import Mathlib.Algebra.BigOperators.Ring.List
import Mathlib.Algebra.Order.Ring.Rat
import Mathlib.Algebra.Order.Ring.Unbundled.Basic
import SelfSimilar.Proofs.Execution.Origin
import SelfSimilar.Proofs.Execution.Progress
import SelfSimilar.Proofs.Geometry.Collapse
import SelfSimilar.Proofs.Session.Origin

/-!
# Where frames collapse

In an ordered field the distance of two points is zero only if they are one point. So the frame in
which a statement is begun has collapsed only if one of the draws in progress leads from a point to
itself.

* `Frame.det_deriveAll`: the determinant of a frame inside draws
* `InProgress.exists_degenerate`: in a collapsed frame, one of the draws in progress is degenerate
* `only_degenerate_draws_collapse`: so is one where the place of the pen cannot be read
-/

namespace SelfSimilar

variable {K : Type} [ScalarField K]

/-- The square of the distance that a link leads over. -/
def Link.square (link : Link K) : K :=
  (link.stop.x - link.start.x) * (link.stop.x - link.start.x) +
    (link.stop.y - link.start.y) * (link.stop.y - link.start.y)

/-- Inside draws, the determinant is multiplied by the square of each of their distances. -/
theorem Frame.det_deriveAll (F : Frame K) (links : List (Link K)) :
    (F.deriveAll links).toScreen.det = F.toScreen.det * (links.map Link.square).prod := by
  induction links generalizing F with
  | nil => simp [deriveAll]
  | cons link links ih =>
    have hderive := F.det_derive link.start link.stop
    rw [deriveAll, List.foldl_cons, ← deriveAll, ih, hderive, List.map_cons, List.prod_cons,
      Link.square, mul_assoc]

section

variable [LinearOrder K] [IsStrictOrderedRing K] {b b' : Branch K} {t : Task K} {c c' : Canvas K}
  {st : Stmt K} {links : List (Link K)}

/-- In an ordered field, no distance means that a link leads from a point to itself. -/
theorem Link.square_eq_zero_iff {link : Link K} : link.square = 0 ↔ link.start = link.stop := by
  rcases link with ⟨⟨x, y⟩, ⟨x', y'⟩⟩
  simp only [square, mul_self_add_mul_self_eq_zero, sub_eq_zero, Point.mk.injEq]
  exact and_congr eq_comm eq_comm

/-- In a frame that has collapsed, one of the draws in progress leads from a point to itself. -/
theorem InProgress.exists_degenerate (h : InProgress b t c links b' st c')
    (hb : b.frame.toScreen.det ≠ 0) (hb' : b'.frame.toScreen.det = 0) :
    ∃ link ∈ links, link.start = link.stop := by
  -- a product is zero only if one of its factors is
  rw [h.frame_eq, Frame.det_deriveAll] at hb'
  have hprod : (links.map Link.square).prod = 0 := (mul_eq_zero.1 hb').resolve_left hb
  obtain ⟨link, mem, hsquare⟩ := List.mem_map.1 (List.prod_eq_zero_iff.1 hprod)
  exact ⟨link, mem, Link.square_eq_zero_iff.1 hsquare⟩

end

/-- The place of the pen cannot be read only in a frame that has collapsed. -/
theorem Branch.det_eq_zero_of_pen [ScalarField.IsExact K] {b : Branch K} {c : Canvas K}
    {fault : Fault} (h : b.pen c = .error fault) : b.frame.toScreen.det = 0 := by
  unfold pen at h
  split at h
  next => cases h
  next hnone => exact Frame.unapply?_eq_none_iff.1 hnone

/-- A session is begun in a frame that has not collapsed, over an ordered field that is computed
with exactly. If a program fails because the place of the pen cannot be read, then one of the draws
that are in progress at the statement that fails leads from a point to itself. So a program in whose
course each draw that runs a body leads from one point to another one does not fail in that way. -/
theorem only_degenerate_draws_collapse [ScalarField.IsExact K] [LinearOrder K]
    [IsStrictOrderedRing K] (s : Session K) (hdet : s.frame.toScreen.det ≠ 0)
    (program : Program K) :
    (∀ e, (s.run program).value = .error e → e.fault = .singularFrame →
      ∃ links b st c, InProgress s.root (.all .origin program) s.canvas links b st c ∧
        st.Stays b c ∧ (b.run st c).result = .error e ∧
        ∃ link ∈ links, link.start = link.stop) ∧
    ((∀ b st c f child d link, Visits s.root (.all .origin program) s.canvas b st c →
        Draws b c st f child d → st.Spans b c link → link.start ≠ link.stop) →
      ∀ e, (s.run program).value = .error e → e.fault ≠ .singularFrame) := by
  have hdegenerate : ∀ e, (s.run program).value = .error e → e.fault = .singularFrame →
      ∃ links b st c, InProgress s.root (.all .origin program) s.canvas links b st c ∧
        st.Stays b c ∧ (b.run st c).result = .error e ∧
        ∃ link ∈ links, link.start = link.stop := by
    intro e he hfault
    obtain ⟨o, hex, hresult⟩ := Session.exists_of_run_eq_error he
    -- the statement that fails, and the draws in progress there
    obtain ⟨b, st, c, o', hv, hplain, hstays, hfails, he'⟩ := hex.visits_of_error hresult
    obtain ⟨n, _, hat⟩ := hfails.arisesAt hplain hstays he'
    obtain ⟨links, hlinks⟩ := hv.inProgress
    have hfits := hat.fits
    rw [hfault] at hfits
    -- only the pen fails in that way, and only for want of a frame
    have hcollapsed : b.frame.toScreen.det = 0 := Branch.det_eq_zero_of_pen hfits.1
    have hrun : (b.run st c).result = .error e := by
      rw [← he', ← hfails.eq_perform]
      rfl
    exact ⟨links, b, st, c, hlinks, hstays, hrun, hlinks.exists_degenerate hdet hcollapsed⟩
  -- a degenerate link would belong to a draw that is ruled out
  refine ⟨hdegenerate, fun hdistinct e he hfault => ?_⟩
  obtain ⟨links, b, st, c, hlinks, _, _, link, mem, heq⟩ := hdegenerate e he hfault
  obtain ⟨b₁, s₁, c₁, f, child, d, hv, hdraws, hspans⟩ := hlinks.exists_of_mem mem
  exact hdistinct b₁ s₁ c₁ f child d link hv hdraws hspans heq

/-- A fractal that is drawn from a point to itself inside another one, and there draws a line from
where the pen is. -/
theorem only_degenerate_draws_collapse_point :
    letI : ScalarField ℚ := ExactArithmetic.toScalarField
    let line : Stmt ℚ := .line ⟨none, .literal (.point .xUnit) {}⟩ {}
    let inner : List (Stmt ℚ) := [.drawSelf (.between .yUnit .yUnit) {}, line]
    let program : Program ℚ := [.define "f" inner {}, .draw "f" (.between .origin .yUnit) {}]
    let s : Session ℚ := .start (.scaling 2 3) ⟨1, 4⟩
    let e : Failure := line.failure .singularFrame
    s.frame.toScreen.det ≠ 0 ∧ (s.run program).value = .error e ∧
      ∃ links b st c, InProgress s.root (.all .origin program) s.canvas links b st c ∧
        (b.run st c).result = .error e ∧ ∃ link ∈ links, link.start = link.stop := by
  let : ScalarField ℚ := ExactArithmetic.toScalarField
  let : ScalarField.IsExact ℚ := ExactArithmetic.isExact
  intro line inner program s e
  have hdet : s.frame.toScreen.det ≠ 0 := by decide +kernel
  have hfails : (s.run program).value = .error e := by decide +kernel
  obtain ⟨links, b, st, c, hlinks, _, hrun, hlink⟩ :=
    (only_degenerate_draws_collapse s hdet program).1 e hfails rfl
  exact ⟨hdet, hfails, links, b, st, c, hlinks, hrun, hlink⟩

end SelfSimilar
