import Mathlib.Algebra.Order.Ring.Rat
import SelfSimilar.Proofs.Execution.Tally
import SelfSimilar.Proofs.Session.Globals

/-!
# How much a session draws of a figure

The draw by name takes up a level, and SELF one more as long as there is one for it. So a figure is
drawn on as many levels as the settings allow, and on one in any case.

* `figures_draw_geometric_sums`: the commands of a figure that is drawn by name in a fresh session
-/

namespace SelfSimilar

open Finset

variable {α : Type} [Scalar α]

/-- In a fresh session whose depth fits in 32 bits, a program defines a figure of `k` copies and `m`
lines and draws it by name, between ends that can be read. All branches that are derived from there
on, above the last level for SELF, are large enough for the resolution. Then the program succeeds.
With `d` for the depth, or for one if the depth is zero, it appends `m * (1 + k + ... + k ^ (d - 1))
+ k ^ d` lines, as many moves, and one more move for each of the `1 + k + ... + k ^ (d - 1)`
branches. -/
theorem figures_draw_geometric_sums (frame : Frame α) (settings : Settings α)
    (hdepth : settings.maxDepth ≤ 4294967295) (name : String) (body : List (Stmt α))
    (copies : List (Point α × Point α)) (m : Nat) (hbody : Stmt.Figure body copies m)
    (segment : Segment α) (span span' : Span) (p q : Point α)
    (hends : Stmt.endpoints (.draw name segment span') segment (.root settings frame)
      ((Branch.root settings frame).bind name (.fractal ⟨name, body, .globals⟩) (.fresh frame)) =
        .ok (p, q))
    (hlarge : ∀ levels G, (frame.derive p q).Reaches copies levels G →
      levels + 1 < settings.maxDepth → Scalar.le settings.resolution G.scale = true) :
    let s : Session α := .start frame settings
    let program : Program α := [.define name body span, .draw name segment span']
    let k := copies.length
    let d := max settings.maxDepth 1
    ∃ r added, (s.run program).value = .ok r ∧
      r.commands = s.canvas.path.commands ++ (added : List (Command α)) ∧
      added.countP Command.draws = m * ∑ i ∈ range d, k ^ i + k ^ d ∧
      added.countP (fun command => !command.draws) =
        m * ∑ i ∈ range d, k ^ i + k ^ d + ∑ i ∈ range d, k ^ i ∧
      (s.run program).events.countP Event.isDerived = ∑ i ∈ range d, k ^ i := by
  intro s program k d
  let f : Fractal α := ⟨name, body, .globals⟩
  have hlimit : settings.selfLimit = settings.maxDepth := Nat.min_eq_left hdepth
  -- the branches below the draw are one level above those of the condition
  have hchild : (s.root.child p q).LargeBelow copies := by
    intro levels G hG hlevel
    refine hlarge levels G hG ?_
    have habove : 0 + 1 + levels < settings.selfLimit := hlevel
    omega
  have hfound : s.root.lookup (s.root.bind name (.fractal f) s.canvas) name = .ok (.fractal f) :=
    (Session.isGlobal_after frame settings []).lookup_bind name _
  have hroom : s.root.level < s.root.depthLimit := Branch.root_level_lt_depthLimit settings frame
  have htallies := Branch.tallies_draw (f := f) hroom hfound hbody hends hchild
  -- the level of the draw by name is there even if none is left for SELF
  have hlevels : s.root.settings.selfLimit - (s.root.level + 1) + 1 = d := by
    show settings.selfLimit - (0 + 1) + 1 = max settings.maxDepth 1
    omega
  rw [hlevels] at htallies
  obtain ⟨⟨v, hok⟩, ⟨added, hpath, hlines, hmoves⟩, hderived⟩ := htallies
  rcases hdraw : s.root.perform (.one (.draw name segment span'))
    (s.root.bind name (.fractal f) s.canvas) with ⟨result, c, events⟩
  rw [hdraw] at hok hpath hderived
  obtain rfl : result = .ok v := hok
  -- the program is the definition and the draw
  have hex : Execution s.root (.all .origin program) s.canvas _ :=
    .cons .define (.cons (execution_iff.2 hdraw) .nil)
  have hrun := Session.run_of_ok hex rfl
  refine ⟨_, added, congrArg Reply.value hrun, ?_, hlines, hmoves, ?_⟩
  · show c.path.commands = s.canvas.path.commands ++ added
    rw [hpath, Path.commands_extend]
    rfl
  · -- neither the definition nor the end of the program is a branch
    have hcount :
        (s.run program).events.countP Event.isDerived = events.countP Event.isDerived := by
      rw [hrun]
      simp [Event.isDerived]
    exact hcount.trans hderived

/-- A figure of two copies around a line, drawn on three levels along a segment whose start is left
out. -/
theorem figures_draw_geometric_sums_two_copies :
    let frame : Frame ℚ := .scaling 2 3
    let settings : Settings ℚ := ⟨0, 3⟩
    let half : Point ℚ := ⟨1 / 2, 1 / 2⟩
    let body : List (Stmt ℚ) := [.drawSelf (.between .origin half) {},
      .line (.between half .xUnit) {}, .drawSelf (.between half .xUnit) {}]
    let copies : List (Point ℚ × Point ℚ) := [(.origin, half), (half, .xUnit)]
    let segment : Segment ℚ := ⟨none, .name .point "X" {}⟩
    let s : Session ℚ := .start frame settings
    let program : Program ℚ := [.define "f" body {}, .draw "f" segment {}]
    (settings.maxDepth ≤ 4294967295 ∧ Stmt.Figure body copies 1 ∧
      Stmt.endpoints (.draw "f" segment {}) segment s.root
        (s.root.bind "f" (.fractal ⟨"f", body, .globals⟩) s.canvas) = .ok (.origin, .xUnit) ∧
      ∀ levels G, (frame.derive .origin .xUnit).Reaches copies levels G →
        levels + 1 < settings.maxDepth → Scalar.le settings.resolution G.scale = true) ∧
    ∃ r added, (s.run program).value = .ok r ∧
      r.commands = s.canvas.path.commands ++ (added : List (Command ℚ)) ∧
      added.countP Command.draws = 15 ∧ added.countP (fun command => !command.draws) = 22 ∧
      (s.run program).events.countP Event.isDerived = 7 := by
  intro frame settings half body copies segment s program
  have hbody : Stmt.Figure body copies 1 :=
    .copy ⟨{}, {}, rfl⟩ (.line ⟨{}, {}, rfl⟩ (.copy ⟨{}, {}, rfl⟩ .nil))
  have hends : Stmt.endpoints (.draw "f" segment {}) segment s.root
      (s.root.bind "f" (.fractal ⟨"f", body, .globals⟩) s.canvas) = .ok (.origin, .xUnit) := by
    decide +kernel
  have hlarge : ∀ levels G, (frame.derive .origin .xUnit).Reaches copies levels G →
      levels + 1 < settings.maxDepth → Scalar.le settings.resolution G.scale = true := by
    -- the square that stands for the length of a vector is not negative
    intro levels G _ _
    refine decide_eq_true ?_
    exact add_nonneg (mul_self_nonneg _) (mul_self_nonneg _)
  have hsums := figures_draw_geometric_sums frame settings (by decide) "f" body copies 1 hbody
    segment {} {} .origin .xUnit hends hlarge
  exact ⟨⟨by decide, hbody, hends, hlarge⟩, hsums⟩

end SelfSimilar
