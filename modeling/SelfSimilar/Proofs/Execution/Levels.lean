import Mathlib.Logic.ExistsUnique
import SelfSimilar.Proofs.Execution.Visits
import SelfSimilar.Scalar.Double

/-!
# Levels

A fractal is drawn one level deeper than the statement that draws it, and only where a level is
left. So no state in the course of a run lies beyond the limit, and no fractal is active without a
level of its own.

* `Draws.nested`: drawing a fractal keeps the levels in order
* `Visits.nested`: so does everything in the course of a run
* `work_ends_within_limits`: all work comes to its end, and no level exceeds its limits
-/

namespace SelfSimilar

variable {α : Type} [Scalar α] {b child b' : Branch α} {t : Task α} {c d c' : Canvas α}
  {s : Stmt α} {f : Fractal α}

/-- The levels of a branch and a canvas are in order: each active fractal has a level, and no level
lies beyond the limit. -/
structure Branch.Nested (b : Branch α) (c : Canvas α) : Prop where
  /-- Each active fractal has a level. -/
  active_le : c.active.length ≤ b.level
  /-- No level lies beyond the limit. -/
  level_le : b.level ≤ b.depthLimit

omit [Scalar α] in
/-- The limit of a branch is that of its settings. -/
theorem Branch.depthLimit_eq (h : b'.settings = b.settings) : b'.depthLimit = b.depthLimit := by
  unfold depthLimit
  rw [h]

/-- No limit is beyond the greatest one, so counting up to it never overflows. -/
theorem Draws.level_lt_greatestLimit (h : Draws b c s f child d) :
    b.level < Settings.greatestLimit :=
  Nat.lt_of_lt_of_le h.level_lt (Nat.min_le_right _ _)

/-- SELF derives no child beyond `maxDepth`. -/
theorem Draws.level_le_maxDepth {segment : Segment α} {span : Span}
    (h : Draws b c (.drawSelf segment span) f child d) : child.level ≤ b.settings.maxDepth := by
  rw [h.level_eq]
  cases h with
  | self _ large _ =>
    exact Nat.lt_of_lt_of_le (Branch.level_lt_of_isResolvable large) (Nat.min_le_left _ _)

/-- Drawing a fractal keeps the levels in order. -/
theorem Draws.nested (h : Draws b c s f child d) (hn : b.Nested c) : child.Nested d := by
  -- the level rises by one for each draw, the stack by at most one
  have hactive := h.length_active_le
  have hlevel := h.level_eq
  have hlt := h.level_lt
  have hlimit := Branch.depthLimit_eq h.settings_eq
  have := hn.active_le
  exact ⟨by omega, by omega⟩

/-- The statements of one body are begun on the same level, with the same fractals active. -/
theorem Meets.nested (h : Meets b t c s d) (hn : b.Nested c) : b.Nested d :=
  ⟨h.active_eq ▸ hn.active_le, hn.level_le⟩

/-- Everything in the course of a run keeps the levels in order. -/
theorem Visits.nested (h : Visits b t c b' s c') (hn : b.Nested c) : b'.Nested c' := by
  induction h with
  | meets met => exact met.nested hn
  | drawn met draws _ ih => exact ih (draws.nested (met.nested hn))

/-- All work comes to its end, on any branch and any canvas. In the course of work that is begun on
level 0 with no fractal active, no more fractals are active than there are levels around, no level
lies beyond the limit, SELF derives no child beyond `maxDepth`, and the level of a child is always a
word of 32 bits. -/
theorem work_ends_within_limits :
    (∀ (b : Branch α) (t : Task α) (c : Canvas α), ∃! o, Execution b t c o) ∧
    (∀ (b : Branch α) (c : Canvas α),
      (∀ s, Execution b (.one s) c (b.run s c)) ∧
      (∀ body, Execution b (.all .origin body) c ((b.runAll body c).map .point)) ∧
      ∀ program, (b.runProgram program c).result = (b.runAll program c).result ∧
        (b.runProgram program c).canvas = (b.runAll program c).canvas) ∧
    ∀ (b : Branch α) (t : Task α) (c : Canvas α), b.level = 0 → c.active = [] →
      ∀ b' s c', Visits b t c b' s c' →
        c'.active.length ≤ b'.level ∧ b'.level ≤ b.depthLimit ∧
        ∀ f child d, Draws b' c' s f child d →
          child.level = b'.level + 1 ∧ child.level ≤ 4294967295 ∧
          d.active.length ≤ child.level ∧ child.level ≤ b.depthLimit ∧
          ((∃ segment span, s = .drawSelf segment span) → child.level ≤ b.settings.maxDepth) := by
  refine ⟨fun b t c => ?_, fun b c => ⟨?_, ?_, ?_⟩, ?_⟩
  -- the run itself is an outcome, and outcomes are unique
  · exact ⟨_, execution_perform b t c, fun o h => h.eq_perform.symm⟩
  · intro s
    exact execution_perform b (.one s) c
  · intro body
    rw [← b.perform_body]
    exact execution_perform b _ c
  · intro program
    exact ⟨b.result_runProgram program c, b.canvas_runProgram program c⟩
  · intro b t c hlevel hactive b' s c' visits
    have hn : b.Nested c := ⟨by simp [hactive], by simp [hlevel]⟩
    have hn' := visits.nested hn
    have hs := visits.settings_eq
    -- no branch changes the settings, so all limits are those at the start
    have hlimit : b'.depthLimit = b.depthLimit := Branch.depthLimit_eq hs
    refine ⟨hn'.active_le, hlimit ▸ hn'.level_le, fun f child d draws => ?_⟩
    have hchild := draws.nested hn'
    have hlimit' : child.depthLimit = b.depthLimit :=
      Branch.depthLimit_eq (draws.settings_eq.trans hs)
    refine ⟨draws.level_eq, ?_, hchild.active_le, hlimit' ▸ hchild.level_le, ?_⟩
    · rw [draws.level_eq]
      exact draws.level_lt_greatestLimit
    · rintro ⟨segment, span, rfl⟩
      rw [← hs]
      exact draws.level_le_maxDepth

/-- SELF in the body of a fractal that a program defines and draws is met on level 1, and draws the
fractal on level 2. -/
theorem work_ends_within_limits_self :
    let b : Branch Float := .root .standard .identity
    let c : Canvas Float := .fresh .identity
    let s : Stmt Float := .drawSelf (.between .origin .xUnit) {}
    let f : Fractal Float := ⟨"f", [s], .globals⟩
    let program : Program Float := [.define "f" [s] {}, .draw "f" (.between .origin .xUnit) {}]
    let child := (b.child .origin .xUnit).within .globals
    let d := (child.moveTo .origin (b.bind "f" (.fractal f) c)).start f
    let child' := child.child .origin .xUnit
    b.level = 0 ∧ c.active = [] ∧ Visits b (.all .origin program) c child s d ∧
      Draws child d s f child' (child'.moveTo .origin d) ∧
      d.active.length ≤ child.level ∧ child.level ≤ b.depthLimit ∧
      child'.level ≤ b.settings.maxDepth := by
  intro b c s f program child d child'
  have hdraws : Draws b (b.bind "f" (.fractal f) c) (.draw "f" (.between .origin .xUnit) {}) f
      child d :=
    .named rfl (by decide) rfl
  -- the definition is run before the draw, so the body is found among the bindings
  have hvisits : Visits b (.all .origin program) c child s d :=
    .drawn (.later (b.perform_define ..) (.first .here)) hdraws (.meets (.first .here))
  have hself : Draws child d s f child' (child'.moveTo .origin d) :=
    .self rfl (by decide +kernel) rfl
  obtain ⟨hactive, hlevel, hchild⟩ :=
    work_ends_within_limits.2.2 b (.all .origin program) c rfl rfl child s d hvisits
  exact ⟨rfl, rfl, hvisits, hself, hactive, hlevel, (hchild f _ _ hself).2.2.2.2 ⟨_, _, rfl⟩⟩

end SelfSimilar
