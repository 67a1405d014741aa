import SelfSimilar.Proofs.Execution.Rules

/-!
# What work keeps

A draw by name makes its fractal active and takes whatever is innermost away when the body has come
to its end. This leaves the active fractals as they were because every piece of work does, on
success and on failure alike. The path changes by moves, by lines and by starting anew, so what
these three keep is kept by all work.

* `Execution.active_eq`: work leaves the active fractals as they were
* `Execution.scopeCount_eq`: work opens no scope
* `Execution.path_induct`: what moves, lines and fresh starts keep of a path is kept
-/

namespace SelfSimilar

variable {α : Type} [Scalar α] {b : Branch α} {t : Task α} {c : Canvas α}
  {o : Outcome α Failure (Value α)}

/-- Work leaves the active fractals as they were, however it ends. -/
theorem Execution.active_eq (h : Execution b t c o) : o.canvas.active = c.active := by
  -- the body of a draw restores the stack, so what is taken away is what the draw has added
  induction h with
  | draw _ _ _ _ ih => simp [ih]
  | self _ _ _ _ ih => simp [ih]
  | block _ ih => exact ih
  | fail _ ih => exact ih
  | cons _ _ ihFirst ihLater => exact ihLater.trans ihFirst
  | _ => simp

/-- Work opens no scope, however it ends. -/
theorem Execution.scopeCount_eq (h : Execution b t c o) :
    o.canvas.env.scopeCount = c.env.scopeCount := by
  -- bindings change scopes and open none, and nothing else touches the environment
  induction h with
  | define => simp [Branch.bind]
  | assign => simp [Branch.bind]
  | draw _ _ _ _ ih => simp [ih]
  | self _ _ _ _ ih => simp [ih]
  | block _ ih => exact ih
  | fail _ ih => exact ih
  | cons _ _ ihFirst ihLater => exact ihLater.trans ihFirst
  | _ => simp

/-- What holds of a path and is kept by moves, lines and fresh starts still holds after any work. -/
theorem Execution.path_induct (P : Path α → Prop) (hmove : ∀ p place, P p → P (p.moveTo place))
    (hline : ∀ p place, P p → P (p.lineTo place)) (hstart : ∀ place, P (.startingAt place))
    (h : Execution b t c o) (hc : P c.path) : P o.canvas.path := by
  -- lines are drawn by LINE and by SELF once it is small
  have hlined : ∀ (b : Branch α) segment ends (c : Canvas α), P c.path →
      P (b.lined segment ends c).path := by
    intro b segment ends c hc
    unfold Branch.lined
    split
    · exact hline _ _ (hmove _ _ hc)
    · exact hline _ _ hc
  induction h with
  | draw _ _ _ _ ih => exact ih (hmove _ _ hc)
  | self _ _ _ _ ih => exact ih (hmove _ _ hc)
  | selfLine _ _ => exact hlined _ _ _ _ hc
  | line _ => exact hlined _ _ _ _ hc
  | clear => exact hstart _
  | home => exact hmove _ _ hc
  | block _ ih => exact ih hc
  | fail _ ih => exact ih hc
  | cons _ _ ihFirst ihLater => exact ihLater (ihFirst hc)
  | _ => exact hc

end SelfSimilar
