import SelfSimilar.Proofs.Session.Balance
import SelfSimilar.Proofs.Session.Globals

/-!
# Starting over

A reset builds the canvas anew. Erasing the drawing and forgetting the bindings change the canvas
that is there. Both lead to the same canvas, because nothing else of it can have changed: no action
leaves a fractal active, opens a scope or touches the predefined points.

* `Session.forget_clear_eq_reset`, `Session.clear_forget_eq_reset`: erasing and forgetting
* `Session.clear_eq_run`: erasing is what the program does that only clears
* `clearing_and_forgetting_start_over`: both, after any actions
-/

namespace SelfSimilar

variable {α : Type} [Scalar α]

namespace Session

variable {s : Session α}

/-- Erasing and forgetting leave the canvas on which nothing has happened. -/
theorem erase_forget_eq_fresh (henv : s.canvas.env.IsGlobal) (hactive : s.canvas.active = []) :
    (s.root.erase s.canvas).forget = .fresh s.frame := by
  -- the path, the bindings and the active fractals, one after another
  have hpath : (s.root.erase s.canvas).path = .startingAt (s.frame.apply .origin) := rfl
  have hforget : (s.root.erase s.canvas).env.clear .globals = .predefined := henv.clear
  unfold Canvas.forget Canvas.fresh
  rw [hpath, hforget, Branch.active_erase, hactive]

/-- To erase and then to forget is to reset. -/
theorem forget_clear_eq_reset (henv : s.canvas.env.IsGlobal) (hactive : s.canvas.active = []) :
    s.clear.session.forget.session = s.reset.session := by
  show { s with canvas := (s.root.erase s.canvas).forget } = start s.frame s.settings
  rw [erase_forget_eq_fresh henv hactive]
  rfl

/-- The drawing and the bindings are apart, so it does not matter which goes first. -/
theorem clear_forget_eq_reset (henv : s.canvas.env.IsGlobal) (hactive : s.canvas.active = []) :
    s.forget.session.clear.session = s.reset.session := by
  rw [← forget_clear_eq_reset henv hactive]
  rfl

/-- Erasing is what the program does that only clears. -/
theorem clear_eq_run (s : Session α) (span : Span) :
    s.clear.session = (s.run [.clear span]).session := by
  -- the program is a CLEAR and nothing after it
  rw [session_run, Branch.perform_cons_of_ok (Branch.perform_clear ..), Branch.perform_nil]
  rfl

end Session

/-- After any actions of a session, erasing and forgetting in either order leave the session that a
reset leaves, so all that is done afterwards has the same results. Erasing leaves the session that
the program leaves which only clears. -/
theorem clearing_and_forgetting_start_over (frame : Frame α) (settings : Settings α)
    (actions : List (Session.Action α)) :
    let s := (Session.start frame settings).after actions
    s.clear.session.forget.session = s.reset.session ∧
    s.forget.session.clear.session = s.reset.session ∧
    (∀ (later : List (Session.Action α)) (program : Program α),
      (s.clear.session.forget.session.after later).run program =
        (s.reset.session.after later).run program ∧
      (s.forget.session.clear.session.after later).run program =
        (s.reset.session.after later).run program) ∧
    ∀ span, s.clear.session = (s.run [.clear span]).session := by
  intro s
  have henv : s.canvas.env.IsGlobal := Session.isGlobal_after frame settings actions
  have hactive : s.canvas.active = [] := Session.active_after frame settings actions
  have hclear := Session.forget_clear_eq_reset henv hactive
  have hforget := Session.clear_forget_eq_reset henv hactive
  refine ⟨hclear, hforget, fun later program => ?_, s.clear_eq_run⟩
  rw [hclear, hforget]
  exact ⟨rfl, rfl⟩

end SelfSimilar
