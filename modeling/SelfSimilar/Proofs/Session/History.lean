import SelfSimilar.Proofs.Execution.Rules
import SelfSimilar.Session

/-!
# Histories of a session

What a session is after some actions, and what holds of it when each action keeps it
(`Session.after_induct`). A run changes the canvas and nothing else (`Session.session_run`).
-/

namespace SelfSimilar

variable {α : Type} [Scalar α]

namespace Session

/-- The session after some actions. -/
def after (s : Session α) (actions : List (Action α)) : Session α := actions.foldl perform s

/-- What holds at first and is kept by each action holds after any actions. -/
theorem after_induct (P : Session α → Prop) {s : Session α} (hs : P s)
    (hstep : ∀ s a, P s → P (s.perform a)) (actions : List (Action α)) : P (s.after actions) := by
  induction actions generalizing s with
  | nil => exact hs
  | cons a rest ih => exact ih (hstep s a hs)

variable (s : Session α) (program : Program α)

/-- A run changes the canvas only, by the work of the root branch. -/
theorem session_run :
    (s.run program).session =
      { s with canvas := (s.root.perform (.all .origin program) s.canvas).canvas } := by
  -- to report the end of a program leaves the canvas as it is
  have hcanvas : (s.root.perform (.all .origin program) s.canvas).canvas =
      (s.root.runProgram program s.canvas).canvas := by
    rw [Branch.canvas_runProgram, Branch.perform_body]
    rfl
  rw [hcanvas]
  unfold run
  cases h : (s.root.runProgram program s.canvas).result <;> simp only [h]

/-- No action changes the frame. -/
theorem frame_after (frame : Frame α) (settings : Settings α) (actions : List (Action α)) :
    ((start frame settings).after actions).frame = frame := by
  refine after_induct (fun s => s.frame = frame) rfl (fun s a hs => ?_) actions
  cases a with
  | run program =>
    show (s.run program).session.frame = frame
    rw [session_run]
    exact hs
  | _ => exact hs

variable {s program} in
/-- What holds of the canvas that the work of the root branch leaves holds after a run. -/
theorem perform_run_induct (P : Canvas α → Prop)
    (h : ∀ o, Execution s.root (.all .origin program) s.canvas o → P o.canvas) :
    P (s.perform (.run program)).canvas := by
  show P (s.run program).session.canvas
  rw [session_run]
  exact h _ (execution_perform _ _ _)

/-- The rendering is read off what the root branch leaves, unless it fails. -/
theorem value_run :
    (s.run program).value =
      let o := s.root.runProgram program s.canvas
      o.result.map fun resultant =>
        ⟨o.canvas.path.commands, resultant, o.canvas.path.hash.value⟩ := by
  unfold run
  cases h : (s.root.runProgram program s.canvas).result <;> simp only [h, Except.map]

variable {s program} in
/-- The work of a program yields a point or fails, and the reply to the program is read off what the
work leaves. -/
theorem run_cases {o : Outcome α Failure (Value α)}
    (h : Execution s.root (.all .origin program) s.canvas o) :
    (∃ p, o.result = .ok (.point p) ∧
      s.run program = ⟨.ok ⟨o.canvas.path.commands, p, o.canvas.path.hash.value⟩,
        { s with canvas := o.canvas },
        o.events ++ [.finished o.canvas.path.segmentCount p o.canvas.path.hash.value]⟩) ∨
    ∃ e, o.result = .error e ∧
      s.run program = ⟨.error e, { s with canvas := o.canvas }, o.events ++ [.failed e]⟩ := by
  -- the outcome is that of the run
  obtain rfl := h.eq_perform
  simp only [Branch.perform_body, run, Branch.runProgram_apply, Outcome.map]
  rcases s.root.runAll program s.canvas with ⟨e | p, d, events⟩
  · exact .inr ⟨e, rfl, rfl⟩
  · exact .inl ⟨p, rfl, rfl⟩

variable {s program} in
/-- The reply to a program whose work yields a point. -/
theorem run_of_ok {o : Outcome α Failure (Value α)} {p : Point α}
    (h : Execution s.root (.all .origin program) s.canvas o) (hp : o.result = .ok (.point p)) :
    s.run program = ⟨.ok ⟨o.canvas.path.commands, p, o.canvas.path.hash.value⟩,
      { s with canvas := o.canvas },
      o.events ++ [.finished o.canvas.path.segmentCount p o.canvas.path.hash.value]⟩ := by
  rcases run_cases h with ⟨p', hp', hrun⟩ | ⟨e, he, _⟩
  · cases hp.symm.trans hp'
    exact hrun
  · cases hp.symm.trans he

variable {s program} in
/-- The reply to a program whose work fails. -/
theorem run_of_error {o : Outcome α Failure (Value α)} {e : Failure}
    (h : Execution s.root (.all .origin program) s.canvas o) (he : o.result = .error e) :
    s.run program = ⟨.error e, { s with canvas := o.canvas }, o.events ++ [.failed e]⟩ := by
  rcases run_cases h with ⟨p, hp, _⟩ | ⟨e', he', hrun⟩
  · cases he.symm.trans hp
  · cases he.symm.trans he'
    exact hrun

variable {s program} in
/-- The work of a program yields a point, which is the resultant, or it fails as the program
does. -/
theorem value_run_cases {o : Outcome α Failure (Value α)}
    (h : Execution s.root (.all .origin program) s.canvas o) :
    (∃ p, o.result = .ok (.point p) ∧
      (s.run program).value = .ok ⟨o.canvas.path.commands, p, o.canvas.path.hash.value⟩) ∨
    ∃ e, o.result = .error e ∧ (s.run program).value = .error e := by
  rcases run_cases h with ⟨p, hp, hrun⟩ | ⟨e, he, hrun⟩
  · exact .inl ⟨p, hp, congrArg Reply.value hrun⟩
  · exact .inr ⟨e, he, congrArg Reply.value hrun⟩

variable {s program} in
/-- The rendering of a program whose work yields a point. -/
theorem value_run_of_ok {o : Outcome α Failure (Value α)} {p : Point α}
    (h : Execution s.root (.all .origin program) s.canvas o) (hp : o.result = .ok (.point p)) :
    (s.run program).value = .ok ⟨o.canvas.path.commands, p, o.canvas.path.hash.value⟩ :=
  congrArg Reply.value (run_of_ok h hp)

variable {s program} in
/-- The failure of a program whose work fails. -/
theorem value_run_of_error {o : Outcome α Failure (Value α)} {e : Failure}
    (h : Execution s.root (.all .origin program) s.canvas o) (he : o.result = .error e) :
    (s.run program).value = .error e :=
  congrArg Reply.value (run_of_error h he)

/-- Where a program comes to the same result in two sessions, both fail with the same failure, or
both have the same resultant. -/
theorem value_run_of_result_eq {s₁ s₂ : Session α} {program : Program α}
    {o₁ o₂ : Outcome α Failure (Value α)}
    (h₁ : Execution s₁.root (.all .origin program) s₁.canvas o₁)
    (h₂ : Execution s₂.root (.all .origin program) s₂.canvas o₂) (h : o₁.result = o₂.result) :
    (∃ e, (s₁.run program).value = .error e ∧ (s₂.run program).value = .error e) ∨
    ∃ r₁ r₂, (s₁.run program).value = .ok r₁ ∧ (s₂.run program).value = .ok r₂ ∧
      r₁.resultant = r₂.resultant := by
  rcases value_run_cases h₁ with ⟨p, hp, hvalue⟩ | ⟨e, he, hvalue⟩
  · exact .inr ⟨_, _, hvalue, value_run_of_ok h₂ (h.symm.trans hp), rfl⟩
  · exact .inl ⟨e, hvalue, value_run_of_error h₂ (h.symm.trans he)⟩

end Session

end SelfSimilar
