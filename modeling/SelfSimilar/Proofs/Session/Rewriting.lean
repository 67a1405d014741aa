import SelfSimilar.Proofs.Execution.Globals
import SelfSimilar.Proofs.Execution.Rewriting
import SelfSimilar.Proofs.Session.History

/-!
# Rendering rewritten programs

At first nothing is bound that could be rewritten. So a program and a rewritten one are rendered on
canvases that differ only by the rewriting, and the renderings are as related as the paths are.

* `Canvas.rewritten_fresh`: where both programs start
* `Session.value_run_related`: what the two renderings have in common
-/

namespace SelfSimilar

variable {α : Type} [Scalar α] {g : Stmt α → Stmt α} {R : Path α → Path α → Prop}
  {E : Failure → Failure → Prop}

/-- Two failures with the same fault, which may name different nodes. -/
def Failure.SameFault (e₁ e₂ : Failure) : Prop := e₁.fault = e₂.fault

/-- The predefined values are points, which are not rewritten. -/
theorem Environment.map_rewrite_predefined (g : Stmt α → Stmt α) :
    (predefined : Environment (Value α)).map (Value.rewrite g) = predefined := by
  simp only [predefined_eq_global, global, map, Scope.map, List.map, Bindings.predefined,
    Bindings.insert_map]
  rfl

/-- Both programs start on the same canvas, with nothing to rewrite. -/
theorem Canvas.rewritten_fresh (hR : Path.Congruence R) (frame : Frame α) :
    (fresh frame).Rewritten g R (fresh frame) :=
  ⟨(Environment.map_rewrite_predefined _).symm, rfl, hR.startingAt _⟩

/-- Two programs whose runs draw related paths and end alike have the same resultant, or both
fail. -/
theorem Session.value_run_related {s₁ s₂ : Session α} {program₁ program₂ : Program α}
    {o₁ o₂ : Outcome α Failure (Value α)}
    (h₁ : Execution s₁.root (.all .origin program₁) s₁.canvas o₁)
    (h₂ : Execution s₂.root (.all .origin program₂) s₂.canvas o₂) (h : o₁.Rewritten g R E o₂) :
    (∃ (p : Point α) (path₁ path₂ : Path α), R path₁ path₂ ∧
      (s₁.run program₁).value = .ok ⟨path₁.commands, p, path₁.hash.value⟩ ∧
      (s₂.run program₂).value = .ok ⟨path₂.commands, p, path₂.hash.value⟩) ∨
    ∃ e₁ e₂, (s₁.run program₁).value = .error e₁ ∧ (s₂.run program₂).value = .error e₂ ∧
      E e₁ e₂ := by
  have hresult := h.result
  -- points are not rewritten, so the resultant is the same
  rcases value_run_cases h₁ with ⟨p, hp, hvalue₁⟩ | ⟨e, he, hvalue₁⟩
  · rw [hp] at hresult
    exact .inl ⟨p, _, _, h.canvas.related, hvalue₁, value_run_of_ok h₂ hresult.eq_ok⟩
  · rw [he] at hresult
    obtain ⟨e', he', hrelated⟩ := hresult.eq_error
    exact .inr ⟨e, e', hvalue₁, value_run_of_error h₂ he', hrelated⟩

end SelfSimilar
