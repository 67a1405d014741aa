import SelfSimilar.Proofs.Execution.Rewriting
import SelfSimilar.Scalar.Double

/-!
# Drawing a fractal from inside

Inside a fractal there are two ways to draw it once more: SELF, and a draw by the name that it is
bound to. The draw by name adds the fractal to the active ones, where it already is the innermost.
No statement looks below the innermost one, so that makes no difference to the body.

* `Execution.of_head_eq`: work does the same whatever is active below the innermost fractal
* `Draws.run_eq`: statements that run the same body in the same place end alike
* `self_is_a_draw_by_name`: SELF and the draw by name end alike
-/

namespace SelfSimilar

variable {α : Type} [Scalar α] {b child : Branch α} {t : Task α} {c c₁ c₂ d d₁ d₂ : Canvas α}
  {o₁ : Outcome α Failure (Value α)} {s s₁ s₂ : Stmt α} {f : Fractal α}

/-- Work does the same on canvases with the same path, the same bindings and the same innermost
fractal. -/
theorem Execution.of_head_eq (h : Execution b t c₁ o₁) (hpath : c₂.path = c₁.path)
    (henv : c₂.env = c₁.env) (hhead : c₂.active.head? = c₁.active.head?) :
    ∃ o₂, Execution b t c₂ o₂ ∧ o₂.result = o₁.result ∧ o₂.canvas.path = o₁.canvas.path ∧
      o₂.canvas.env = o₁.canvas.env := by
  have hc : c₁.Rewritten id Eq c₂ := by
    refine ⟨?_, ?_, hpath.symm⟩
    · rw [henv, Value.rewrite_id, Environment.map_id]
    · rw [hhead, Fractal.rewrite_id, Option.map_id, id]
  -- nothing is rewritten, so every statement stays as it is
  have halike : b.RunsAlike id Eq Eq t c₁ := fun _ _ _ _ _ hplain hd =>
    Stmt.runsAlike_of_eq Path.congruence_eq (fun _ => rfl) hd hplain rfl
  obtain ⟨o₂, hex, hresult, hd⟩ := h.rewritten Stmt.rewriting_id halike hc
  have htask : t.rewrite id = t := by cases t <;> simp [Task.rewrite]
  rw [htask] at hex
  refine ⟨o₂, hex, ?_, hd.related.symm, ?_⟩
  · cases hends : o₁.result with
    -- a value that nothing rewrites is the value itself
    | ok v =>
      rw [hends] at hresult
      rw [hresult.eq_ok, Value.rewrite_id, id]
    | error e =>
      rw [hends] at hresult
      obtain ⟨_, he, rfl⟩ := hresult.eq_error
      exact he
  · rw [hd.env_eq, Value.rewrite_id, Environment.map_id]

/-- Two statements that run the same body in the same place end alike. -/
theorem Draws.run_eq (h₁ : Draws b c s₁ f child d₁) (h₂ : Draws b c s₂ f child d₂) :
    (b.run s₁ c).result = (b.run s₂ c).result ∧ (b.run s₁ c).canvas = (b.run s₂ c).canvas := by
  have hhead₁ := Canvas.current_eq_ok.1 h₁.current_eq
  have hhead₂ := Canvas.current_eq_ok.1 h₂.current_eq
  -- the bodies are begun on one branch, with the same path, bindings and innermost fractal
  have inner₁ := execution_perform child (.all .origin f.body) d₁
  obtain ⟨o₂, inner₂, hresult, hpath, henv⟩ := inner₁.of_head_eq (h₂.path_eq.trans h₁.path_eq.symm)
    (h₂.env_eq.trans h₁.env_eq.symm) (hhead₂.trans hhead₁.symm)
  have hrun₁ : b.run s₁ c = _ := (h₁.execution inner₁).eq_perform
  have hrun₂ : b.run s₂ c = _ := (h₂.execution inner₂).eq_perform
  rw [hrun₁, hrun₂]
  -- both put back the fractals that were active before
  simp only [Outcome.above, hresult, hpath, henv, and_self]

/-- Where SELF is drawn as a fractal and a name is bound to the fractal that it stands for, SELF and
the draw by that name between the same ends have the same value, or fail in the same way, and leave
the same canvas: the same path with the same hash, the same bindings and the same active fractals.
The failures differ, each naming its own draw, only if the source is left out and the pen cannot be
read. -/
theorem self_is_a_draw_by_name (b : Branch α) (c : Canvas α) (f : Fractal α) (name : String)
    (segment : Segment α) (span span' : Span) (hlarge : b.isResolvable = true)
    (hcurrent : c.current = .ok f) (hscope : f.scope = b.scope)
    (hname : b.lookup c name = .ok (.fractal f)) :
    let self : Stmt α := .drawSelf segment span
    let named : Stmt α := .draw name segment span'
    (b.run self c).canvas = (b.run named c).canvas ∧
    ((b.run self c).result = (b.run named c).result ∨
      segment.source = none ∧ b.pen c = .error .singularFrame ∧
      (b.run self c).result = .error ⟨.singularFrame, self.text, span⟩ ∧
      (b.run named c).result = .error ⟨.singularFrame, named.text, span'⟩) := by
  intro self named
  have hroom : b.level < b.depthLimit := Branch.lt_depthLimit_of_isResolvable hlarge
  -- what is left to read are the ends, which is where both may fail
  have hunread : ∀ e e', self.endpoints segment b c = .error e →
      named.endpoints segment b c = .error e' →
      b.run self c = ⟨.error e, c, b.report e.fault⟩ ∧
      b.run named c = ⟨.error e', c, b.report e'.fault⟩ := by
    intro e e' he he'
    refine ⟨Branch.perform_drawSelf_of_error ?_, Branch.perform_draw_of_error ?_⟩
    · simp only [Stmt.selfDraw, hcurrent]
      rw [he]
      rfl
    · rw [Stmt.namedDraw, he']
      rfl
  rcases Stmt.endpoints_cases segment b c with ⟨ends, hends⟩ | ⟨e, he⟩ | ⟨hsource, hpen, hfail⟩
  -- where the ends can be read, both run the body on the same child
  · have hself : Draws b c self f (b.child ends.1 ends.2) _ :=
      .self (Stmt.selfDraw_eq_ok.2 ⟨hcurrent, hends self⟩) hlarge rfl
    have hnamed : Draws b c named f (b.child ends.1 ends.2) _ :=
      .named (Stmt.namedDraw_eq_ok.2 ⟨hends named, hname⟩) hroom (by rw [hscope]; rfl)
    obtain ⟨hresult, hcanvas⟩ := hself.run_eq hnamed
    exact ⟨hcanvas, .inl hresult⟩
  -- where a written end fails, both fail with its failure
  · obtain ⟨hself, hnamed⟩ := hunread e e (he self) (he named)
    rw [hself, hnamed]
    exact ⟨rfl, .inl rfl⟩
  -- where the pen is asked for and has no place, each names itself
  · obtain ⟨hself, hnamed⟩ := hunread _ _ (hfail self) (hfail named)
    rw [hself, hnamed]
    exact ⟨rfl, .inr ⟨hsource, hpen, rfl, rfl⟩⟩

/-- One level inside a fractal that draws a line and then itself. -/
theorem self_is_a_draw_by_name_inside :
    let segment : Segment Float := .between .origin .xUnit
    let f : Fractal Float := ⟨"f", [.line segment {}, .drawSelf segment {}], .globals⟩
    let b : Branch Float := (Branch.root .standard .identity).child .origin .xUnit
    let c : Canvas Float := (b.bind "f" (.fractal f) (.fresh .identity)).start f
    (b.isResolvable = true ∧ c.current = .ok f ∧ f.scope = b.scope ∧
      b.lookup c "f" = .ok (.fractal f)) ∧
    (b.run (.drawSelf segment {}) c).canvas = (b.run (.draw "f" segment {}) c).canvas ∧
    (b.run (.drawSelf segment {}) c).result = (b.run (.draw "f" segment {}) c).result := by
  intro segment f b c
  have hlarge : b.isResolvable = true := by decide +kernel
  obtain ⟨hcanvas, hresult⟩ :=
    self_is_a_draw_by_name b c f "f" segment {} {} hlarge rfl rfl rfl
  refine ⟨⟨hlarge, rfl, rfl, rfl⟩, hcanvas, ?_⟩
  rcases hresult with hresult | ⟨hsource, _⟩
  · exact hresult
  · -- the segment has a source, so the pen is not read
    cases hsource

end SelfSimilar
