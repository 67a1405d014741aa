import SelfSimilar.Proofs.Execution.Visits
import SelfSimilar.Proofs.Session.History
import SelfSimilar.Scalar.Double

/-!
# What stays balanced in a session

No action of a session leaves a fractal active, so each program starts without one. Inside the body
of a fractal, SELF stands for that fractal wherever it is met: what draws by name make active is
gone again when they have come to their end, and bindings do not matter to SELF.

* `Session.active_after`: between the actions of a session no fractal is active
* `Branch.run_drawSelf`: what SELF comes to where it stands for a given fractal
* `work_is_balanced`: the stack of active fractals, in all runs and for all statements of a body
-/

namespace SelfSimilar

variable {α : Type} [Scalar α]

/-- No action of a session leaves a fractal active. -/
theorem Session.active_perform {s : Session α} (a : Action α) (h : s.canvas.active = []) :
    (s.perform a).canvas.active = [] := by
  cases a with
  | run program =>
    -- a run restores the stack, which was empty
    exact perform_run_induct (fun c => c.active = []) fun _ hex => hex.active_eq.trans h
  | clear => exact h
  | reset => rfl
  | forget => exact h
  | setResolution resolution => exact h

/-- Between the actions of a session no fractal is active. -/
theorem Session.active_after (frame : Frame α) (settings : Settings α)
    (actions : List (Action α)) : ((start frame settings).after actions).canvas.active = [] :=
  after_induct (fun s => s.canvas.active = []) rfl (fun _ a => active_perform a) actions

namespace Branch

/-- What SELF comes to where it stands for `f`: the body of `f` on a child branch, or a line once
the branch has become small enough. -/
def drawnAs (b : Branch α) (f : Fractal α) (segment : Segment α) (ends : Point α × Point α)
    (c : Canvas α) : Outcome α Failure (Value α) :=
  if b.isResolvable then
    let child := b.child ends.1 ends.2
    let o := (child.runAll f.body (child.moveTo .origin c)).map .point
    ⟨o.result, o.canvas, .derived child.level child.frame :: o.events⟩
  else ⟨.ok (.point ends.2), b.lined segment ends c, [.bottomedOut b.level f.name]⟩

/-- Where SELF stands for `f` and its ends can be read, it draws `f`. -/
theorem run_drawSelf {b : Branch α} {c : Canvas α} {f : Fractal α} {segment : Segment α}
    {span : Span} {ends : Point α × Point α} (hf : c.current = .ok f)
    (hends : Stmt.endpoints (.drawSelf segment span) segment b c = .ok ends) :
    b.run (.drawSelf segment span) c = b.drawnAs f segment ends c := by
  -- SELF reads the stack and the ends, and no binding
  have hread : Stmt.selfDraw (.drawSelf segment span) segment b c = .ok (f, ends) :=
    Stmt.selfDraw_eq_ok.2 ⟨hf, hends⟩
  change b.perform (.one (.drawSelf segment span)) c = _
  unfold drawnAs
  cases hres : b.isResolvable with
  | true =>
    rw [perform_drawSelf_of_isResolvable hread hres rfl, if_pos rfl, perform_body]
  | false =>
    rw [perform_drawSelf_of_small hread hres, if_neg (by simp)]

end Branch

/-- Statements, bodies and programs leave the active fractals, the number of scopes and the settings
as they were, however they end, and no action of a session leaves a fractal active. All through the
body of a fractal that is drawn by name or by SELF, SELF stands for that fractal and draws it. -/
theorem work_is_balanced :
    (∀ (b : Branch α) (c : Canvas α),
      (∀ s, (b.run s c).canvas.active = c.active ∧
        (b.run s c).canvas.env.scopeCount = c.env.scopeCount) ∧
      (∀ body, (b.runAll body c).canvas.active = c.active ∧
        (b.runAll body c).canvas.env.scopeCount = c.env.scopeCount) ∧
      ∀ program, (b.runProgram program c).canvas.active = c.active ∧
        (b.runProgram program c).canvas.env.scopeCount = c.env.scopeCount) ∧
    (∀ (s : Session α) (program : Program α),
      (s.run program).session.settings = s.settings) ∧
    (∀ (frame : Frame α) (settings : Settings α) (actions : List (Session.Action α)),
      ((Session.start frame settings).after actions).canvas.active = []) ∧
    ∀ (b : Branch α) (c : Canvas α) (s : Stmt α) (f : Fractal α) (child : Branch α)
      (d : Canvas α), Draws b c s f child d →
        child.settings = b.settings ∧
        ∀ s' e, Meets child (.all .origin f.body) d s' e →
          e.current = .ok f ∧
          ∀ segment span ends, s' = .drawSelf segment span →
            s'.endpoints segment child e = .ok ends →
            child.run s' e = child.drawnAs f segment ends e := by
  -- statements and bodies are pieces of work, and work restores the stack
  have hbody : ∀ (b : Branch α) (body : List (Stmt α)) (c : Canvas α),
      (b.runAll body c).canvas.active = c.active ∧
        (b.runAll body c).canvas.env.scopeCount = c.env.scopeCount := by
    intro b body c
    have hex := execution_perform b (.all .origin body) c
    rw [b.perform_body] at hex
    exact ⟨hex.active_eq, hex.scopeCount_eq⟩
  refine ⟨fun b c => ⟨?_, ?_, ?_⟩, ?_, Session.active_after, ?_⟩
  · intro s
    have hex := execution_perform b (.one s) c
    exact ⟨hex.active_eq, hex.scopeCount_eq⟩
  · exact fun body => hbody b body c
  · intro program
    rw [Branch.canvas_runProgram]
    exact hbody b program c
  · intro s program
    rw [s.session_run]
  · intro b c s f child d hdraws
    refine ⟨hdraws.settings_eq, fun s' e hmeets => ?_⟩
    -- the stack met by a statement of the body is the one that the body was begun with
    have hcurrent : e.current = .ok f := by
      have hd := hdraws.current_eq
      unfold Canvas.current at hd ⊢
      rw [hmeets.active_eq, hd]
    refine ⟨hcurrent, ?_⟩
    rintro segment span ends rfl hends
    exact Branch.run_drawSelf hcurrent hends

/-- After a draw by name inside the body, and after the body has bound its own name anew, SELF still
stands for the fractal that is drawn. -/
theorem work_is_balanced_rebound :
    let unit : Segment Float := .between .origin .xUnit
    let f : Fractal Float :=
      ⟨"f", [.draw "g" unit {}, .define "f" [] {}, .drawSelf unit {}], .globals⟩
    let b : Branch Float := .root .standard .identity
    let c : Canvas Float := b.bind "g" (.fractal ⟨"g", [], .globals⟩)
      (b.bind "f" (.fractal f) (.fresh .identity))
    let child := (b.child .origin .xUnit).within .globals
    let d := (child.moveTo .origin c).start f
    Draws b c (.draw "f" unit {}) f child d ∧
      ∃ e, Meets child (.all .origin f.body) d (.drawSelf unit {}) e ∧
        child.lookup e "f" = .ok (.fractal ⟨"f", [], .globals⟩) ∧ e.current = .ok f ∧
        child.run (.drawSelf unit {}) e = child.drawnAs f unit (.origin, .xUnit) e := by
  intro unit f b c child d
  have hdraws : Draws b c (.draw "f" unit {}) f child d := .named rfl (by decide) rfl
  have hread : Stmt.namedDraw (.draw "g" unit {}) "g" unit child d =
      .ok ((.origin, .xUnit), ⟨"g", [], .globals⟩) := rfl
  -- the body of `g` is empty
  have hdrawn := Branch.perform_draw_of_lt hread (by decide) rfl
  rw [Branch.perform_nil] at hdrawn
  -- the draw of `g` and the definition come to their ends before SELF is met
  have hmeets : ∃ e, Meets child (.all .origin f.body) d (.drawSelf unit {}) e ∧
      child.lookup e "f" = .ok (.fractal ⟨"f", [], .globals⟩) :=
    ⟨_, .later hdrawn (.later (child.perform_define ..) (.first .here)), rfl⟩
  obtain ⟨e, hmeets, hlookup⟩ := hmeets
  obtain ⟨hcurrent, hself⟩ :=
    (work_is_balanced.2.2.2 b c _ f child d hdraws).2 (.drawSelf unit {}) e hmeets
  exact ⟨hdraws, e, hmeets, hlookup, hcurrent, hself unit {} _ rfl rfl⟩

end SelfSimilar
