import SelfSimilar.Proofs.Execution.Origin
import SelfSimilar.Proofs.Session.Rewriting
import SelfSimilar.Scalar.Double

/-!
# Fractals of straight lines

SELF is drawn as a line once it is small or deep enough. With at most one level for SELF it is never
drawn otherwise: inside the body of a fractal that level is taken. So a program draws what it would
draw with a line for each SELF in the bodies of its fractals.

* `Stmt.straighten`: a line for each SELF in a statement, at any depth
* `Stmt.runsAlike_straighten`: SELF on a branch without a level left does what the line does
* `self_ends_as_a_line`: so do whole programs
-/

namespace SelfSimilar

variable {α : Type}

/-! ## Straightened statements -/

mutual

/-- A line for each SELF in the statement, also inside blocks and definitions. -/
def Stmt.straighten : Stmt α → Stmt α
  | .block body span => .block (straightenAll body) span
  | .define name body span => .define name (straightenAll body) span
  | .drawSelf segment span => .line segment span
  | s => s

/-- A line for each SELF in the statements. -/
def Stmt.straightenAll : List (Stmt α) → List (Stmt α)
  | [] => []
  | s :: rest => s.straighten :: straightenAll rest

end

/-- Statements are straightened one by one. -/
theorem Stmt.straightenAll_eq_map (body : List (Stmt α)) :
    straightenAll body = body.map straighten := by
  induction body with
  | nil => rfl
  | cons s rest ih => rw [straightenAll, ih, List.map_cons]

/-- To straighten goes into blocks and definitions and leaves them where they are. -/
theorem Stmt.rewriting_straighten : Stmt.Rewriting (straighten : Stmt α → Stmt α) where
  block body span := ⟨span, by rw [straighten, straightenAll_eq_map]⟩
  define name body span := ⟨span, by rw [straighten, straightenAll_eq_map]⟩

variable [Scalar α]

/-! ## SELF without a level left -/

section

variable {s s' : Stmt α} {segment : Segment α} {span : Span} {b : Branch α} {c c₁ c₂ : Canvas α}
  {ends : Point α × Point α} {e : Failure}

/-- The ends of a segment are those of any other statement with the segment. -/
theorem Stmt.endpoints_eq_ok_of (h : s.endpoints segment b c = .ok ends) (s' : Stmt α) :
    s'.endpoints segment b c = .ok ends :=
  eq_ok_of_mapError (mapError_endpoints s s' segment b c) h

/-- The failure may name the statement, which wants to read the pen. -/
theorem Stmt.endpoints_eq_error_of (h : s.endpoints segment b c = .error e) (s' : Stmt α) :
    ∃ e', s'.endpoints segment b c = .error e' ∧ e.SameFault e' :=
  eq_error_of_mapError (mapError_endpoints s s' segment b c) h

/-- While a fractal is active, SELF fails only where its ends cannot be read. -/
theorem Stmt.endpoints_eq_error_of_selfDraw (hactive : c.active ≠ [])
    (h : s.selfDraw segment b c = .error e) : s.endpoints segment b c = .error e := by
  rcases bind_eq_error.1 h with hcurrent | ⟨f, _, h⟩
  · obtain ⟨_, hfault, _⟩ := attach_eq_error.1 hcurrent
    exact absurd (Canvas.current_eq_error hfault).2 hactive
  · rcases bind_eq_error.1 h with hends | ⟨_, _, h⟩
    · exact hends
    · cases h

/-- On a branch without a level left for SELF, and while a fractal is active, SELF does what the
line does that it is straightened to. -/
theorem Stmt.runsAlike_straighten (hsmall : b.isResolvable = false) (hactive : c₁.active ≠ [])
    (hc : c₁.Rewritten straighten Eq c₂) :
    (Stmt.drawSelf segment span).RunsAlike straighten Eq Failure.SameFault b c₁ c₂ := by
  have hreads : ∀ s : Stmt α, s.endpoints segment b c₂ = s.endpoints segment b c₁ :=
    fun s => endpoints_rewritten hc Path.congruence_eq segment
  constructor
  -- SELF runs no body on a small branch
  · rintro f child d₁ (_ | ⟨_, large, _⟩)
    rw [hsmall] at large
    cases large
  -- both draw the same line, or cannot read its ends
  · intro o₁ _ hex
    rw [straighten]
    cases hex with
    | self _ large _ _ =>
      rw [hsmall] at large
      cases large
    | selfLine read _ =>
      have hline := endpoints_eq_ok_of (selfDraw_eq_ok.1 read).2 (.line segment span)
      exact ⟨_, .line ((hreads _).trans hline), .ok (.point _), hc.lined Path.congruence_eq _ _⟩
    | selfUnread read =>
      obtain ⟨e', hline, hsame⟩ :=
        endpoints_eq_error_of (endpoints_eq_error_of_selfDraw hactive read) (.line segment span)
      exact ⟨_, .lineUnread ((hreads _).trans hline), .error hsame, hc⟩

end

/-! ## Whole programs -/

/-- A run of a program that has SELF in the bodies of fractals only and at most one level for it. -/
theorem Branch.runsAlike_straighten {b : Branch α} {t : Task α} {c : Canvas α}
    (hdepth : b.settings.maxDepth ≤ b.level + 1)
    (hself : ∀ segment span, ¬ Stmt.StandsIn (.drawSelf segment span) t.statements) :
    b.RunsAlike Stmt.straighten Eq Failure.SameFault t c := by
  intro b' s d₁ d₂ hv hplain hd
  cases s with
  | drawSelf segment span =>
    rcases hv.meets_or_below with ⟨_, met⟩ | ⟨hlevel, hactive⟩
    · exact absurd met.standsIn (hself segment span)
    · -- the level that there may be for SELF is taken by the fractal around it
      have hsmall : b'.isResolvable = false := by
        rw [Bool.eq_false_iff]
        intro hlarge
        have hlimit := Branch.level_lt_of_isResolvable hlarge
        rw [hv.settings_eq, Settings.selfLimit] at hlimit
        omega
      exact Stmt.runsAlike_straighten hsmall hactive hd
  | block _ _ => exact hplain.elim
  | define _ _ _ => exact hplain.elim
  | _ => exact Stmt.runsAlike_of_eq Path.congruence_eq (fun _ => rfl) hd hplain rfl

/-- Two programs whose runs draw the same path and end alike have the same rendering, or both
fail. -/
theorem Session.value_run_rewritten {g : Stmt α → Stmt α} {E : Failure → Failure → Prop}
    {s₁ s₂ : Session α} {program₁ program₂ : Program α} {o₁ o₂ : Outcome α Failure (Value α)}
    (h₁ : Execution s₁.root (.all .origin program₁) s₁.canvas o₁)
    (h₂ : Execution s₂.root (.all .origin program₂) s₂.canvas o₂) (h : o₁.Rewritten g Eq E o₂) :
    (∃ r, (s₁.run program₁).value = .ok r ∧ (s₂.run program₂).value = .ok r) ∨
    ∃ e₁ e₂, (s₁.run program₁).value = .error e₁ ∧ (s₂.run program₂).value = .error e₂ ∧
      E e₁ e₂ := by
  refine (value_run_related h₁ h₂ h).imp_left ?_
  rintro ⟨p, path, _, rfl, hvalue₁, hvalue₂⟩
  exact ⟨_, hvalue₁, hvalue₂⟩

/-- A program that has SELF in the bodies of fractals only is rendered with at most one level for
SELF, and so is the program with a line for each SELF. Either both have the same rendering, so the
same commands, the same resultant and the same hash, or both fail with the same fault. -/
theorem self_ends_as_a_line (program : Program α) (frame : Frame α) (settings : Settings α)
    (hdepth : settings.maxDepth ≤ 1)
    (hself : ∀ segment span, ¬ Stmt.StandsIn (.drawSelf segment span) program) :
    let reply := render program frame settings
    let straight := render (program.map Stmt.straighten) frame settings
    (∃ r, reply.value = .ok r ∧ straight.value = .ok r) ∨
    ∃ e e', reply.value = .error e ∧ straight.value = .error e' ∧ e.fault = e'.fault := by
  intro reply straight
  have hstart : (Canvas.fresh frame).Rewritten Stmt.straighten Eq (Canvas.fresh frame) :=
    ⟨(Environment.map_rewrite_predefined _).symm, rfl, rfl⟩
  let s : Session α := .start frame settings
  have hex : Execution s.root (.all .origin program) s.canvas _ := execution_perform _ _ _
  have halike : s.root.RunsAlike Stmt.straighten Eq Failure.SameFault (.all .origin program)
      s.canvas := Branch.runsAlike_straighten hdepth hself
  obtain ⟨o', hex', hends⟩ := hex.rewritten Stmt.rewriting_straighten halike hstart
  exact Session.value_run_rewritten hex hex' hends

/-- A fractal that goes on from where the pen is, and draws one that it defines inside. -/
theorem self_ends_as_a_line_inside :
    let self : Stmt Float := .drawSelf ⟨none, .literal (.point .xUnit) {}⟩ {}
    let line : Stmt Float := .line ⟨none, .literal (.point .xUnit) {}⟩ {}
    let draw (name : String) : Stmt Float := .draw name (.between .origin .xUnit) {}
    let body (s : Stmt Float) : List (Stmt Float) := [.define "g" [s] {}, draw "g", s]
    let program : Program Float := [.define "f" (body self) {}, draw "f"]
    let settings : Settings Float := ⟨0, 1⟩
    (settings.maxDepth ≤ 1 ∧ ∀ segment span, ¬ Stmt.StandsIn (.drawSelf segment span) program) ∧
      program.map Stmt.straighten = [.define "f" (body line) {}, draw "f"] ∧
      ∃ r, (render program .identity settings).value = .ok r ∧
        (render (program.map Stmt.straighten) .identity settings).value = .ok r := by
  intro self line draw body program settings
  have hself : ∀ segment span, ¬ Stmt.StandsIn (.drawSelf segment span) program := by
    rintro segment span (mem | ⟨mem, _⟩) <;> simp [program, draw] at mem
  -- the program is drawn, so the second case does not arise
  have hok : (render program .identity settings).value.isOk = true := by decide +kernel
  refine ⟨⟨Nat.le_refl 1, hself⟩, rfl, ?_⟩
  rcases self_ends_as_a_line program .identity settings (Nat.le_refl 1) hself with
    hrendered | ⟨e, _, hfails, _⟩
  · exact hrendered
  · rw [hfails] at hok
    cases hok

end SelfSimilar
