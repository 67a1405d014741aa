import SelfSimilar.Proofs.Execution.Bodies
import SelfSimilar.Proofs.Execution.Settings
import SelfSimilar.Proofs.Scalar.Exact
import SelfSimilar.Proofs.Session.Balance

/-!
# Sessions under other settings

The resolution and `maxDepth` say when SELF becomes a line. Where no SELF is within reach, the
resolution does not matter at all, and `maxDepth` matters only to draws by name that nest too deep:
a program that gets by with some `maxDepth` does the same with any greater one.

* `Session.run_under`: a program without SELF under other settings
* `settings_matter_to_self_only`: all resolutions and all values of `maxDepth` compared
-/

namespace SelfSimilar

variable {α : Type}

/-- Two replies are alike: the same answer and the same events, on the same canvas. The settings of
the sessions may differ. -/
structure Reply.Alike {β : Type} (reply₁ reply₂ : Reply α β) : Prop where
  value_eq : reply₁.value = reply₂.value
  canvas_eq : reply₁.session.canvas = reply₂.session.canvas
  events_eq : reply₁.events = reply₂.events

/-- A program has failed because of its depth. -/
def Reply.IsTooDeep {β : Type} (reply : Reply α (Except Failure β)) : Prop :=
  ∃ e limit, reply.value = .error e ∧ e.fault = .tooDeep limit

/-- Of two replies that are alike, both tell of the depth or none does. -/
theorem Reply.Alike.isTooDeep {β : Type} {reply₁ reply₂ : Reply α (Except Failure β)}
    (h : reply₁.Alike reply₂) (hdeep : reply₂.IsTooDeep) : reply₁.IsTooDeep := by
  obtain ⟨e, limit, he, hfault⟩ := hdeep
  exact ⟨e, limit, h.value_eq.trans he, hfault⟩

variable [Scalar α]

namespace Session

/-- Where its work is the same, so is a program. -/
theorem run_alike {s₁ s₂ : Session α} {program : Program α} (hcanvas : s₁.canvas = s₂.canvas)
    (h : s₁.root.perform (.all .origin program) s₁.canvas =
      s₂.root.perform (.all .origin program) s₁.canvas) :
    (s₁.run program).Alike (s₂.run program) := by
  have hrun := Branch.runProgram_eq_of_perform_eq h
  unfold run
  rw [← hcanvas, hrun]
  rcases s₂.root.runProgram program s₁.canvas with ⟨_ | _, _, _⟩ <;> exact ⟨rfl, rfl, rfl⟩

/-- A program without SELF comes to the same under settings with the same limit, and unless it fails
because of its depth, under settings with a greater limit. -/
theorem run_under {s : Session α} {program : Program α} {settings : Settings α}
    (hprogram : Stmt.Throughout Stmt.NotSelf program) (hknown : s.canvas.Throughout Stmt.NotSelf)
    (hle : s.settings.depthLimit ≤ settings.depthLimit)
    (hsame : s.settings.depthLimit = settings.depthLimit ∨ ¬ (s.run program).IsTooDeep) :
    (s.run program).Alike (({ s with settings } : Session α).run program) := by
  have hex := execution_perform s.root (.all .origin program) s.canvas
  -- SELF is not within reach, so none is begun
  have hself : ∀ b st c, Visits s.root (.all .origin program) s.canvas b st c → st.NotSelf :=
    fun b st c hv => hv.holds hprogram hknown
  refine run_alike rfl (hex.under hself hle ?_).eq_perform.symm
  exact hsame.imp_right fun hnot e limit he hfault =>
    hnot ⟨e, limit, value_run_of_error hex he, hfault⟩

end Session

/-- If SELF occurs neither in a program nor in the body of a fractal that is bound, then after any
actions of a session the program comes to the same under all resolutions: the same rendering or the
same failure, the same canvas and the same events. If it does not fail because of its depth, it
comes to the same with any greater `maxDepth`. So if it fails because of its depth with the greater
one, it does so with the smaller one. -/
theorem settings_matter_to_self_only (frame : Frame α) (settings : Settings α)
    (actions : List (Session.Action α)) (program : Program α)
    (hprogram : Stmt.Throughout Stmt.NotSelf program)
    (hbound : ∀ f, ((Session.start frame settings).after actions).canvas.env.Binds (.fractal f) →
      Stmt.Throughout Stmt.NotSelf f.body) :
    let s := (Session.start frame settings).after actions
    let run (resolution : α) (maxDepth : Nat) :=
      ({ s with settings := ⟨resolution, maxDepth⟩ } : Session α).run program
    (∀ r r' d, (run r d).Alike (run r' d)) ∧
    ∀ r r' d d', d ≤ d' →
      (¬ (run r d).IsTooDeep → (run r d).Alike (run r' d')) ∧
      ((run r' d').IsTooDeep → (run r d).IsTooDeep) := by
  intro s run
  have hactive : s.canvas.active = [] := Session.active_after frame settings actions
  have hknown : s.canvas.Throughout Stmt.NotSelf := Canvas.KnowsOnly.of_binds hactive hbound
  have hgreater : ∀ r r' d d', d ≤ d' → ¬ (run r d).IsTooDeep → (run r d).Alike (run r' d') :=
    fun r r' d d' hd hnot =>
      Session.run_under hprogram hknown (Settings.depthLimit_mono hd) (.inr hnot)
  refine ⟨fun r r' d => ?_, fun r r' d d' hd => ⟨hgreater r r' d d' hd, fun hdeep => ?_⟩⟩
  · exact Session.run_under hprogram hknown (Nat.le_refl _) (.inl rfl)
  -- otherwise the program would do the same with the greater depth
  · by_cases hnot : (run r d).IsTooDeep
    · exact hnot
    · exact (hgreater r r' d d' hd hnot).isTooDeep hdeep

/-- A fractal that draws another one twice by its name, with hardly any levels and with many. -/
theorem settings_matter_to_self_only_nested :
    let line : Stmt ℚ := .line (.between .origin .xUnit) {}
    let draw (name : String) (start stop : Point ℚ) : Stmt ℚ := .draw name (.between start stop) {}
    let program : Program ℚ := [.define "g" [line] {},
      .define "f" [draw "g" .origin .yUnit, draw "g" .yUnit .xUnit] {}, draw "f" .origin .xUnit]
    let s : Session ℚ := .start .identity ⟨1, 0⟩
    let s' : Session ℚ := .start .identity ⟨7, 30⟩
    (Stmt.Throughout Stmt.NotSelf program ∧ ∀ f, ¬ s.canvas.env.Binds (.fractal f)) ∧
      ¬ (s.run program).IsTooDeep ∧ (s.run program).Alike (s'.run program) := by
  intro line draw program s s'
  have hprogram : Stmt.Throughout Stmt.NotSelf program := by
    simp [program, draw, line, Stmt.throughout_cons_iff, Stmt.inner, Stmt.NotSelf]
  have hbound : ∀ f, ¬ s.canvas.env.Binds (.fractal f) :=
    fun f hf => Canvas.not_knows_fresh _ f (.inl hf)
  have hends : (s.run program).value.toOption.isSome = true := by decide +kernel
  have hnot : ¬ (s.run program).IsTooDeep := by
    rintro ⟨e, limit, he, _⟩
    rw [he] at hends
    cases hends
  obtain ⟨_, hgreater⟩ := settings_matter_to_self_only .identity ⟨1, 0⟩ [] program hprogram
    fun f hf => absurd hf (hbound f)
  exact ⟨⟨hprogram, hbound⟩, hnot, (hgreater 1 7 0 30 (by decide)).1 hnot⟩

end SelfSimilar
