import SelfSimilar.Proofs.Execution.Motion
import SelfSimilar.Proofs.Session.History

/-!
# Rendering in a moved frame

Two sessions that do the same in a frame and in the same frame moved by a rigid motion stay the same
up to the motion: the same programs fail in the same way, the same values come of the others, the
same names are bound, and the drawing of the one is that of the other, moved.

* `Session.MovedBy.perform`, `Session.MovedBy.after`: sessions stay moved
* `Session.MovedBy.run`: what the runs of a program yield
* `rendering_is_equivariant`: both, for one program in a session of its own
-/

namespace SelfSimilar

variable {K : Type} [Field K] [DecidableEq K] [ExactArithmetic K] {R F : Frame K}

/-- The rendering `r₂` is the rendering `r₁`, moved by `R`. -/
structure Rendering.MovedBy (R : Frame K) (r₁ r₂ : Rendering K) : Prop where
  commands_eq : r₂.commands = r₁.commands.map (Command.map R.carry)
  /-- The resultant is given in local coordinates, so it is not moved. -/
  resultant_eq : r₂.resultant = r₁.resultant
  /-- A shift keeps the hash. -/
  hash_eq : R.IsShift → r₂.hash = r₁.hash

namespace Session

/-- The session `s₂` is the session `s₁`, moved by `R`. -/
structure MovedBy (R : Frame K) (s₁ s₂ : Session K) : Prop where
  isAffine : s₁.frame.IsAffine
  frame_eq : s₂.frame = R.andThen s₁.frame
  settings_eq : s₂.settings = s₁.settings
  /-- The bindings are the same, and what was drawn is moved. -/
  canvas : s₁.canvas.Beside (Path.MovedBy R) s₂.canvas

variable {s₁ s₂ : Session K}

/-- Programs are run from root branches of which one is the other one, moved. -/
theorem MovedBy.root (h : s₁.MovedBy R s₂) : s₁.root.MovedBy R s₂.root := by
  refine ⟨h.isAffine, ?_⟩
  unfold Session.root Branch.root
  rw [h.frame_eq, h.settings_eq]

/-- Fresh sessions in a frame and in the moved frame. -/
theorem movedBy_start (R : Frame K) (hF : F.IsAffine) (settings : Settings K) :
    (start F settings).MovedBy R (start (R.andThen F) settings) := by
  -- the pen starts at the origin of the frame, which is moved with it
  have hpath := Path.movedBy_startingAt R (F.apply .origin)
  rw [← Frame.apply_andThen R hF] at hpath
  exact ⟨hF, rfl, rfl, rfl, rfl, hpath⟩

/-- An action leaves sessions of which one is the other one, moved. -/
theorem MovedBy.perform (h : s₁.MovedBy R s₂) (hR : R.IsRigid) (a : Action K) :
    (s₁.perform a).MovedBy R (s₂.perform a) := by
  cases a with
  | run program =>
    -- what is drawn is moved, and the bindings are given in local coordinates
    obtain ⟨_, hd⟩ := h.root.perform hR h.canvas (.all .origin program)
    show (s₁.run program).session.MovedBy R (s₂.run program).session
    rw [session_run, session_run]
    exact ⟨h.isAffine, h.frame_eq, h.settings_eq, hd⟩
  | clear =>
    -- both start over at the origin of their own frame
    have hpath := Path.movedBy_startingAt R (s₁.root.place .origin)
    rw [← h.root.place_eq] at hpath
    exact ⟨h.isAffine, h.frame_eq, h.settings_eq, h.canvas.env_eq, h.canvas.active_eq, hpath⟩
  | reset =>
    show (start s₁.frame s₁.settings).MovedBy R (start s₂.frame s₂.settings)
    rw [h.frame_eq, h.settings_eq]
    exact movedBy_start R h.isAffine s₁.settings
  | forget =>
    have henv := congrArg (Environment.clear · .globals) h.canvas.env_eq
    exact ⟨h.isAffine, h.frame_eq, h.settings_eq, henv, h.canvas.active_eq, h.canvas.related⟩
  | setResolution resolution =>
    exact ⟨h.isAffine, h.frame_eq, by simp [Session.perform, setResolution, h.settings_eq],
      h.canvas⟩

/-- So do any actions. -/
theorem MovedBy.after (h : s₁.MovedBy R s₂) (hR : R.IsRigid) (actions : List (Action K)) :
    (s₁.after actions).MovedBy R (s₂.after actions) := by
  induction actions generalizing s₁ s₂ with
  | nil => exact h
  | cons a rest ih => exact ih (h.perform hR a)

/-- Both runs fail in the same way, or both succeed and one rendering is the other one, moved. -/
theorem MovedBy.run (h : s₁.MovedBy R s₂) (hR : R.IsRigid) (program : Program K) :
    (∃ e, (s₁.run program).value = .error e ∧ (s₂.run program).value = .error e) ∨
      ∃ r₁ r₂, (s₁.run program).value = .ok r₁ ∧ (s₂.run program).value = .ok r₂ ∧
        r₁.MovedBy R r₂ := by
  obtain ⟨hres, hd⟩ := h.root.runProgram hR h.canvas program
  simp only [value_run, ← hres]
  cases (s₁.root.runProgram program s₁.canvas).result with
  | error e => exact .inl ⟨e, rfl, rfl⟩
  -- the rendering is read off the path, and its resultant off the result
  | ok resultant =>
    refine .inr ⟨_, _, rfl, rfl, hd.related.commands_eq, rfl, fun hshift => ?_⟩
    rw [hd.related.hash_eq hshift]

end Session

/-- In exact arithmetic, every frame that can be built is affine. A program is rendered in an affine
frame and in the same frame moved by a rigid motion `R`. Then both renderings fail with the same
fault at the same node and place, or both succeed, with the same resultant, and the commands of the
second one are those of the first one for the images under `R`. Also if they fail, the same names
are bound to the same values, and what was drawn before the failure is moved. If `R` is a shift, the
hash is the same. -/
theorem rendering_is_equivariant :
    (∀ F : Frame K, F.Built → F.IsAffine) ∧
    ∀ (R F : Frame K) (settings : Settings K) (program : Program K), R.IsRigid → F.IsAffine →
      let reply := render program F settings
      let moved := render program (R.andThen F) settings
      ((∃ e, reply.value = .error e ∧ moved.value = .error e) ∨
        ∃ r r', reply.value = .ok r ∧ moved.value = .ok r' ∧
          r'.resultant = r.resultant ∧ r'.commands = r.commands.map (Command.map R.carry) ∧
          (R.IsShift → r'.hash = r.hash)) ∧
      moved.session.canvas.env = reply.session.canvas.env ∧
      moved.session.canvas.path.commands =
        reply.session.canvas.path.commands.map (Command.map R.carry) ∧
      (R.IsShift → moved.session.canvas.path.hash = reply.session.canvas.path.hash) := by
  refine ⟨fun F hF => hF.isAffine, fun R F settings program hR hF => ?_⟩
  have hstart := Session.movedBy_start R hF settings
  have hafter := (hstart.perform hR (.run program)).canvas
  refine ⟨?_, hafter.env_eq.symm, hafter.related.commands_eq, hafter.related.hash_eq⟩
  rcases hstart.run hR program with hfail | ⟨r, r', hr, hr', hmoved⟩
  · exact .inl hfail
  · exact .inr ⟨r, r', hr, hr', hmoved.resultant_eq, hmoved.commands_eq, hmoved.hash_eq⟩

/-- A fractal that goes on from where the pen is, in a frame that stretches the axes differently: a
shift after a turn, and the shift alone. -/
theorem rendering_is_equivariant_turn :
    let S : Frame ℚ := Frame.shift 5 (-2)
    let R : Frame ℚ := S.andThen (Frame.rotation (1 / 2))
    let F : Frame ℚ := Frame.scaling 2 3
    let body : List (Stmt ℚ) :=
      [.line ⟨none, .literal (.point ⟨1 / 2, 1 / 2⟩) {}⟩ {},
        .drawSelf ⟨some (.here {}), .literal (.point .xUnit) {}⟩ {}]
    let program : Program ℚ := [.define "f" body {}, .draw "f" (.between .origin .xUnit) {}]
    let reply := render program F ⟨1, 4⟩
    let moved := render program (R.andThen F) ⟨1, 4⟩
    R.IsRigid ∧ F.IsAffine ∧
      (∃ r r', reply.value = .ok r ∧ moved.value = .ok r' ∧ r'.resultant = r.resultant ∧
        r'.commands = r.commands.map (Command.map R.carry)) ∧
      S.IsShift ∧ (render program (S.andThen F) ⟨1, 4⟩).session.canvas.path.hash =
        reply.session.canvas.path.hash := by
  intro S R F body program reply moved
  have hS : S.IsRigid := Frame.isRigid_shift 5 (-2)
  have hshift : S.IsShift := ⟨5, -2, rfl⟩
  have hR : R.IsRigid := hS.andThen (Frame.isRigid_rotation (by decide +kernel))
  have hF : F.IsAffine := (Frame.Built.scaling 2 3).isAffine
  have hok : reply.value.isOk = true := by decide +kernel
  obtain ⟨hvalue, _⟩ := rendering_is_equivariant.2 R F ⟨1, 4⟩ program hR hF
  obtain ⟨_, _, _, hhash⟩ := rendering_is_equivariant.2 S F ⟨1, 4⟩ program hS hF
  refine ⟨hR, hF, ?_, hshift, hhash hshift⟩
  rcases hvalue with ⟨e, he, _⟩ | ⟨r, r', hr, hr', hresultant, hcommands, _⟩
  · rw [he] at hok
    cases hok
  · exact ⟨r, r', hr, hr', hresultant, hcommands⟩

end SelfSimilar
