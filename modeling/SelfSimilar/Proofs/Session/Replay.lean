import SelfSimilar.Proofs.Execution.Invariants
import SelfSimilar.Proofs.Path.Replay
import SelfSimilar.Proofs.Session.History
import SelfSimilar.Scalar.Double

/-!
# Path and hash stay in step

Nothing that a session or a host can do separates the path from its hash, so the hash of a rendering
can be computed from its commands.

* `Execution.inStep`: all work keeps the path in step with its hash
* `Session.inStep_after`: so do all actions of a session
* `HostStep.inStep_apply`: so does a host that draws on the canvas without a session
* `hash_is_that_of_the_commands`: what this means for the views of a path and for renderings
-/

namespace SelfSimilar

variable {α : Type} [Scalar α]

/-- All work keeps the path in step with its hash. -/
theorem Execution.inStep {b : Branch α} {t : Task α} {c : Canvas α}
    {o : Outcome α Failure (Value α)} (h : Execution b t c o) (hc : c.path.InStep) :
    o.canvas.path.InStep :=
  h.path_induct Path.InStep (fun _ place hp => hp.moveTo place) (fun _ place hp => hp.lineTo place)
    Path.inStep_startingAt hc

theorem Branch.inStep_run {b : Branch α} {c : Canvas α} (s : Stmt α) (hc : c.path.InStep) :
    (b.run s c).canvas.path.InStep :=
  (execution_perform b (.one s) c).inStep hc

theorem Branch.inStep_runAll {b : Branch α} {c : Canvas α} (body : List (Stmt α))
    (hc : c.path.InStep) : (b.runAll body c).canvas.path.InStep := by
  have h := (execution_perform b (.all .origin body) c).inStep hc
  rwa [b.perform_body] at h

/-! ## Sessions -/

/-- An action keeps the path in step with its hash. -/
theorem Session.inStep_perform {s : Session α} (a : Action α) (h : s.canvas.path.InStep) :
    (s.perform a).canvas.path.InStep := by
  cases a with
  | run program =>
    exact perform_run_induct (fun c => c.path.InStep) fun _ hex => hex.inStep h
  | clear => exact Path.inStep_startingAt _
  | reset => exact Path.inStep_startingAt _
  | forget => exact h
  | setResolution resolution => exact h

/-- After any actions the path is in step with its hash. -/
theorem Session.inStep_after (frame : Frame α) (settings : Settings α)
    (actions : List (Action α)) : ((start frame settings).after actions).canvas.path.InStep :=
  after_induct (fun s => s.canvas.path.InStep) (Path.inStep_startingAt _)
    (fun _ a => inStep_perform a) actions

/-! ## Hosts -/

/-- Something that a host does to a canvas from a branch of its own. -/
inductive HostStep (α : Type) where
  /-- Draw a line from the pen to a point. -/
  | lineTo (b : Branch α) (p : Point α)
  /-- Move the pen. -/
  | moveTo (b : Branch α) (p : Point α)
  /-- Erase everything drawn. -/
  | clear (b : Branch α)
  /-- Go on in a child branch between two points. -/
  | derive (b : Branch α) (p q : Point α)
  /-- Run a statement. -/
  | exec (b : Branch α) (s : Stmt α)
  /-- Run statements in order. -/
  | execAll (b : Branch α) (body : List (Stmt α))
  /-- Run a program. -/
  | execProgram (b : Branch α) (program : Program α)
  /-- Bind a name. -/
  | bind (b : Branch α) (id : String) (v : Value α)
  /-- Make a fractal the innermost active one. -/
  | start (f : Fractal α)
  /-- Be done with the innermost active fractal. -/
  | stop
  /-- Remove what programs have bound. -/
  | forget

/-- The canvas after a step of a host. -/
def HostStep.apply (c : Canvas α) : HostStep α → Canvas α
  | .lineTo b p => b.lineTo p c
  | .moveTo b p => b.moveTo p c
  | .clear b => b.erase c
  | .derive b p q => ((b.child p q).enter c : Outcome α Failure Unit).canvas
  | .exec b s => (b.run s c).canvas
  | .execAll b body => (b.runAll body c).canvas
  | .execProgram b program => (b.runProgram program c).canvas
  | .bind b id v => b.bind id v c
  | .start f => c.start f
  | .stop => c.stop
  | .forget => c.forget

/-- A step of a host keeps the path in step with its hash. -/
theorem HostStep.inStep_apply {c : Canvas α} (step : HostStep α) (h : c.path.InStep) :
    (step.apply c).path.InStep := by
  cases step with
  | lineTo b p => exact h.lineTo _
  | moveTo b p => exact h.moveTo _
  | clear b => exact Path.inStep_startingAt _
  | derive b p q => exact h.moveTo _
  -- what a host runs fails or succeeds, and the path is in step in both cases
  | exec b s => exact Branch.inStep_run s h
  | execAll b body => exact Branch.inStep_runAll body h
  | execProgram b program =>
    show (b.runProgram program c).canvas.path.InStep
    rw [Branch.canvas_runProgram]
    exact Branch.inStep_runAll program h
  | bind b id v => exact h
  | start f => exact h
  | stop => exact h
  | forget => exact h

/-- After any steps of a host the path is in step with its hash. -/
theorem HostStep.inStep_foldl {c : Canvas α} (steps : List (HostStep α)) (h : c.path.InStep) :
    (steps.foldl HostStep.apply c).path.InStep := by
  induction steps generalizing c with
  | nil => exact h
  | cons step rest ih => exact ih (inStep_apply step h)

/-! ## What can be read off the commands -/

/-- The commands of a rendering are those of the session, and so is its hash. -/
theorem Session.rendering_eq {s : Session α} {program : Program α} {r : Rendering α}
    (h : (s.run program).value = .ok r) :
    r.commands = (s.run program).session.canvas.path.commands ∧
      r.hash = (s.run program).session.canvas.path.hash.value := by
  unfold run at h ⊢
  cases hr : (s.root.runProgram program s.canvas).result with
  | error e =>
    simp only [hr] at h
    cases h
  | ok resultant =>
    simp only [hr] at h ⊢
    cases h
    exact ⟨rfl, rfl⟩

/-- After any actions of a session and after any steps of a host, the commands begin with a move,
the hash is that of the segments drawn, folded in one after another, and the counts agree. The hash
of a rendering is the one that its commands give. -/
theorem hash_is_that_of_the_commands (frame : Frame α) (settings : Settings α) :
    (∀ actions : List (Session.Action α),
      let s := (Session.start frame settings).after actions
      s.canvas.path.InStep ∧
      s.canvas.path.segmentCount = s.canvas.path.segments.size ∧
      s.canvas.path.hash.count = s.canvas.path.segmentCount % 1000000007 ∧
      ∀ program r, (s.run program).value = .ok r →
        r.hash = (PathHash.ofStrokes (Command.strokes r.commands)).value) ∧
    ∀ steps : List (HostStep α),
      let p := (steps.foldl HostStep.apply (.fresh frame)).path
      p.InStep ∧ p.segmentCount = p.segments.size ∧
      p.hash.count = p.segmentCount % 1000000007 := by
  constructor
  · intro actions s
    have hs : s.canvas.path.InStep := Session.inStep_after frame settings actions
    refine ⟨hs, (Path.size_segments _).symm, hs.count_eq, fun program r hr => ?_⟩
    -- a rendering is read off the session after the run, which is one more action
    obtain ⟨hcommands, hhash⟩ := Session.rendering_eq hr
    have hrun : (s.run program).session.canvas.path.InStep :=
      Session.inStep_perform (.run program) hs
    rw [hcommands, hhash, hrun.hash_eq]
    rfl
  · intro steps p
    have hp : p.InStep := HostStep.inStep_foldl steps (Path.inStep_startingAt _)
    exact ⟨hp, (Path.size_segments _).symm, hp.count_eq⟩

/-- A session that has drawn a line, erased it and drawn another one. -/
theorem hash_is_that_of_the_commands_line :
    let line : Program Float := [.line (.between .origin .xUnit) {}]
    let s := (Session.start .identity .standard : Session Float).after [.run line, .clear]
    ∃ r, (s.run line).value = .ok r ∧
      r.hash = (PathHash.ofStrokes (Command.strokes r.commands)).value := by
  intro line s
  have hr : ∃ r, (s.run line).value = .ok r := ⟨_, rfl⟩
  obtain ⟨r, hr⟩ := hr
  exact ⟨r, hr, ((hash_is_that_of_the_commands _ _).1 [.run line, .clear]).2.2.2 line r hr⟩

end SelfSimilar
