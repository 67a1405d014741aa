import SelfSimilar.Proofs.Execution.Origin
import SelfSimilar.Proofs.Session.Balance

/-!
# Failures of a session

The failure of a program names a node that was there when the program was begun: one of the program,
or one of the body of a fractal that an earlier program has bound. What was not drawn before, the
program itself has defined, so its nodes are nodes of the program.

* `Session.isGiven_of_visits`: what a program comes to was there at the start
* `failures_name_their_origin`: which node a failure names, and what the fault says about it
-/

namespace SelfSimilar

variable {α : Type} [Scalar α]

/-- The statement occurs in the program, or in the body of a fractal that is bound. -/
def Stmt.IsGiven (st : Stmt α) (program : Program α) (env : Environment (Value α)) : Prop :=
  st.OccursIn program ∨ ∃ f, env.Binds (.fractal f) ∧ st.OccursIn f.body

namespace Session

/-- A program that fails comes of work that fails in the same way. -/
theorem exists_of_run_eq_error {s : Session α} {program : Program α} {e : Failure}
    (h : (s.run program).value = .error e) :
    ∃ o, Execution s.root (.all .origin program) s.canvas o ∧ o.result = .error e := by
  have hex := execution_perform s.root (.all .origin program) s.canvas
  refine ⟨_, hex, ?_⟩
  rcases value_run_cases hex with ⟨p, _, hvalue⟩ | ⟨e', hresult, hvalue⟩
  · rw [hvalue] at h
    cases h
  · rw [hvalue] at h
    cases h
    exact hresult

/-- What a program comes to is a statement of the program, or one of the body of a fractal that was
bound before. -/
theorem isGiven_of_visits {s : Session α} {program : Program α} (hactive : s.canvas.active = [])
    {b : Branch α} {st : Stmt α} {c : Canvas α}
    (h : Visits s.root (.all .origin program) s.canvas b st c) :
    st.IsGiven program s.canvas.env := by
  have hknown : s.canvas.Throughout fun st => st.IsGiven program s.canvas.env :=
    Canvas.KnowsOnly.of_binds hactive fun f hf st hst => .inr ⟨f, hf, hst⟩
  exact h.holds (fun st hst => .inl hst) hknown

end Session

/-- If a program fails after any actions of a session, the failure names a node by its text and its
place, and the fault is one that can arise at that node of a statement that is begun in the course
of the run. The node occurs in the program, or in the body of a fractal that was bound before. The
limit of a draw by name is that of the session, and SELF that stands for no fractal is not inside
the definition of one. -/
theorem failures_name_their_origin (frame : Frame α) (settings : Settings α)
    (actions : List (Session.Action α)) (program : Program α) (e : Failure)
    (h : (((Session.start frame settings).after actions).run program).value = .error e) :
    let s := (Session.start frame settings).after actions
    ∃ b st c n, Visits s.root (.all .origin program) s.canvas b st c ∧ Node.BelongsTo n st ∧
      e.node = n.text ∧ e.span = n.span ∧ e.fault.Fits b c st n ∧
      (n.OccursIn program ∨ ∃ f, s.canvas.env.Binds (.fractal f) ∧ n.OccursIn f.body) ∧
      (∀ limit, e.fault = .tooDeep limit → limit = s.settings.depthLimit) ∧
      (e.fault = .noActiveFractal → n = .stmt st ∧ st.StandsIn program) := by
  intro s
  obtain ⟨o, hex, he⟩ := Session.exists_of_run_eq_error h
  obtain ⟨b, st, c, n, hv, hn, hnode, hspan, hfits⟩ := hex.origin he
  refine ⟨b, st, c, n, hv, hn, hnode, hspan, hfits, ?_, fun limit hlimit => ?_, fun hself => ?_⟩
  -- the statement was given, and the node is one of its nodes
  · rcases Session.isGiven_of_visits (Session.active_after frame settings actions) hv with
      hst | ⟨f, hf, hst⟩
    · exact .inl ⟨st, hst, hn⟩
    · exact .inr ⟨f, hf, st, hst, hn⟩
  · -- all branches of a run have the settings of the session
    rw [hlimit] at hfits
    rw [hfits.2, Branch.depthLimit, hv.settings_eq]
    rfl
  · -- inside a body a fractal is active, and the statement would have drawn it
    rw [hself] at hfits
    obtain ⟨⟨segment, span, rfl⟩, hactive⟩ := hfits
    cases hn
    rcases hv.meets_or_below with ⟨_, met⟩ | ⟨_, hne⟩
    · exact ⟨rfl, met.standsIn⟩
    · exact absurd hactive hne

/-- A fractal whose body adds a point and a fractal is drawn by a later program. -/
theorem failures_name_their_origin_body :
    let sum : Expr Float :=
      .binary .add (.name .point "X" ⟨1, 5⟩) (.name .fractal "f" ⟨1, 9⟩) ⟨1, 7⟩
    let definition : Program Float := [.define "f" [.line ⟨none, sum⟩ ⟨1, 2⟩] {}]
    let program : Program Float := [.draw "f" (.between .origin .xUnit) {}]
    let actions : List (Session.Action Float) := [.run definition]
    let s : Session Float := (Session.start .identity .standard).after actions
    let e : Failure := ⟨.kindMismatch .point .fractal, "(X + f)", ⟨1, 7⟩⟩
    (s.run program).value = .error e ∧
      ∃ b st c n, Visits s.root (.all .origin program) s.canvas b st c ∧ Node.BelongsTo n st ∧
        e.node = n.text ∧ e.span = n.span ∧ e.fault.Fits b c st n := by
  intro sum definition program actions s e
  have hfails : (s.run program).value = .error e := by rfl
  obtain ⟨b, st, c, n, hv, hn, hnode, hspan, hfits, _⟩ :=
    failures_name_their_origin .identity .standard actions program e hfails
  exact ⟨hfails, b, st, c, n, hv, hn, hnode, hspan, hfits⟩

end SelfSimilar
