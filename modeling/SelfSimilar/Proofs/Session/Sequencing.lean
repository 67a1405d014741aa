import SelfSimilar.Proofs.Execution.Sequencing
import SelfSimilar.Proofs.Session.History
import SelfSimilar.Scalar.Double

/-!
# Programs one after another

Two programs that are run one after the other do what the joined program does: a session keeps
everything that a program leaves, and sets nothing up for the next one. A program that fails hides
all that stands behind it.

* `Session.session_run_append`, `Session.run_append_eq_error`: a joined program, part by part
* `sequencing_composes`: joined bodies, opened blocks and joined programs
-/

namespace SelfSimilar

variable {α : Type} [Scalar α]

namespace Session

variable {s : Session α} {program p q : Program α} {e : Failure}

/-- A run changes the canvas only, and what its value is does not matter for that. -/
theorem session_run_eq (s : Session α) (program : Program α) :
    (s.run program).session = { s with canvas := (s.root.effect program s.canvas).canvas } := by
  rw [session_run, Branch.perform_body]
  rfl

/-- A program fails as its statements do without values. -/
theorem run_eq_error : (s.run program).value = .error e ↔
    (s.root.effect program s.canvas).result = .error e := by
  rw [Branch.effect, Run.result_effect_eq_error, ← Branch.result_runProgram, value_run]
  cases h : (s.root.runProgram program s.canvas).result <;>
    simp only [h, Except.map, Except.error.injEq, reduceCtorEq]

/-- A program that has a value does not fail without it. -/
theorem exists_effect_of_run_eq_ok {r : Rendering α} (h : (s.run program).value = .ok r) :
    ∃ d events, s.root.effect program s.canvas = ⟨.ok (), d, events⟩ := by
  rcases heffect : s.root.effect program s.canvas with ⟨e | _, d, events⟩
  · have herror : (s.run program).value = .error e := run_eq_error.2 (by rw [heffect])
    rw [h] at herror
    cases herror
  · exact ⟨d, events, rfl⟩

/-! ## Joined programs -/

/-- A program that succeeds and the next one leave what the joined program leaves. -/
theorem session_run_append {r : Rendering α} (h : (s.run p).value = .ok r) (q : Program α) :
    ((s.run p).session.run q).session = (s.run (p ++ q)).session := by
  obtain ⟨d, events, hp⟩ := exists_effect_of_run_eq_ok h
  -- the second program starts from the canvas that the first one leaves
  have hfirst : (s.run p).session = { s with canvas := d } := by rw [session_run_eq, hp]
  rw [hfirst, session_run_eq, session_run_eq, Branch.effect_append, Run.bind_ok hp]
  rfl

/-- After a program that succeeds, the next one fails as the joined program does. -/
theorem run_append_eq_error {r : Rendering α} (h : (s.run p).value = .ok r) :
    (s.run (p ++ q)).value = .error e ↔ ((s.run p).session.run q).value = .error e := by
  obtain ⟨d, events, hp⟩ := exists_effect_of_run_eq_ok h
  have hfirst : (s.run p).session = { s with canvas := d } := by rw [session_run_eq, hp]
  rw [hfirst, run_eq_error, run_eq_error, Branch.effect_append, Run.bind_ok hp]
  rfl

/-- Nothing behind a failure is run. -/
theorem run_append_of_error (h : (s.run p).value = .error e) (q : Program α) :
    (s.run (p ++ q)).value = .error e ∧ (s.run (p ++ q)).session = (s.run p).session := by
  -- the effect of the joined program ends where that of the first one does
  rcases hp : s.root.effect p s.canvas with ⟨e' | _, d, events⟩
  · have hpq : s.root.effect (p ++ q) s.canvas = ⟨.error e', d, events⟩ := by
      rw [Branch.effect_append, Run.bind_error hp]
    have he : (s.root.effect p s.canvas).result = .error e := run_eq_error.1 h
    rw [hp] at he
    constructor
    · rw [run_eq_error, hpq]
      exact he
    · rw [session_run_eq, session_run_eq, hpq, hp]
  · have he : (s.root.effect p s.canvas).result = .error e := run_eq_error.1 h
    rw [hp] at he
    cases he

end Session

/-- Wherever a block stands in a body or a program, its statements do the same without it: they
leave the same canvas, report the same events, and fail in the same way or not at all. Two programs
that are run one after the other leave what the joined program leaves and fail as it does; if the
first one fails, the joined program fails in the same way and leaves the same. -/
theorem sequencing_composes :
    (∀ (b : Branch α) (c : Canvas α) (before body later : List (Stmt α)) (span : Span),
      let o := b.runAll (before ++ [.block body span] ++ later) c
      let o' := b.runAll (before ++ body ++ later) c
      o.canvas = o'.canvas ∧ o.events = o'.events ∧
        (∀ e, o.result = .error e ↔ o'.result = .error e) ∧
      let p := b.runProgram (before ++ [.block body span] ++ later) c
      let p' := b.runProgram (before ++ body ++ later) c
      p.canvas = p'.canvas ∧ ∀ e, p.result = .error e ↔ p'.result = .error e) ∧
    ∀ (s : Session α) (p q : Program α),
      (∀ r, (s.run p).value = .ok r →
        ((s.run p).session.run q).session = (s.run (p ++ q)).session ∧
        ∀ e, ((s.run p).session.run q).value = .error e ↔ (s.run (p ++ q)).value = .error e) ∧
      ∀ e, (s.run p).value = .error e →
        (s.run (p ++ q)).value = .error e ∧ (s.run (p ++ q)).session = (s.run p).session := by
  refine ⟨fun b c before body later span => ?_, fun s p q => ⟨fun r hr => ⟨?_, ?_⟩, ?_⟩⟩
  -- opening up the block leaves the effect as it is, and the effect is all but the value
  · have heffect := b.effect_append_block before body later span
    have hcanvas : (b.runAll (before ++ [.block body span] ++ later) c).canvas =
        (b.runAll (before ++ body ++ later) c).canvas :=
      congrArg (fun r => (r c).canvas) heffect
    have herror : ∀ e, (b.runAll (before ++ [.block body span] ++ later) c).result = .error e ↔
        (b.runAll (before ++ body ++ later) c).result = .error e := by
      intro e
      have hresult := iff_of_eq (congrArg (fun r => (r c).result = .error e) heffect)
      exact Run.result_effect_eq_error.symm.trans (hresult.trans Run.result_effect_eq_error)
    refine ⟨hcanvas, congrArg (fun r => (r c).events) heffect, herror, ?_, ?_⟩
    · rw [Branch.canvas_runProgram, Branch.canvas_runProgram, hcanvas]
    · intro e
      rw [Branch.result_runProgram, Branch.result_runProgram, herror]
  · exact Session.session_run_append hr q
  · exact fun e => (Session.run_append_eq_error hr).symm
  · exact fun e he => Session.run_append_of_error he q

/-- A definition and a draw of what it defines, and a draw that fails before one that would not. -/
theorem sequencing_composes_draw :
    let s : Session Float := .start .identity .standard
    let unit : Segment Float := .between .origin .xUnit
    let p : Program Float := [.define "f" [.line unit {}] {}]
    let q : Program Float := [.draw "f" unit {}]
    let failure : Failure := Stmt.failure (.draw "f" unit {}) (.unbound "f")
    (∃ r, (s.run p).value = .ok r) ∧
      ((s.run p).session.run q).session = (s.run (p ++ q)).session ∧
      (s.run q).value = .error failure ∧ (s.run (q ++ p)).value = .error failure ∧
      (s.run (q ++ p)).session = (s.run q).session := by
  intro s unit p q failure
  have hp : ∃ r, (s.run p).value = .ok r := ⟨_, rfl⟩
  have hq : (s.run q).value = .error failure := rfl
  obtain ⟨r, hr⟩ := hp
  obtain ⟨hsession, _⟩ := (sequencing_composes.2 s p q).1 r hr
  obtain ⟨hvalue, hsame⟩ := (sequencing_composes.2 s q p).2 failure hq
  exact ⟨⟨r, hr⟩, hsession, hq, hvalue, hsame⟩

end SelfSimilar
