import SelfSimilar.Proofs.Execution.Obstacles
import SelfSimilar.Proofs.Scalar.Exact
import SelfSimilar.Proofs.Session.Origin

/-!
# What a failure leaves

A failure undoes nothing, and it does nothing either. So after a program has failed, the drawing and
the bindings are those that were there when its innermost failing statement was begun.

* `failing_statements_have_no_effect`: what a statement that fails leaves, and what a run that fails
  does
-/

namespace SelfSimilar

/-- The statement can come to run the body of a fractal: it is a draw by name, or SELF on a branch
that is resolvable. -/
def Stmt.CanDraw {α : Type} [Scalar α] (b : Branch α) : Stmt α → Prop
  | .draw _ _ _ => True
  | .drawSelf _ _ => b.isResolvable = true
  | _ => False

variable {α : Type} [Scalar α]

/-- What runs a body can come to run one. -/
theorem Draws.canDraw {b child : Branch α} {c d : Canvas α} {st : Stmt α} {f : Fractal α}
    (h : Draws b c st f child d) : st.CanDraw b := by
  cases h with
  | named _ _ _ => trivial
  | self _ large _ => exact large

/-- A block that fails leaves what its body leaves. -/
theorem Branch.stopsAt_of_block {b : Branch α} {c : Canvas α} {body : List (Stmt α)} {span : Span}
    {e : Failure} (h : (b.run (.block body span) c).result = .error e) :
    ∃ st d, b.StopsAt body c st d e ∧
      (b.run (.block body span) c).canvas = (b.run st d).canvas := by
  -- a block is run as its body
  have hbody : b.run (.block body span) c = b.perform (.all .origin body) c := rfl
  rw [hbody] at h ⊢
  obtain ⟨herror, hcanvas⟩ := Branch.effect_eq_of_perform h
  obtain ⟨st, d, hstops, hcanvas'⟩ := Branch.stopsAt_of_error herror
  exact ⟨st, d, hstops, hcanvas.symm.trans hcanvas'⟩

/-- A run fails because of an obstacle that a statement in its course comes to. Whichever statement
it is, the failure is that obstacle, and the canvas is the one that the statement was begun on. -/
theorem Branch.obstacle_of_error {b : Branch α} {t : Task α} {c : Canvas α} {e : Failure}
    (h : (b.perform t c).result = .error e) :
    (∃ b' st d, Visits b t c b' st d ∧ st.obstacle? b' d = some e) ∧
      ∀ b' st d e', Visits b t c b' st d → st.obstacle? b' d = some e' →
        e' = e ∧ (b.perform t c).canvas = { d with active := c.active } := by
  -- there is one by induction on the run; any other one would be the end of the run as well
  constructor
  · obtain ⟨b', st, d, o, hv, hplain, hstays, hex, he⟩ :=
      (execution_perform b t c).visits_of_error h
    exact ⟨b', st, d, hv, Stmt.obstacle?_eq_some.2 (hex.unread_or_refused hplain hstays he)⟩
  · intro b' st d e' hv hobstacle
    obtain ⟨events, hst⟩ := Stmt.perform_of_obstacle hobstacle
    have hfails : (b'.perform (.one st) d).result = .error e' := by rw [hst]
    have hcanvas := hv.canvas_of_error hfails
    rw [hst] at hcanvas
    exact ⟨Except.error.inj ((hv.perform_eq_error hfails).symm.trans h), hcanvas⟩

/-- On every branch and canvas: the failure of a statement with an obstacle in its way is the first
one, and the statement changes nothing. A statement that fails has an obstacle in its way, or it can
come to run a body and does so after the pen was moved to the origin of the child branch, or it is a
block; the body is run up to a statement that fails, and the canvas is the one that this statement
leaves. Whatever work fails, it has come to a statement with an obstacle in its way, and the path,
the hash and the bindings are those that this statement was begun with. So it is for the programs of
a session. -/
theorem failing_statements_have_no_effect :
    (∀ (b : Branch α) (c : Canvas α) (st : Stmt α) (e : Failure), st.obstacle? b c = some e →
      (b.run st c).result = .error e ∧ (b.run st c).canvas = c) ∧
    (∀ (b : Branch α) (c : Canvas α) (st : Stmt α) (e : Failure), (b.run st c).result = .error e →
      st.obstacle? b c = some e ∨
      (st.obstacle? b c = none ∧ st.CanDraw b ∧ ∃ f child d st' d', Draws b c st f child d ∧
        d.path = c.path.moveTo (child.place .origin) ∧ d.env = c.env ∧
        child.StopsAt f.body d st' d' e ∧
        (b.run st c).canvas = { (child.run st' d').canvas with active := c.active }) ∨
      ∃ body span st' d', st = .block body span ∧ b.StopsAt body c st' d' e ∧
        (b.run st c).canvas = (b.run st' d').canvas) ∧
    (∀ (b : Branch α) (t : Task α) (c : Canvas α) (e : Failure), (b.perform t c).result = .error e →
      (∃ b' st d, Visits b t c b' st d ∧ st.obstacle? b' d = some e) ∧
      ∀ b' st d e', Visits b t c b' st d → st.obstacle? b' d = some e' →
        e' = e ∧ (b.perform t c).canvas = { d with active := c.active }) ∧
    ∀ (s : Session α) (program : Program α) (e : Failure), (s.run program).value = .error e →
      ∃ b st d, Visits s.root (.all .origin program) s.canvas b st d ∧ st.obstacle? b d = some e ∧
        (s.run program).session = { s with canvas := { d with active := s.canvas.active } } := by
  refine ⟨fun b c st e h => ?_, fun b c st e h => ?_, fun b t c e => Branch.obstacle_of_error,
    fun s program e h => ?_⟩
  · obtain ⟨events, hst⟩ := Stmt.perform_of_obstacle h
    show (b.perform (.one st) c).result = .error e ∧ (b.perform (.one st) c).canvas = c
    rw [hst]
    exact ⟨rfl, rfl⟩
  -- a statement that is no block either has an obstacle in its way, or fails inside a body
  · by_cases hplain : st.IsPlain
    · rcases (execution_perform b (.one st) c).obstacle_or_draws hplain h with hobstacle |
        ⟨f, child, d, st', d', hdraws, hstops, hcanvas⟩
      · exact .inl hobstacle
      · exact .inr (.inl ⟨hdraws.obstacle?_eq, hdraws.canDraw, f, child, d, st', d', hdraws,
          hdraws.path_eq, hdraws.env_eq, hstops, hcanvas⟩)
    · -- a definition does not fail
      cases st with
      | block body span =>
        obtain ⟨st', d', hstops, hcanvas⟩ := Branch.stopsAt_of_block h
        exact .inr (.inr ⟨body, span, st', d', rfl, hstops, hcanvas⟩)
      | define name body span => cases h
      | _ => exact absurd trivial hplain
  -- a program is a piece of work, and the session keeps the canvas that it leaves
  · obtain ⟨o, hex, he⟩ := Session.exists_of_run_eq_error h
    have herror : (s.root.perform (.all .origin program) s.canvas).result = .error e := by
      rw [hex.eq_perform, he]
    obtain ⟨⟨b, st, d, hv, hobstacle⟩, hall⟩ := Branch.obstacle_of_error herror
    obtain ⟨_, hcanvas⟩ := hall b st d e hv hobstacle
    exact ⟨b, st, d, hv, hobstacle, by rw [s.session_run, hcanvas]⟩

/-- Inside two draws, a line that has no point to start at follows a line and an assignment. Both of
them stay, and so do the moves to the origins of the two bodies. -/
theorem failing_statements_have_no_effect_inside :
    let unit : Segment ℚ := .between .origin .xUnit
    let broken : Stmt ℚ := .line ⟨some (.name .number "a" ⟨3, 16⟩), .name .point "X" ⟨3, 21⟩⟩ ⟨3, 5⟩
    let body : List (Stmt ℚ) := [.line unit {}, .assign "a" (.literal (.int 1) {}) {}, broken]
    let program : Program ℚ := [.define "f" body {}, .define "g" [.draw "f" unit {}] {},
      .draw "g" unit {}]
    let s : Session ℚ := .start .identity ⟨1, 3⟩
    let e : Failure := ⟨.kindMismatch .point .integer, "a", ⟨3, 16⟩⟩
    (s.run program).value = .error e ∧ (s.run program).session.canvas.path.commands.size = 5 ∧
      ∃ b st d, Visits s.root (.all .origin program) s.canvas b st d ∧ st.obstacle? b d = some e ∧
        (s.run program).session = { s with canvas := { d with active := s.canvas.active } } := by
  intro unit broken body program s e
  have hfails : (s.run program).value = .error e := by decide +kernel
  exact ⟨hfails, by decide +kernel, failing_statements_have_no_effect.2.2.2 s program e hfails⟩

end SelfSimilar
