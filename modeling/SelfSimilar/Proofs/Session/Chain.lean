import SelfSimilar.Proofs.Execution.Chain
import SelfSimilar.Proofs.Session.Globals

/-!
# Drawing a chain

A program that defines a chain and draws it between two points draws a curve from the place of the
one point to the place of the other. How deep each link of the chain is drawn depends on the
settings and on its size on the screen; the ends of the links do not.

* `chain_draws_a_curve`: the curve of a chain, in any session
-/

namespace SelfSimilar

variable {K : Type} [ScalarField K]

/-- Over a field of scalars, in which the length of a vector may be any function of its coordinates,
a fractal whose body is a chain from the start of the unit segment to its end is defined and drawn
between two points, after any actions of a session. That succeeds, and the segments that it draws
after the older ones form a curve: there is at least one, the first begins at the place of the first
point, each other one begins where the one before it has ended, and the last one ends at the place
of the second point. -/
theorem chain_draws_a_curve (frame : Frame K) (settings : Settings K)
    (actions : List (Session.Action K)) (name : String) (body : List (Stmt K))
    (segment : Segment K) (span span' : Span) (p q : Point K)
    (hbody : Stmt.Chain .origin body .xUnit) (hsegment : segment.Joins p q) :
    let s := (Session.start frame settings).after actions
    let program : Program K := [.define name body span, .draw name segment span']
    ∃ r drawn, (s.run program).value = .ok r ∧
      (Command.strokes r.commands).toList =
        (Command.strokes s.canvas.path.commands).toList ++ drawn ∧
      drawn.head?.map Stroke.start = some (frame.apply p) ∧
      drawn.IsChain (fun s t => t.start = s.stop) ∧
      drawn.getLast?.map Stroke.stop = some (frame.apply q) := by
  intro s program
  let f : Fractal K := ⟨name, body, .globals⟩
  have hfound : (s.canvas.env.bind .globals name (.fractal f)).lookup .globals name =
      .ok (.fractal f) :=
    (Session.isGlobal_after frame settings actions).lookup_bind name _
  -- after its definition the chain is drawn along the segment
  obtain ⟨v, d, events, hdraw, drawn, hdrawn, hcurve⟩ :=
    Branch.goesOn_draw (b := s.root) (c := s.root.bind name (.fractal f) s.canvas)
      (Branch.root_level_lt_depthLimit _ _) hfound hbody hsegment
  have hex : Execution s.root (.all .origin program) s.canvas _ := .cons .define (.cons hdraw .nil)
  -- the root branch places points by the frame of the session
  have hplace : ∀ p, s.root.place p = frame.apply p := fun p =>
    congrArg (Frame.apply · p) (Session.frame_after frame settings actions)
  rw [hplace, hplace] at hcurve
  have hvalue := Session.value_run_of_ok hex rfl
  exact ⟨_, drawn, hvalue, hdrawn, hcurve.head_eq, hcurve.isChain, hcurve.last_eq⟩

/-- A chain with a short link and a long one, in a frame that stretches the axes differently. The
settings let the long links be drawn deeper than the short ones. -/
theorem chain_draws_a_curve_uneven :
    letI : ScalarField ℚ := ExactArithmetic.toScalarField
    let m : Point ℚ := ⟨1 / 4, 1 / 4⟩
    let frame : Frame ℚ := .scaling 2 3
    let body : List (Stmt ℚ) :=
      [.drawSelf (.between .origin m) {}, .drawSelf (.between m .xUnit) {}]
    let program : Program ℚ := [.define "f" body {}, .draw "f" (.between .yUnit m) {}]
    Stmt.Chain .origin body .xUnit ∧ (Segment.between .yUnit m).Joins .yUnit m ∧
      ∃ r drawn, (render program frame ⟨1, 4⟩).value = .ok r ∧
        (Command.strokes r.commands).toList = drawn ∧
        drawn.head?.map Stroke.start = some (frame.apply .yUnit) ∧
        drawn.IsChain (fun s t => t.start = s.stop) ∧
        drawn.getLast?.map Stroke.stop = some (frame.apply m) := by
  let : ScalarField ℚ := ExactArithmetic.toScalarField
  intro m frame body program
  have hbody : Stmt.Chain .origin body .xUnit := .link ⟨{}, {}, rfl⟩ (.last ⟨{}, {}, rfl⟩)
  have hsegment : (Segment.between .yUnit m).Joins .yUnit m := ⟨{}, {}, rfl⟩
  have hdrawn := chain_draws_a_curve frame ⟨1, 4⟩ [] "f" body _ {} {} .yUnit m hbody hsegment
  exact ⟨hbody, hsegment, hdrawn⟩

end SelfSimilar
