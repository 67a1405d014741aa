import SelfSimilar.Proofs.Execution.Expansion
import SelfSimilar.Proofs.Session.Globals

/-!
# Expanding a chain in a session

The chain of a list of points can be expanded from the root branch, or defined and drawn by a
program that is rendered with the same frame and settings. The program stops one level later and
draws the links of the chain there, so it comes to the same segments in the same order.

* `expansion_is_that_of_the_program`: the same segments and the same hash
-/

namespace SelfSimilar

variable {K : Type} [ScalarField K]

/-- Over a field of scalars, in which the length of a vector may be any function of its coordinates,
a chain of points is expanded from the root branch, with at least one level for SELF. The frames
that are reached, from the root on, are all large enough. Then the expansion succeeds, and so does
the program that defines a fractal whose body draws SELF between each two neighbours of the points
and draws it along the unit segment. Both draw the same segments and have the same hash. -/
theorem expansion_is_that_of_the_program (points : List (Point K)) (frame : Frame K)
    (settings : Settings K) (hdepth : 1 ≤ settings.maxDepth)
    (hlarge : ∀ levels G, frame.Reaches (points.zip (points.drop 1)) levels G →
      levels < settings.selfLimit → Scalar.le settings.resolution G.scale = true)
    (name : String) (body : List (Stmt K)) (segment : Segment K) (span span' : Span)
    (hbody : Stmt.Follow body (points.zip (points.drop 1)))
    (hsegment : segment.Joins .origin .xUnit) :
    let host : Outcome K Failure Unit :=
      (Branch.root settings frame).expand points (.fresh frame)
    let program : Program K := [.define name body span, .draw name segment span']
    host.result = .ok () ∧ ∃ r, (render program frame settings).value = .ok r ∧
      Command.strokes r.commands = host.canvas.path.segments ∧
      r.hash = host.canvas.path.hash.value := by
  intro host program
  let s : Session K := .start frame settings
  let f : Fractal K := ⟨name, body, .globals⟩
  have hlimit : s.root.level < s.root.settings.selfLimit := by
    show 0 < settings.selfLimit
    simp only [Settings.selfLimit, Settings.greatestLimit]
    omega
  -- below the limit for SELF, all branches are large enough
  have hroot : s.root.LargeBelow (points.zip (points.drop 1)) := by
    intro levels G hG hlevel
    refine hlarge levels G hG ?_
    have habove : 0 + levels < settings.selfLimit := hlevel
    omega
  -- the leaves below the root are drawn by the host
  obtain ⟨_, d, events, hhost, hleaves⟩ :=
    Branch.adds_expand (ε := Failure) hroot rfl (c := .fresh frame) rfl
  have hexpand : host = ⟨.ok (), d, events⟩ := hhost
  -- and by the program
  have hfound : s.root.lookup (s.root.bind name (.fractal f) s.canvas) name = .ok (.fractal f) :=
    (Session.isGlobal_after frame settings []).lookup_bind name _
  obtain ⟨v, d', events', hdraw, hdrawn⟩ :=
    Branch.adds_draw span' hlimit hroot hfound hbody hsegment
  have hex : Execution s.root (.all .origin program) s.canvas _ := .cons .define (.cons hdraw .nil)
  have hvalue := Session.value_run_of_ok hex rfl
  rw [hexpand]
  refine ⟨rfl, _, hvalue, ?_, ?_⟩
  -- both have added the leaves to an empty path
  · exact Array.toList_inj.1 (hdrawn.segments_eq.trans hleaves.segments_eq.symm)
  · exact congrArg PathHash.value (hdrawn.hash_eq.trans hleaves.hash_eq.symm)

/-- Two links of different lengths, drawn on two levels in a frame that stretches the axes
differently. -/
theorem expansion_is_that_of_the_program_uneven :
    letI : ScalarField ℚ := ExactArithmetic.toScalarField
    let points : List (Point ℚ) := [.origin, ⟨3 / 4, 1 / 4⟩, .xUnit]
    let frame : Frame ℚ := .scaling 2 3
    let settings : Settings ℚ := ⟨1 / 8, 2⟩
    let body : List (Stmt ℚ) :=
      [.drawSelf (.between .origin ⟨3 / 4, 1 / 4⟩) {},
        .drawSelf (.between ⟨3 / 4, 1 / 4⟩ .xUnit) {}]
    let program : Program ℚ := [.define "f" body {}, .draw "f" (.between .origin .xUnit) {}]
    let host : Outcome ℚ Failure Unit :=
      (Branch.root settings frame).expand points (.fresh frame)
    (1 ≤ settings.maxDepth ∧
      (∀ levels G, frame.Reaches (points.zip (points.drop 1)) levels G →
        levels < settings.selfLimit → Scalar.le settings.resolution G.scale = true) ∧
      Stmt.Follow body (points.zip (points.drop 1)) ∧
      (Segment.between (.origin : Point ℚ) .xUnit).Joins .origin .xUnit) ∧
    host.canvas.path.segments.size = 4 ∧ host.result = .ok () ∧
    ∃ r, (render program frame settings).value = .ok r ∧
      Command.strokes r.commands = host.canvas.path.segments ∧
      r.hash = host.canvas.path.hash.value := by
  let : ScalarField ℚ := ExactArithmetic.toScalarField
  intro points frame settings body program host
  have hlarge : ∀ levels G, frame.Reaches (points.zip (points.drop 1)) levels G →
      levels < settings.selfLimit → Scalar.le settings.resolution G.scale = true := by
    rintro levels G (_ | ⟨mem, _ | ⟨_, _⟩⟩) hlevels
    · decide +kernel
    · -- the two frames on the first level
      rcases List.mem_pair.1 mem with rfl | rfl <;> decide +kernel
    · -- from the second level on SELF is a line anyway
      have hlimit : settings.selfLimit = 2 := by decide
      omega
  have hbody : Stmt.Follow body (points.zip (points.drop 1)) :=
    .cons ⟨_, _, rfl, {}, {}, rfl⟩ (.cons ⟨_, _, rfl, {}, {}, rfl⟩ .nil)
  have hsegment : (Segment.between (.origin : Point ℚ) .xUnit).Joins .origin .xUnit :=
    ⟨{}, {}, rfl⟩
  have hsame := expansion_is_that_of_the_program points frame settings (by decide) hlarge "f" body _
    {} {} hbody hsegment
  exact ⟨⟨by decide, hlarge, hbody, hsegment⟩, by decide +kernel, hsame⟩

end SelfSimilar
