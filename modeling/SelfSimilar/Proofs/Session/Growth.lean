import SelfSimilar.Proofs.Execution.Growth
import SelfSimilar.Proofs.Session.Globals

/-!
# Drawing a fractal under finer settings

A session defines a fractal whose body is nothing but SELF and draws it by name. The settings decide
where its copies become lines. With a smaller resolution and a greater depth that happens no sooner,
so the drawing is refined: each line becomes one line or more.

* `Session.run_draw_growth`: what is drawn, under any settings
* `finer_settings_draw_no_less`: what is drawn under finer settings
-/

namespace SelfSimilar

variable {α : Type} [Scalar α] {frame : Frame α} {settings : Settings α} {name : String}
  {body : List (Stmt α)} {links : List (Point α × Point α)} {segment : Segment α}
  {span span' : Span} {p q : Point α}

namespace Session

/-- Where a fractal that was just defined can be read, it is drawn as the growth of its links. -/
theorem run_draw_growth (hbody : Stmt.Follow body links)
    (hends : Stmt.endpoints (.draw name segment span') segment (.root settings frame)
      ((Branch.root settings frame).bind name (.fractal ⟨name, body, .globals⟩) (.fresh frame)) =
        .ok (p, q)) :
    let reply := (start frame settings).run [.define name body span, .draw name segment span']
    (∃ r, reply.value = .ok r) ∧ reply.session.canvas.path.segments.toList =
      (((Branch.root settings frame).child p q).growth links links).lines := by
  let s : Session α := start frame settings
  let f : Fractal α := ⟨name, body, .globals⟩
  have hfound : s.root.lookup (s.root.bind name (.fractal f) s.canvas) name = .ok (.fractal f) :=
    (isGlobal_after frame settings []).lookup_bind name _
  have hroom : s.root.level < s.root.depthLimit := Branch.root_level_lt_depthLimit settings frame
  -- after its definition the fractal is found and drawn
  obtain ⟨v, d, events, hdraw, hadds⟩ := Branch.adds_growth_draw (f := f) hroom hfound hbody hends
  have hex : Execution s.root (.all .origin [.define name body span, .draw name segment span'])
      s.canvas _ := .cons .define (.cons hdraw .nil)
  have hrun := run_of_ok hex rfl
  intro reply
  refine ⟨⟨_, congrArg Reply.value hrun⟩, ?_⟩
  have hcanvas : reply.session.canvas = d := congrArg (fun reply => reply.session.canvas) hrun
  -- nothing was drawn before
  rw [hcanvas]
  exact hadds.segments_eq

/-- Where the ends of a draw cannot be read, nothing is drawn. -/
theorem run_draw_unread {e : Failure}
    (hends : Stmt.endpoints (.draw name segment span') segment (.root settings frame)
      ((Branch.root settings frame).bind name (.fractal ⟨name, body, .globals⟩) (.fresh frame)) =
        .error e) :
    let reply := (start frame settings).run [.define name body span, .draw name segment span']
    reply.session.canvas.path.segments = #[] := by
  let s : Session α := start frame settings
  let c : Canvas α := s.root.bind name (.fractal ⟨name, body, .globals⟩) s.canvas
  have hread : Stmt.namedDraw (.draw name segment span') name segment s.root c = .error e := by
    have hends' : Stmt.endpoints (.draw name segment span') segment s.root c = .error e := hends
    simp only [Stmt.namedDraw, hends', bind, Except.bind]
  -- the definition is run, and the draw fails before it moves the pen
  have hex : Execution s.root (.all .origin [.define name body span, .draw name segment span'])
      s.canvas _ := .cons .define (.fail (.drawUnread hread))
  intro reply
  have hrun := run_of_error hex rfl
  have hcanvas : reply.session.canvas = c := congrArg (fun reply => reply.session.canvas) hrun
  rw [hcanvas]
  rfl

end Session

/-- Comparison of scalars is transitive. In a fresh session, a program defines a fractal whose body
is nothing but SELF, one or more, between points that are written out, and draws it by name. Under
settings whose resolution is not greater and whose depth is not smaller, it draws at least as many
segments. If the ends of the draw can be read, the program succeeds and draws the lines of the
growth under the settings. The coarse growth is the fine one with copies cut back to lines. Each
coarse segment is a copy in the fine growth, and the fine segments are blocks, one for each coarse
segment and in the same order: the lines that the copy comes to, at least one. -/
theorem finer_settings_draw_no_less (htrans : Scalar.LeTransitive α) (frame : Frame α)
    (coarse fine : Settings α) (hfine : fine.Finer coarse) (name : String) (body : List (Stmt α))
    (links : List (Point α × Point α)) (hbody : Stmt.Follow body links) (hlinks : links ≠ [])
    (segment : Segment α) (span span' : Span) :
    let program : Program α := [.define name body span, .draw name segment span']
    let drawn (settings : Settings α) : List (Stroke α) :=
      ((Session.start frame settings).run program).session.canvas.path.segments.toList
    let ends (settings : Settings α) :=
      Stmt.endpoints (.draw name segment span') segment (.root settings frame)
        ((Branch.root settings frame).bind name (.fractal ⟨name, body, .globals⟩) (.fresh frame))
    (drawn coarse).length ≤ (drawn fine).length ∧
    ∀ p q, ends coarse = .ok (p, q) →
      let growth (settings : Settings α) :=
        ((Branch.root settings frame).child p q).growth links links
      (∀ settings, (∃ r, ((Session.start frame settings).run program).value = .ok r) ∧
        drawn settings = (growth settings).lines) ∧
      (growth coarse).CutBack (growth fine) ∧
      ∃ blocks, drawn fine = List.flatten blocks ∧
        List.Forall₂ (growth fine).Has (drawn coarse) blocks ∧ ∀ block ∈ blocks, block ≠ [] := by
  intro program drawn ends
  -- the ends do not depend on the settings
  have hends : ∀ settings, ends settings = ends coarse :=
    fun settings => Stmt.endpoints_under _ segment (.root coarse frame) settings _
  have hdrawn : ∀ p q, ends coarse = .ok (p, q) → ∀ settings,
      (∃ r, ((Session.start frame settings).run program).value = .ok r) ∧
        drawn settings = (((Branch.root settings frame).child p q).growth links links).lines :=
    fun p q h settings => Session.run_draw_growth hbody ((hends settings).trans h)
  -- below the draw, the coarse growth is the fine one, cut back
  have hcut : ∀ p q, (((Branch.root coarse frame).child p q).growth links links).CutBack
      (((Branch.root fine frame).child p q).growth links links) := fun p q =>
    Branch.cutBack_growth htrans (b := (Branch.root coarse frame).child p q) hfine hlinks links
  -- where the ends cannot be read, nothing is drawn under either settings
  constructor
  · cases h : ends coarse with
    | error e =>
      have hnothing : drawn coarse = [] := congrArg Array.toList (Session.run_draw_unread h)
      rw [hnothing]
      exact Nat.zero_le _
    | ok pq =>
      rw [(hdrawn pq.1 pq.2 h coarse).2, (hdrawn pq.1 pq.2 h fine).2]
      exact (hcut pq.1 pq.2).length_lines_le
  · intro p q h growth
    obtain ⟨blocks, hflatten, hblocks, hfilled⟩ := (hcut p q).blocks
    refine ⟨hdrawn p q h, hcut p q, blocks, ?_, ?_, hfilled⟩
    · rw [(hdrawn p q h fine).2, hflatten]
    · rwa [(hdrawn p q h coarse).2]

/-- A fractal of three copies, one of them greater than the fractal itself, drawn in doubles with
nine lines under the coarse settings. -/
theorem finer_settings_draw_no_less_doubles :
    let coarse : Settings Float := ⟨Scalar.ofInt 3, 2⟩
    let fine : Settings Float := ⟨Scalar.ofInt 2, 4⟩
    let frame : Frame Float := .scaling (Scalar.ofInt 4) (Scalar.ofInt 4)
    let half : Point Float := ⟨1 / Scalar.ofInt 2, 1 / Scalar.ofInt 2⟩
    let far : Point Float := ⟨Scalar.ofInt 2, Scalar.ofInt 2⟩
    let links : List (Point Float × Point Float) := [(.origin, half), (half, far), (far, .xUnit)]
    let body : List (Stmt Float) := links.map fun ends => .drawSelf (.between ends.1 ends.2) {}
    let segment : Segment Float := .between .origin .xUnit
    let program : Program Float := [.define "f" body {}, .draw "f" segment {}]
    let drawn (settings : Settings Float) : List (Stroke Float) :=
      ((Session.start frame settings).run program).session.canvas.path.segments.toList
    (Scalar.LeTransitive Float ∧ fine.Finer coarse ∧ Stmt.Follow body links ∧ links ≠ []) ∧
    (drawn coarse).length = 9 ∧ (drawn coarse).length ≤ (drawn fine).length ∧
    ∃ blocks, drawn fine = List.flatten blocks ∧ blocks.length = 9 ∧
      ∀ block ∈ blocks, block ≠ [] := by
  intro coarse fine frame half far links body segment program drawn
  have hfine : fine.Finer coarse := ⟨by decide +kernel, by decide⟩
  have hbody : Stmt.Follow body links :=
    .cons ⟨_, _, rfl, {}, {}, rfl⟩
      (.cons ⟨_, _, rfl, {}, {}, rfl⟩ (.cons ⟨_, _, rfl, {}, {}, rfl⟩ .nil))
  -- nine lines under the coarse settings
  have hcount : (drawn coarse).length = 9 := by decide +kernel
  obtain ⟨hlength, hgrowth⟩ := finer_settings_draw_no_less Double.leTransitive frame coarse fine
    hfine "f" body links hbody (by simp [links]) segment {} {}
  obtain ⟨_, _, blocks, hflatten, hblocks, hfilled⟩ := hgrowth .origin .xUnit rfl
  exact ⟨⟨Double.leTransitive, hfine, hbody, by simp [links]⟩, hcount, hlength, blocks, hflatten,
    hblocks.length_eq.symm.trans hcount, hfilled⟩

end SelfSimilar
