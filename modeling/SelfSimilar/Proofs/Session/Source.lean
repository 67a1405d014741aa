import SelfSimilar.Proofs.Execution.Origin
import SelfSimilar.Proofs.Execution.Progress
import SelfSimilar.Proofs.Geometry.Collapse
import SelfSimilar.Proofs.Path.Lingering
import SelfSimilar.Proofs.Session.Rewriting

/-!
# Sources that are left out

What is drawn without a source starts where the pen is, and so does what is drawn from HERE. There
is one difference: HERE is read in local coordinates, and a line with a source moves the pen there
first. In exact arithmetic the place that is read is the place of the pen, so the move is to where
the pen is.

* `Stmt.fromHere`: HERE for each source that is left out, at any depth
* `Stmt.endpoints_fromHere`: both forms have the same ends, or fail with the same fault
* `Stmt.runsAlike_fromHere`: both forms do alike
* `left_out_source_is_here`: so do whole programs
-/

namespace SelfSimilar

/-! ## The rewriting -/

section

variable {α : Type}

/-- HERE for the source, if it is left out. -/
def Segment.fromHere (span : Span) (segment : Segment α) : Segment α :=
  match segment.source with
  | some _ => segment
  | none => { segment with source := some (.here span) }

/-- HERE for the source that a statement leaves out. -/
def Stmt.fromHereOne : Stmt α → Stmt α
  | .draw name segment span => .draw name (segment.fromHere span) span
  | .drawSelf segment span => .drawSelf (segment.fromHere span) span
  | .line segment span => .line (segment.fromHere span) span
  | s => s

/-- HERE for each source that is left out, also inside blocks and definitions. -/
def Stmt.fromHere : Stmt α → Stmt α := deeply fromHereOne

end

/-! ## Reading a source that is left out -/

section

variable {α : Type} [Scalar α] {g : Stmt α → Stmt α} {R : Path α → Path α → Prop} {b : Branch α}
  {c₁ c₂ : Canvas α}

/-- Both forms have the same ends, or fail with the same fault. -/
theorem Stmt.endpoints_fromHere (s s' : Stmt α) (segment : Segment α) (span : Span) (b : Branch α)
    (c : Canvas α) :
    (s'.endpoints (segment.fromHere span) b c).mapError Failure.fault =
      (s.endpoints segment b c).mapError Failure.fault := by
  rcases segment with ⟨_ | source, target⟩
  · refine mapError_bind_congr rfl fun stop => ?_
    -- both read the pen, and only the node that fails is another one
    simp only [Segment.fromHere, Expr.evalPoint, Expr.eval]
    cases b.pen c <;> rfl
  -- a source that is written is the same in both forms
  · exact mapError_endpoints s s' _ b c

/-- On the canvases of both runs, both forms have the same ends or fail with the same fault. -/
theorem Stmt.endpoints_fromHere_rewritten (h : c₁.Rewritten g R c₂) (hR : Path.Congruence R)
    (s s' : Stmt α) (segment : Segment α) (span : Span) :
    (s'.endpoints (segment.fromHere span) b c₂).mapError Failure.fault =
      (s.endpoints segment b c₁).mapError Failure.fault := by
  rw [endpoints_rewritten h hR, endpoints_fromHere s]

/-- So it is for what a draw by name reads. -/
theorem Stmt.namedDraw_fromHere_rewritten (h : c₁.Rewritten g R c₂) (hR : Path.Congruence R)
    (s s' : Stmt α) (name : String) (segment : Segment α) (span : Span) :
    (s'.namedDraw name (segment.fromHere span) b c₂).mapError Failure.fault =
      ((s.namedDraw name segment b c₁).map fun read =>
        (read.1, read.2.rewrite g)).mapError Failure.fault := by
  have hread : (s'.namedDraw name (segment.fromHere span) b c₁).mapError Failure.fault =
      (s.namedDraw name segment b c₁).mapError Failure.fault := by
    -- the ends first, then the value of the name, then the fractal
    refine mapError_bind_congr (endpoints_fromHere s s' segment span b c₁) fun ends => ?_
    refine mapError_bind_congr ?_ fun v => mapError_bind_congr ?_ fun f => rfl
    · rw [mapError_attach, mapError_attach]
    · rw [mapError_attach, mapError_attach]
  rw [namedDraw_rewritten h hR, mapError_map, mapError_map, hread]

/-- So it is for what SELF reads. -/
theorem Stmt.selfDraw_fromHere_rewritten (h : c₁.Rewritten g R c₂) (hR : Path.Congruence R)
    (s s' : Stmt α) (segment : Segment α) (span : Span) :
    (s'.selfDraw (segment.fromHere span) b c₂).mapError Failure.fault =
      ((s.selfDraw segment b c₁).map fun read =>
        (read.1.rewrite g, read.2)).mapError Failure.fault := by
  have hread : (s'.selfDraw (segment.fromHere span) b c₁).mapError Failure.fault =
      (s.selfDraw segment b c₁).mapError Failure.fault := by
    -- the fractal first, then the ends
    refine mapError_bind_congr ?_ fun f =>
      mapError_bind_congr (endpoints_fromHere s s' segment span b c₁) fun ends => rfl
    rw [mapError_attach, mapError_attach]
  rw [selfDraw_rewritten h hR, mapError_map, mapError_map, hread]

end

/-! ## Running both forms -/

section

variable {K : Type} [ScalarField K] {b b' : Branch K} {t : Task K} {c c' c₁ c₂ : Canvas K}
  {s : Stmt K} {segment : Segment K} {ends : Point K × Point K}

/-- Moves to where the pen is stay without effect, whatever is drawn later. -/
theorem Path.congruence_lingers : Path.Congruence (Lingers (α := K)) where
  moveTo place h := h.moveTo place
  lineTo place h := h.lineTo place
  startingAt := lingers_startingAt
  pen_eq h := h.pen_eq

/-- Draws keep the last row of a frame. -/
theorem Frame.HasUnitRow.deriveAll {F : Frame K} (h : F.HasUnitRow) (links : List (Link K)) :
    (F.deriveAll links).HasUnitRow := by
  induction links generalizing F with
  | nil => exact h
  | cons link links ih => exact ih (h.derive link.start link.stop)

/-- All frames in the course of a run have the last row that the first one has. -/
theorem Visits.hasUnitRow (h : Visits b t c b' s c') (hb : b.frame.HasUnitRow) :
    b'.frame.HasUnitRow := by
  obtain ⟨links, hlinks⟩ := h.inProgress
  rw [hlinks.frame_eq]
  exact hb.deriveAll links

variable [ScalarField.IsExact K]

/-- What is read where the pen is lies where the pen is. -/
theorem Branch.place_of_pen (hb : b.frame.HasUnitRow) {p : Point K} (h : b.pen c = .ok p) :
    b.place p = c.path.pen := by
  unfold pen at h
  split at h
  next hread =>
    cases h
    exact Frame.apply_of_unapply? hb hread
  next => cases h

/-- A line without a source, and after a move to where the pen is. -/
theorem Branch.lined_fromHere {g : Stmt K → Stmt K} (hb : b.frame.HasUnitRow)
    (h : c₁.Rewritten g Path.Lingers c₂) (span : Span)
    (hends : s.endpoints segment b c₁ = .ok ends) :
    (b.lined segment ends c₁).Rewritten g Path.Lingers
      (b.lined (segment.fromHere span) ends c₂) := by
  rcases segment with ⟨_ | source, target⟩
  -- the source is left out: the first run draws from where the pen is
  · obtain ⟨stop, _, hends⟩ := bind_eq_ok.1 hends
    obtain ⟨start, hpen, hends⟩ := bind_eq_ok.1 hends
    cases hends
    -- the second run goes to the place that it is at
    have hplace : b.place start = c₂.path.pen := by
      rw [h.related.pen_eq]
      exact place_of_pen hb (Stmt.attach_eq_ok.1 hpen)
    have hmoved : c₁.Rewritten g Path.Lingers (b.moveTo start c₂) := by
      refine ⟨h.env_eq, h.head_eq, ?_⟩
      rw [path_moveTo, hplace]
      exact h.related.stay
    exact hmoved.lineTo Path.congruence_lingers stop
  -- the source is written in both forms
  · exact h.lined Path.congruence_lingers _ _

/-- A statement and the form with HERE for its source do alike. -/
theorem Stmt.runsAlike_fromHere (hb : b.frame.HasUnitRow) (hplain : s.IsPlain)
    (h : c₁.Rewritten fromHere Path.Lingers c₂) :
    s.RunsAlike fromHere Path.Lingers Failure.SameFault b c₁ c₂ := by
  have hR : Path.Congruence (Path.Lingers (α := K)) := Path.congruence_lingers
  cases s with
  | block _ _ => exact hplain.elim
  | define _ _ _ => exact hplain.elim
  | draw name segment span =>
    -- both forms read the same up to the node that fails: first what runs a body, then what is done
    -- at once
    have hread := namedDraw_fromHere_rewritten (b := b) h hR (.draw name segment span)
      (fromHere (.draw name segment span)) name segment span
    constructor
    · rintro f child d₁ (⟨read, room, derived⟩)
      rw [read] at hread
      -- the same ends and the rewritten fractal, and both pens go to the origin of the child
      exact ⟨_, .named (eq_ok_of_mapError hread rfl) room derived, (h.moveTo hR _).start _⟩
    · intro o₁ hstays hex
      cases hex with
      | draw read room derived _ => exact absurd (.named read room derived) (hstays _ _ _)
      | drawUnread read =>
        rw [read] at hread
        obtain ⟨e', hfails, hfault⟩ := eq_error_of_mapError hread rfl
        exact ⟨_, .drawUnread hfails, .error hfault, h⟩
      | drawTooDeep read limit =>
        rw [read] at hread
        -- both branches are at the limit, and each form is refused as itself
        exact ⟨_, .drawTooDeep (eq_ok_of_mapError hread rfl) limit, .error rfl, h⟩
  | drawSelf segment span =>
    -- SELF in the same way
    have hread := selfDraw_fromHere_rewritten (b := b) h hR (.drawSelf segment span)
      (fromHere (.drawSelf segment span)) segment span
    constructor
    · rintro f child d₁ (_ | ⟨read, large, derived⟩)
      rw [read] at hread
      exact ⟨_, .self (eq_ok_of_mapError hread rfl) large derived, h.moveTo hR _⟩
    · intro o₁ hstays hex
      cases hex with
      | self read large derived _ => exact absurd (.self read large derived) (hstays _ _ _)
      | selfUnread read =>
        rw [read] at hread
        obtain ⟨e', hfails, hfault⟩ := eq_error_of_mapError hread rfl
        exact ⟨_, .selfUnread hfails, .error hfault, h⟩
      | selfLine read small =>
        rw [read] at hread
        -- as a line, the second form may move the pen to where it is
        exact ⟨_, .selfLine (eq_ok_of_mapError hread rfl) small, .ok (.point _),
          Branch.lined_fromHere hb h span (selfDraw_eq_ok.1 read).2⟩
  | line segment span =>
    -- a line runs no body
    have hread := endpoints_fromHere_rewritten (b := b) h hR (.line segment span)
      (fromHere (.line segment span)) segment span
    constructor
    · rintro f child d₁ ⟨⟩
    · intro o₁ _ hex
      cases hex with
      | lineUnread read =>
        rw [read] at hread
        obtain ⟨e', hfails, hfault⟩ := eq_error_of_mapError hread rfl
        exact ⟨_, .lineUnread hfails, .error hfault, h⟩
      | line read =>
        rw [read] at hread
        exact ⟨_, .line (eq_ok_of_mapError hread rfl), .ok (.point _),
          Branch.lined_fromHere hb h span read⟩
  -- all other statements stay as they are
  | _ => exact runsAlike_of_eq hR (fun _ => rfl) h hplain rfl

/-- A program is rendered in a frame with the last row `(0, 0, 1)`, over a field that is computed
with exactly, and so is the program with HERE for each source that is left out. Either both fail
with the same fault, or both have the same resultant and the same hash and draw the same segments,
and the commands of the second one are those of the first one and more moves, each to where the pen
is. -/
theorem left_out_source_is_here (program : Program K) (frame : Frame K) (settings : Settings K)
    (hframe : frame.HasUnitRow) :
    let reply := render program frame settings
    let reply' := render (program.map Stmt.fromHere) frame settings
    (∃ r r', reply.value = .ok r ∧ reply'.value = .ok r' ∧ r'.resultant = r.resultant ∧
      r'.hash = r.hash ∧ Command.strokes r'.commands = Command.strokes r.commands ∧
      Command.Lingers r.commands r'.commands) ∨
    ∃ e e', reply.value = .error e ∧ reply'.value = .error e' ∧ e.fault = e'.fault := by
  intro reply reply'
  let s : Session K := .start frame settings
  have hex : Execution s.root (.all .origin program) s.canvas _ := execution_perform _ _ _
  have halike : s.root.RunsAlike Stmt.fromHere Path.Lingers Failure.SameFault
      (.all .origin program) s.canvas :=
    fun b' s d₁ d₂ hv hplain hd => Stmt.runsAlike_fromHere (hv.hasUnitRow hframe) hplain hd
  obtain ⟨o', hex', hends⟩ := hex.rewritten (Stmt.rewriting_deeply _) halike
    (Canvas.rewritten_fresh Path.congruence_lingers frame)
  refine (Session.value_run_related hex hex' hends).imp_left ?_
  rintro ⟨p, path, path', hlingers, hvalue, hvalue'⟩
  exact ⟨_, _, hvalue, hvalue', rfl, congrArg PathHash.value hlingers.hash_eq,
    hlingers.commands.strokes_eq, hlingers.commands⟩

end

/-- A fractal that draws a line, itself and a line again, each from where the pen is. -/
theorem left_out_source_is_here_inside :
    letI : ScalarField ℚ := ExactArithmetic.toScalarField
    let toward (source : Option (Expr ℚ)) : Segment ℚ := ⟨source, .literal (.point .xUnit) {}⟩
    let body (source : Option (Expr ℚ)) : List (Stmt ℚ) :=
      [.line (.between .origin .yUnit) {}, .drawSelf (toward source) {}, .line (toward source) {}]
    let program (source : Option (Expr ℚ)) : Program ℚ :=
      [.define "f" (body source) {}, .home {}, .draw "f" (toward source) {}]
    let frame : Frame ℚ := .scaling 2 3
    frame.HasUnitRow ∧ (program none).map Stmt.fromHere = program (some (.here {})) ∧
      ∃ r r', (render (program none) frame ⟨1, 3⟩).value = .ok r ∧
        (render (program (some (.here {}))) frame ⟨1, 3⟩).value = .ok r' ∧
        r'.hash = r.hash ∧ Command.strokes r'.commands = Command.strokes r.commands ∧
        Command.Lingers r.commands r'.commands := by
  let : ScalarField ℚ := ExactArithmetic.toScalarField
  let : ScalarField.IsExact ℚ := ExactArithmetic.isExact
  intro toward body program frame
  have hframe : frame.HasUnitRow := ⟨rfl, rfl, rfl⟩
  have hok : (render (program none) frame ⟨1, 3⟩).value.isOk = true := by decide +kernel
  refine ⟨hframe, rfl, ?_⟩
  rcases left_out_source_is_here (program none) frame ⟨1, 3⟩ hframe with
    ⟨r, r', hr, hr', _, hrendered⟩ | ⟨e, _, hfails, _⟩
  · exact ⟨r, r', hr, hr', hrendered⟩
  · rw [hfails] at hok
    cases hok

end SelfSimilar
