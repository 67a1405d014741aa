import SelfSimilar.Proofs.Execution.Rewriting
import SelfSimilar.Proofs.Program.Bare

/-!
# Runs of bare programs

A bare program does what the program does, on a canvas where all known fractals have bare bodies: it
draws the same, binds the same values but for the bodies of fractals, and reports the same events.
It fails where the program does, and then only the place that the failure names is lost.

* `Canvas.bare`, `Outcome.bare`: canvases and outcomes without places and sorts
* `Expr.eval_bare`, `Stmt.endpoints_bare`: what is read
* `Execution.bare`: the run of the bare program comes to the bare outcome
-/

namespace SelfSimilar

variable {α : Type}

/-- The failure without its place. -/
def Failure.bare (e : Failure) : Failure := { e with span := {} }

/-- The canvas on which all known fractals have bare bodies. -/
def Canvas.bare (c : Canvas α) : Canvas α :=
  ⟨c.path, c.env.map (Value.rewrite Stmt.bare), c.active.map (Fractal.rewrite Stmt.bare)⟩

/-- The outcome with a bare value or a bare failure, on the bare canvas. -/
def Outcome.bare (o : Outcome α Failure (Value α)) : Outcome α Failure (Value α) :=
  ⟨(o.result.mapError Failure.bare).map (Value.rewrite Stmt.bare), o.canvas.bare, o.events⟩

/-- What fails with a changed failure does so in its first part or in its second one. -/
theorem mapError_bind {ε φ β γ : Type} (g : ε → φ) (x : Except ε β) (k : β → Except ε γ) :
    (x >>= k).mapError g = x.mapError g >>= fun v => (k v).mapError g := by
  cases x <;> rfl

variable [Scalar α]

section

variable {β : Type} {b : Branch α} {t : Task α} {c : Canvas α} {s : Stmt α} {segment : Segment α}
  {o : Outcome α Failure (Value α)}

/-! ## Reading -/

/-- The failure at a bare expression has the same text and no place. -/
theorem Expr.failure_bare (e : Expr α) (fault : Fault) :
    e.bare.failure fault = (e.failure fault).bare := by
  simp only [failure, Failure.bare, text_bare, span_bare]

/-- The failure at a bare statement has the same text and no place. -/
theorem Stmt.failure_bare (s : Stmt α) (fault : Fault) :
    s.bare.failure fault = (s.failure fault).bare := by
  simp only [failure, Failure.bare, text_bare, span_bare]

/-- A fault that is tied to a bare expression. -/
theorem Expr.attach_bare (e : Expr α) (x : Except Fault β) :
    e.bare.attach x = (e.attach x).mapError Failure.bare := by
  cases x with
  | ok v => rfl
  | error fault => exact congrArg Except.error (e.failure_bare fault)

/-- A fault that is tied to a bare statement. -/
theorem Stmt.attach_bare (s : Stmt α) (x : Except Fault β) :
    s.bare.attach x = (s.attach x).mapError Failure.bare := by
  cases x with
  | ok v => rfl
  | error fault => exact congrArg Except.error (s.failure_bare fault)

/-- The parts of a bare expression have the same values, and the same one fails first. -/
theorem Expr.eval_bare (e : Expr α) (b : Branch α) (c : Canvas α) :
    e.bare.eval b c = (e.eval b c).mapError Failure.bare := by
  induction e with
  | literal value _ => rfl
  | name sort id span => exact attach_bare (.name sort id span) _
  | binary op left right span ihLeft ihRight =>
    simp only [eval, mapError_bind, ← attach_bare, ← ihLeft, ← ihRight]
    rfl
  | negate operand span ih =>
    simp only [eval, mapError_bind, ← attach_bare, ← ih]
    rfl
  | rotation angle span ih =>
    simp only [eval, mapError_bind, ← attach_bare, ← ih]
    rfl
  | here span =>
    simp only [eval, mapError_bind, ← attach_bare]
    rfl

/-- An end that is bare is at the same point. -/
theorem Expr.evalPoint_bare (e : Expr α) (b : Branch α) (c : Canvas α) :
    e.bare.evalPoint b c = (e.evalPoint b c).mapError Failure.bare := by
  simp only [evalPoint, mapError_bind, attach_bare, eval_bare]

/-- Bare ends are at the same points, and the same one fails first. -/
theorem Stmt.endpoints_bare (s : Stmt α) (segment : Segment α) (b : Branch α) (c : Canvas α) :
    s.bare.endpoints segment.bare b c = (s.endpoints segment b c).mapError Failure.bare := by
  unfold endpoints
  rw [mapError_bind, ← Expr.evalPoint_bare]
  congr 1
  funext target
  -- without a source, the pen is read, and its failure is at the statement
  cases hsource : segment.source with
  | none => simp only [Segment.bare, hsource, Option.map, mapError_bind, attach_bare]; rfl
  | some source =>
    simp only [Segment.bare, hsource, Option.map, mapError_bind, Expr.evalPoint_bare]; rfl

/-- What a bare draw by name reads. -/
theorem Stmt.namedDraw_bare (s : Stmt α) (name : String) (segment : Segment α) (b : Branch α)
    (c : Canvas α) :
    s.bare.namedDraw name segment.bare b c =
      (s.namedDraw name segment b c).mapError Failure.bare := by
  simp only [namedDraw, mapError_bind, endpoints_bare, attach_bare]
  rfl

/-- What a bare draw of SELF reads. -/
theorem Stmt.selfDraw_bare (s : Stmt α) (segment : Segment α) (b : Branch α) (c : Canvas α) :
    s.bare.selfDraw segment.bare b c = (s.selfDraw segment b c).mapError Failure.bare := by
  simp only [selfDraw, mapError_bind, endpoints_bare, attach_bare]
  rfl

/-! ## Bare canvases -/

omit [Scalar α] in
/-- The bare canvas has the same path, bindings and active fractals, with bare bodies. -/
theorem Canvas.rewritten_bare (c : Canvas α) : c.Rewritten Stmt.bare Eq c.bare :=
  ⟨rfl, List.head?_map .., rfl⟩

omit [Scalar α] in
theorem Canvas.bare_stop (c : Canvas α) : c.stop.bare = c.bare.stop := by
  simp only [bare, stop, List.map_tail]

omit [Scalar α] in
/-- A name is bound on both canvases, on the bare one to the bare value. -/
theorem Branch.bare_bind (b : Branch α) (id : String) (v : Value α) (c : Canvas α) :
    (b.bind id v c).bare = b.bind id (v.rewrite Stmt.bare) c.bare := by
  simp only [Canvas.bare, bind, Environment.bind_map]

theorem Branch.bare_lined (b : Branch α) (segment : Segment α) (ends : Point α × Point α)
    (c : Canvas α) : (b.lined segment ends c).bare = b.lined segment.bare ends c.bare := by
  unfold lined Segment.bare
  cases segment.source <;> rfl

/-! ## Reading from bare canvases -/

theorem Expr.eval_bare_bare {e : Expr α} {r : Except Failure (Value α)} (h : e.eval b c = r) :
    e.bare.eval b c.bare = (r.mapError Failure.bare).map (Value.rewrite Stmt.bare) := by
  -- the bare canvas first, then the bare expression
  rw [eval_rewritten c.rewritten_bare Path.congruence_eq, eval_bare, h]

theorem Stmt.endpoints_bare_bare {r : Except Failure (Point α × Point α)}
    (h : s.endpoints segment b c = r) :
    s.bare.endpoints segment.bare b c.bare = r.mapError Failure.bare := by
  rw [endpoints_rewritten c.rewritten_bare Path.congruence_eq, endpoints_bare, h]

/-- A bare draw by name on the bare canvas finds the bare fractal. -/
theorem Stmt.namedDraw_bare_bare {name : String}
    {r : Except Failure ((Point α × Point α) × Fractal α)} (h : s.namedDraw name segment b c = r) :
    s.bare.namedDraw name segment.bare b c.bare =
      (r.mapError Failure.bare).map fun read => (read.1, read.2.rewrite bare) := by
  rw [namedDraw_rewritten c.rewritten_bare Path.congruence_eq, namedDraw_bare, h]

/-- A bare draw of SELF on the bare canvas draws the bare fractal. -/
theorem Stmt.selfDraw_bare_bare {r : Except Failure (Fractal α × (Point α × Point α))}
    (h : s.selfDraw segment b c = r) :
    s.bare.selfDraw segment.bare b c.bare =
      (r.mapError Failure.bare).map fun read => (read.1.rewrite bare, read.2) := by
  rw [selfDraw_rewritten c.rewritten_bare Path.congruence_eq, selfDraw_bare, h]

/-! ## Running -/

/-- The run of a bare program on a bare canvas comes to the bare outcome. -/
theorem Execution.bare (h : Execution b t c o) :
    Execution b (t.rewrite Stmt.bare) c.bare o.bare := by
  -- each rule for the program is the same rule for the bare one, as both read the same
  induction h with
  | block _ ih =>
    rw [Task.rewrite, Stmt.bare, Stmt.bareAll_eq_map]
    exact .block ih
  | @define b c name body span =>
    rw [Task.rewrite, Stmt.bare, Stmt.bareAll_eq_map, Outcome.bare, Branch.bare_bind,
      ← List.length_map Stmt.bare]
    exact .define
  | drawUnread read => exact .drawUnread (Stmt.namedDraw_bare_bare read)
  | @drawTooDeep b c name segment span ends f read limit =>
    -- a draw that is refused names itself
    have hrefused := Execution.drawTooDeep (Stmt.namedDraw_bare_bare read) limit
    have hfailure := Stmt.failure_bare (.draw name segment span) (.tooDeep b.depthLimit)
    rw [Stmt.bare] at hfailure
    rw [hfailure] at hrefused
    exact hrefused
  | draw read room derived _ ih =>
    rw [Outcome.bare, Canvas.bare_stop]
    exact .draw (Stmt.namedDraw_bare_bare read) room derived ih
  | selfUnread read => exact .selfUnread (Stmt.selfDraw_bare_bare read)
  | @selfLine b c segment span f ends read small =>
    rw [Outcome.bare, Branch.bare_lined]
    exact .selfLine (f := f.rewrite Stmt.bare) (Stmt.selfDraw_bare_bare read) small
  | self read large derived _ ih => exact .self (Stmt.selfDraw_bare_bare read) large derived ih
  | lineUnread read => exact .lineUnread (Stmt.endpoints_bare_bare read)
  | line read =>
    rw [Outcome.bare, Branch.bare_lined]
    exact .line (Stmt.endpoints_bare_bare read)
  | assignUnread read => exact .assignUnread (Expr.eval_bare_bare read)
  | assign read =>
    rw [Outcome.bare, Branch.bare_bind]
    exact .assign (Expr.eval_bare_bare read)
  | clear => exact .clear
  | home => exact .home
  | nil => exact .nil
  | fail _ ih => exact .fail ih
  | cons _ _ ihFirst ihLater =>
    rw [← Value.addTo_rewrite Stmt.bare] at ihLater
    exact .cons ihFirst ihLater

end

end SelfSimilar
