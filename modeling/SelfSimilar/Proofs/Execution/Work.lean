import SelfSimilar.Drawing.Execution

/-!
# Work on a branch

A statement, or what is left of a body, is a piece of work, and `Branch.perform` does it. The
equations of this module say what each piece of work comes to. They mention the limits of a branch
where the program does, and never how many levels are left:

* `perform_draw_of_lt`: below the limit, a draw by name runs the body on a child branch
* `perform_drawSelf_of_isResolvable`: SELF runs it for as long as its branch is resolvable
* `perform_cons_of_ok`, `perform_cons_of_error`: statements are run in order until one fails
-/

namespace SelfSimilar

/-- A piece of work on a branch. -/
inductive Task (α : Type) where
  /-- One statement. -/
  | one (s : Stmt α)
  /-- The statements left of a body, with the sum of the points so far. -/
  | all (sum : Point α) (body : List (Stmt α))

/-- The same outcome with another value in place of the value. -/
def Outcome.map {α ε β γ : Type} (f : β → γ) (o : Outcome α ε β) : Outcome α ε γ :=
  ⟨o.result.map f, o.canvas, o.events⟩

variable {α : Type} [Scalar α]

namespace Branch

/-- Do a piece of work. A body yields the sum of its points. -/
def perform (b : Branch α) : Task α → Run α Failure (Value α)
  | .one s => b.run s
  | .all sum body => do return .point (← execAll b.deeper b sum body)

/-- The canvas after a straight line. -/
def lined (b : Branch α) (segment : Segment α) (ends : Point α × Point α) (c : Canvas α) :
    Canvas α :=
  b.lineTo ends.2 (if segment.source.isSome then b.moveTo ends.1 c else c)

variable (b : Branch α) (segment : Segment α) (ends : Point α × Point α) (c : Canvas α)

@[simp] theorem env_lined : (b.lined segment ends c).env = c.env := by
  unfold lined
  split <;> simp

@[simp] theorem active_lined : (b.lined segment ends c).active = c.active := by
  unfold lined
  split <;> simp

end Branch

/-! ## What runs compute -/

omit [Scalar α] in
/-- A point is told from the value that it is made. -/
theorem Outcome.result_eq_of_map {ε : Type} {o₁ o₂ : Outcome α ε (Point α)}
    (h : (o₁.map Value.point).result = (o₂.map Value.point).result) : o₁.result = o₂.result := by
  rcases o₁ with ⟨_ | p₁, _, _⟩ <;> rcases o₂ with ⟨_ | p₂, _, _⟩ <;> cases h <;> rfl

omit [Scalar α] in
/-- An outcome is told from the one whose point is made a value. -/
theorem Outcome.eq_of_map {ε : Type} {o₁ o₂ : Outcome α ε (Point α)}
    (h : o₁.map Value.point = o₂.map Value.point) : o₁ = o₂ := by
  have hresult := result_eq_of_map (congrArg Outcome.result h)
  rcases o₁ with ⟨result₁, canvas₁, events₁⟩
  rcases o₂ with ⟨result₂, canvas₂, events₂⟩
  -- canvas and events are left alone
  simp only [map, mk.injEq] at h hresult ⊢
  exact ⟨hresult, h.2⟩

omit [Scalar α] in
/-- A run whose point is made a value. -/
theorem Run.bind_point (r : Run α Failure (Point α)) (c : Canvas α) :
    (do return Value.point (← r)) c = (r c).map .point := by
  rcases h : r c with ⟨_ | p, d, events⟩
  · exact Run.bind_error h
  · rw [Run.bind_ok h]
    simp [Outcome.map, Except.map]

namespace Branch

/-- What is left of a body yields the sum of its points. -/
theorem perform_all (b : Branch α) (sum : Point α) (body : List (Stmt α)) (c : Canvas α) :
    b.perform (.all sum body) c = (execAll b.deeper b sum body c).map .point :=
  Run.bind_point _ c

/-- A body is begun with the origin as the sum. -/
theorem perform_body (b : Branch α) (body : List (Stmt α)) (c : Canvas α) :
    b.perform (.all .origin body) c = (b.runAll body c).map .point :=
  b.perform_all .origin body c

/-- With the levels that are left, a body is run as on the branch itself. -/
theorem runBody_levelsLeft (b : Branch α) : runBody b.levelsLeft b = b.runAll := by
  funext body
  unfold runAll deeper
  -- both ways of running a body split on the levels left in the same way
  cases b.levelsLeft <;> rfl

omit [Scalar α] in
/-- Below the limit, a child branch has a level less. -/
theorem levelsLeft_child {b child : Branch α} (h : b.level < b.depthLimit)
    (hs : child.settings = b.settings) (hc : child.level = b.level + 1) :
    child.levelsLeft + 1 = b.levelsLeft := by
  unfold levelsLeft depthLimit at *
  rw [hs, hc]
  omega

/-- Below the limit there is a level left, and it is that of a child branch. -/
theorem deeper_of_lt {b : Branch α} (h : b.level < b.depthLimit) :
    ∃ run, b.deeper = some run ∧
      ∀ child : Branch α, child.settings = b.settings → child.level = b.level + 1 →
        run child = child.runAll := by
  obtain ⟨levels, hl⟩ : ∃ levels, b.levelsLeft = levels + 1 :=
    Nat.exists_eq_succ_of_ne_zero (by unfold levelsLeft; omega)
  refine ⟨runBody levels, by simp [deeper, hl], fun child hs hc => ?_⟩
  -- what is left on this branch after one level is what is left on the child
  have hchild : child.levelsLeft = levels := by
    have := levelsLeft_child h hs hc
    omega
  rw [← hchild, runBody_levelsLeft]

/-- At the limit no level is left. -/
theorem deeper_of_le {b : Branch α} (h : b.depthLimit ≤ b.level) : b.deeper = none := by
  have hl : b.levelsLeft = 0 := by unfold levelsLeft; omega
  simp [deeper, hl]

/-- SELF is drawn as a fractal only below its own limit. -/
theorem level_lt_of_isResolvable {b : Branch α} (h : b.isResolvable = true) :
    b.level < b.settings.selfLimit := by
  rw [isResolvable, Bool.and_eq_true, decide_eq_true_eq] at h
  exact h.2

/-- SELF is drawn as a fractal only where a level is left. -/
theorem lt_depthLimit_of_isResolvable {b : Branch α} (h : b.isResolvable = true) :
    b.level < b.depthLimit :=
  Nat.lt_of_lt_of_le (level_lt_of_isResolvable h) b.settings.selfLimit_le_depthLimit

omit [Scalar α] in
/-- Where programs are run from, a level is left whatever the settings. -/
theorem root_level_lt_depthLimit (settings : Settings α) (frame : Frame α) :
    (root settings frame).level < (root settings frame).depthLimit := by
  simp only [root, depthLimit, Settings.depthLimit, Settings.margin, Settings.greatestLimit]
  omega

/-- A straight line yields its target and reports nothing. -/
theorem drawLine_apply (b : Branch α) (segment : Segment α) (ends : Point α × Point α)
    (c : Canvas α) :
    b.drawLine segment ends c = ⟨.ok (.point ends.2), b.lined segment ends c, []⟩ := by
  unfold drawLine lined
  cases segment.source <;> simp

variable {b : Branch α} {c : Canvas α} {span : Span}

theorem perform_block (b : Branch α) (c : Canvas α) (body : List (Stmt α)) (span : Span) :
    b.perform (.one (.block body span)) c = b.perform (.all .origin body) c := rfl

/-- A definition binds a fractal and reports it. -/
theorem perform_define (b : Branch α) (c : Canvas α) (name : String) (body : List (Stmt α))
    (span : Span) :
    b.perform (.one (.define name body span)) c =
      ⟨.ok (.fractal ⟨name, body, b.scope⟩), b.bind name (.fractal ⟨name, body, b.scope⟩) c,
        [.defined name body.length]⟩ := rfl

/-- A draw by name whose ends or fractal cannot be read. -/
theorem perform_draw_of_error {name : String} {segment : Segment α} {e : Failure}
    (h : Stmt.namedDraw (.draw name segment span) name segment b c = .error e) :
    b.perform (.one (.draw name segment span)) c = ⟨.error e, c, b.report e.fault⟩ :=
  reading_bind_error h

/-- A draw by name at the limit is refused. -/
theorem perform_draw_of_le {name : String} {segment : Segment α} {ends : Point α × Point α}
    {f : Fractal α}
    (h : Stmt.namedDraw (.draw name segment span) name segment b c = .ok (ends, f))
    (hle : b.depthLimit ≤ b.level) :
    b.perform (.one (.draw name segment span)) c =
      ⟨.error (Stmt.failure (.draw name segment span) (.tooDeep b.depthLimit)), c,
        [.nestedPast name b.depthLimit]⟩ := by
  -- what the draw needs is read before its level is looked at
  refine (reading_bind_ok h).trans ?_
  rw [deeper_of_le hle]
  rfl

/-- Below the limit, a draw by name runs the body on a child branch, while its fractal is active. -/
theorem perform_draw_of_lt {name : String} {segment : Segment α} {ends : Point α × Point α}
    {f : Fractal α} {child : Branch α}
    (h : Stmt.namedDraw (.draw name segment span) name segment b c = .ok (ends, f))
    (hlt : b.level < b.depthLimit) (hchild : child = (b.child ends.1 ends.2).within f.scope) :
    b.perform (.one (.draw name segment span)) c =
      let o := child.perform (.all .origin f.body) ((child.moveTo .origin c).start f)
      ⟨o.result, o.canvas.stop, .derived child.level child.frame :: o.events⟩ := by
  obtain ⟨run', hdeeper, hrun⟩ := deeper_of_lt hlt
  -- from here on the levels left are those of the child itself
  have hbody : run' child = child.runAll :=
    hrun child (by rw [hchild]; rfl) (by rw [hchild]; rfl)
  simp only [perform_body]
  refine (reading_bind_ok h).trans ?_
  rw [hdeeper]
  simp only [← hchild, hbody, enter_bind, Run.bind_point, Run.drawing_apply, Outcome.map]

/-- SELF whose fractal or ends cannot be read. -/
theorem perform_drawSelf_of_error {segment : Segment α} {e : Failure}
    (h : Stmt.selfDraw (.drawSelf segment span) segment b c = .error e) :
    b.perform (.one (.drawSelf segment span)) c = ⟨.error e, c, b.report e.fault⟩ :=
  reading_bind_error h

/-- SELF on a branch that is not resolvable is a line. -/
theorem perform_drawSelf_of_small {segment : Segment α} {f : Fractal α}
    {ends : Point α × Point α}
    (h : Stmt.selfDraw (.drawSelf segment span) segment b c = .ok (f, ends))
    (hsmall : b.isResolvable = false) :
    b.perform (.one (.drawSelf segment span)) c =
      ⟨.ok (.point ends.2), b.lined segment ends c, [.bottomedOut b.level f.name]⟩ := by
  refine (reading_bind_ok h).trans ?_
  rw [hsmall]
  simp [drawLine_apply]

/-- SELF on a resolvable branch runs the body on a child branch. -/
theorem perform_drawSelf_of_isResolvable {segment : Segment α} {f : Fractal α}
    {ends : Point α × Point α} {child : Branch α}
    (h : Stmt.selfDraw (.drawSelf segment span) segment b c = .ok (f, ends))
    (hlarge : b.isResolvable = true) (hchild : child = b.child ends.1 ends.2) :
    b.perform (.one (.drawSelf segment span)) c =
      let o := child.perform (.all .origin f.body) (child.moveTo .origin c)
      ⟨o.result, o.canvas, .derived child.level child.frame :: o.events⟩ := by
  -- where SELF is resolvable a level is left, and it is that of the child
  obtain ⟨run', hdeeper, hrun⟩ := deeper_of_lt (lt_depthLimit_of_isResolvable hlarge)
  have hbody : run' child = child.runAll :=
    hrun child (by rw [hchild]; rfl) (by rw [hchild]; rfl)
  simp only [perform_body]
  refine (reading_bind_ok h).trans ?_
  rw [hdeeper, hlarge]
  simp only [← hchild, hbody, enter_bind, Run.bind_point, Outcome.map]

theorem perform_line_of_error {segment : Segment α} {e : Failure}
    (h : Stmt.endpoints (.line segment span) segment b c = .error e) :
    b.perform (.one (.line segment span)) c = ⟨.error e, c, b.report e.fault⟩ :=
  reading_bind_error h

/-- A line between ends that can be read. -/
theorem perform_line_of_ok {segment : Segment α} {ends : Point α × Point α}
    (h : Stmt.endpoints (.line segment span) segment b c = .ok ends) :
    b.perform (.one (.line segment span)) c =
      ⟨.ok (.point ends.2), b.lined segment ends c, []⟩ :=
  (reading_bind_ok h).trans (b.drawLine_apply segment ends c)

theorem perform_assign_of_error {id : String} {value : Expr α} {e : Failure}
    (h : value.eval b c = .error e) :
    b.perform (.one (.assign id value span)) c = ⟨.error e, c, b.report e.fault⟩ :=
  reading_bind_error h

/-- An assignment binds its value. -/
theorem perform_assign_of_ok {id : String} {value : Expr α} {v : Value α}
    (h : value.eval b c = .ok v) :
    b.perform (.one (.assign id value span)) c = ⟨.ok .noValue, b.bind id v c, []⟩ :=
  (reading_bind_ok h).trans (Run.change_bind _ _ c)

theorem perform_clear (b : Branch α) (c : Canvas α) (span : Span) :
    b.perform (.one (.clear span)) c =
      ⟨.ok .noValue, b.erase c, [.clearing c.path.segmentCount]⟩ := rfl

theorem perform_home (b : Branch α) (c : Canvas α) (span : Span) :
    b.perform (.one (.home span)) c = ⟨.ok .noValue, b.moveTo .origin c, []⟩ := rfl

theorem perform_nil (b : Branch α) (c : Canvas α) (sum : Point α) :
    b.perform (.all sum []) c = ⟨.ok (.point sum), c, []⟩ := by
  simp [perform_all, execAll, Outcome.map, Except.map]

/-- If the first statement left fails, the others are not run. -/
theorem perform_cons_of_error {sum : Point α} {s : Stmt α} {rest : List (Stmt α)} {e : Failure}
    {d : Canvas α} {events : List (Event α)} (h : b.perform (.one s) c = ⟨.error e, d, events⟩) :
    b.perform (.all sum (s :: rest)) c = ⟨.error e, d, events⟩ := by
  have hs : s.exec b.deeper b c = ⟨.error e, d, events⟩ := h
  rw [perform_all, execAll, Run.bind_error hs]
  rfl

/-- The first statement left is run, and then the others with its point in the sum. -/
theorem perform_cons_of_ok {sum : Point α} {s : Stmt α} {rest : List (Stmt α)} {v : Value α}
    {d : Canvas α} {events : List (Event α)} (h : b.perform (.one s) c = ⟨.ok v, d, events⟩) :
    b.perform (.all sum (s :: rest)) c =
      let o := b.perform (.all (v.addTo sum) rest) d
      ⟨o.result, o.canvas, events ++ o.events⟩ := by
  -- the statements of a body are all run with the levels left at its start
  have hs : s.exec b.deeper b c = ⟨.ok v, d, events⟩ := h
  rw [perform_all, perform_all, execAll, Run.bind_ok hs]
  rfl

/-- The canvas that a body leaves depends on the value and the canvas of its first statement. -/
theorem canvas_perform_cons (b : Branch α) (sum : Point α) (s : Stmt α) (rest : List (Stmt α))
    (c : Canvas α) :
    (b.perform (.all sum (s :: rest)) c).canvas =
      match (b.perform (.one s) c).result with
      | .ok v => (b.perform (.all (v.addTo sum) rest) (b.perform (.one s) c).canvas).canvas
      | .error _ => (b.perform (.one s) c).canvas := by
  rcases h : b.perform (.one s) c with ⟨_ | v, d, events⟩
  · rw [perform_cons_of_error h]
  · rw [perform_cons_of_ok h]

/-! ## Programs -/

/-- A program is run as a body is, and its end is reported. -/
theorem runProgram_apply (b : Branch α) (program : Program α) (c : Canvas α) :
    b.runProgram program c =
      match b.runAll program c with
      | ⟨.ok p, d, events⟩ =>
        ⟨.ok p, d, events ++ [.finished d.path.segmentCount p d.path.hash.value]⟩
      | ⟨.error e, d, events⟩ => ⟨.error e, d, events⟩ := by
  unfold runProgram
  rcases h : b.runAll program c with ⟨_ | p, d, events⟩
  · exact Run.bind_error h
  · rw [Run.bind_ok h]
    simp

/-- To report the end of a program does not change its result. -/
@[simp] theorem result_runProgram (b : Branch α) (program : Program α) (c : Canvas α) :
    (b.runProgram program c).result = (b.runAll program c).result := by
  rw [runProgram_apply]
  rcases b.runAll program c with ⟨_ | p, d, events⟩ <;> rfl

/-- To report the end of a program does not change the canvas. -/
@[simp] theorem canvas_runProgram (b : Branch α) (program : Program α) (c : Canvas α) :
    (b.runProgram program c).canvas = (b.runAll program c).canvas := by
  rw [runProgram_apply]
  rcases b.runAll program c with ⟨_ | p, d, events⟩ <;> rfl

/-- The work of a program tells what the program itself comes to. -/
theorem runProgram_eq_of_perform_eq {b₁ b₂ : Branch α} {program : Program α} {c : Canvas α}
    (h : b₁.perform (.all .origin program) c = b₂.perform (.all .origin program) c) :
    b₁.runProgram program c = b₂.runProgram program c := by
  rw [perform_body, perform_body] at h
  rw [runProgram_apply, runProgram_apply, Outcome.eq_of_map h]

end Branch

end SelfSimilar
