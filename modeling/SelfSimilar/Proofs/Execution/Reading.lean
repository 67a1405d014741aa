import SelfSimilar.Proofs.Execution.Origin

/-!
# Where a collapsed frame is reported

What a statement needs is read at one go, and if that fails, the event is derived from the fault.
Reading can also be written as a run of its own, which goes on from part to part and reports a
collapsed frame at the very place where it asks for the pen. Both are the same run: reading ends at
its first fault, and nothing but the place of the pen fails for want of a frame.

* `Expr.read`, `Stmt.readEndpoints`, `Stmt.readNamedDraw`, `Stmt.readSelfDraw`: reading part by part
* `Expr.read_eq_reading`, `Stmt.readEndpoints_eq_reading`, `Stmt.readNamedDraw_eq_reading`,
  `Stmt.readSelfDraw_eq_reading`: each of them is reading at one go
* `Expr.fault_eq_singularFrame_iff`: which part of an expression fails for want of a frame
-/

namespace SelfSimilar

variable {α : Type}

/-! ## Parts of reading -/

namespace Run

variable {ε β : Type}

/-- Read something of the canvas, and report nothing. -/
def silently (f : Canvas α → Except ε β) : Run α ε β := fun c => ⟨f c, c, []⟩

/-- Tie the fault of a run to a node. The events stay as they are. -/
def tied (tie : Fault → Failure) (r : Run α Fault β) : Run α Failure β := fun c =>
  match r c with
  | ⟨.ok v, c, events⟩ => ⟨.ok v, c, events⟩
  | ⟨.error fault, c, events⟩ => ⟨.error (tie fault), c, events⟩

end Run

namespace Branch

variable {β γ : Type} {b : Branch α}

/-- Two readings in a row are one reading, as the first one leaves the canvas as it is. -/
theorem reading_bind (f : Canvas α → Except Failure β) (g : β → Canvas α → Except Failure γ) :
    (b.reading f >>= fun v => b.reading (g v)) = b.reading fun c => f c >>= fun v => g v c := by
  funext c
  cases hf : f c with
  | ok v =>
    have hboth : (f c >>= fun v => g v c) = g v c := by rw [hf]; rfl
    rw [reading_bind_ok hf, reading, reading, hboth]
  | error e =>
    have hboth : (f c >>= fun v => g v c) = .error e := by rw [hf]; rfl
    rw [reading_bind_error hf, reading, hboth]

/-- A reading goes on with a result that is computed from what it has read. -/
theorem reading_map (f : Canvas α → Except Failure β) (g : β → γ) :
    (b.reading f >>= fun v => pure (g v)) = b.reading fun c => f c >>= fun v => .ok (g v) :=
  reading_bind f fun v _ => .ok (g v)

/-- What does not fail for want of a frame is not reported. -/
theorem silently_eq_reading {f : Canvas α → Except Failure β}
    (h : ∀ c e, f c = .error e → e.fault ≠ .singularFrame) : Run.silently f = b.reading f := by
  funext c
  unfold Run.silently reading
  cases hf : f c with
  | ok v => rfl
  | error e =>
    have hquiet : b.report e.fault = [] := by
      unfold report
      split
      · exact absurd ‹_› (h c e hf)
      · rfl
    simp only [hquiet]

end Branch

/-! ## Reading part by part -/

variable [Scalar α]

namespace Expr

/-- The value of an expression, read part by part. -/
def read (b : Branch α) : Expr α → Run α Failure (Value α)
  | .literal value _ => pure value.value
  | e@(.name _ id _) => .silently fun c => e.attach (b.lookup c id)
  | e@(.binary op left right _) => do
    let l ← left.read b
    let r ← right.read b
    .silently fun _ => e.attach (Operators.standard.apply op l r)
  | e@(.negate operand _) => do
    let v ← operand.read b
    .silently fun _ => e.attach v.negate
  | e@(.rotation angle _) => do
    let v ← angle.read b
    let x ← .silently fun _ => e.attach v.asReal
    return .point (.round (Scalar.cos x) (Scalar.sin x))
  | e@(.here _) => do
    let p ← b.here.tied e.failure
    return .point p

/-- The point that an expression evaluates to, read part by part. -/
def readPoint (e : Expr α) (b : Branch α) : Run α Failure (Point α) := do
  let v ← e.read b
  .silently fun _ => e.attach v.asPoint

end Expr

namespace Stmt

/-- The ends of what a statement draws, read part by part. -/
def readEndpoints (s : Stmt α) (segment : Segment α) (b : Branch α) :
    Run α Failure (Point α × Point α) := do
  let target ← segment.target.readPoint b
  match segment.source with
  | some source => return (← source.readPoint b, target)
  | none => return (← b.here.tied s.failure, target)

/-- What a draw by name needs, read part by part. -/
def readNamedDraw (s : Stmt α) (name : String) (segment : Segment α) (b : Branch α) :
    Run α Failure ((Point α × Point α) × Fractal α) := do
  let ends ← s.readEndpoints segment b
  let v ← .silently fun c => s.attach (b.lookup c name)
  let f ← .silently fun _ => s.attach v.asFractal
  return (ends, f)

/-- What SELF needs, read part by part. -/
def readSelfDraw (s : Stmt α) (segment : Segment α) (b : Branch α) :
    Run α Failure (Fractal α × (Point α × Point α)) := do
  let f ← .silently fun c => s.attach c.current
  let ends ← s.readEndpoints segment b
  return (f, ends)

end Stmt

/-! ## Reading at one go -/

variable {b : Branch α} {c : Canvas α}

/-- At an expression, only the place of the pen is reported. -/
theorem Expr.silently_attach {β : Type} (e : Expr α) {x : Canvas α → Except Fault β}
    (h : ∀ c fault, x c = .error fault → fault ≠ .singularFrame) :
    Run.silently (fun c => e.attach (x c)) = b.reading fun c => e.attach (x c) := by
  refine Branch.silently_eq_reading fun c failure hfails => ?_
  obtain ⟨fault, hfault, rfl⟩ := attach_eq_error.1 hfails
  exact h c fault hfault

/-- At a statement, only the place of the pen is reported. -/
theorem Stmt.silently_attach {β : Type} (s : Stmt α) {x : Canvas α → Except Fault β}
    (h : ∀ c fault, x c = .error fault → fault ≠ .singularFrame) :
    Run.silently (fun c => s.attach (x c)) = b.reading fun c => s.attach (x c) := by
  refine Branch.silently_eq_reading fun c failure hfails => ?_
  obtain ⟨fault, hfault, rfl⟩ := attach_eq_error.1 hfails
  exact h c fault hfault

/-- The place of the pen is read at an expression, and reported there. -/
theorem Expr.tied_here (e : Expr α) :
    b.here.tied e.failure = b.reading fun c => e.attach (b.pen c) := by
  funext c
  cases hpen : b.pen c <;> simp only [Run.tied, Branch.here, Branch.reading, attach, hpen]
  rfl

/-- The place of the pen is read at a statement, and reported there. -/
theorem Stmt.tied_here (s : Stmt α) :
    b.here.tied s.failure = b.reading fun c => s.attach (b.pen c) := by
  funext c
  cases hpen : b.pen c <;> simp only [Run.tied, Branch.here, Branch.reading, attach, hpen]
  rfl

namespace Expr

/-- An expression reports a collapsed frame where it asks for the pen. -/
theorem read_eq_reading (e : Expr α) : e.read b = b.reading fun c => e.eval b c := by
  induction e with
  | literal value span => rfl
  | name sort id span =>
    exact silently_attach _ fun c fault h => by
      rw [Branch.lookup_eq_error h]
      nofun
  | binary op left right span ihLeft ihRight =>
    have hquiet (l r : Value α) := silently_attach (b := b) (binary op left right span)
      (x := fun _ => Operators.standard.apply op l r) fun c fault h => by
        rw [(Operators.apply_eq_error_iff.1 h).2]
        nofun
    simp only [read, ihLeft, ihRight, hquiet, Branch.reading_bind, eval]
  | negate operand span ih =>
    have hquiet (v : Value α) := silently_attach (b := b) (negate operand span)
      (x := fun _ => v.negate) fun c fault h => by
        rw [Value.negate_eq_error h]
        nofun
    simp only [read, ih, hquiet, Branch.reading_bind, eval]
  | rotation angle span ih =>
    have hquiet (v : Value α) := silently_attach (b := b) (rotation angle span)
      (x := fun _ => v.asReal) fun c fault h => by
        rw [Value.asReal_eq_error h]
        nofun
    simp only [read, ih, hquiet, Branch.reading_map, Branch.reading_bind]
    rfl
  | here span =>
    -- the one part that is reported
    rw [read, tied_here, Branch.reading_map]
    rfl

/-- A point is read at one go: only the pen within the expression is reported. -/
theorem readPoint_eq_reading (e : Expr α) : e.readPoint b = b.reading fun c => e.evalPoint b c := by
  have hquiet (v : Value α) := silently_attach (b := b) e (x := fun _ => v.asPoint)
    fun c fault h => by
      rw [Value.asPoint_eq_error h]
      nofun
  simp only [readPoint, read_eq_reading, hquiet, Branch.reading_bind, evalPoint]

/-- If an expression fails for want of a frame, then that is where it asks for the pen, and the pen
has no place. -/
theorem fault_eq_singularFrame_iff {e : Expr α} {failure : Failure}
    (h : e.eval b c = .error failure) :
    failure.fault = .singularFrame ↔
      ∃ span, (here span).PartOf e ∧ failure = (here span : Expr α).failure .singularFrame ∧
        b.pen c = .error .singularFrame := by
  constructor
  · intro hfault
    -- the statement that holds the expression does not matter here
    obtain ⟨n, hn, hnode, hspan, hfits⟩ := eval_eq_error (.assign "" e {}) h
    rw [hfault] at hfits
    obtain ⟨hpen, ⟨span, hhere⟩ | ⟨hstmt, _⟩⟩ := hfits
    -- the node that fails asks for the pen
    · cases hhere
      refine ⟨span, hn, ?_, hpen⟩
      cases failure
      cases hfault
      cases hnode
      cases hspan
      rfl
    -- the node that fails is no statement, as an expression was evaluated
    · cases hstmt
  · rintro ⟨span, _, rfl, _⟩
    rfl

end Expr

namespace Stmt

/-- The ends of a segment are read at one go, and so is the place of the pen if it is one of
them. -/
theorem readEndpoints_eq_reading (s : Stmt α) (segment : Segment α) :
    s.readEndpoints segment b = b.reading fun c => s.endpoints segment b c := by
  unfold readEndpoints endpoints
  cases segment.source with
  | some source =>
    simp only [Expr.readPoint_eq_reading, Branch.reading_map, Branch.reading_bind]
    rfl
  | none =>
    simp only [Expr.readPoint_eq_reading, tied_here, Branch.reading_map, Branch.reading_bind]
    rfl

/-- A draw by name reads what it needs at one go. Neither the name nor its value is reported. -/
theorem readNamedDraw_eq_reading (s : Stmt α) (name : String) (segment : Segment α) :
    s.readNamedDraw name segment b = b.reading fun c => s.namedDraw name segment b c := by
  have hlookup := silently_attach (b := b) s (x := fun c => b.lookup c name) fun c fault h => by
    rw [Branch.lookup_eq_error h]
    nofun
  have hfractal (v : Value α) := silently_attach (b := b) s (x := fun _ => v.asFractal)
    fun c fault h => by
      rw [Value.asFractal_eq_error h]
      nofun
  simp only [readNamedDraw, readEndpoints_eq_reading, hlookup, hfractal, Branch.reading_map,
    Branch.reading_bind]
  rfl

/-- SELF reads what it needs at one go. That no fractal is active is not reported. -/
theorem readSelfDraw_eq_reading (s : Stmt α) (segment : Segment α) :
    s.readSelfDraw segment b = b.reading fun c => s.selfDraw segment b c := by
  have hcurrent := silently_attach (b := b) s (x := fun c => c.current) fun c fault h => by
    rw [(Canvas.current_eq_error h).1]
    nofun
  simp only [readSelfDraw, readEndpoints_eq_reading, hcurrent, Branch.reading_map,
    Branch.reading_bind]
  rfl

end Stmt

end SelfSimilar
