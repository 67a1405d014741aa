import SelfSimilar.Proofs.Execution.Descent
import SelfSimilar.Proofs.Execution.Parallel
import SelfSimilar.Proofs.Program.Rewriting

/-!
# Runs of rewritten programs

A program and a rewritten one are run side by side. Wherever the first program binds or draws a
fractal, the second one has the same fractal with a rewritten body. Of the active fractals only the
innermost one matters: SELF reads no other, and a draw by name covers it for as long as its body is
run. So if each statement that is begun in the course of the first run does what its rewritten form
does, the runs end alike.

* `Canvas.Rewritten`: what the canvases of the two runs have in common
* `Execution.rewritten`: the run of the rewritten program ends as the first one does
* `Stmt.runsAlike_of_eq`: a statement that the rewriting leaves as it is does the same in both runs
* `Stmt.mapError_endpoints`, `Stmt.endpoints_cases`: what the ends of a segment owe to the statement
  that they belong to
-/

namespace SelfSimilar

variable {α : Type} [Scalar α]

/-- Related paths have the pen at the same place, and they stay related when both pens are moved or
drawn to a place or start anew there. -/
structure Path.Congruence (R : Path α → Path α → Prop) : Prop extends Path.Parallel R where
  /-- A new start relates them. -/
  startingAt : ∀ place, R (.startingAt place) (.startingAt place)
  /-- The pen is at the same place. -/
  pen_eq : ∀ {p₁ p₂}, R p₁ p₂ → p₂.pen = p₁.pen

theorem Path.congruence_eq : Path.Congruence (Eq : Path α → Path α → Prop) where
  moveTo place h := by rw [h]
  lineTo place h := by rw [h]
  startingAt place := rfl
  pen_eq h := by rw [h]

/-- The canvas `c₂` has the bindings of `c₁`, rewritten, and a related path, and SELF stands for the
same fractal, rewritten. -/
structure Canvas.Rewritten (g : Stmt α → Stmt α) (R : Path α → Path α → Prop) (c₁ c₂ : Canvas α) :
    Prop where
  env_eq : c₂.env = c₁.env.map (Value.rewrite g)
  /-- The other active fractals may be any. -/
  head_eq : c₂.active.head? = c₁.active.head?.map (Fractal.rewrite g)
  related : R c₁.path c₂.path

/-- Both runs fail, in related ways, or the second one yields the value of the first one,
rewritten. -/
inductive Value.Rewritten (g : Stmt α → Stmt α) (E : Failure → Failure → Prop) :
    Except Failure (Value α) → Except Failure (Value α) → Prop
  | ok (v : Value α) : Rewritten g E (.ok v) (.ok (v.rewrite g))
  | error {e₁ e₂ : Failure} (related : E e₁ e₂) : Rewritten g E (.error e₁) (.error e₂)

section

variable {g : Stmt α → Stmt α} {E : Failure → Failure → Prop} {v : Value α} {e : Failure}
  {r : Except Failure (Value α)}

omit [Scalar α] in
/-- If the first run yields a value, the second one yields it rewritten. -/
theorem Value.Rewritten.eq_ok (h : Value.Rewritten g E (.ok v) r) : r = .ok (v.rewrite g) := by
  cases h
  rfl

omit [Scalar α] in
/-- If the first run fails, the second one fails in a related way. -/
theorem Value.Rewritten.eq_error (h : Value.Rewritten g E (.error e) r) :
    ∃ e', r = .error e' ∧ E e e' := by
  cases h with
  | error related => exact ⟨_, rfl, related⟩

end

/-- The second run has ended as the first one has, up to the rewriting. -/
structure Outcome.Rewritten (g : Stmt α → Stmt α) (R : Path α → Path α → Prop)
    (E : Failure → Failure → Prop) (o₁ o₂ : Outcome α Failure (Value α)) : Prop where
  result : Value.Rewritten g E o₁.result o₂.result
  canvas : o₁.canvas.Rewritten g R o₂.canvas

/-- The same piece of work for rewritten statements. -/
def Task.rewrite (g : Stmt α → Stmt α) : Task α → Task α
  | .one s => .one (g s)
  | .all sum body => .all sum (body.map g)

/-- A statement and its rewritten form do alike: either both run the body of the same fractal, or
both are done at once and end alike. -/
structure Stmt.RunsAlike (g : Stmt α → Stmt α) (R : Path α → Path α → Prop)
    (E : Failure → Failure → Prop) (b : Branch α) (c₁ c₂ : Canvas α) (s : Stmt α) : Prop where
  draws : ∀ {f child d₁}, Draws b c₁ s f child d₁ →
    ∃ d₂, Draws b c₂ (g s) (f.rewrite g) child d₂ ∧ d₁.Rewritten g R d₂
  stays : ∀ {o₁}, s.Stays b c₁ → Execution b (.one s) c₁ o₁ →
    ∃ o₂, Execution b (.one (g s)) c₂ o₂ ∧ o₁.Rewritten g R E o₂

/-- All statements that are begun in the course of the work `t` do as their rewritten forms do. -/
def Branch.RunsAlike (g : Stmt α → Stmt α) (R : Path α → Path α → Prop)
    (E : Failure → Failure → Prop) (b : Branch α) (t : Task α) (c : Canvas α) : Prop :=
  ∀ b' s d₁ d₂, Visits b t c b' s d₁ → s.IsPlain → d₁.Rewritten g R d₂ →
    s.RunsAlike g R E b' d₁ d₂

section

variable {g : Stmt α → Stmt α} {R : Path α → Path α → Prop} {E : Failure → Failure → Prop}
  {b : Branch α} {t : Task α} {c₁ c₂ : Canvas α} {s : Stmt α} {o₁ : Outcome α Failure (Value α)}

/-! ## Changes on both sides -/

omit [Scalar α] in
/-- A value is bound in the first run, and the rewritten value in the second one. -/
theorem Canvas.Rewritten.bind (h : c₁.Rewritten g R c₂) (id : String) (v : Value α) :
    (b.bind id v c₁).Rewritten g R (b.bind id (v.rewrite g) c₂) := by
  refine ⟨?_, h.head_eq, h.related⟩
  simp only [Branch.bind, h.env_eq, Environment.bind_map]

omit [Scalar α] in
/-- A fractal becomes active, and the rewritten fractal does in the second run. -/
theorem Canvas.Rewritten.start (h : c₁.Rewritten g R c₂) (f : Fractal α) :
    (c₁.start f).Rewritten g R (c₂.start (f.rewrite g)) :=
  ⟨h.env_eq, rfl, h.related⟩

theorem Canvas.Rewritten.moveTo (h : c₁.Rewritten g R c₂) (hR : Path.Congruence R) (p : Point α) :
    (b.moveTo p c₁).Rewritten g R (b.moveTo p c₂) :=
  ⟨h.env_eq, h.head_eq, hR.moveTo _ h.related⟩

theorem Canvas.Rewritten.lineTo (h : c₁.Rewritten g R c₂) (hR : Path.Congruence R) (p : Point α) :
    (b.lineTo p c₁).Rewritten g R (b.lineTo p c₂) :=
  ⟨h.env_eq, h.head_eq, hR.lineTo _ h.related⟩

/-- A straight line is drawn by both statements. -/
theorem Canvas.Rewritten.lined (h : c₁.Rewritten g R c₂) (hR : Path.Congruence R)
    (segment : Segment α) (ends : Point α × Point α) :
    (b.lined segment ends c₁).Rewritten g R (b.lined segment ends c₂) := by
  unfold Branch.lined
  split
  · exact (h.moveTo hR _).lineTo hR _
  · exact h.lineTo hR _

/-- Rewriting changes fractals only, which add nothing to a sum. -/
theorem Value.addTo_rewrite (g : Stmt α → Stmt α) (sum : Point α) (v : Value α) :
    (v.rewrite g).addTo sum = v.addTo sum := by
  cases v <;> rfl

/-! ## Two runs -/

/-- The run of the rewritten program ends as the first one does. -/
theorem Execution.rewritten (hg : Stmt.Rewriting g) (h : Execution b t c₁ o₁)
    (halike : b.RunsAlike g R E t c₁) (hc : c₁.Rewritten g R c₂) :
    ∃ o₂, Execution b (t.rewrite g) c₂ o₂ ∧ o₁.Rewritten g R E o₂ := by
  -- the second canvas goes along: what is rewritten at the start of a part is so at its end
  induction h using Execution.descent generalizing c₂ with
  | @block b c₁ o body span _ ih =>
    obtain ⟨o₂, hex, ho⟩ := ih (fun _ _ _ _ hv => halike _ _ _ _ hv.block) hc
    obtain ⟨span', hblock⟩ := hg.block body span
    refine ⟨o₂, ?_, ho⟩
    rw [Task.rewrite, hblock]
    exact .block hex
  | @define b c₁ name body span =>
    -- the second run binds the fractal with the rewritten body
    obtain ⟨span', hdefine⟩ := hg.define name body span
    rw [Task.rewrite, hdefine]
    exact ⟨_, .define, .ok _, hc.bind _ _⟩
  | stays hplain hstays hex => exact (halike _ _ _ _ (.meets .here) hplain hc).stays hstays hex
  | @draws b c₁ s f child d₁ o₁ hdraws _ ih =>
    obtain ⟨d₂, hdraws', hd⟩ := (halike _ _ _ _ (.meets .here) hdraws.isPlain hc).draws hdraws
    obtain ⟨o₂, hex, ho⟩ := ih (fun _ _ _ _ hv => halike _ _ _ _ (.drawn .here hdraws hv)) hd
    -- both statements put back the fractals that were active before
    exact ⟨_, hdraws'.execution hex, ho.result, ho.canvas.env_eq, hc.head_eq, ho.canvas.related⟩
  | nil => exact ⟨_, .nil, .ok _, hc⟩
  -- the second run fails at the same statement
  | fail _ ih =>
    obtain ⟨⟨_, d₂, events₂⟩, hex, ⟨hres, hd⟩⟩ :=
      ih (fun _ _ _ _ hv => halike _ _ _ _ hv.first) hc
    cases hres with
    | error related => exact ⟨_, .fail hex, .error related, hd⟩
  | @cons b c₁ sum s rest v d₁ events o₁ first _ ihFirst ihLater =>
    obtain ⟨⟨_, d₂, events₂⟩, hex, ⟨hres, hd⟩⟩ :=
      ihFirst (fun _ _ _ _ hv => halike _ _ _ _ hv.first) hc
    cases hres with
    | ok =>
      -- a rewritten value adds the same to the sum
      obtain ⟨o₂, hex', ho⟩ :=
        ihLater (fun _ _ _ _ hv => halike _ _ _ _ (hv.later first.eq_perform)) hd
      rw [Task.rewrite, ← Value.addTo_rewrite g] at hex'
      exact ⟨_, .cons hex hex', ho.result, ho.canvas⟩

/-! ## Reading on both sides -/

omit [Scalar α] in
/-- A name has the same value in the second run, rewritten. -/
theorem Branch.lookup_rewritten (h : c₁.Rewritten g R c₂) (id : String) :
    b.lookup c₂ id = (b.lookup c₁ id).map (Value.rewrite g) := by
  unfold lookup
  rw [h.env_eq, Environment.lookup_map]

omit [Scalar α] in
/-- SELF stands for the same fractal in the second run, rewritten. -/
theorem Canvas.current_rewritten (h : c₁.Rewritten g R c₂) :
    c₂.current = c₁.current.map (Fractal.rewrite g) := by
  have hhead := h.head_eq
  unfold current
  -- either no fractal is active on both sides, or the innermost one is rewritten
  cases h₁ : c₁.active <;> cases h₂ : c₂.active <;> simp [h₁, h₂] at hhead
  · rfl
  · rw [hhead]; rfl

/-- The place of the pen is the same in both runs. -/
theorem Branch.pen_rewritten (h : c₁.Rewritten g R c₂) (hR : Path.Congruence R) :
    b.pen c₂ = b.pen c₁ := by
  unfold pen
  rw [hR.pen_eq h.related]

/-- An expression has the same value in the second run, rewritten, or the same failure. -/
theorem Expr.eval_rewritten (h : c₁.Rewritten g R c₂) (hR : Path.Congruence R) (e : Expr α) :
    e.eval b c₂ = (e.eval b c₁).map (Value.rewrite g) := by
  -- the operands are evaluated in the same order, so the same one fails first
  induction e with
  | literal value _ => cases value <;> rfl
  | name _ id _ =>
    simp only [eval, Branch.lookup_rewritten h]
    cases b.lookup c₁ id <;> rfl
  | binary op left right _ ihLeft ihRight =>
    simp only [eval, ihLeft, ihRight]
    cases left.eval b c₁ with
    | error e => rfl
    | ok l =>
      cases right.eval b c₁ with
      | error e => rfl
      | ok r =>
        simp only [Except.map, bind, Except.bind, Operators.apply_rewrite]
        cases Operators.standard.apply op l r <;> rfl
  | negate operand _ ih =>
    simp only [eval, ih]
    cases operand.eval b c₁ with
    | error e => rfl
    | ok v =>
      simp only [Except.map, bind, Except.bind, Value.negate_rewrite]
      cases v.negate <;> rfl
  | rotation angle _ ih =>
    simp only [eval, ih]
    cases angle.eval b c₁ with
    | error e => rfl
    | ok v =>
      simp only [Except.map, bind, Except.bind, Value.asReal_rewrite]
      cases v.asReal <;> rfl
  | here _ =>
    simp only [eval, Branch.pen_rewritten h hR]
    cases b.pen c₁ <;> rfl

/-- Points are not rewritten. -/
theorem Expr.evalPoint_rewritten (h : c₁.Rewritten g R c₂) (hR : Path.Congruence R) (e : Expr α) :
    e.evalPoint b c₂ = e.evalPoint b c₁ := by
  simp only [evalPoint, eval_rewritten h hR]
  cases e.eval b c₁ with
  | error e => rfl
  | ok v => simp only [Except.map, bind, Except.bind, Value.asPoint_rewrite]

/-- The ends of a segment are the same in both runs. -/
theorem Stmt.endpoints_rewritten (h : c₁.Rewritten g R c₂) (hR : Path.Congruence R)
    (segment : Segment α) : s.endpoints segment b c₂ = s.endpoints segment b c₁ := by
  simp only [endpoints, Expr.evalPoint_rewritten h hR, Branch.pen_rewritten h hR]

/-- A draw by name finds the rewritten fractal between the same ends. -/
theorem Stmt.namedDraw_rewritten (h : c₁.Rewritten g R c₂) (hR : Path.Congruence R) (name : String)
    (segment : Segment α) :
    s.namedDraw name segment b c₂ =
      (s.namedDraw name segment b c₁).map fun read => (read.1, read.2.rewrite g) := by
  simp only [namedDraw, endpoints_rewritten h hR, Branch.lookup_rewritten h]
  -- the ends are read first, then the name, then whether it stands for a fractal
  cases s.endpoints segment b c₁ with
  | error e => rfl
  | ok ends =>
    cases b.lookup c₁ name with
    | error fault => rfl
    | ok v =>
      simp only [Except.map, attach, bind, Except.bind, Value.asFractal_rewrite]
      cases v.asFractal <;> rfl

/-- SELF draws the rewritten fractal between the same ends. -/
theorem Stmt.selfDraw_rewritten (h : c₁.Rewritten g R c₂) (hR : Path.Congruence R)
    (segment : Segment α) :
    s.selfDraw segment b c₂ =
      (s.selfDraw segment b c₁).map fun read => (read.1.rewrite g, read.2) := by
  simp only [selfDraw, endpoints_rewritten h hR, Canvas.current_rewritten h]
  cases c₁.current with
  | error fault => rfl
  | ok f => cases s.endpoints segment b c₁ <;> rfl

/-! ## Statements that stay as they are -/

/-- A statement that the rewriting leaves as it is does the same in both runs. -/
theorem Stmt.runsAlike_of_eq (hR : Path.Congruence R) (hE : ∀ e, E e e) (h : c₁.Rewritten g R c₂)
    (hplain : s.IsPlain) (hs : g s = s) : s.RunsAlike g R E b c₁ c₂ := by
  -- both runs read the same, up to the rewriting, so the second one goes by the rule of the first
  constructor
  -- what runs a body runs the rewritten one, on the same child
  · intro f child d₁ hdraws
    rw [hs]
    cases hdraws with
    | named read room derived =>
      have hread := Stmt.namedDraw_rewritten h hR _ _ |>.trans (congrArg _ read)
      exact ⟨_, .named hread room derived, (h.moveTo hR _).start _⟩
    | self read large derived =>
      have hread := Stmt.selfDraw_rewritten h hR _ |>.trans (congrArg _ read)
      exact ⟨_, .self hread large derived, h.moveTo hR _⟩
  -- what runs none is done at once
  · intro o₁ hstays hex
    rw [hs]
    cases hex with
    | block _ => exact hplain.elim
    | define => exact hplain.elim
    | drawUnread read =>
      have hread := Stmt.namedDraw_rewritten h hR _ _ |>.trans (congrArg _ read)
      exact ⟨_, .drawUnread hread, .error (hE _), h⟩
    | drawTooDeep read limit =>
      have hread := Stmt.namedDraw_rewritten h hR _ _ |>.trans (congrArg _ read)
      exact ⟨_, .drawTooDeep hread limit, .error (hE _), h⟩
    | draw read room derived _ => exact absurd (.named read room derived) (hstays _ _ _)
    | selfUnread read =>
      have hread := Stmt.selfDraw_rewritten h hR _ |>.trans (congrArg _ read)
      exact ⟨_, .selfUnread hread, .error (hE _), h⟩
    | selfLine read small =>
      have hread := Stmt.selfDraw_rewritten h hR _ |>.trans (congrArg _ read)
      exact ⟨_, .selfLine hread small, .ok (.point _), h.lined hR _ _⟩
    | self read large derived _ => exact absurd (.self read large derived) (hstays _ _ _)
    | lineUnread read =>
      exact ⟨_, .lineUnread ((endpoints_rewritten h hR _).trans read), .error (hE _), h⟩
    | line read =>
      exact ⟨_, .line ((endpoints_rewritten h hR _).trans read), .ok (.point _), h.lined hR _ _⟩
    | assignUnread read =>
      have hread := Expr.eval_rewritten h hR _ |>.trans (congrArg _ read)
      exact ⟨_, .assignUnread hread, .error (hE _), h⟩
    | assign read =>
      have hread := Expr.eval_rewritten h hR _ |>.trans (congrArg _ read)
      exact ⟨_, .assign hread, .ok .noValue, h.bind _ _⟩
    | clear => exact ⟨_, .clear, .ok .noValue, h.env_eq, h.head_eq, hR.startingAt _⟩
    | home => exact ⟨_, .home, .ok .noValue, h.moveTo hR _⟩

/-! ## Readings that differ in what fails -/

/-- Two computations that have the same value or fail with the same fault do so when they go on
alike. -/
theorem mapError_bind_congr {ε φ β γ : Type} {fault : ε → φ} {x y : Except ε β}
    {k l : β → Except ε γ} (h : x.mapError fault = y.mapError fault)
    (hnext : ∀ v, (k v).mapError fault = (l v).mapError fault) :
    (x >>= k).mapError fault = (y >>= l).mapError fault := by
  cases x with
  -- both fail already in the first part
  | error e =>
    cases y with
    | error e' =>
      have hfault : fault e = fault e' := Except.error.inj h
      exact congrArg Except.error hfault
    | ok v => cases h
  | ok v =>
    cases y with
    | error e => cases h
    | ok w =>
      cases h
      exact hnext v

/-- Computations that agree up to their faults have the same value. -/
theorem eq_ok_of_mapError {ε φ β : Type} {fault : ε → φ} {x y : Except ε β} {v : β}
    (h : x.mapError fault = y.mapError fault) (hy : y = .ok v) : x = .ok v := by
  subst hy
  cases x <;> cases h
  rfl

/-- Computations that agree up to their faults fail with the same fault. -/
theorem eq_error_of_mapError {ε φ β : Type} {fault : ε → φ} {x y : Except ε β} {e : ε}
    (h : x.mapError fault = y.mapError fault) (hy : y = .error e) :
    ∃ e', x = .error e' ∧ fault e = fault e' := by
  subst hy
  cases x with
  | error e' => exact ⟨e', rfl, (Except.error.inj h).symm⟩
  | ok v => cases h

/-- Values and failures are changed apart from each other. -/
theorem mapError_map {ε φ β γ : Type} (fault : ε → φ) (x : Except ε β) (k : β → γ) :
    (x.map k).mapError fault = (x.mapError fault).map k := by
  cases x <;> rfl

/-- The fault of a failure is the one that was tied to the statement. -/
theorem Stmt.mapError_attach {β : Type} (s : Stmt α) (x : Except Fault β) :
    (s.attach x).mapError Failure.fault = x := by
  cases x <;> rfl

/-- For another statement the ends of a segment are the same, or reading them fails with the same
fault. -/
theorem Stmt.mapError_endpoints (s s' : Stmt α) (segment : Segment α) (b : Branch α)
    (c : Canvas α) :
    (s'.endpoints segment b c).mapError Failure.fault =
      (s.endpoints segment b c).mapError Failure.fault := by
  -- the target first, and then the source or the pen
  refine mapError_bind_congr rfl fun target => ?_
  cases segment.source with
  | some source => rfl
  | none => exact mapError_bind_congr (by rw [mapError_attach, mapError_attach]) fun start => rfl

/-- The ends of a segment do not depend on the statement that they belong to, unless its source is
left out and the pen cannot be read. -/
theorem Stmt.endpoints_cases (segment : Segment α) (b : Branch α) (c : Canvas α) :
    (∃ ends, ∀ s : Stmt α, s.endpoints segment b c = .ok ends) ∨
    (∃ e, ∀ s : Stmt α, s.endpoints segment b c = .error e) ∨
    segment.source = none ∧ b.pen c = .error .singularFrame ∧
      ∀ s : Stmt α, s.endpoints segment b c = .error (s.failure .singularFrame) := by
  unfold endpoints
  cases segment.target.evalPoint b c with
  | error e => exact .inr (.inl ⟨e, fun s => rfl⟩)
  | ok target =>
    cases segment.source with
    -- a source that is written fails at a node of its own
    | some source =>
      cases hsource : source.evalPoint b c with
      | error e => exact .inr (.inl ⟨e, fun s => by simp only [hsource]; rfl⟩)
      | ok start => exact .inl ⟨(start, target), fun s => by simp only [hsource]; rfl⟩
    -- only the pen is read at the statement
    | none =>
      cases hpen : b.pen c with
      | ok start => exact .inl ⟨(start, target), fun s => rfl⟩
      | error fault =>
        unfold Branch.pen at hpen
        split at hpen <;> cases hpen
        exact .inr (.inr ⟨rfl, rfl, fun s => rfl⟩)

end

end SelfSimilar
