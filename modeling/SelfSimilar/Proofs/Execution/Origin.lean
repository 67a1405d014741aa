import SelfSimilar.Proofs.Execution.Descent
import SelfSimilar.Proofs.Program.Node
import SelfSimilar.Proofs.Value.Dispatch

/-!
# Where failures arise

A fault is tied to a node once, where it arises, and blocks and draws pass the failure on as it is.
So the node that a failure names belongs to a statement in the course of the run, and the fault is
one that can arise there: only a name is unbound, only a sign is refused by a kind, and so on.

* `Fault.Fits`: what each fault says about the node that it arises at
* `Expr.eval_eq_error`: the failure of an expression names a part of it
* `Stmt.endpoints_eq_error`, `Stmt.namedDraw_eq_error`, `Stmt.selfDraw_eq_error`: what a statement
  reads
* `Execution.origin`: the failure of a run names a node of a statement in its course
-/

namespace SelfSimilar

variable {α : Type} [Scalar α]

/-- The fault can arise at the node `n` of the statement `s` that is begun on the branch `b` and the
canvas `c`. -/
def Fault.Fits (b : Branch α) (c : Canvas α) (s : Stmt α) (n : Node α) : Fault → Prop
  /- A name, or a draw by that name. -/
  | .unbound id => b.lookup c id = .error (.unbound id) ∧
    ((∃ sort span, n = .expr (.name sort id span)) ∨
      ∃ segment span, n = .stmt (.draw id segment span))
  /- The sign of an operand of that kind. -/
  | .notNegatable kind => ∃ operand span v,
    n = .expr (.negate operand span) ∧ operand.eval b c = .ok v ∧ kind = v.kind
  /- SELF while no fractal is drawn. -/
  | .noActiveFractal => (∃ segment span, n = .stmt (.drawSelf segment span)) ∧ c.active = []
  /- A draw by name, and the limit is that of the branch. -/
  | .tooDeep limit =>
    (∃ name segment span, n = .stmt (.draw name segment span)) ∧ limit = b.depthLimit
  /- The place of the pen, written out or standing for a source that is left out. -/
  | .singularFrame => b.pen c = .error .singularFrame ∧
    ((∃ span, n = .expr (.here span)) ∨
      n = .stmt s ∧ ∃ segment, s.segment? = some segment ∧ segment.source = none)
  | .kindMismatch expected actual =>
    /- An operator on values of those kinds. -/
    (∃ op left right span l r, n = .expr (.binary op left right span) ∧
      left.eval b c = .ok l ∧ right.eval b c = .ok r ∧ expected = l.kind ∧ actual = r.kind) ∨
    /- The angle of a rotation. -/
    (∃ angle span v, n = .expr (.rotation angle span) ∧ angle.eval b c = .ok v ∧
      expected = .real ∧ actual = v.kind) ∨
    /- An end of what the statement draws. -/
    (∃ segment e v, n = .expr e ∧ s.segment? = some segment ∧ e ∈ segment.exprs ∧
      e.eval b c = .ok v ∧ expected = .point ∧ actual = v.kind) ∨
    /- What a draw by name finds. -/
    ∃ name segment span v, n = .stmt (.draw name segment span) ∧ b.lookup c name = .ok v ∧
      expected = .fractal ∧ actual = v.kind

/-- The failure names the node by its text and its place, and the fault can arise there. -/
structure Failure.ArisesAt (e : Failure) (b : Branch α) (c : Canvas α) (s : Stmt α) (n : Node α) :
    Prop where
  node_eq : e.node = n.text
  span_eq : e.span = n.span
  fits : e.fault.Fits b c s n

/-! ## Faults of values -/

/-- A computation that may fail does so in its first part or in its second one. -/
theorem bind_eq_error {ε β γ : Type} {x : Except ε β} {f : β → Except ε γ} {e : ε} :
    x >>= f = .error e ↔ x = .error e ∨ ∃ v, x = .ok v ∧ f v = .error e := by
  cases x <;> simp [bind, Except.bind]

/-- What fails at an expression fails with one of its faults. -/
theorem Expr.attach_eq_error {β : Type} {n : Expr α} {x : Except Fault β} {e : Failure} :
    n.attach x = .error e ↔ ∃ fault, x = .error fault ∧ n.failure fault = e := by
  cases x <;> simp [attach]

/-- What fails at a statement fails with one of its faults. -/
theorem Stmt.attach_eq_error {β : Type} {s : Stmt α} {x : Except Fault β} {e : Failure} :
    s.attach x = .error e ↔ ∃ fault, x = .error fault ∧ s.failure fault = e := by
  cases x <;> simp [attach]

section

variable {b : Branch α} {c : Canvas α} {s : Stmt α} {fault : Fault} {id : String} {v l r : Value α}

omit [Scalar α] in
/-- A look-up fails for want of the name that is looked up. -/
theorem Branch.lookup_eq_error (h : b.lookup c id = .error fault) : fault = .unbound id := by
  unfold lookup Environment.lookup at h
  split at h <;> cases h
  rfl

/-- The place of the pen is not found in a collapsed frame, and that is the only reason. -/
theorem Branch.pen_eq_error (h : b.pen c = .error fault) : fault = .singularFrame := by
  unfold pen at h
  split at h <;> cases h
  rfl

omit [Scalar α] in
/-- There is no fractal for SELF if none is active. -/
theorem Canvas.current_eq_error (h : c.current = .error fault) :
    fault = .noActiveFractal ∧ c.active = [] := by
  unfold current at h
  split at h <;> cases h
  exact ⟨rfl, ‹_›⟩

omit [Scalar α] in
/-- What is no point is refused by its kind. -/
theorem Value.asPoint_eq_error (h : v.asPoint = .error fault) :
    fault = .kindMismatch .point v.kind := by
  cases v <;> cases h <;> rfl

omit [Scalar α] in
/-- What is no fractal is refused by its kind. -/
theorem Value.asFractal_eq_error (h : v.asFractal = .error fault) :
    fault = .kindMismatch .fractal v.kind := by
  cases v <;> cases h <;> rfl

/-- What is no number is refused by its kind. -/
theorem Value.asReal_eq_error (h : v.asReal = .error fault) :
    fault = .kindMismatch .real v.kind := by
  cases v <;> cases h <;> rfl

/-- What has no opposite is refused by its kind. -/
theorem Value.negate_eq_error (h : v.negate = .error fault) : fault = .notNegatable v.kind := by
  cases v <;> cases h <;> rfl

/-! ## Failures of what is read -/

/-- The failure of an expression names a part of it. -/
theorem Expr.eval_eq_error {whole : Expr α} {e : Failure} (s : Stmt α)
    (h : whole.eval b c = .error e) : ∃ n, n.PartOf whole ∧ e.ArisesAt b c s (.expr n) := by
  induction whole with
  | literal value _ => cases h
  -- a name fails at itself, since it has no parts
  | name sort id span =>
    obtain ⟨fault, hfault, rfl⟩ := attach_eq_error.1 h
    obtain rfl := Branch.lookup_eq_error hfault
    exact ⟨_, .itself, rfl, rfl, hfault, .inl ⟨sort, span, rfl⟩⟩
  | binary op left right span ihLeft ihRight =>
    -- left operand, right operand, and then the operator itself
    rcases bind_eq_error.1 h with hleft | ⟨l, hl, h⟩
    · obtain ⟨n, hn, hat⟩ := ihLeft hleft
      exact ⟨n, .inOperand (by simp [operands]) hn, hat⟩
    rcases bind_eq_error.1 h with hright | ⟨r, hr, h⟩
    · obtain ⟨n, hn, hat⟩ := ihRight hright
      exact ⟨n, .inOperand (by simp [operands]) hn, hat⟩
    obtain ⟨fault, hfault, rfl⟩ := attach_eq_error.1 h
    obtain ⟨_, rfl⟩ := Operators.apply_eq_error_iff.1 hfault
    exact ⟨_, .itself, rfl, rfl, .inl ⟨op, left, right, span, l, r, rfl, hl, hr, rfl, rfl⟩⟩
  | negate operand span ih =>
    -- the operand is read first, and then its opposite is taken
    rcases bind_eq_error.1 h with hoperand | ⟨v, hv, h⟩
    · obtain ⟨n, hn, hat⟩ := ih hoperand
      exact ⟨n, .inOperand (by simp [operands]) hn, hat⟩
    obtain ⟨fault, hfault, rfl⟩ := attach_eq_error.1 h
    obtain rfl := Value.negate_eq_error hfault
    exact ⟨_, .itself, rfl, rfl, operand, span, v, rfl, hv, rfl⟩
  | rotation angle span ih =>
    -- sine and cosine do not fail, so it is the angle or its kind
    rcases bind_eq_error.1 h with hangle | ⟨v, hv, h⟩
    · obtain ⟨n, hn, hat⟩ := ih hangle
      exact ⟨n, .inOperand (by simp [operands]) hn, hat⟩
    rcases bind_eq_error.1 h with hreal | ⟨x, _, h⟩
    · obtain ⟨fault, hfault, rfl⟩ := attach_eq_error.1 hreal
      obtain rfl := Value.asReal_eq_error hfault
      exact ⟨_, .itself, rfl, rfl, .inr (.inl ⟨angle, span, v, rfl, hv, rfl, rfl⟩)⟩
    · cases h
  | here span =>
    rcases bind_eq_error.1 h with hpen | ⟨p, _, h⟩
    · obtain ⟨fault, hfault, rfl⟩ := attach_eq_error.1 hpen
      obtain rfl := Branch.pen_eq_error hfault
      exact ⟨_, .itself, rfl, rfl, hfault, .inl ⟨span, rfl⟩⟩
    · cases h

variable {segment : Segment α} {e : Failure}

/-- An end names a part of it, or itself if it is not a point. -/
theorem Expr.evalPoint_eq_error {whole : Expr α} (hs : s.segment? = some segment)
    (hmem : whole ∈ segment.exprs) (h : whole.evalPoint b c = .error e) :
    ∃ n, n.PartOf whole ∧ e.ArisesAt b c s (.expr n) := by
  rcases bind_eq_error.1 h with heval | ⟨v, hv, h⟩
  · exact eval_eq_error s heval
  · obtain ⟨fault, hfault, rfl⟩ := attach_eq_error.1 h
    obtain rfl := Value.asPoint_eq_error hfault
    exact ⟨_, .itself, rfl, rfl,
      .inr (.inr (.inl ⟨segment, whole, v, rfl, hs, hmem, hv, rfl, rfl⟩))⟩

/-- The ends name a part of them, or the statement if its source is left out. -/
theorem Stmt.endpoints_eq_error (hs : s.segment? = some segment)
    (h : s.endpoints segment b c = .error e) :
    ∃ n : Node α, n.BelongsTo s ∧ e.ArisesAt b c s n := by
  have hexpr : ∀ {whole : Expr α}, whole ∈ segment.exprs → whole.evalPoint b c = .error e →
      ∃ n : Node α, n.BelongsTo s ∧ e.ArisesAt b c s n := by
    intro whole hmem hwhole
    obtain ⟨n, hn, hat⟩ := Expr.evalPoint_eq_error hs hmem hwhole
    exact ⟨_, .part (mem_exprs_of_segment hs hmem) hn, hat⟩
  -- the target is read first
  rcases bind_eq_error.1 h with htarget | ⟨target, _, h⟩
  · exact hexpr (by simp [Segment.exprs]) htarget
  cases hsource : segment.source with
  | some source =>
    rw [hsource] at h
    rcases bind_eq_error.1 h with hstart | ⟨start, _, h⟩
    · exact hexpr (by simp [Segment.exprs, hsource]) hstart
    · cases h
  | none =>
    rw [hsource] at h
    rcases bind_eq_error.1 h with hpen | ⟨start, _, h⟩
    · obtain ⟨fault, hfault, rfl⟩ := attach_eq_error.1 hpen
      obtain rfl := Branch.pen_eq_error hfault
      exact ⟨_, .itself, rfl, rfl, hfault, .inr ⟨rfl, segment, hs, hsource⟩⟩
    · cases h

/-- A draw by name names a part of its ends, or itself if there is no fractal of that name. -/
theorem Stmt.namedDraw_eq_error {name : String} {span : Span}
    (h : namedDraw (.draw name segment span) name segment b c = .error e) :
    ∃ n : Node α, n.BelongsTo (.draw name segment span) ∧
      e.ArisesAt b c (.draw name segment span) n := by
  rcases bind_eq_error.1 h with hends | ⟨ends, _, h⟩
  · exact endpoints_eq_error rfl hends
  rcases bind_eq_error.1 h with hlookup | ⟨v, hv, h⟩
  · obtain ⟨fault, hfault, rfl⟩ := attach_eq_error.1 hlookup
    obtain rfl := Branch.lookup_eq_error hfault
    exact ⟨_, .itself, rfl, rfl, hfault, .inr ⟨segment, span, rfl⟩⟩
  rcases bind_eq_error.1 h with hfractal | ⟨f, _, h⟩
  · obtain ⟨fault, hfault, rfl⟩ := attach_eq_error.1 hfractal
    obtain rfl := Value.asFractal_eq_error hfault
    -- there is a value of that name, and it is no fractal
    rw [attach_eq_ok] at hv
    exact ⟨_, .itself, rfl, rfl,
      .inr (.inr (.inr ⟨name, segment, span, v, rfl, hv, rfl, rfl⟩))⟩
  · cases h

/-- SELF names itself if no fractal is active, or a part of its ends. -/
theorem Stmt.selfDraw_eq_error {span : Span}
    (h : selfDraw (.drawSelf segment span) segment b c = .error e) :
    ∃ n : Node α, n.BelongsTo (.drawSelf segment span) ∧
      e.ArisesAt b c (.drawSelf segment span) n := by
  rcases bind_eq_error.1 h with hcurrent | ⟨f, _, h⟩
  · obtain ⟨fault, hfault, rfl⟩ := attach_eq_error.1 hcurrent
    obtain ⟨rfl, hactive⟩ := Canvas.current_eq_error hfault
    exact ⟨_, .itself, rfl, rfl, ⟨segment, span, rfl⟩, hactive⟩
  rcases bind_eq_error.1 h with hends | ⟨ends, _, h⟩
  · exact endpoints_eq_error rfl hends
  · cases h

/-! ## Failures of statements and runs -/

variable {t : Task α} {o : Outcome α Failure (Value α)}

/-- What cannot be read is at a node of the statement. -/
theorem Unread.arisesAt (h : Unread b c s e) :
    ∃ n : Node α, n.BelongsTo s ∧ e.ArisesAt b c s n := by
  cases h with
  | draw read => exact Stmt.namedDraw_eq_error read
  | self read => exact Stmt.selfDraw_eq_error read
  | line read => exact Stmt.endpoints_eq_error rfl read
  | assign read =>
    obtain ⟨n, hn, hat⟩ := Expr.eval_eq_error (.assign _ _ _) read
    exact ⟨_, .part (List.mem_singleton.2 rfl) hn, hat⟩

/-- A statement that fails by itself names a node that belongs to it. -/
theorem Execution.arisesAt (h : Execution b (.one s) c o) (hplain : s.IsPlain)
    (hstays : s.Stays b c) (he : o.result = .error e) :
    ∃ n : Node α, n.BelongsTo s ∧ e.ArisesAt b c s n := by
  rcases h.unread_or_refused hplain hstays he with hunread | ⟨rfl, f, hrefuses⟩
  · exact hunread.arisesAt
  · -- a draw that is refused names itself
    cases hrefuses
    exact ⟨_, .itself, rfl, rfl, ⟨_, _, _, rfl⟩, rfl⟩

/-- The failure of a run names a node that belongs to a statement in its course. -/
theorem Execution.origin (h : Execution b t c o) (he : o.result = .error e) :
    ∃ b' s d n, Visits b t c b' s d ∧ Node.BelongsTo n s ∧ e.ArisesAt b' d s n := by
  obtain ⟨b', s, d, o', hv, hplain, hstays, hex, he'⟩ := h.visits_of_error he
  obtain ⟨n, hn, hat⟩ := hex.arisesAt hplain hstays he'
  exact ⟨b', s, d, n, hv, hn, hat⟩

end

end SelfSimilar
