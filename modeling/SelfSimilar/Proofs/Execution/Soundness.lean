import SelfSimilar.Proofs.Execution.Kinds
import SelfSimilar.Proofs.Execution.Origin
import SelfSimilar.Scalar.Double

/-!
# Soundness of kinds

Kinds are checked while an expression is evaluated, once for each operator: the kinds of the
operands choose an implementation, which then relies on them. This never goes wrong, whatever names
are bound to. An expression fails where the kinds of two operands have no implementation, and else
its value is of the kind that they lead to.

* `Expr.evalByDispatch`: evaluation with implementations that may get stuck
* `Expr.evalByDispatch_eq`: it never gets stuck, and agrees with evaluation by the table
* `Expr.eval_binary_eq_error_iff`: when an operator fails, and how
* `expressions_are_sound`: what kinds of values and what failures there are
-/

namespace SelfSimilar

variable {α : Type} [Scalar α]

/-- A computation that may fail, as one that may also get stuck. -/
def liftExcept {β : Type} (x : Except Failure β) : ExceptT Failure Option β := ExceptT.mk (some x)

/-- Computations that are not stuck are not stuck one after the other. -/
theorem liftExcept_bind {β γ : Type} (x : Except Failure β) (f : β → Except Failure γ) :
    (liftExcept x >>= fun v => liftExcept (f v)) = liftExcept (x >>= f) := by
  cases x <;> rfl

namespace Expr

/-- The value of an expression, where each operator is computed by an implementation that is chosen
by the kinds of the operands and may get stuck on them. -/
def evalByDispatch (b : Branch α) (c : Canvas α) : Expr α → ExceptT Failure Option (Value α)
  | .literal value _ => pure value.value
  | e@(.name _ id _) => liftExcept (e.attach (b.lookup c id))
  | e@(.binary op left right _) => do
    let l ← left.evalByDispatch b c
    let r ← right.evalByDispatch b c
    ExceptT.mk ((Operators.dispatch? op l r).map e.attach)
  | e@(.negate operand _) => do
    let v ← operand.evalByDispatch b c
    liftExcept (e.attach v.negate)
  | e@(.rotation angle _) => do
    let v ← angle.evalByDispatch b c
    let x ← liftExcept (e.attach v.asReal)
    return .point (.round (Scalar.cos x) (Scalar.sin x))
  | e@(.here _) => do
    let p ← liftExcept (e.attach (b.pen c))
    return .point p

variable {b : Branch α} {c : Canvas α}

/-- No implementation is ever given operands that it gets stuck on. -/
theorem evalByDispatch_eq (e : Expr α) : e.evalByDispatch b c = liftExcept (e.eval b c) := by
  induction e with
  | literal value _ => rfl
  | name sort id span => rfl
  | binary op left right span ihLeft ihRight =>
    rw [evalByDispatch, eval, ihLeft, ihRight]
    -- the one place where an implementation could be stuck
    simp only [Operators.dispatch?_eq, Option.map_some]
    rw [← liftExcept_bind]
    congr 1
    funext l
    exact liftExcept_bind _ _
  | negate operand span ih =>
    rw [evalByDispatch, eval, ih]
    exact liftExcept_bind _ _
  | rotation angle span ih =>
    rw [evalByDispatch, eval, ih, ← liftExcept_bind]
    congr 1
    funext v
    exact liftExcept_bind _ _
  | here span => exact liftExcept_bind _ _

variable {op : BinaryOp} {left right : Expr α} {span : Span} {l r v : Value α}

/-- Of an operator with a value, both operands have values. -/
theorem eval_binary_eq_ok (h : (binary op left right span).eval b c = .ok v) :
    ∃ l r, left.eval b c = .ok l ∧ right.eval b c = .ok r ∧
      Operators.standard.apply op l r = .ok v := by
  obtain ⟨l, hl, h⟩ := bind_eq_ok.1 h
  obtain ⟨r, hr, h⟩ := bind_eq_ok.1 h
  exact ⟨l, r, hl, hr, attach_eq_ok.1 h⟩

/-- An operator on two values fails exactly if it is not defined on their kinds. The failure is at
the operator and names the kinds. -/
theorem eval_binary_eq_error_iff (hl : left.eval b c = .ok l) (hr : right.eval b c = .ok r)
    {failure : Failure} : (binary op left right span).eval b c = .error failure ↔
      (Operators.standard : Operators α).supports op l.kind r.kind = false ∧
        failure = (binary op left right span).failure (.kindMismatch l.kind r.kind) := by
  -- both operands have values, so what is left is the operator itself
  have heval : (binary op left right span).eval b c =
      (binary op left right span).attach (Operators.standard.apply op l r) := by
    rw [eval, hl, hr]
    rfl
  rw [heval, attach_eq_error]
  constructor
  · rintro ⟨fault, hfault, rfl⟩
    obtain ⟨hsupports, rfl⟩ := Operators.apply_eq_error_iff.1 hfault
    exact ⟨hsupports, rfl⟩
  · rintro ⟨hsupports, rfl⟩
    exact ⟨_, Operators.apply_of_not_supports hsupports, rfl⟩

/-- If the left operand fails, its failure is that of the operator. -/
theorem eval_binary_of_left {failure : Failure} (h : left.eval b c = .error failure) :
    (binary op left right span).eval b c = .error failure := by
  rw [eval, h]
  rfl

/-- If only the right operand fails, its failure is that of the operator. -/
theorem eval_binary_of_right {failure : Failure} (hl : left.eval b c = .ok l)
    (h : right.eval b c = .error failure) :
    (binary op left right span).eval b c = .error failure := by
  rw [eval, hl, h]
  rfl

end Expr

/-- Expressions are evaluated in any state, whatever the values are that names are bound to.

* An implementation of an operator is never given operands of other kinds than it is registered for,
  so evaluation never gets stuck.
* If the value is a fractal or no value, the expression is a name.
* If the expression is an operator and has a value, its operands have values. If the left one is a
  point, so is the result. If it is a number, so is the right one and the result, which is real if
  one of them is real. A left operand of another kind has no result.
* The value of a rotation or of the place of the pen is a point.
* An operator on two values fails exactly if it is not defined on their kinds, and the failure is a
  mismatch of these kinds at the operator. If the left operand fails, its failure is reported, and
  else the failure of the right one. -/
theorem expressions_are_sound (b : Branch α) (c : Canvas α) :
    (∀ e : Expr α, (e.evalByDispatch b c).run = some (e.eval b c)) ∧
    (∀ (e : Expr α) v, e.eval b c = .ok v → v.kind = .fractal ∨ v.kind = .noValue →
      ∃ sort id span, e = .name sort id span) ∧
    (∀ op left right span v, (Expr.binary op left right span).eval b c = .ok v →
      ∃ l r, left.eval b c = .ok l ∧ right.eval b c = .ok r ∧
        (l.kind = .point → v.kind = .point) ∧
        (l.kind.isNumber = true → r.kind.isNumber = true ∧ v.kind.isNumber = true ∧
          (l.kind = .real ∨ r.kind = .real → v.kind = .real)) ∧
        (l.kind = .point ∨ l.kind.isNumber = true)) ∧
    (∀ angle span v, (Expr.rotation angle span).eval b c = .ok v → v.kind = .point) ∧
    (∀ span v, (Expr.here span).eval b c = .ok v → v.kind = .point) ∧
    ∀ op left right span, let e := Expr.binary op left right span
      (∀ l r, left.eval b c = .ok l → right.eval b c = .ok r →
        ((∃ failure, e.eval b c = .error failure) ↔ (op, l.kind, r.kind) ∉ Operators.keys) ∧
        ∀ failure, e.eval b c = .error failure →
          failure = e.failure (.kindMismatch l.kind r.kind)) ∧
      (∀ failure, left.eval b c = .error failure → e.eval b c = .error failure) ∧
      ∀ l failure, left.eval b c = .ok l → right.eval b c = .error failure →
        e.eval b c = .error failure := by
  refine ⟨fun e => congrArg ExceptT.run e.evalByDispatch_eq, fun e v h hkind => ?_,
    fun op left right span v h => ?_, fun angle span v h => Expr.kind_rotation h,
    fun span v h => Expr.kind_here h, fun op left right span => ⟨fun l r hl hr => ?_,
      fun failure h => Expr.eval_binary_of_left h,
      fun l failure hl h => Expr.eval_binary_of_right hl h⟩⟩
  -- what is computed is a number or a point, so the expression is a name
  · refine (Expr.isComputed_or_name h).resolve_left fun hcomputed => ?_
    rcases hkind with hkind | hkind <;> rw [hkind] at hcomputed <;> cases hcomputed
  -- the table has entries for a point on the left, and for two numbers
  · obtain ⟨l, r, hl, hr, happly⟩ := Expr.eval_binary_eq_ok h
    refine ⟨l, r, hl, hr, ?_⟩
    rcases Operators.kind_apply happly with ⟨hpoint, hresult⟩ | ⟨hleft, hright, hresult, hreal⟩
    · refine ⟨fun _ => hresult, fun hnumber => ?_, .inl hpoint⟩
      rw [hpoint] at hnumber
      cases hnumber
    · refine ⟨fun hpoint => ?_, fun _ => ⟨hright, hresult, hreal⟩, .inr hleft⟩
      rw [hpoint] at hleft
      cases hleft
  -- a failure of the operator is a mismatch, exactly where the table has no entry
  · have hfails (failure : Failure) :
        (Expr.binary op left right span).eval b c = .error failure ↔
          (op, l.kind, r.kind) ∉ Operators.keys ∧
            failure = (Expr.binary op left right span).failure (.kindMismatch l.kind r.kind) := by
      rw [Expr.eval_binary_eq_error_iff hl hr, Operators.supports_eq, decide_eq_false_iff_not]
    simp only [hfails]
    exact ⟨⟨fun ⟨_, h, _⟩ => h, fun h => ⟨_, h, rfl⟩⟩, fun _ h => h.2⟩

/-- A point is stretched by a whole number, whole and real numbers mix, and a point and a fractal
are added. -/
theorem expressions_are_sound_mixed :
    let b : Branch Float := .root .standard .identity
    let c : Canvas Float := b.bind "f" (.fractal ⟨"f", [], .globals⟩) (.fresh .identity)
    let f : Expr Float := .name .fractal "f" {}
    let n : Expr Float := .literal (.int 3) {}
    let X : Expr Float := .name .point "X" {}
    let mixed : Expr Float := .binary .sub n (.literal (.real 1) {}) {}
    let sum : Expr Float := .binary .add X f {}
    (sum.evalByDispatch b c).run = some (sum.eval b c) ∧
      (∃ v, f.eval b c = .ok v ∧ v.kind = .fractal ∧ ∃ sort id span, f = .name sort id span) ∧
      (∃ v, (Expr.binary .mul X mixed {}).eval b c = .ok v ∧ v.kind = .point) ∧
      (∃ v, mixed.eval b c = .ok v ∧ v.kind = .real) ∧
      (∃ v, (Expr.rotation mixed {}).eval b c = .ok v ∧ v.kind = .point) ∧
      (∃ v, (Expr.here {}).eval b c = .ok v ∧ v.kind = .point) ∧
      (BinaryOp.add, Kind.point, Kind.fractal) ∉ Operators.keys ∧
      ∃ failure, sum.eval b c = .error failure ∧
        failure = sum.failure (.kindMismatch .point .fractal) ∧
        (Expr.binary .mul sum mixed {}).eval b c = .error failure ∧
        (Expr.binary .mul mixed sum {}).eval b c = .error failure := by
  intro b c f n X mixed sum
  obtain ⟨hdispatch, hname, hvalue, hrotation, hhere, hfails⟩ := expressions_are_sound b c
  have hX : X.eval b c = .ok (.point .xUnit) := rfl
  have hf : f.eval b c = .ok (.fractal ⟨"f", [], .globals⟩) := rfl
  let two : Float := Scalar.ofInt 3 - 1
  have hmixed : mixed.eval b c = .ok (.real two) := rfl
  -- the identity can be inverted, so the pen has a place
  obtain ⟨p, hp⟩ : ∃ p, b.frame.unapply? c.path.pen = some p :=
    Option.isSome_iff_exists.1 (by decide +kernel)
  have hpen : (Expr.here {}).eval b c = .ok (.point p) := by
    rw [Expr.eval, Branch.pen, hp]
    rfl
  have hturned : (Expr.rotation mixed {}).eval b c =
    .ok (.point (.round (Scalar.cos two) (Scalar.sin two))) := rfl
  have hstretched : (Expr.binary .mul X mixed {}).eval b c =
    .ok (.point (Point.xUnit.scale two)) := rfl
  obtain ⟨l, _, hl, _, hpoint, _⟩ := hvalue _ _ _ _ _ hstretched
  obtain ⟨m, k, hm, hk, _, hreal, _⟩ := hvalue _ _ _ _ _ hmixed
  obtain ⟨hsum, _⟩ := hfails .add X f {}
  -- a point and a fractal have no sum
  obtain ⟨hundefined, hmismatch⟩ := hsum _ _ hX hf
  obtain ⟨failure, hfailure⟩ := hundefined.2 (by decide)
  refine ⟨hdispatch sum, ⟨_, hf, rfl, hname _ _ hf (.inl rfl)⟩, ⟨_, hstretched, hpoint ?_⟩,
    ⟨_, hmixed, (hreal ?_).2.2 (.inr ?_)⟩, ⟨_, hturned, hrotation _ _ _ hturned⟩,
    ⟨_, hpen, hhere _ _ hpen⟩, by decide,
    failure, hfailure, hmismatch _ hfailure, (hfails .mul sum mixed {}).2.1 _ hfailure,
    (hfails .mul mixed sum {}).2.2 _ _ hmixed hfailure⟩
  · cases hl
    rfl
  · cases hm
    rfl
  · cases hk
    rfl

end SelfSimilar
