import SelfSimilar.Drawing.Evaluation

/-!
# Kinds of computed values

Operators, signs, rotations and the pen yield numbers and points. So an expression whose value is of
another kind is a name, and its value was bound before.

* `Operators.kind_apply`: what an operator yields is a point or a number, like its operands
* `Expr.isComputed_or_name`: the value of an expression is a number or a point, or it is a name
-/

namespace SelfSimilar

/-- The kinds of computed values: numbers and points. -/
def Kind.isComputed : Kind → Bool
  | .integer | .real | .point => true
  | .fractal | .noValue => false

variable {α : Type} [Scalar α]

/-- The kinds of numbers. -/
def Kind.isNumber : Kind → Bool
  | .integer | .real => true
  | .point | .fractal | .noValue => false

/-- Numbers are computed values. -/
theorem Kind.isComputed_of_isNumber {k : Kind} (h : k.isNumber = true) : k.isComputed = true := by
  cases k <;> cases h <;> rfl

/-- Integers give numbers: integers, or reals if a quotient is not whole. -/
theorem Operators.isNumber_onIntegers (op : BinaryOp) (m n : Int64) :
    (onIntegers op m n : Value α).kind.isNumber = true := by
  cases op with
  | add => rfl
  | sub => rfl
  | mul => rfl
  | div => simp only [onIntegers]; split <;> rfl
  | mod => simp only [onIntegers]; split <;> rfl

/-- What an operator yields is a point if its left operand is one. Else both operands are numbers
and so is the result, which is real if one of them is. -/
theorem Operators.kind_apply {op : BinaryOp} {l r v : Value α} (h : standard.apply op l r = .ok v) :
    l.kind = .point ∧ v.kind = .point ∨
      l.kind.isNumber = true ∧ r.kind.isNumber = true ∧ v.kind.isNumber = true ∧
        (l.kind = .real ∨ r.kind = .real → v.kind = .real) := by
  cases l with
  -- by the kind on the left, and then by the kind on the right
  | int m =>
    cases r with
    | int n =>
      obtain rfl := Except.ok.inj h
      exact .inr ⟨rfl, rfl, isNumber_onIntegers op m n, nofun⟩
    | real y => obtain rfl := Except.ok.inj h; exact .inr ⟨rfl, rfl, rfl, fun _ => rfl⟩
    | _ => cases h
  | real x =>
    cases r with
    | int n => obtain rfl := Except.ok.inj h; exact .inr ⟨rfl, rfl, rfl, fun _ => rfl⟩
    | real y => obtain rfl := Except.ok.inj h; exact .inr ⟨rfl, rfl, rfl, fun _ => rfl⟩
    | _ => cases h
  | point p =>
    -- only here does the operator decide whether there is an entry
    cases r with
    | int n => cases op <;> cases h <;> exact .inl ⟨rfl, rfl⟩
    | real y => cases op <;> cases h <;> exact .inl ⟨rfl, rfl⟩
    | point q => obtain rfl := Except.ok.inj h; exact .inl ⟨rfl, rfl⟩
    | _ => cases op <;> cases h
  | fractal f => cases r <;> cases h
  | noValue => cases r <;> cases h

/-- What an operator yields is a number or a point. -/
theorem Operators.isComputed_apply {op : BinaryOp} {l r v : Value α}
    (h : standard.apply op l r = .ok v) : v.kind.isComputed = true := by
  rcases kind_apply h with ⟨_, hpoint⟩ | ⟨_, _, hnumber, _⟩
  · rw [hpoint]
    rfl
  · exact Kind.isComputed_of_isNumber hnumber

/-- The opposite of a value is a number or a point. -/
theorem Value.isComputed_negate {v w : Value α} (h : v.negate = .ok w) :
    w.kind.isComputed = true := by
  cases v <;> cases h <;> rfl

section

variable {e : Expr α} {b : Branch α} {c : Canvas α} {v : Value α}

/-- A rotation is a point. -/
theorem Expr.kind_rotation {angle : Expr α} {span : Span}
    (h : (rotation angle span).eval b c = .ok v) : v.kind = .point := by
  obtain ⟨_, _, h⟩ := bind_eq_ok.1 h
  obtain ⟨_, _, h⟩ := bind_eq_ok.1 h
  obtain rfl := Except.ok.inj h
  rfl

/-- The place of the pen is a point. -/
theorem Expr.kind_here {span : Span} (h : (here span).eval b c = .ok v) : v.kind = .point := by
  obtain ⟨_, _, h⟩ := bind_eq_ok.1 h
  obtain rfl := Except.ok.inj h
  rfl

/-- The value of an expression is a number or a point, or the expression is a name. -/
theorem Expr.isComputed_or_name (h : e.eval b c = .ok v) :
    v.kind.isComputed = true ∨ ∃ sort id span, e = .name sort id span := by
  -- every other expression computes its value
  cases e with
  | literal value _ =>
    obtain rfl := Except.ok.inj h
    exact .inl (by cases value <;> rfl)
  | name sort id span => exact .inr ⟨sort, id, span, rfl⟩
  | binary op left right _ =>
    obtain ⟨l, _, h⟩ := bind_eq_ok.1 h
    obtain ⟨r, _, h⟩ := bind_eq_ok.1 h
    exact .inl (Operators.isComputed_apply (attach_eq_ok.1 h))
  | negate operand _ =>
    obtain ⟨w, _, h⟩ := bind_eq_ok.1 h
    exact .inl (Value.isComputed_negate (attach_eq_ok.1 h))
  | rotation angle _ => exact .inl (by rw [kind_rotation h]; rfl)
  | here _ => exact .inl (by rw [kind_here h]; rfl)

/-- The value of an expression is a number or a point, or it is the value of a name. -/
theorem Expr.isComputed_or_bound (h : e.eval b c = .ok v) :
    v.kind.isComputed = true ∨ ∃ id, b.lookup c id = .ok v := by
  rcases isComputed_or_name h with hcomputed | ⟨_, id, _, rfl⟩
  · exact .inl hcomputed
  · exact .inr ⟨id, attach_eq_ok.1 h⟩

end

end SelfSimilar
