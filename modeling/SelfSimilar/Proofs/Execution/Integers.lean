import Mathlib.Algebra.Ring.Int.Defs
import Mathlib.Algebra.Ring.Nat
import SelfSimilar.Drawing.Evaluation
import SelfSimilar.Scalar.Double

/-!
# Computing with whole numbers

Sums, differences, products and opposites of words wrap around, so an expression of whole numbers
has the value that is computed with unbounded integers, taken modulo `2 ^ 64`. What is done on the
way does not matter: two such expressions have the same value if they agree for all integers, also
where a part of one of them leaves the range of words.

* `Expr.OfIntegers`: expressions of whole numbers
* `Expr.exact`: their value in unbounded integers
* `Expr.OfIntegers.eval_eq`: what they evaluate to
-/

namespace SelfSimilar

/-- The words that stand for two integers are the same exactly if these agree modulo `2 ^ 64`. -/
theorem int64_ofInt_inj {x y : Int} :
    Int64.ofInt x = Int64.ofInt y ↔ x % 2 ^ 64 = y % 2 ^ 64 := by
  have hsize : (Int64.size : Int) = 2 ^ 64 := rfl
  rw [← Int64.toInt_inj, Int64.toInt_ofInt, Int64.toInt_ofInt, ← hsize]
  constructor
  · intro h
    rw [← Int.bmod_emod, h, Int.bmod_emod]
  · intro h
    rw [← Int.emod_bmod, h, Int.emod_bmod]

variable {α : Type} [Scalar α]

/-- The integer that a name is bound to, and zero if it is bound to no integer. -/
def Branch.integer (b : Branch α) (c : Canvas α) (id : String) : Int :=
  match b.lookup c id with
  | .ok (.int n) => n.toInt
  | _ => 0

namespace Expr

/-- Expressions of whole numbers: literals and names of whole numbers, with sums, differences,
products and opposites. -/
inductive OfIntegers (b : Branch α) (c : Canvas α) : Expr α → Prop where
  | literal (n : Int64) (span : Span) : OfIntegers b c (.literal (.int n) span)
  | name (sort : NameSort) {id : String} {n : Int64} (bound : b.lookup c id = .ok (.int n))
      (span : Span) : OfIntegers b c (.name sort id span)
  | add {left right : Expr α} (span : Span) : OfIntegers b c left → OfIntegers b c right →
      OfIntegers b c (.binary .add left right span)
  | sub {left right : Expr α} (span : Span) : OfIntegers b c left → OfIntegers b c right →
      OfIntegers b c (.binary .sub left right span)
  | mul {left right : Expr α} (span : Span) : OfIntegers b c left → OfIntegers b c right →
      OfIntegers b c (.binary .mul left right span)
  | negate {operand : Expr α} (span : Span) : OfIntegers b c operand →
      OfIntegers b c (.negate operand span)

/-- The value in unbounded integers, given what the names stand for. What is no expression of whole
numbers counts as zero. -/
def exact (value : String → Int) : Expr α → Int
  | .literal (.int n) _ => n.toInt
  | .name _ id _ => value id
  | .binary .add left right _ => left.exact value + right.exact value
  | .binary .sub left right _ => left.exact value - right.exact value
  | .binary .mul left right _ => left.exact value * right.exact value
  | .negate operand _ => -operand.exact value
  | _ => 0

variable {b : Branch α} {c : Canvas α} {e e' : Expr α}

/-- An operator on two operands whose values are known. -/
theorem eval_binary_of_ok {op : BinaryOp} {left right : Expr α} {l r v : Value α} {span : Span}
    (hl : left.eval b c = .ok l) (hr : right.eval b c = .ok r)
    (hop : Operators.standard.apply op l r = .ok v) :
    (binary op left right span).eval b c = .ok v := by
  rw [eval, hl, hr]
  exact attach_eq_ok.2 hop

/-- Whole numbers are computed with modulo `2 ^ 64`. -/
theorem OfIntegers.eval_eq (h : e.OfIntegers b c) :
    e.eval b c = .ok (.int (.ofInt (e.exact (b.integer c)))) := by
  -- the words of the operands are added, subtracted or multiplied, and words of integers likewise
  induction h with
  | literal n span => rw [eval, exact, Literal.value, Int64.ofInt_toInt]
  | @name sort id n bound span =>
    have hvalue : b.integer c id = n.toInt := by rw [Branch.integer, bound]
    rw [exact, hvalue, Int64.ofInt_toInt]
    exact attach_eq_ok.2 bound
  | add span _ _ ihLeft ihRight =>
    rw [exact, Int64.ofInt_add]
    exact eval_binary_of_ok ihLeft ihRight rfl
  | sub span _ _ ihLeft ihRight =>
    rw [exact, Int64.ofInt_sub]
    exact eval_binary_of_ok ihLeft ihRight rfl
  | mul span _ _ ihLeft ihRight =>
    rw [exact, Int64.ofInt_mul]
    exact eval_binary_of_ok ihLeft ihRight rfl
  | negate span _ ih =>
    rw [exact, Int64.ofInt_neg, eval, ih]
    rfl

/-- Two expressions of whole numbers have the same value exactly if they agree modulo `2 ^ 64`. -/
theorem OfIntegers.eval_eq_iff (h : e.OfIntegers b c) (h' : e'.OfIntegers b c) :
    e.eval b c = e'.eval b c ↔
      e.exact (b.integer c) % 2 ^ 64 = e'.exact (b.integer c) % 2 ^ 64 := by
  rw [h.eval_eq, h'.eval_eq, Except.ok.injEq, Value.int.injEq, int64_ofInt_inj]

end Expr

/-- An expression is made of whole numbers, of names that are bound to whole numbers, and of sums,
differences, products and opposites. Then it evaluates to the word that stands for its value in
unbounded integers, which is the one between `-2 ^ 63` and `2 ^ 63 - 1` that agrees with it modulo
`2 ^ 64`. Two such expressions have the same value exactly if they agree modulo `2 ^ 64`. So they do
if they are equal for all integers, as expressions are that are turned into each other by the laws
of rings. -/
theorem integers_are_computed_modulo (b : Branch α) (c : Canvas α) (e : Expr α)
    (he : e.OfIntegers b c) :
    (∃ n : Int64, e.eval b c = .ok (.int n) ∧ n.toInt = (e.exact (b.integer c)).bmod (2 ^ 64) ∧
      n.toInt % 2 ^ 64 = e.exact (b.integer c) % 2 ^ 64 ∧ -2 ^ 63 ≤ n.toInt ∧ n.toInt < 2 ^ 63) ∧
    ∀ e' : Expr α, e'.OfIntegers b c →
      (e.eval b c = e'.eval b c ↔
        e.exact (b.integer c) % 2 ^ 64 = e'.exact (b.integer c) % 2 ^ 64) ∧
      ((∀ value, e.exact value = e'.exact value) → e.eval b c = e'.eval b c) := by
  refine ⟨⟨_, he.eval_eq, Int64.toInt_ofInt, ?_, Int64.le_toInt _, Int64.toInt_lt _⟩,
    fun e' he' => ⟨he.eval_eq_iff he', fun hsame => ?_⟩⟩
  · rw [Int64.toInt_ofInt]
    exact Int.bmod_emod
  · rw [he.eval_eq_iff he', hsame]

/-- The opposite of the least word is multiplied by a difference that leaves the range of words, and
the same is multiplied out. -/
theorem integers_are_computed_modulo_least :
    let c : Canvas Float := (Branch.root .standard .identity).bind "n" (.int Int64.minValue)
      (.fresh .identity)
    let b : Branch Float := .root .standard .identity
    let n : Expr Float := .name .number "n" {}
    let one : Expr Float := .literal (.int 1) {}
    let e : Expr Float := .binary .mul (.negate n {}) (.binary .sub n one {}) {}
    let e' : Expr Float := .binary .add n (.negate (.binary .mul n n {}) {}) {}
    e.OfIntegers b c ∧ e'.OfIntegers b c ∧ e.exact (b.integer c) = -2 ^ 63 * (2 ^ 63 + 1) ∧
      e.eval b c = .ok (.int Int64.minValue) ∧ e.eval b c = e'.eval b c := by
  intro c b n one e e'
  have hn : n.OfIntegers b c := .name .number (n := Int64.minValue) rfl {}
  have he : e.OfIntegers b c := .mul {} (.negate {} hn) (.sub {} hn (.literal 1 {}))
  have he' : e'.OfIntegers b c := .add {} hn (.negate {} (.mul {} hn hn))
  have hexact : e.exact (b.integer c) = -2 ^ 63 * (2 ^ 63 + 1) := by decide
  obtain ⟨⟨k, heval, hk, _⟩, hsame⟩ := integers_are_computed_modulo b c e he
  obtain ⟨_, hring⟩ := hsame e' he'
  have hleast : k = Int64.minValue := by
    rw [← Int64.toInt_inj, hk, hexact]
    decide
  refine ⟨he, he', hexact, hleast ▸ heval, hring fun value => ?_⟩
  -- both sides are equal for every integer, and that is all that is needed
  show -value "n" * (value "n" - 1) = value "n" + -(value "n" * value "n")
  grind

end SelfSimilar
