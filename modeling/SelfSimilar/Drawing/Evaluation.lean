import SelfSimilar.Drawing.Canvas
import SelfSimilar.Value.Operators

/-!
# Evaluating expressions

An expression is evaluated on a branch and only reads the canvas. A fault is tied to the expression
that it arises at: the operator, the name, or the point that was needed and not found.
-/

namespace SelfSimilar

/-- A computation that may fail yields a value only if both of its parts do. -/
theorem bind_eq_ok {ε β γ : Type} {x : Except ε β} {f : β → Except ε γ} {w : γ} :
    x >>= f = .ok w ↔ ∃ v, x = .ok v ∧ f v = .ok w := by
  cases x <;> simp [bind, Except.bind]

variable {α : Type} [Scalar α]

namespace Expr

/-- A fault at an expression. -/
def failure (e : Expr α) (fault : Fault) : Failure := ⟨fault, e.text, e.span⟩

/-- Tie a fault to an expression. -/
def attach {β : Type} (e : Expr α) : Except Fault β → Except Failure β
  | .ok v => .ok v
  | .error fault => .error (e.failure fault)

/-- What is tied to an expression is only a fault. -/
@[simp] theorem attach_eq_ok {β : Type} {e : Expr α} {x : Except Fault β} {v : β} :
    e.attach x = .ok v ↔ x = .ok v := by
  cases x <;> simp [attach]

/-- The value of an expression. Operands are evaluated from the left. -/
def eval (b : Branch α) (c : Canvas α) : Expr α → Except Failure (Value α)
  | .literal value _ => .ok value.value
  | e@(.name _ id _) => e.attach (b.lookup c id)
  | e@(.binary op left right _) => do
    let l ← left.eval b c
    let r ← right.eval b c
    e.attach (Operators.standard.apply op l r)
  | e@(.negate operand _) => do
    let v ← operand.eval b c
    e.attach v.negate
  | e@(.rotation angle _) => do
    let v ← angle.eval b c
    let x ← e.attach v.asReal
    return .point (.round (Scalar.cos x) (Scalar.sin x))
  | e@(.here _) => do
    let p ← e.attach (b.pen c)
    return .point p

/-- The point that an expression evaluates to. -/
def evalPoint (e : Expr α) (b : Branch α) (c : Canvas α) : Except Failure (Point α) := do
  let v ← e.eval b c
  e.attach v.asPoint

end Expr

end SelfSimilar
