import SelfSimilar.Proofs.Scope.Map
import SelfSimilar.Value.Operators

/-!
# Rewritten programs

A rewriting changes statements one by one, also those inside blocks and definitions. A fractal is
rewritten by its body and a value only if it is a fractal, so values keep their kinds, and whatever
is computed from numbers and points stays the same.

* `Stmt.Rewriting`: a map of statements that goes into blocks and definitions
* `Operators.apply_rewrite`: operators do not look into fractals
* `Stmt.rewriting_deeply`: a map of single statements, applied at any depth
-/

namespace SelfSimilar

variable {α : Type}

/-- The map changes a block or a definition by changing the statements inside, and at most its place
in the source. -/
structure Stmt.Rewriting (g : Stmt α → Stmt α) : Prop where
  block : ∀ body span, ∃ span', g (.block body span) = .block (body.map g) span'
  define : ∀ name body span, ∃ span', g (.define name body span) = .define name (body.map g) span'

/-- The same fractal with a rewritten body. -/
def Fractal.rewrite (g : Stmt α → Stmt α) (f : Fractal α) : Fractal α :=
  { f with body := f.body.map g }

namespace Value

/-- The same value, with a rewritten body if it is a fractal. -/
def rewrite (g : Stmt α → Stmt α) : Value α → Value α
  | fractal f => fractal (f.rewrite g)
  | v => v

variable (g : Stmt α → Stmt α) (v : Value α)

/-- A point is not rewritten, and what is no point is none afterwards. -/
theorem asPoint_rewrite : (v.rewrite g).asPoint = v.asPoint := by cases v <;> rfl

/-- What is read as a fractal is the rewritten fractal. -/
theorem asFractal_rewrite : (v.rewrite g).asFractal = v.asFractal.map (Fractal.rewrite g) := by
  cases v <;> rfl

variable [Scalar α]

/-- A number is not rewritten, and what is no number is none afterwards. -/
theorem asReal_rewrite : (v.rewrite g).asReal = v.asReal := by cases v <;> rfl

/-- The opposite of a value has no body to be rewritten. -/
theorem negate_rewrite : (v.rewrite g).negate = v.negate.map (rewrite g) := by cases v <;> rfl

end Value

/-! ## Operators -/

section

variable [Scalar α]

/-- Integers give integers or reals, which have no bodies. -/
theorem Operators.onIntegers_rewrite (g : Stmt α → Stmt α) (op : BinaryOp) (m n : Int64) :
    (onIntegers op m n : Value α).rewrite g = onIntegers op m n := by
  cases op with
  | div => simp only [onIntegers]; split <;> rfl
  | mod => simp only [onIntegers]; split <;> rfl
  | _ => rfl

/-- Operators compute with numbers and points, and refuse fractals by their kind. -/
theorem Operators.apply_rewrite (g : Stmt α → Stmt α) (op : BinaryOp) (l r : Value α) :
    standard.apply op (l.rewrite g) (r.rewrite g) =
      (standard.apply op l r).map (Value.rewrite g) := by
  cases l with
  | int m =>
    cases r with
    | int n => exact congrArg Except.ok (onIntegers_rewrite g op m n).symm
    | _ => rfl
  -- only for a point on the left does the operator decide whether there is an entry
  | point p => cases r <;> cases op <;> rfl
  | _ => cases r <;> rfl

end

/-! ## Rewriting at any depth -/

mutual

/-- Change the statements that hold no other ones, also those inside blocks and definitions. -/
def Stmt.deeply (g : Stmt α → Stmt α) : Stmt α → Stmt α
  | .block body span => .block (deeplyAll g body) span
  | .define name body span => .define name (deeplyAll g body) span
  | s => g s

/-- Change those among the statements of a body, and inside them. -/
def Stmt.deeplyAll (g : Stmt α → Stmt α) : List (Stmt α) → List (Stmt α)
  | [] => []
  | s :: rest => s.deeply g :: deeplyAll g rest

end

/-- The rewritten statements of a body, one by one. -/
theorem Stmt.deeplyAll_eq_map (g : Stmt α → Stmt α) (body : List (Stmt α)) :
    deeplyAll g body = body.map (deeply g) := by
  induction body with
  | nil => rfl
  | cons s rest ih => rw [deeplyAll, ih, List.map_cons]

/-- Blocks and definitions are kept, with rewritten statements inside. -/
theorem Stmt.rewriting_deeply (g : Stmt α → Stmt α) : Stmt.Rewriting (deeply g) where
  block body span := ⟨span, by rw [deeply, deeplyAll_eq_map]⟩
  define name body span := ⟨span, by rw [deeply, deeplyAll_eq_map]⟩

/-! ## The rewriting that changes nothing -/

theorem Stmt.rewriting_id : Stmt.Rewriting (id : Stmt α → Stmt α) :=
  ⟨fun body span => ⟨span, by simp⟩, fun name body span => ⟨span, by simp⟩⟩

theorem Fractal.rewrite_id : Fractal.rewrite (id : Stmt α → Stmt α) = id := by
  funext f
  simp [Fractal.rewrite]

/-- A value with nothing changed in its body. -/
theorem Value.rewrite_id : Value.rewrite (id : Stmt α → Stmt α) = id := by
  funext v
  cases v with
  | fractal f => rw [Value.rewrite, Fractal.rewrite_id]; rfl
  | _ => rfl

end SelfSimilar
