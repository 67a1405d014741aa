import SelfSimilar.Proofs.Execution.Invariants

/-!
# Statements met on the way

Work on a branch comes to statements of its own, also inside blocks (`Meets`), and through each
fractal that it draws to the statements of a body on a child branch (`Visits`). Both relations keep
the canvas on which a statement is begun, so they speak of every state in the course of a run.

* `Draws.current_eq`: the body of a fractal is begun while SELF stands for that fractal
* `Meets.active_eq`: all statements of one body find the same fractals active
-/

namespace SelfSimilar

variable {α : Type} [Scalar α]

/-- `Draws b c s f child d`: the statement `s`, begun on the branch `b` and the canvas `c`, runs the
body of the fractal `f` on the branch `child` from the canvas `d`. -/
inductive Draws (b : Branch α) (c : Canvas α) :
    Stmt α → Fractal α → Branch α → Canvas α → Prop
  /-- A draw by name makes its fractal active. -/
  | named {name segment span ends f child}
      (read : Stmt.namedDraw (.draw name segment span) name segment b c = .ok (ends, f))
      (room : b.level < b.depthLimit)
      (derived : child = (b.child ends.1 ends.2).within f.scope) :
      Draws b c (.draw name segment span) f child ((child.moveTo .origin c).start f)
  /-- SELF draws the innermost active fractal. -/
  | self {segment span f ends child}
      (read : Stmt.selfDraw (.drawSelf segment span) segment b c = .ok (f, ends))
      (large : b.isResolvable = true)
      (derived : child = b.child ends.1 ends.2) :
      Draws b c (.drawSelf segment span) f child (child.moveTo .origin c)

/-- `Meets b t c s d`: the work `t` on the branch `b`, begun on the canvas `c`, comes to its
statement `s` on the canvas `d`. -/
inductive Meets (b : Branch α) : Task α → Canvas α → Stmt α → Canvas α → Prop
  | here {c s} : Meets b (.one s) c s c
  | block {c s d body span} (inner : Meets b (.all .origin body) c s d) :
      Meets b (.one (.block body span)) c s d
  | first {c s d sum s' rest} (inner : Meets b (.one s') c s d) :
      Meets b (.all sum (s' :: rest)) c s d
  | later {c s d sum s' rest v e events} (first : b.perform (.one s') c = ⟨.ok v, e, events⟩)
      (inner : Meets b (.all (v.addTo sum) rest) e s d) :
      Meets b (.all sum (s' :: rest)) c s d

/-- `Visits b t c b' s c'`: in the course of the work `t` on the branch `b`, begun on the canvas
`c`, the statement `s` is begun on the branch `b'` and the canvas `c'`. -/
inductive Visits : Branch α → Task α → Canvas α → Branch α → Stmt α → Canvas α → Prop
  | meets {b t c s d} (met : Meets b t c s d) : Visits b t c b s d
  | drawn {b t c s d f child e b' s' c'} (met : Meets b t c s d) (draws : Draws b d s f child e)
      (inner : Visits child (.all .origin f.body) e b' s' c') : Visits b t c b' s' c'

section

variable {b child b' : Branch α} {t : Task α} {c d c' : Canvas α} {s s' : Stmt α} {f : Fractal α}

omit [Scalar α] in
/-- SELF stands for the innermost active fractal. -/
theorem Canvas.current_eq_ok : c.current = .ok f ↔ c.active.head? = some f := by
  unfold current
  cases c.active <;> simp

/-! ## Drawing a body -/

theorem Draws.settings_eq (h : Draws b c s f child d) : child.settings = b.settings := by
  cases h with
  | named _ _ derived => rw [derived]; rfl
  | self _ _ derived => rw [derived]; rfl

theorem Draws.level_eq (h : Draws b c s f child d) : child.level = b.level + 1 := by
  cases h with
  | named _ _ derived => rw [derived]; rfl
  | self _ _ derived => rw [derived]; rfl

/-- A body is begun with the pen moved to the origin of the child branch. -/
theorem Draws.path_eq (h : Draws b c s f child d) :
    d.path = c.path.moveTo (child.place .origin) := by
  cases h <;> rfl

/-- To begin a body binds nothing. -/
theorem Draws.env_eq (h : Draws b c s f child d) : d.env = c.env := by
  cases h <;> rfl

/-- Both kinds of draw derive a child only where a level is left. -/
theorem Draws.level_lt (h : Draws b c s f child d) : b.level < b.depthLimit := by
  cases h with
  | named _ room _ => exact room
  | self _ large _ => exact Branch.lt_depthLimit_of_isResolvable large

/-- The body of a fractal is begun while SELF stands for that fractal. -/
theorem Draws.current_eq (h : Draws b c s f child d) : d.current = .ok f := by
  cases h with
  | named _ _ _ => rfl
  | self read _ _ => exact (Stmt.selfDraw_eq_ok.1 read).1

/-- A draw by name adds one active fractal, SELF none. -/
theorem Draws.length_active_le (h : Draws b c s f child d) :
    d.active.length ≤ c.active.length + 1 := by
  cases h with
  | named _ _ _ => simp
  | self _ _ _ => simp

/-! ## Meeting statements -/

/-- All statements of one body find the same fractals active. -/
theorem Meets.active_eq (h : Meets b t c s d) : d.active = c.active := by
  induction h with
  | here => rfl
  | block _ ih => exact ih
  | first _ ih => exact ih
  | later first _ ih =>
    -- the statements before it have restored the stack
    rw [ih]
    exact (execution_iff.2 first).active_eq

/-- All of a run is done under the same settings. -/
theorem Visits.settings_eq (h : Visits b t c b' s c') : b'.settings = b.settings := by
  induction h with
  | meets _ => rfl
  | drawn _ draws _ ih => exact ih.trans draws.settings_eq

/-! ## Statements in the course of a part of the work -/

/-- What the statements of a block come to, the block comes to. -/
theorem Visits.block {body : List (Stmt α)} {span : Span}
    (h : Visits b (.all .origin body) c b' s c') :
    Visits b (.one (.block body span)) c b' s c' := by
  cases h with
  | meets met => exact .meets (.block met)
  | drawn met draws inner => exact .drawn (.block met) draws inner

/-- What the first statement of a body comes to, the body comes to. -/
theorem Visits.first {sum : Point α} {rest : List (Stmt α)}
    (h : Visits b (.one s') c b' s c') : Visits b (.all sum (s' :: rest)) c b' s c' := by
  cases h with
  | meets met => exact .meets (.first met)
  | drawn met draws inner => exact .drawn (.first met) draws inner

/-- What the other statements of a body come to after the first one, the body comes to. -/
theorem Visits.later {sum : Point α} {rest : List (Stmt α)} {v : Value α}
    {events : List (Event α)} (first : b.perform (.one s') c = ⟨.ok v, d, events⟩)
    (h : Visits b (.all (v.addTo sum) rest) d b' s c') :
    Visits b (.all sum (s' :: rest)) c b' s c' := by
  cases h with
  | meets met => exact .meets (.later first met)
  | drawn met draws inner => exact .drawn (.later first met) draws inner

end

end SelfSimilar
