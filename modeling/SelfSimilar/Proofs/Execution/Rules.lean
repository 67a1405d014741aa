import SelfSimilar.Proofs.Execution.Work

/-!
# Rules of execution

`Stmt.exec` recurses on the program and on the number of levels left. This module says what it
computes without counting levels: `Execution b t c o` is derived by rules, one for each way in which
a statement can go on or end, and a derivation is finite, whatever bodies it runs.

* `execution_perform`: every piece of work has a derivation, by recursion on the levels left and
  then on the size of the program
* `execution_iff`: derivations and runs agree, so each piece of work has exactly one outcome

Properties of runs are proved by induction on derivations; no other module counts levels.
-/

namespace SelfSimilar

variable {α : Type} [Scalar α]

/-- `Execution b t c o`: the work `t` on the branch `b`, begun on the canvas `c`, comes to its end
with the outcome `o`. -/
inductive Execution : Branch α → Task α → Canvas α → Outcome α Failure (Value α) → Prop
  /-- A block runs its statements. -/
  | block {b c o body span} (inner : Execution b (.all .origin body) c o) :
      Execution b (.one (.block body span)) c o
  /-- A definition binds a fractal to its name. -/
  | define {b c name body span} :
      Execution b (.one (.define name body span)) c
        ⟨.ok (.fractal ⟨name, body, b.scope⟩), b.bind name (.fractal ⟨name, body, b.scope⟩) c,
          [.defined name body.length]⟩
  /-- A draw by name whose ends or fractal cannot be read. -/
  | drawUnread {b c name segment span e}
      (read : Stmt.namedDraw (.draw name segment span) name segment b c = .error e) :
      Execution b (.one (.draw name segment span)) c ⟨.error e, c, b.report e.fault⟩
  /-- A draw by name at the limit. -/
  | drawTooDeep {b c name segment span ends f}
      (read : Stmt.namedDraw (.draw name segment span) name segment b c = .ok (ends, f))
      (limit : b.depthLimit ≤ b.level) :
      Execution b (.one (.draw name segment span)) c
        ⟨.error (Stmt.failure (.draw name segment span) (.tooDeep b.depthLimit)), c,
          [.nestedPast name b.depthLimit]⟩
  /-- A draw by name runs the body on a child branch, while its fractal is active. -/
  | draw {b c name segment span ends f child o}
      (read : Stmt.namedDraw (.draw name segment span) name segment b c = .ok (ends, f))
      (room : b.level < b.depthLimit)
      (derived : child = (b.child ends.1 ends.2).within f.scope)
      (inner : Execution child (.all .origin f.body) ((child.moveTo .origin c).start f) o) :
      Execution b (.one (.draw name segment span)) c
        ⟨o.result, o.canvas.stop, .derived child.level child.frame :: o.events⟩
  /-- SELF whose fractal or ends cannot be read. -/
  | selfUnread {b c segment span e}
      (read : Stmt.selfDraw (.drawSelf segment span) segment b c = .error e) :
      Execution b (.one (.drawSelf segment span)) c ⟨.error e, c, b.report e.fault⟩
  /-- SELF that has become small enough for a line. -/
  | selfLine {b c segment span f ends}
      (read : Stmt.selfDraw (.drawSelf segment span) segment b c = .ok (f, ends))
      (small : b.isResolvable = false) :
      Execution b (.one (.drawSelf segment span)) c
        ⟨.ok (.point ends.2), b.lined segment ends c, [.bottomedOut b.level f.name]⟩
  /-- SELF runs the body of the innermost active fractal on a child branch. -/
  | self {b c segment span f ends child o}
      (read : Stmt.selfDraw (.drawSelf segment span) segment b c = .ok (f, ends))
      (large : b.isResolvable = true)
      (derived : child = b.child ends.1 ends.2)
      (inner : Execution child (.all .origin f.body) (child.moveTo .origin c) o) :
      Execution b (.one (.drawSelf segment span)) c
        ⟨o.result, o.canvas, .derived child.level child.frame :: o.events⟩
  /-- A line whose ends cannot be read. -/
  | lineUnread {b c segment span e}
      (read : Stmt.endpoints (.line segment span) segment b c = .error e) :
      Execution b (.one (.line segment span)) c ⟨.error e, c, b.report e.fault⟩
  /-- A line. -/
  | line {b c segment span ends}
      (read : Stmt.endpoints (.line segment span) segment b c = .ok ends) :
      Execution b (.one (.line segment span)) c ⟨.ok (.point ends.2), b.lined segment ends c, []⟩
  /-- An assignment whose value cannot be computed. -/
  | assignUnread {b c id value span e} (read : value.eval b c = .error e) :
      Execution b (.one (.assign id value span)) c ⟨.error e, c, b.report e.fault⟩
  /-- An assignment. -/
  | assign {b c id value span v} (read : value.eval b c = .ok v) :
      Execution b (.one (.assign id value span)) c ⟨.ok .noValue, b.bind id v c, []⟩
  /-- Everything drawn is erased. -/
  | clear {b c span} :
      Execution b (.one (.clear span)) c
        ⟨.ok .noValue, b.erase c, [.clearing c.path.segmentCount]⟩
  /-- The pen goes to the origin. -/
  | home {b c span} :
      Execution b (.one (.home span)) c ⟨.ok .noValue, b.moveTo .origin c, []⟩
  /-- Nothing is left of a body. -/
  | nil {b c sum} : Execution b (.all sum []) c ⟨.ok (.point sum), c, []⟩
  /-- The first statement left fails, and the others are not run. -/
  | fail {b c sum s rest e d events} (first : Execution b (.one s) c ⟨.error e, d, events⟩) :
      Execution b (.all sum (s :: rest)) c ⟨.error e, d, events⟩
  /-- The first statement left is run, and then the others. -/
  | cons {b c sum s rest v d events o} (first : Execution b (.one s) c ⟨.ok v, d, events⟩)
      (later : Execution b (.all (v.addTo sum) rest) d o) :
      Execution b (.all sum (s :: rest)) c ⟨o.result, o.canvas, events ++ o.events⟩

namespace Task

/-- How much of the program is left of a piece of work. -/
noncomputable def size : Task α → Nat
  | .one s => sizeOf s
  | .all _ body => sizeOf body

end Task

/-- Every piece of work comes to its end. A body is run with one level less, a block with less of
the program. -/
theorem execution_perform (b : Branch α) (t : Task α) (c : Canvas α) :
    Execution b t c (b.perform t c) := by
  match t with
  | .one (.block body span) =>
    rw [b.perform_block]
    exact .block (execution_perform b (.all .origin body) c)
  | .one (.define name body span) =>
    rw [b.perform_define]
    exact .define
  | .one (.draw name segment span) =>
    cases h : Stmt.namedDraw (.draw name segment span) name segment b c with
    | error e =>
      rw [Branch.perform_draw_of_error h]
      exact .drawUnread h
    | ok p =>
      obtain ⟨ends, f⟩ := p
      by_cases hlt : b.level < b.depthLimit
      · -- the body is a value, so only the levels left get fewer
        rw [Branch.perform_draw_of_lt h hlt rfl]
        exact .draw h hlt rfl (execution_perform _ _ _)
      · rw [Branch.perform_draw_of_le h (Nat.le_of_not_lt hlt)]
        exact .drawTooDeep h (Nat.le_of_not_lt hlt)
  | .one (.drawSelf segment span) =>
    cases h : Stmt.selfDraw (.drawSelf segment span) segment b c with
    | error e =>
      rw [Branch.perform_drawSelf_of_error h]
      exact .selfUnread h
    | ok p =>
      obtain ⟨f, ends⟩ := p
      cases hres : b.isResolvable with
      | false =>
        rw [Branch.perform_drawSelf_of_small h hres]
        exact .selfLine h hres
      | true =>
        -- SELF does not ask for a level, but where it is resolvable there is one
        have hlt := Branch.lt_depthLimit_of_isResolvable hres
        rw [Branch.perform_drawSelf_of_isResolvable h hres rfl]
        exact .self h hres rfl (execution_perform _ _ _)
  | .one (.line segment span) =>
    cases h : Stmt.endpoints (.line segment span) segment b c with
    | error e =>
      rw [Branch.perform_line_of_error h]
      exact .lineUnread h
    | ok ends =>
      rw [Branch.perform_line_of_ok h]
      exact .line h
  | .one (.assign id value span) =>
    cases h : value.eval b c with
    | error e =>
      rw [Branch.perform_assign_of_error h]
      exact .assignUnread h
    | ok v =>
      rw [Branch.perform_assign_of_ok h]
      exact .assign h
  | .one (.clear span) =>
    rw [b.perform_clear]
    exact .clear
  | .one (.home span) =>
    rw [b.perform_home]
    exact .home
  | .all sum [] =>
    rw [b.perform_nil]
    exact .nil
  | .all sum (s :: rest) =>
    -- what follows depends on how the first statement ends
    have hfirst := execution_perform b (.one s) c
    rcases h : b.perform (.one s) c with ⟨_ | v, d, events⟩
    · rw [Branch.perform_cons_of_error h]
      exact .fail (h ▸ hfirst)
    · rw [Branch.perform_cons_of_ok h]
      exact .cons (h ▸ hfirst) (execution_perform b (.all (v.addTo sum) rest) d)
termination_by (b.levelsLeft, t.size)
decreasing_by
  -- a block and the parts of a body are smaller, with the same levels left; the bodies of
  -- fractals may be of any size, one level deeper
  · exact Prod.Lex.right _ (by simp only [Task.size, Stmt.block.sizeOf_spec]; omega)
  · exact Prod.Lex.left _ _ (Nat.le_of_eq (Branch.levelsLeft_child hlt rfl rfl))
  · exact Prod.Lex.left _ _ (Nat.le_of_eq (Branch.levelsLeft_child hlt rfl rfl))
  · exact Prod.Lex.right _ (by simp only [Task.size, List.cons.sizeOf_spec]; omega)
  · exact Prod.Lex.right _ (by simp only [Task.size, List.cons.sizeOf_spec]; omega)

/-- The rules leave no choice: an outcome that they derive is that of the run. -/
theorem Execution.eq_perform {b : Branch α} {t : Task α} {c : Canvas α}
    {o : Outcome α Failure (Value α)} (h : Execution b t c o) : b.perform t c = o := by
  -- each rule has its equation, and the parts of the work are known by induction
  induction h with
  | block _ ih => rw [Branch.perform_block, ih]
  | define => exact Branch.perform_define ..
  | drawUnread read => exact Branch.perform_draw_of_error read
  | drawTooDeep read limit => exact Branch.perform_draw_of_le read limit
  | draw read room derived _ ih => rw [Branch.perform_draw_of_lt read room derived, ih]
  | selfUnread read => exact Branch.perform_drawSelf_of_error read
  | selfLine read small => exact Branch.perform_drawSelf_of_small read small
  | self read large derived _ ih =>
    rw [Branch.perform_drawSelf_of_isResolvable read large derived, ih]
  | lineUnread read => exact Branch.perform_line_of_error read
  | line read => exact Branch.perform_line_of_ok read
  | assignUnread read => exact Branch.perform_assign_of_error read
  | assign read => exact Branch.perform_assign_of_ok read
  | clear => exact Branch.perform_clear ..
  | home => exact Branch.perform_home ..
  | nil => exact Branch.perform_nil ..
  | fail _ ih => exact Branch.perform_cons_of_error ih
  | cons _ _ ihFirst ihLater => rw [Branch.perform_cons_of_ok ihFirst, ihLater]

/-- Derivations and runs agree. -/
theorem execution_iff {b : Branch α} {t : Task α} {c : Canvas α}
    {o : Outcome α Failure (Value α)} : Execution b t c o ↔ b.perform t c = o :=
  ⟨Execution.eq_perform, fun h => h ▸ execution_perform b t c⟩

end SelfSimilar
