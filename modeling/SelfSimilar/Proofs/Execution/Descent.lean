import SelfSimilar.Proofs.Execution.Bodies

/-!
# Going down into bodies

There are many rules of execution, but only two ways for a statement to go on that is neither a
block nor a definition: it runs the body of a fractal on a child branch and ends as the body does,
or it stays on its branch and is done at once. What holds of both holds of all work.

* `Draws.execution`: a statement that runs a body ends as the body does
* `Execution.descent`: induction over work, with one case for each of the two ways
* `Visits.meets_or_drawn`: a statement in the course of a run stands in the work itself, or in a
  body
* `Execution.visits_of_error`: a run that fails comes to a statement that fails by itself
* `Execution.unread_or_refused`: what it cannot read is missing, or a draw by name is refused
* `Visits.perform_eq_error`: a run fails where a statement in its course does
-/

namespace SelfSimilar

namespace Stmt

variable {α : Type}

/-- The statement holds no other ones: it is neither a block nor a definition. -/
def IsPlain : Stmt α → Prop
  | .block _ _ => False
  | .define _ _ _ => False
  | _ => True

/-- The statement, begun on the branch `b` and the canvas `c`, runs the body of no fractal. -/
def Stays [Scalar α] (s : Stmt α) (b : Branch α) (c : Canvas α) : Prop :=
  ∀ f child d, ¬ Draws b c s f child d

end Stmt

variable {α : Type} [Scalar α]

/-- `Unread b c s e`: what the statement `s` reads, begun on the branch `b` and the canvas `c`,
cannot be read, which is the failure `e`. -/
inductive Unread (b : Branch α) (c : Canvas α) : Stmt α → Failure → Prop
  | draw {name segment span e}
      (read : Stmt.namedDraw (.draw name segment span) name segment b c = .error e) :
      Unread b c (.draw name segment span) e
  | self {segment span e}
      (read : Stmt.selfDraw (.drawSelf segment span) segment b c = .error e) :
      Unread b c (.drawSelf segment span) e
  | line {segment span e} (read : Stmt.endpoints (.line segment span) segment b c = .error e) :
      Unread b c (.line segment span) e
  | assign {id value span e} (read : value.eval b c = .error e) :
      Unread b c (.assign id value span) e

/-- `Refuses b c s f`: the statement `s`, begun on the branch `b` and the canvas `c`, is to draw the
fractal `f` by its name, and no level is left for it. -/
inductive Refuses (b : Branch α) (c : Canvas α) : Stmt α → Fractal α → Prop
  | named {name segment span ends f}
      (read : Stmt.namedDraw (.draw name segment span) name segment b c = .ok (ends, f))
      (limit : b.depthLimit ≤ b.level) : Refuses b c (.draw name segment span) f

/-- How a statement ends that was begun on the canvas `c` and has run a body on the branch `child`:
as the body does, with the fractals active that were active before. -/
def Outcome.above (o : Outcome α Failure (Value α)) (child : Branch α) (c : Canvas α) :
    Outcome α Failure (Value α) :=
  ⟨o.result, { o.canvas with active := c.active }, .derived child.level child.frame :: o.events⟩

section

variable {b child b' : Branch α} {t : Task α} {c d c' : Canvas α} {s : Stmt α} {f : Fractal α}
  {o : Outcome α Failure (Value α)}

/-- Only statements that hold no others run bodies of fractals. -/
theorem Draws.isPlain (h : Draws b c s f child d) : s.IsPlain := by
  cases h <;> trivial

/-- A statement that runs a body ends as the body does. -/
theorem Draws.execution (h : Draws b c s f child d)
    (inner : Execution child (.all .origin f.body) d o) :
    Execution b (.one s) c (o.above child c) := by
  have hactive := inner.active_eq
  unfold Outcome.above
  cases h with
  | named read room derived =>
    -- the body leaves its own fractal on top of those that were active before
    have hstop : o.canvas.stop = { o.canvas with active := c.active } := by
      simp [Canvas.stop, hactive]
    rw [← hstop]
    exact .draw read room derived inner
  -- SELF makes nothing active, so there is nothing to be put back
  | self read large derived =>
    have hsame : { o.canvas with active := c.active } = o.canvas := by
      rw [← Branch.active_moveTo child c .origin, ← hactive]
    rw [hsame]
    exact .self read large derived inner

/-- To prove something of all work, suppose it of the parts of a block, of the body that a statement
runs, and of the statements before others, and prove it of statements that stay on their branch. -/
@[elab_as_elim]
theorem Execution.descent {motive : ∀ b t c o, Execution (α := α) b t c o → Prop}
    (block : ∀ {b c o body span} (inner : Execution b (.all .origin body) c o),
      motive _ _ _ _ inner → motive b (.one (.block body span)) c o (.block inner))
    (define : ∀ {b c name body span},
      motive b (.one (.define name body span)) c _ .define)
    (stays : ∀ {b c s o} (_ : s.IsPlain) (_ : s.Stays b c) (done : Execution b (.one s) c o),
      motive b (.one s) c o done)
    (draws : ∀ {b c s f child d o} (draws : Draws b c s f child d)
      (inner : Execution child (.all .origin f.body) d o),
      motive _ _ _ _ inner → motive b (.one s) c (o.above child c) (draws.execution inner))
    (nil : ∀ {b c sum}, motive b (.all sum []) c _ .nil)
    (fail : ∀ {b c sum s rest e d events} (first : Execution b (.one s) c ⟨.error e, d, events⟩),
      motive _ _ _ _ first → motive b (.all sum (s :: rest)) c _ (.fail first))
    (cons : ∀ {b c sum s rest v d events o} (first : Execution b (.one s) c ⟨.ok v, d, events⟩)
      (later : Execution b (.all (v.addTo sum) rest) d o),
      motive _ _ _ _ first → motive _ _ _ _ later →
        motive b (.all sum (s :: rest)) c _ (.cons first later))
    (h : Execution b t c o) : motive b t c o h := by
  -- the outcome of a statement is unique, so the two ways to write it down are equal
  have hdrawn : ∀ {b c s f child d o o'} (hdraws : Draws b c s f child d)
      (inner : Execution child (.all .origin f.body) d o) (hex : Execution b (.one s) c o'),
      motive _ _ _ _ inner → motive b (.one s) c o' hex := by
    intro b c s f child d o o' hdraws inner hex hinner
    obtain rfl : o.above child c = o' :=
      (hdraws.execution inner).eq_perform.symm.trans hex.eq_perform
    exact draws hdraws inner hinner
  induction h with
  | block inner ih => exact block inner ih
  | define => exact define
  | draw read room derived inner ih => exact hdrawn (.named read room derived) inner _ ih
  | self read large derived inner ih => exact hdrawn (.self read large derived) inner _ ih
  | nil => exact nil
  | fail first ih => exact fail first ih
  | cons first later ihFirst ihLater => exact cons first later ihFirst ihLater
  -- in what follows nothing is drawn: something is missing, or there is no level, or SELF is small
  | drawUnread read =>
    refine stays (by trivial) ?_ (.drawUnread read)
    rintro f child d (⟨read', _, _⟩)
    cases read.symm.trans read'
  | drawTooDeep read limit =>
    refine stays (by trivial) ?_ (.drawTooDeep read limit)
    rintro f child d (⟨_, room, _⟩)
    omega
  | selfUnread read =>
    refine stays (by trivial) ?_ (.selfUnread read)
    rintro f child d (_ | ⟨read', _, _⟩)
    cases read.symm.trans read'
  | selfLine read small =>
    refine stays (by trivial) ?_ (.selfLine read small)
    rintro f child d (_ | ⟨_, large, _⟩)
    cases small.symm.trans large
  | lineUnread read => exact stays (by trivial) (by rintro f child d ⟨⟩) (.lineUnread read)
  | line read => exact stays (by trivial) (by rintro f child d ⟨⟩) (.line read)
  | assignUnread read => exact stays (by trivial) (by rintro f child d ⟨⟩) (.assignUnread read)
  | assign read => exact stays (by trivial) (by rintro f child d ⟨⟩) (.assign read)
  | clear => exact stays (by trivial) (by rintro f child d ⟨⟩) .clear
  | home => exact stays (by trivial) (by rintro f child d ⟨⟩) .home

/-! ## Where a statement stands -/

/-- What a body comes to without drawing stands in it, outside of definitions. -/
theorem Meets.standsIn (h : Meets b t c s d) : s.StandsIn t.statements := by
  induction h with
  | here => exact .member (List.mem_singleton.2 rfl)
  | block _ ih => exact .inBlock (List.mem_singleton.2 rfl) ih
  | first _ ih => exact ih.mono fun s' hs => List.mem_cons.2 (.inl (List.mem_singleton.1 hs))
  | later _ _ ih => exact ih.mono fun s' hs => List.mem_cons_of_mem _ hs

/-- The body of a fractal is run with a fractal active. -/
theorem Draws.active_ne_nil (h : Draws b c s f child d) : d.active ≠ [] := by
  intro hactive
  have hhead := Canvas.current_eq_ok.1 h.current_eq
  rw [hactive] at hhead
  cases hhead

/-- No level in the course of a run is above the one that it is begun on. -/
theorem Visits.level_le (h : Visits b t c b' s c') : b.level ≤ b'.level := by
  induction h with
  | meets _ => exact Nat.le_refl _
  | drawn _ draws _ ih =>
    rw [draws.level_eq] at ih
    omega

/-- A statement in the course of a run stands in the work itself, or in the body of a fractal that
is drawn on the way. -/
theorem Visits.meets_or_drawn (h : Visits b t c b' s c') :
    b' = b ∧ Meets b t c s c' ∨
      ∃ b₁ s₁ c₁ f d, Visits b t c b₁ s₁ c₁ ∧ Draws b₁ c₁ s₁ f b' d ∧
        Meets b' (.all .origin f.body) d s c' := by
  induction h with
  | meets met => exact .inl ⟨rfl, met⟩
  | drawn met draws _ ih =>
    rcases ih with ⟨rfl, met'⟩ | ⟨b₁, s₁, c₁, g, d, hv, draws', met'⟩
    · exact .inr ⟨_, _, _, _, _, .meets met, draws, met'⟩
    · exact .inr ⟨b₁, s₁, c₁, g, d, .drawn met draws hv, draws', met'⟩

/-- The statements of bodies are begun on a deeper level and with a fractal active. -/
theorem Visits.meets_or_below (h : Visits b t c b' s c') :
    b' = b ∧ Meets b t c s c' ∨ b.level < b'.level ∧ c'.active ≠ [] := by
  rcases h.meets_or_drawn with hmeets | ⟨b₁, s₁, c₁, f, d, hv, draws, met⟩
  · exact .inl hmeets
  · have hlevel := hv.level_le
    rw [draws.level_eq, met.active_eq]
    exact .inr ⟨by omega, draws.active_ne_nil⟩

/-! ## Where a run fails -/

/-- A run that fails comes to a statement that runs no body and fails by itself. -/
theorem Execution.visits_of_error (h : Execution b t c o) {e : Failure} (he : o.result = .error e) :
    ∃ b' s d o', Visits b t c b' s d ∧ s.IsPlain ∧ s.Stays b' d ∧
      Execution b' (.one s) d o' ∧ o'.result = .error e := by
  induction h using Execution.descent with
  | block _ ih =>
    obtain ⟨b', s, d, o', hv, hfails⟩ := ih he
    exact ⟨b', s, d, o', hv.block, hfails⟩
  | define => cases he
  | stays hplain hstays hex => exact ⟨_, _, _, _, .meets .here, hplain, hstays, hex, he⟩
  | draws hdraws _ ih =>
    obtain ⟨b', s, d, o', hv, hfails⟩ := ih he
    exact ⟨b', s, d, o', .drawn .here hdraws hv, hfails⟩
  | nil => cases he
  | fail _ ih =>
    obtain ⟨b', s, d, o', hv, hfails⟩ := ih he
    exact ⟨b', s, d, o', hv.first, hfails⟩
  | cons first _ _ ihLater =>
    obtain ⟨b', s, d, o', hv, hfails⟩ := ihLater he
    exact ⟨b', s, d, o', hv.later first.eq_perform, hfails⟩

/-- A statement that fails by itself cannot read something, or it is a draw that is refused. -/
theorem Execution.unread_or_refused (h : Execution b (.one s) c o) (hplain : s.IsPlain)
    (hstays : s.Stays b c) {e : Failure} (he : o.result = .error e) :
    Unread b c s e ∨ e = s.failure (.tooDeep b.depthLimit) ∧ ∃ f, Refuses b c s f := by
  -- the rules for statements that succeed do not apply, and a body is not run
  cases h with
  | block _ => exact hplain.elim
  | define => exact hplain.elim
  | drawUnread read => cases he; exact .inl (.draw read)
  | drawTooDeep read limit => cases he; exact .inr ⟨rfl, _, .named read limit⟩
  | draw read room derived _ => exact absurd (.named read room derived) (hstays _ _ _)
  | selfUnread read => cases he; exact .inl (.self read)
  | self read large derived _ => exact absurd (.self read large derived) (hstays _ _ _)
  | lineUnread read => cases he; exact .inl (.line read)
  | assignUnread read => cases he; exact .inl (.assign read)
  | _ => cases he

/-- A body fails where one of its statements does. -/
theorem Meets.perform_eq_error (h : Meets b t c s d) {e : Failure}
    (he : (b.perform (.one s) d).result = .error e) : (b.perform t c).result = .error e := by
  induction h with
  | here => exact he
  | block _ ih => exact ih he
  -- the first statement fails, and then the others are not run
  | @first c s d sum s' rest _ ih =>
    rcases hfirst : b.perform (.one s') c with ⟨result, e', events⟩
    obtain rfl : result = .error e := by simpa only [hfirst] using ih he
    rw [Branch.perform_cons_of_error hfirst]
  | later first _ ih =>
    rw [Branch.perform_cons_of_ok first]
    exact ih he

/-- A run fails where a statement in its course does. -/
theorem Visits.perform_eq_error (h : Visits b t c b' s c') {e : Failure}
    (he : (b'.perform (.one s) c').result = .error e) : (b.perform t c).result = .error e := by
  induction h with
  | meets met => exact met.perform_eq_error he
  | drawn met draws _ ih =>
    refine met.perform_eq_error ?_
    rw [(draws.execution (execution_perform _ _ _)).eq_perform]
    exact ih he

end

end SelfSimilar
