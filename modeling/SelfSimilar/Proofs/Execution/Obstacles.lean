import SelfSimilar.Proofs.Execution.Nesting
import SelfSimilar.Proofs.Execution.Sequencing

/-!
# Obstacles

A statement checks all that it needs before it changes anything. What it needs can be listed, each
part looked at on the canvas that the statement is begun on, and the first part that is missing is
the failure of the statement (`Stmt.obstacle?`). With an obstacle in its way a statement changes
nothing, and without one it fails only if it runs the body of a fractal that fails.

* `Stmt.obstacle?_eq_some`: an obstacle is something that cannot be read, or a draw that is refused
* `Stmt.perform_of_obstacle`: a statement with an obstacle in its way changes nothing
* `Execution.obstacle_or_draws`: a statement that fails has an obstacle in its way, or it runs a
  body
* `Branch.stopsAt_of_error`: a body that fails is run up to a statement that fails
* `Visits.canvas_of_error`: after a failing run the canvas is that of the statement that has failed
-/

namespace SelfSimilar

variable {α : Type} [Scalar α]

/-- The failure of something that fails. -/
def Failure.of? {β : Type} : Except Failure β → Option Failure
  | .ok _ => none
  | .error e => some e

/-! ## What a statement needs -/

/-- What stands in the way of reading the ends of what a statement draws: the target, and then the
source or the place of the pen. -/
def Stmt.endObstacles (s : Stmt α) (segment : Segment α) (b : Branch α) (c : Canvas α) :
    List (Option Failure) :=
  [Failure.of? (segment.target.evalPoint b c),
    match segment.source with
    | some source => Failure.of? (source.evalPoint b c)
    | none => Failure.of? (s.attach (b.pen c))]

/-- What stands in the way of a statement, in the order in which it is looked at. Each part is
looked at on its own. -/
def Stmt.obstacles (b : Branch α) (c : Canvas α) : Stmt α → List (Option Failure)
  | s@(.draw name segment _) =>
    s.endObstacles segment b c ++
      [Failure.of? (s.attach (b.lookup c name)),
        Failure.of? (s.attach (b.lookup c name >>= Value.asFractal))] ++
      [if b.level < b.depthLimit then none else some (s.failure (.tooDeep b.depthLimit))]
  | s@(.drawSelf segment _) => Failure.of? (s.attach c.current) :: s.endObstacles segment b c
  | s@(.line segment _) => s.endObstacles segment b c
  | .assign _ value _ => [Failure.of? (value.eval b c)]
  | .block _ _ | .define _ _ _ | .clear _ | .home _ => []

/-- The first thing that stands in the way of a statement. -/
def Stmt.obstacle? (s : Stmt α) (b : Branch α) (c : Canvas α) : Option Failure :=
  (s.obstacles b c).findSome? id

/-! ## The first obstacle -/

section

variable {b child b' : Branch α} {t : Task α} {c d c' : Canvas α} {s : Stmt α} {f : Fractal α}
  {o : Outcome α Failure (Value α)} {segment : Segment α} {span : Span} {name : String}
  {e : Failure}

omit [Scalar α] in
/-- The failure of something is the one that it fails with. -/
theorem Failure.of?_eq_some {β : Type} {x : Except Failure β} : of? x = some e ↔ x = .error e := by
  cases x <;> simp [of?]

omit [Scalar α] in
/-- The first failure of two steps, where the second one fails alike after any first one. -/
theorem Failure.of?_bind {β γ : Type} {x : Except Failure β} {next : β → Except Failure γ}
    {rest : Option Failure} (h : ∀ v, x = .ok v → of? (next v) = rest) :
    of? (x >>= next) = (of? x).or rest := by
  rcases x with e | v
  · rfl
  · exact h v rfl

omit [Scalar α] in
/-- What is made of a value does not matter for the failure. -/
theorem Failure.of?_map {β γ : Type} (x : Except Failure β) (g : β → γ) :
    of? (x >>= fun v => pure (g v)) = of? x := by
  cases x <;> rfl

/-- The first failure is that of the first part, or else the first one of the others. -/
theorem Failure.findSome?_id_cons (x : Option Failure) (rest : List (Option Failure)) :
    (x :: rest).findSome? id = x.or (rest.findSome? id) := by
  cases x <;> rfl

/-- The first obstacle among the ends is the failure of reading them. -/
theorem Stmt.findSome?_endObstacles (s : Stmt α) (segment : Segment α) (b : Branch α)
    (c : Canvas α) :
    (s.endObstacles segment b c).findSome? id = Failure.of? (s.endpoints segment b c) := by
  rw [endObstacles, Failure.findSome?_id_cons, List.findSome?_singleton, id]
  symm
  -- the target is looked at first, and what comes after it does not depend on its value
  refine Failure.of?_bind fun target _ => ?_
  cases segment.source with
  | none => exact Failure.of?_map _ _
  | some source => exact Failure.of?_map _ _

namespace Stmt

variable (name : String) (segment : Segment α) (span : Span) (b : Branch α) (c : Canvas α)

/-- The last thing that a draw by name needs is a level. -/
theorem obstacle?_draw :
    (Stmt.draw name segment span).obstacle? b c =
      (Failure.of? (namedDraw (.draw name segment span) name segment b c)).or
        (if b.level < b.depthLimit then none
          else some (failure (.draw name segment span) (.tooDeep b.depthLimit))) := by
  simp only [obstacle?, obstacles, List.findSome?_append, findSome?_endObstacles,
    Failure.findSome?_id_cons, List.findSome?_nil, Option.or_none]
  congr 1
  symm
  refine Failure.of?_bind fun ends _ => Failure.of?_bind fun v hv => ?_
  -- once there is a value, its kind is all that is left to look at
  rw [attach_eq_ok.1 hv]
  exact Failure.of?_map _ _

/-- SELF needs an active fractal and then its ends. -/
theorem obstacle?_drawSelf :
    (Stmt.drawSelf segment span).obstacle? b c =
      Failure.of? (selfDraw (.drawSelf segment span) segment b c) := by
  rw [obstacle?, obstacles, Failure.findSome?_id_cons, findSome?_endObstacles]
  exact (Failure.of?_bind fun f _ => Failure.of?_map _ _).symm

/-- A line needs its ends. -/
theorem obstacle?_line :
    (Stmt.line segment span).obstacle? b c =
      Failure.of? (endpoints (.line segment span) segment b c) :=
  findSome?_endObstacles _ segment b c

/-- An assignment needs its value. -/
theorem obstacle?_assign (value : Expr α) :
    (Stmt.assign name value span).obstacle? b c = Failure.of? (value.eval b c) :=
  List.findSome?_singleton

end Stmt

/-! ## Statements with an obstacle in their way -/

/-- What cannot be read is the first obstacle. -/
theorem Unread.obstacle?_eq (h : Unread b c s e) : s.obstacle? b c = some e := by
  cases h with
  | draw read =>
    rw [Stmt.obstacle?_draw, read]
    rfl
  | self read => rw [Stmt.obstacle?_drawSelf, read, Failure.of?]
  | line read => rw [Stmt.obstacle?_line, read, Failure.of?]
  | assign read => rw [Stmt.obstacle?_assign, read, Failure.of?]

/-- Where a draw is refused, all that it reads is there, and the level is missing. -/
theorem Refuses.obstacle?_eq (h : Refuses b c s f) :
    s.obstacle? b c = some (s.failure (.tooDeep b.depthLimit)) := by
  cases h with
  | named read limit =>
    rw [Stmt.obstacle?_draw, read, if_neg (Nat.not_lt.2 limit)]
    rfl

/-- A statement that runs a body has nothing in its way. -/
theorem Draws.obstacle?_eq (h : Draws b c s f child d) : s.obstacle? b c = none := by
  cases h with
  | named read room _ =>
    rw [Stmt.obstacle?_draw, read, if_pos room]
    rfl
  | self read _ _ => rw [Stmt.obstacle?_drawSelf, read, Failure.of?]

/-- An obstacle is something that cannot be read, or it is that no level is left. -/
theorem Stmt.obstacle?_eq_some : s.obstacle? b c = some e ↔
    Unread b c s e ∨ e = s.failure (.tooDeep b.depthLimit) ∧ ∃ f, Refuses b c s f := by
  constructor
  · intro h
    cases s with
    | draw name segment span =>
      cases hread : namedDraw (.draw name segment span) name segment b c with
      | error e' =>
        have hunread : Unread b c (.draw name segment span) e' := .draw hread
        cases hunread.obstacle?_eq.symm.trans h
        exact .inl hunread
      | ok p =>
        obtain ⟨ends, f⟩ := p
        -- everything can be read, so the level is the obstacle
        by_cases hroom : b.level < b.depthLimit
        · cases (Draws.named hread hroom rfl).obstacle?_eq.symm.trans h
        · have hrefuses : Refuses b c (.draw name segment span) f :=
            .named hread (Nat.not_lt.1 hroom)
          cases hrefuses.obstacle?_eq.symm.trans h
          exact .inr ⟨rfl, f, hrefuses⟩
    -- the other statements need only what they read
    | drawSelf segment span =>
      rw [obstacle?_drawSelf] at h
      exact .inl (.self (Failure.of?_eq_some.1 h))
    | line segment span =>
      rw [obstacle?_line] at h
      exact .inl (.line (Failure.of?_eq_some.1 h))
    | assign id value span =>
      rw [obstacle?_assign] at h
      exact .inl (.assign (Failure.of?_eq_some.1 h))
    | _ => cases h
  · rintro (hunread | ⟨rfl, f, hrefuses⟩)
    · exact hunread.obstacle?_eq
    · exact hrefuses.obstacle?_eq

/-- A statement that cannot read something fails, and reports a collapsed frame if that is why. -/
theorem Unread.perform_eq (h : Unread b c s e) :
    b.perform (.one s) c = ⟨.error e, c, b.report e.fault⟩ := by
  cases h with
  | draw read => exact Branch.perform_draw_of_error read
  | self read => exact Branch.perform_drawSelf_of_error read
  | line read => exact Branch.perform_line_of_error read
  | assign read => exact Branch.perform_assign_of_error read

/-- With an obstacle in its way, a statement fails and changes nothing. -/
theorem Stmt.perform_of_obstacle (h : s.obstacle? b c = some e) :
    ∃ events, b.perform (.one s) c = ⟨.error e, c, events⟩ := by
  rcases obstacle?_eq_some.1 h with hunread | ⟨rfl, f, hrefuses⟩
  · exact ⟨_, hunread.perform_eq⟩
  · obtain ⟨name, hperform⟩ := hrefuses.perform_eq
    exact ⟨_, hperform⟩

/-! ## Bodies that fail -/

/-- The statements of `body`, begun on the branch `b` and the canvas `c`, are run up to the
statement `s`, which is begun on the canvas `d` and fails with `e`. -/
def Branch.StopsAt (b : Branch α) (body : List (Stmt α)) (c : Canvas α) (s : Stmt α) (d : Canvas α)
    (e : Failure) : Prop :=
  ∃ before after events, body = before ++ s :: after ∧ b.effect before c = ⟨.ok (), d, events⟩ ∧
    (b.run s d).result = .error e

/-- A body that fails is run up to a statement that fails, and nothing is done after it. -/
theorem Branch.stopsAt_of_error {body : List (Stmt α)} (h : (b.effect body c).result = .error e) :
    ∃ s d, b.StopsAt body c s d e ∧ (b.effect body c).canvas = (b.run s d).canvas := by
  induction body generalizing c with
  | nil => cases h
  | cons s rest ih =>
    rcases hfirst : b.run s c with ⟨e' | v, d, events⟩
    · -- the first statement fails, and the others are not run
      rw [effect_cons_of_error hfirst] at h ⊢
      cases h
      exact ⟨s, c, ⟨[], rest, [], rfl, rfl, by rw [hfirst]⟩, by rw [hfirst]⟩
    · -- it is run, and one of the others fails
      rw [effect_cons_of_ok hfirst] at h ⊢
      obtain ⟨s', d', ⟨before, after, events', rfl, hbefore, hs'⟩, hcanvas⟩ := ih h
      refine ⟨s', d', ⟨s :: before, after, events ++ events', rfl, ?_, hs'⟩, hcanvas⟩
      rw [effect_cons_of_ok hfirst, hbefore]

/-- A body that fails does so in the same way without its value. -/
theorem Branch.effect_eq_of_perform {body : List (Stmt α)}
    (h : (b.perform (.all .origin body) c).result = .error e) :
    (b.effect body c).result = .error e ∧
      (b.effect body c).canvas = (b.perform (.all .origin body) c).canvas := by
  rw [b.perform_body] at h ⊢
  rw [effect, Run.effect]
  rcases hbody : b.runAll body c with ⟨e' | p, d, events⟩
  · rw [hbody] at h
    cases h
    exact ⟨rfl, rfl⟩
  · rw [hbody] at h
    cases h

/-- A statement that fails has an obstacle in its way, or it runs the body of a fractal that
fails. -/
theorem Execution.obstacle_or_draws (h : Execution b (.one s) c o) (hplain : s.IsPlain)
    (he : o.result = .error e) :
    s.obstacle? b c = some e ∨
      ∃ f child d s' d', Draws b c s f child d ∧ child.StopsAt f.body d s' d' e ∧
        o.canvas = { (child.run s' d').canvas with active := c.active } := by
  -- the two ways for a statement to go on
  by_cases hdraws : ∃ f child d, Draws b c s f child d
  · obtain ⟨f, child, d, hdraws⟩ := hdraws
    have hbody := execution_perform child (.all .origin f.body) d
    obtain rfl := h.eq_perform.symm.trans (hdraws.execution hbody).eq_perform
    obtain ⟨herror, hcanvas⟩ := Branch.effect_eq_of_perform he
    obtain ⟨s', d', hstops, hcanvas'⟩ := Branch.stopsAt_of_error herror
    refine .inr ⟨f, child, d, s', d', hdraws, hstops, ?_⟩
    rw [← hcanvas', hcanvas]
    rfl
  · have hstays : s.Stays b c := fun f child d h => hdraws ⟨f, child, d, h⟩
    exact .inl (Stmt.obstacle?_eq_some.2 (h.unread_or_refused hplain hstays he))

/-! ## Runs that fail -/

/-- A body that fails leaves the canvas of its statement that does. -/
theorem Meets.canvas_of_error (h : Meets b t c s d)
    (he : (b.perform (.one s) d).result = .error e) :
    (b.perform t c).canvas = (b.perform (.one s) d).canvas := by
  -- what comes before the statement is run already, and what comes after it is not run
  induction h with
  | here => rfl
  | block _ ih => exact ih he
  | @first c s d sum s' rest met ih =>
    have hfails := met.perform_eq_error he
    rcases hfirst : b.perform (.one s') c with ⟨result, e', events⟩
    rw [hfirst] at hfails
    obtain rfl : result = .error e := hfails
    rw [Branch.perform_cons_of_error hfirst, ← ih he, hfirst]
  | later first _ ih =>
    rw [Branch.perform_cons_of_ok first]
    exact ih he

/-- A run that fails leaves the canvas of the statement that does, with the fractals active that
were active before. -/
theorem Visits.canvas_of_error (h : Visits b t c b' s c')
    (he : (b'.perform (.one s) c').result = .error e) :
    (b.perform t c).canvas = { (b'.perform (.one s) c').canvas with active := c.active } := by
  -- a draw passes on the canvas of its body, and only the active fractals are put back
  induction h with
  | @meets b t c s d met =>
    have hactive := (execution_perform b (.one s) d).active_eq
    rw [met.canvas_of_error he, ← met.active_eq, ← hactive]
  | @drawn b t c s d f child e' b' s' c' met draws inner ih =>
    have hbody := draws.execution (execution_perform child (.all .origin f.body) e')
    have hfails : (b.perform (.one s) d).result = .error e := by
      rw [hbody.eq_perform]
      exact inner.perform_eq_error he
    rw [met.canvas_of_error hfails, hbody.eq_perform, Outcome.above, ih he, met.active_eq]

end

end SelfSimilar
