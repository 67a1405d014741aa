import Mathlib.Tactic.Ring
import SelfSimilar.Proofs.Execution.Descent
import SelfSimilar.Proofs.Path.Curve
import SelfSimilar.Proofs.Scalar.Exact

/-!
# Chains

The body of a chain draws SELF from point to point, from the start of the unit segment to its end. A
link of a chain is a line or a smaller copy of the chain, and both lead from the one point to the
other one. Which of them it is may differ from link to link.

* `Stmt.Chain`: a body that draws SELF from point to point
* `Branch.place_child_origin`, `Branch.place_child_xUnit`: where the unit segment of a child lies
* `Execution.goesOn`: inside a chain, each part of a chain is drawn as a curve
* `Branch.goesOn_draw`: a chain is drawn by name as a curve
-/

namespace SelfSimilar

/-- A segment between two points that are written as such. -/
def Segment.Joins {α : Type} (segment : Segment α) (p q : Point α) : Prop :=
  ∃ span span', segment = ⟨some (.literal (.point p) span), .literal (.point q) span'⟩

/-- The statements draw SELF from point to point, first from `p` and last to `q`. There is at least
one statement. -/
inductive Stmt.Chain {α : Type} : Point α → List (Stmt α) → Point α → Prop
  | last {segment span p q} (joins : segment.Joins p q) : Chain p [.drawSelf segment span] q
  | link {segment span p q body r} (joins : segment.Joins p q) (rest : Chain q body r) :
      Chain p (.drawSelf segment span :: body) r

/-- A single statement is a chain if it joins the two points. -/
theorem Stmt.chain_singleton {α : Type} {segment : Segment α} {span : Span} {p q : Point α} :
    Chain p [.drawSelf segment span] q ↔ segment.Joins p q := by
  refine ⟨fun h => ?_, .last⟩
  cases h with
  | last joins => exact joins
  | link _ rest => cases rest

/-- The first statement of a chain is a chain of its own, and the others go on from where it
leads. -/
theorem Stmt.Chain.first {α : Type} {s : Stmt α} {rest : List (Stmt α)} {p r : Point α}
    (h : Chain p (s :: rest) r) : ∃ q, Chain p [s] q ∧ (rest = [] ∧ q = r ∨ Chain q rest r) := by
  cases h with
  | last joins => exact ⟨_, .last joins, .inl ⟨rfl, rfl⟩⟩
  | link joins rest => exact ⟨_, .last joins, .inr rest⟩

/-- Points that are written out are read without fail. -/
theorem Segment.Joins.endpoints_eq {α : Type} [Scalar α] {segment : Segment α} {p q : Point α}
    (h : segment.Joins p q) (s : Stmt α) (b : Branch α) (c : Canvas α) :
    s.endpoints segment b c = .ok (p, q) := by
  obtain ⟨_, _, rfl⟩ := h
  rfl

variable {K : Type} [ScalarField K]

/-! ## Where a child lies -/

/-- The unit segment of a child starts at the first point. -/
theorem Branch.place_child_origin (b : Branch K) (p q : Point K) :
    (b.child p q).place .origin = b.place p := by
  simp only [place, child, Frame.derive, Frame.andThen, Frame.ontoSegment, Frame.apply, Matrix3.mul,
    Matrix3.dot, Matrix3.ontoSegment, Matrix3.apply, Point.toPosition, Point.origin]
  congr 1 <;> ring

/-- The unit segment of a child ends at the second point. -/
theorem Branch.place_child_xUnit (b : Branch K) (p q : Point K) :
    (b.child p q).place .xUnit = b.place q := by
  simp only [place, child, Frame.derive, Frame.andThen, Frame.ontoSegment, Frame.apply, Matrix3.mul,
    Matrix3.dot, Matrix3.ontoSegment, Matrix3.apply, Point.toPosition, Point.xUnit]
  congr 1 <;> ring

/-! ## Drawing a chain -/

variable {b : Branch K} {t : Task K} {c : Canvas K} {o : Outcome K Failure (Value K)}
  {f : Fractal K} {p q : Point K}

/-- A line between two points is a curve from the one to the other. -/
theorem Branch.goesOn_lined {segment : Segment K} (h : segment.Joins p q) (b : Branch K)
    (c : Canvas K) : c.path.GoesOn (b.lined segment (p, q) c).path (b.place p) (b.place q) := by
  obtain ⟨_, _, rfl⟩ := h
  exact .line _ _ _

/-- While a chain is the innermost active fractal, each part of a chain is drawn as a curve, and
does not fail. -/
theorem Execution.goesOn (h : Execution b t c o) (hself : c.current = .ok f)
    (hbody : Stmt.Chain .origin f.body .xUnit) (ht : Stmt.Chain p t.statements q) :
    (∃ v, o.result = .ok v) ∧ c.path.GoesOn o.canvas.path (b.place p) (b.place q) := by
  -- a body that SELF runs is a chain again, from end to end of the unit segment
  induction h generalizing p q with
  | selfUnread read =>
    -- a fractal is active, and the points are there to be read
    have hjoins := Stmt.chain_singleton.1 ht
    rw [Stmt.selfDraw_eq_ok.2 ⟨hself, hjoins.endpoints_eq _ _ _⟩] at read
    cases read
  | selfLine read small =>
    have hjoins := Stmt.chain_singleton.1 ht
    -- a link that is small is drawn as a line
    cases (hjoins.endpoints_eq _ _ _).symm.trans (Stmt.selfDraw_eq_ok.1 read).2
    exact ⟨⟨_, rfl⟩, Branch.goesOn_lined hjoins _ _⟩
  | @self b c segment span f' ends child o read large derived inner ih =>
    obtain ⟨hcurrent, hends⟩ := Stmt.selfDraw_eq_ok.1 read
    cases hself.symm.trans hcurrent
    cases ((Stmt.chain_singleton.1 ht).endpoints_eq _ _ _).symm.trans hends
    -- and the unit segment of the child lies from the one point to the other one
    obtain ⟨hok, hcurve⟩ := ih hself hbody
    rw [derived, b.place_child_origin, b.place_child_xUnit] at hcurve
    exact ⟨hok, hcurve.of_moveTo⟩
  | nil => cases ht
  | fail first ih =>
    -- the first statement left is a link, and no link fails
    obtain ⟨_, hfirst, _⟩ := ht.first
    obtain ⟨⟨_, hok⟩, _⟩ := ih hself hfirst
    cases hok
  | @cons b c sum s rest v d events o first later ihFirst ihLater =>
    obtain ⟨_, hfirst, ⟨rfl, rfl⟩ | hrest⟩ := ht.first
    · cases later
      exact ⟨⟨_, rfl⟩, (ihFirst hself hfirst).2⟩
    · -- the link leaves the fractal active
      have hself' : d.current = .ok f := by
        rw [Canvas.current_eq_ok] at hself ⊢
        rw [first.active_eq, hself]
      obtain ⟨hok, hlater⟩ := ihLater hself' hrest
      exact ⟨hok, (ihFirst hself hfirst).2.trans hlater⟩
  | _ => cases ht

/-- Where a level is left, a chain is drawn by name as a curve, and the draw does not fail. -/
theorem Branch.goesOn_draw {name : String} {segment : Segment K} {span : Span}
    (hroom : b.level < b.depthLimit) (hname : b.lookup c name = .ok (.fractal f))
    (hbody : Stmt.Chain .origin f.body .xUnit) (hsegment : segment.Joins p q) :
    ∃ v d events, Execution b (.one (.draw name segment span)) c ⟨.ok v, d, events⟩ ∧
      c.path.GoesOn d.path (b.place p) (b.place q) := by
  have hread := Stmt.namedDraw_eq_ok.2 ⟨hsegment.endpoints_eq (.draw name segment span) b c, hname⟩
  have hdraws := Draws.named hread hroom rfl
  -- the body is run on the child, with the fractal active
  have hinner := execution_perform ((b.child p q).within f.scope) (.all .origin f.body)
    ((((b.child p q).within f.scope).moveTo .origin c).start f)
  obtain ⟨⟨v, hok⟩, hcurve⟩ := hinner.goesOn rfl hbody hbody
  have hex := hdraws.execution hinner
  rw [Outcome.above, hok] at hex
  refine ⟨v, _, _, hex, ?_⟩
  -- the scope of the child has no part in where it lies
  rw [← b.place_child_origin p q, ← b.place_child_xUnit p q]
  exact hcurve.of_moveTo

end SelfSimilar
