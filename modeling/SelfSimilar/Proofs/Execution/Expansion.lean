import SelfSimilar.Drawing.Expansion
import SelfSimilar.Proofs.Execution.Growth

/-!
# Expanding a chain with and without a program

A chain can be expanded on the branches alone, or by a program whose body draws SELF between its
points. Without a program, what is drawn on the last level are the unit segments of the branches
there. The program draws the links of the chain on the level before, and each of them is the unit
segment of the branch that lies along it. So both draw the same segments, the leaves of the chain.

* `Branch.expand_eq`: the expansion as a recursion over branches
* `Frame.leaves`: the unit segments so many levels below a frame
* `Branch.adds_expand`: without a program, the leaves are drawn
* `Branch.LargeBelow.lines_growth`, `Branch.adds_draw`: with a program, they are drawn too
-/

namespace SelfSimilar

section

variable {α : Type} [Scalar α]

/-! ## The expansion of a chain -/

/-- What the expansion of a chain does on a branch: it goes on in a child between each two
neighbours, or draws the unit segment where the branch is not resolvable. -/
theorem Branch.expand_eq {ε : Type} (b : Branch α) (points : List (Point α)) :
    (b.expand points : Run α ε Unit) =
      if b.isResolvable then
        (points.zip (points.drop 1)).forM fun ends => do
          let child := b.child ends.1 ends.2
          child.enter
          child.expand points
      else Run.change (b.lineTo .xUnit) := by
  unfold expand
  -- without a level there are no children, and otherwise each child has a level less
  cases hlevels : b.settings.selfLimit - b.level with
  | zero => rw [expandWithin, if_neg (not_isResolvable_of_levels hlevels)]
  | succ levels =>
    have hchild : ∀ p q, (b.child p q).settings.selfLimit - (b.child p q).level = levels := by
      intro p q
      simp only [child]
      omega
    simp only [expandWithin, hchild]

/-- The unit segments of the frames that are so many levels below a frame, where each level goes on
between the ends of the links. -/
def Frame.leaves (links : List (Point α × Point α)) : Nat → Frame α → List (Stroke α)
  | 0, F => [⟨F.apply .origin, F.apply .xUnit⟩]
  | levels + 1, F => links.flatMap fun ends => leaves links levels (F.derive ends.1 ends.2)

/-- The frame `G` is so many levels below the frame `F`. -/
inductive Frame.Reaches (links : List (Point α × Point α)) : Nat → Frame α → Frame α → Prop
  | itself {F} : Reaches links 0 F F
  | onward {levels F G ends} (mem : ends ∈ links)
      (reaches : Reaches links levels (F.derive ends.1 ends.2) G) : Reaches links (levels + 1) F G

/-- The branch and all that are reached from it above the last level for SELF are large enough to be
resolved. -/
def Branch.LargeBelow (b : Branch α) (links : List (Point α × Point α)) : Prop :=
  ∀ levels G, b.frame.Reaches links levels G → b.level + levels < b.settings.selfLimit →
    Scalar.le b.settings.resolution G.scale = true

variable {ε : Type} {b : Branch α} {links : List (Point α × Point α)} {ends : Point α × Point α}

/-- A child along a link is large enough, with a level less below it. -/
theorem Branch.LargeBelow.child (h : b.LargeBelow links) (mem : ends ∈ links) :
    (b.child ends.1 ends.2).LargeBelow links := by
  intro levels G hG hlevel
  refine h (levels + 1) G (.onward mem hG) ?_
  simp only [Branch.child] at hlevel
  omega

/-- A branch that is large enough is resolvable while a level is left. -/
theorem Branch.LargeBelow.isResolvable (h : b.LargeBelow links)
    (hlevel : b.level < b.settings.selfLimit) : b.isResolvable = true := by
  unfold Branch.isResolvable
  rw [h 0 b.frame .itself hlevel, decide_eq_true hlevel]
  rfl

/-- If the branch is large enough and SELF is still a line there, no level is left for SELF. -/
theorem Branch.LargeBelow.levels_eq_zero (h : b.LargeBelow links) (small : b.isResolvable = false) :
    b.settings.selfLimit - b.level = 0 := by
  by_contra hroom
  rw [h.isResolvable (by omega)] at small
  cases small

/-- A run succeeds and adds segments to the path. -/
def Run.Adds {β : Type} (r : Run α ε β) (c : Canvas α) (drawn : List (Stroke α)) : Prop :=
  ∃ v d events, r c = ⟨.ok v, d, events⟩ ∧ c.path.Adds d.path drawn

/-- Steps that succeed one after another add their segments in order. -/
theorem Run.adds_forM {step : Point α × Point α → Run α ε Unit}
    {drawn : Point α × Point α → List (Stroke α)}
    (h : ∀ ends ∈ links, ∀ c, (step ends).Adds c (drawn ends)) (c : Canvas α) :
    (links.forM step).Adds c (links.flatMap drawn) := by
  induction links generalizing c with
  | nil => exact ⟨(), c, [], rfl, .refl _⟩
  | cons ends rest ih =>
    obtain ⟨_, d, events, hfirst, hd⟩ := h ends List.mem_cons_self c
    obtain ⟨_, d', events', hrest, hd'⟩ :=
      ih (fun ends mem => h ends (List.mem_cons_of_mem _ mem)) d
    refine ⟨(), d', events ++ events', ?_, ?_⟩
    · show (step ends >>= fun _ => rest.forM step) c = _
      rw [Run.bind_ok hfirst, hrest]
    · rw [List.flatMap_cons]
      exact hd.trans hd'

/-- Where all branches are large enough, the expansion of a chain draws the leaves. -/
theorem Branch.adds_expand {points : List (Point α)} {levels : Nat}
    (h : b.LargeBelow (points.zip (points.drop 1)))
    (hlevels : b.settings.selfLimit - b.level = levels) {c : Canvas α}
    (hpen : c.path.pen = b.place .origin) :
    (b.expand points : Run α ε Unit).Adds c
      (b.frame.leaves (points.zip (points.drop 1)) levels) := by
  induction levels generalizing b c with
  | zero =>
    -- on the last level the unit segment is drawn, from where the pen is
    have hline := c.path.adds_lineTo (b.place .xUnit)
    rw [hpen] at hline
    rw [expand_eq, if_neg (not_isResolvable_of_levels hlevels)]
    exact ⟨(), _, [], rfl, hline⟩
  | succ levels ih =>
    rw [expand_eq, if_pos (h.isResolvable (by omega))]
    -- above it, a child for each link is entered and expanded
    refine Run.adds_forM (fun ends mem c => ?_) c
    let child := b.child ends.1 ends.2
    have hchild : child.settings.selfLimit - child.level = levels := by
      simp only [child, Branch.child]
      omega
    obtain ⟨_, d, events, hinner, hd⟩ :=
      ih (h.child mem) hchild (c := child.moveTo .origin c) (Path.pen_moveTo _ _)
    refine ⟨(), d, .derived child.level child.frame :: events, ?_, hd.of_moveTo⟩
    show (child.enter >>= fun _ => child.expand points) c = _
    rw [Branch.enter_bind, hinner]

end

/-! ## The program of a chain -/

variable {K : Type} [ScalarField K]

/-- To draw between the ends of the unit segment leaves the frame as it is. -/
theorem Frame.derive_origin_xUnit (F : Frame K) : F.derive .origin .xUnit = F := by
  rcases F with ⟨⟨_, _, _, _, _, _, _, _, _⟩⟩
  simp only [derive, andThen, ontoSegment, Matrix3.ontoSegment, Matrix3.mul, Matrix3.dot,
    Point.toPosition, Point.origin, Point.xUnit, Frame.mk.injEq, Matrix3.mk.injEq]
  refine ⟨?_, ?_, ?_, ?_, ?_, ?_, ?_, ?_, ?_⟩ <;> ring

variable {b : Branch K} {c : Canvas K} {f : Fractal K} {links part : List (Point K × Point K)}

/-- The unit segment of a branch that lies along a link is that link. -/
theorem Branch.leaves_zero_derive (b : Branch K) (p q : Point K) :
    (b.frame.derive p q).leaves links 0 = [b.stroke (p, q)] := by
  rw [stroke, ← b.place_child_origin p q, ← b.place_child_xUnit p q]
  rfl

/-- Where all branches are large enough, the lines that grow along some links are the leaves below
them. -/
theorem Branch.LargeBelow.lines_growth (h : b.LargeBelow links)
    (hpart : ∀ ends ∈ part, ends ∈ links) :
    (b.growth links part).lines = part.flatMap fun ends =>
      (b.frame.derive ends.1 ends.2).leaves links (b.settings.selfLimit - b.level) := by
  induction hlevels : b.settings.selfLimit - b.level generalizing b part with
  | zero =>
    -- on the last level a link is a line, which is the unit segment of the branch along it
    have small := Bool.eq_false_iff.2 (not_isResolvable_of_levels hlevels)
    induction part with
    | nil => rw [growth_nil]; rfl
    | cons ends part ih =>
      rw [List.forall_mem_cons] at hpart
      rw [growth_cons_of_small small, List.flatMap_cons, b.leaves_zero_derive, ← ih hpart.2]
      rfl
  | succ levels ihLevels =>
    have large := h.isResolvable (by omega)
    induction part with
    | nil => rw [growth_nil]; rfl
    | cons ends part ih =>
      rw [List.forall_mem_cons] at hpart
      -- on the child, all links of the chain have their turn, with a level less
      have hinner := ihLevels (h.child hpart.1) (fun _ mem => mem) (by
        simp only [Branch.child]
        omega)
      rw [growth_cons_of_isResolvable large, Growth.lines, List.flatMap_cons, ← ih hpart.2, hinner]
      rfl

/-- A child along the unit segment has the frame of its branch, and is large enough as well. -/
theorem Branch.LargeBelow.child_unit (h : b.LargeBelow links) :
    (b.child .origin .xUnit).LargeBelow links := by
  intro levels G hG hlevel
  simp only [Branch.child, Frame.derive_origin_xUnit] at hG hlevel
  exact h levels G hG (by omega)

/-- A chain that is drawn by name along the unit segment draws the leaves below the branch. -/
theorem Branch.adds_draw {name : String} {segment : Segment K} (span : Span)
    (hlevel : b.level < b.settings.selfLimit) (hlarge : b.LargeBelow links)
    (hname : b.lookup c name = .ok (.fractal f)) (hbody : Stmt.Follow f.body links)
    (hsegment : segment.Joins .origin .xUnit) :
    ∃ v d events, Execution b (.one (.draw name segment span)) c ⟨.ok v, d, events⟩ ∧
      c.path.Adds d.path (b.frame.leaves links (b.settings.selfLimit - b.level)) := by
  have hroom : b.level < b.depthLimit :=
    Nat.lt_of_lt_of_le hlevel (Settings.selfLimit_le_depthLimit _)
  have hends := hsegment.endpoints_eq (.draw name segment span) b c
  obtain ⟨v, d, events, hex, hadds⟩ := adds_growth_draw hroom hname hbody hends
  refine ⟨v, d, events, hex, ?_⟩
  have hchild : ((b.child .origin .xUnit).within f.scope).LargeBelow links := hlarge.child_unit
  rw [hchild.lines_growth fun _ mem => mem] at hadds
  -- the child has the frame of the branch and a level less, which the links of the chain make up
  -- for
  have hlevels : b.settings.selfLimit - b.level = b.settings.selfLimit - (b.level + 1) + 1 := by
    omega
  have hframe : ((b.child .origin .xUnit).within f.scope).frame = b.frame :=
    b.frame.derive_origin_xUnit
  rw [hframe] at hadds
  rw [hlevels]
  exact hadds

end SelfSimilar
