import SelfSimilar.Proofs.Execution.Chain
import SelfSimilar.Proofs.Execution.Settings
import SelfSimilar.Proofs.Path.Growth
import SelfSimilar.Proofs.Scalar.Order

/-!
# What grows out of SELF

A body that draws SELF between points that are written out does not fail, and what it draws is the
growth of its copies: a line for each copy whose branch is too small or too deep, and the whole body
again inside of the others. Finer settings only make more branches resolvable, and where they do, a
line becomes a copy with something inside. The frames of a growth do not depend on the settings.

* `Branch.growth`: the copies that a body of such statements comes to
* `Execution.adds_growth`: its lines are what is drawn
* `Branch.cutBack_growth`: under finer settings it is finer
-/

namespace SelfSimilar

variable {α : Type}

/-- The statements draw SELF, each between the ends of a link. -/
def Stmt.Follow (body : List (Stmt α)) (links : List (Point α × Point α)) : Prop :=
  List.Forall₂ (fun s ends => ∃ segment span,
    s = .drawSelf segment span ∧ segment.Joins ends.1 ends.2) body links

variable [Scalar α]

namespace Branch

/-- The segment on the screen between two points. -/
def stroke (b : Branch α) (ends : Point α × Point α) : Stroke α := ⟨b.place ends.1, b.place ends.2⟩

/-- The copies of a fractal, whose body draws it along the links, that are drawn along some of them,
with so many levels left for SELF. -/
def growthWithin (links : List (Point α × Point α)) :
    Nat → Branch α → List (Point α × Point α) → Growth α
  | 0, b, part => part.foldr (fun ends => .line (b.stroke ends)) .nil
  | levels + 1, b, part => part.foldr (fun ends =>
      if b.isResolvable then
        .fractal (b.stroke ends) (growthWithin links levels (b.child ends.1 ends.2) links)
      else .line (b.stroke ends)) .nil

/-- The copies that are drawn along some of the links of a fractal. -/
def growth (b : Branch α) (links part : List (Point α × Point α)) : Growth α :=
  growthWithin links (b.settings.selfLimit - b.level) b part

variable {b : Branch α} {links part : List (Point α × Point α)} {ends : Point α × Point α}
  {segment : Segment α} {p q : Point α}

/-! ## The growth of a branch -/

/-- Without a level for SELF, no branch is resolvable. -/
theorem not_isResolvable_of_levels (h : b.settings.selfLimit - b.level = 0) :
    ¬ b.isResolvable = true := by
  intro hlarge
  have hlimit := level_lt_of_isResolvable hlarge
  omega

/-- Where SELF is a fractal, its branch has one level less for SELF. -/
theorem levels_eq_of_isResolvable (large : b.isResolvable = true) :
    b.settings.selfLimit - b.level = b.settings.selfLimit - (b.level + 1) + 1 := by
  have hlimit := level_lt_of_isResolvable large
  omega

/-- Where there is no link, nothing grows. -/
@[simp] theorem growth_nil (b : Branch α) (links : List (Point α × Point α)) :
    b.growth links [] = .nil := by
  unfold growth
  cases b.settings.selfLimit - b.level <;> rfl

/-- Where the branch is too small or too deep, a copy is a line. -/
theorem growth_cons_of_small (small : b.isResolvable = false) :
    b.growth links (ends :: part) = .line (b.stroke ends) (b.growth links part) := by
  unfold growth
  cases b.settings.selfLimit - b.level with
  | zero => rfl
  | succ levels => simp [growthWithin, small]

/-- Where the branch is resolvable, a copy is the whole fractal again, on a child. -/
theorem growth_cons_of_isResolvable (large : b.isResolvable = true) :
    b.growth links (ends :: part) =
      .fractal (b.stroke ends) ((b.child ends.1 ends.2).growth links links)
        (b.growth links part) := by
  have hchild : (b.child ends.1 ends.2).settings.selfLimit - (b.child ends.1 ends.2).level =
      b.settings.selfLimit - (b.level + 1) := rfl
  unfold growth
  rw [hchild, levels_eq_of_isResolvable large]
  simp [growthWithin, large]

/-- The first link is drawn before the others. -/
theorem lines_growth_cons (b : Branch α) (links part : List (Point α × Point α))
    (ends : Point α × Point α) :
    (b.growth links (ends :: part)).lines =
      (b.growth links [ends]).lines ++ (b.growth links part).lines := by
  cases large : b.isResolvable with
  | false => simp [growth_cons_of_small large, Growth.lines]
  | true => simp [growth_cons_of_isResolvable large, Growth.lines]

/-- Where there are links, something is drawn. -/
theorem lines_growth_ne_nil (hlinks : links ≠ []) (hpart : part ≠ []) :
    (b.growth links part).lines ≠ [] := by
  obtain ⟨ends, rest, rfl⟩ := List.exists_cons_of_ne_nil hpart
  -- on the last level the first link is a line, and before it is drawn as the links inside of it
  induction hlevels : b.settings.selfLimit - b.level generalizing b ends rest with
  | zero =>
    rw [growth_cons_of_small (Bool.eq_false_iff.2 (not_isResolvable_of_levels hlevels))]
    simp [Growth.lines]
  | succ levels ih =>
    cases large : b.isResolvable with
    | false =>
      rw [growth_cons_of_small large]
      simp [Growth.lines]
    | true =>
      obtain ⟨first, others, rfl⟩ := List.exists_cons_of_ne_nil hlinks
      have hinner := ih (b := b.child ends.1 ends.2) first others (by simp) (by
        simp only [child]
        omega)
      rw [growth_cons_of_isResolvable large]
      simp [Growth.lines, hinner]

/-! ## Drawing a growth -/

/-- A line adds one segment. -/
theorem adds_lined (h : segment.Joins p q) (b : Branch α) (c : Canvas α) :
    c.path.Adds (b.lined segment (p, q) c).path [b.stroke (p, q)] := by
  obtain ⟨_, _, rfl⟩ := h
  have hline := (c.path.moveTo (b.place p)).adds_lineTo (b.place q)
  rw [Path.pen_moveTo] at hline
  exact hline.of_moveTo

end Branch

variable {b : Branch α} {t : Task α} {c : Canvas α} {o : Outcome α Failure (Value α)}
  {f : Fractal α} {links part : List (Point α × Point α)} {fine : Settings α}

/-- Inside a fractal whose body draws it along links, the statements for some of the links draw the
lines of their growth, and do not fail. -/
theorem Execution.adds_growth (h : Execution b t c o) (hself : c.current = .ok f)
    (hbody : Stmt.Follow f.body links) (ht : Stmt.Follow t.statements part) :
    (∃ v, o.result = .ok v) ∧ c.path.Adds o.canvas.path (b.growth links part).lines := by
  -- the body that SELF runs is that of the fractal again, with all of its links
  induction h generalizing part with
  -- a fractal is active and the points are written out, so there is nothing that could not be read
  | selfUnread read =>
    obtain _ | ⟨⟨_, _, ⟨⟩, hjoins⟩, _ | _⟩ := ht
    rw [Stmt.selfDraw_eq_ok.2 ⟨hself, hjoins.endpoints_eq _ _ _⟩] at read
    cases read
  | @selfLine b c _ _ _ _ read small =>
    obtain _ | ⟨⟨_, _, ⟨⟩, hjoins⟩, _ | _⟩ := ht
    cases (hjoins.endpoints_eq _ _ _).symm.trans (Stmt.selfDraw_eq_ok.1 read).2
    rw [Branch.growth_cons_of_small small, Branch.growth_nil]
    exact ⟨⟨_, rfl⟩, Branch.adds_lined hjoins b c⟩
  | @self b c _ _ _ _ child o read large derived inner ih =>
    obtain _ | ⟨⟨_, _, ⟨⟩, hjoins⟩, _ | _⟩ := ht
    obtain ⟨hcurrent, hends⟩ := Stmt.selfDraw_eq_ok.1 read
    cases hself.symm.trans hcurrent
    cases (hjoins.endpoints_eq _ _ _).symm.trans hends
    -- on the child, all links have their turn
    obtain ⟨hok, hadds⟩ := ih hself hbody
    rw [derived] at hadds
    rw [Branch.growth_cons_of_isResolvable large, Branch.growth_nil, Growth.lines, Growth.lines,
      List.append_nil]
    exact ⟨hok, hadds.of_moveTo⟩
  | nil =>
    cases ht
    rw [Branch.growth_nil]
    exact ⟨⟨_, rfl⟩, .refl _⟩
  | fail _ ih =>
    -- none of the statements fails
    obtain _ | ⟨hs, _⟩ := ht
    obtain ⟨⟨_, hok⟩, _⟩ := ih hself (.cons hs .nil)
    cases hok
  | @cons b c _ _ _ _ _ _ _ first _ ihFirst ihLater =>
    obtain _ | ⟨hs, hrest⟩ := ht
    obtain ⟨_, hfirst⟩ := ihFirst hself (.cons hs .nil)
    have hself' := hself
    rw [Canvas.current_eq_ok, ← first.active_eq, ← Canvas.current_eq_ok] at hself'
    obtain ⟨hok, hlater⟩ := ihLater hself' hrest
    rw [Branch.lines_growth_cons]
    exact ⟨hok, hfirst.trans hlater⟩
  | _ => obtain _ | ⟨⟨_, _, ⟨⟩, _⟩, _⟩ := ht

/-- Where a level is left, a fractal is drawn by name as the growth of its links. -/
theorem Branch.adds_growth_draw {name : String} {segment : Segment α} {span : Span} {p q : Point α}
    (hroom : b.level < b.depthLimit) (hname : b.lookup c name = .ok (.fractal f))
    (hbody : Stmt.Follow f.body links)
    (hends : Stmt.endpoints (.draw name segment span) segment b c = .ok (p, q)) :
    ∃ v d events, Execution b (.one (.draw name segment span)) c ⟨.ok v, d, events⟩ ∧
      c.path.Adds d.path (((b.child p q).within f.scope).growth links links).lines := by
  have hdraws := Draws.named (Stmt.namedDraw_eq_ok.2 ⟨hends, hname⟩) hroom rfl
  let child := (b.child p q).within f.scope
  have hinner := execution_perform child (.all .origin f.body) ((child.moveTo .origin c).start f)
  obtain ⟨⟨v, hok⟩, hadds⟩ := hinner.adds_growth rfl hbody hbody
  have hex := hdraws.execution hinner
  rw [Outcome.above, hok] at hex
  exact ⟨v, _, _, hex, hadds.of_moveTo⟩

/-! ## Finer settings -/

/-- The resolution is not greater, and SELF may be drawn as deep or deeper. -/
structure Settings.Finer (fine coarse : Settings α) : Prop where
  resolution_le : Scalar.le fine.resolution coarse.resolution = true
  maxDepth_le : coarse.maxDepth ≤ fine.maxDepth

/-- Finer settings leave at least as many levels for SELF. -/
theorem Settings.Finer.selfLimit_le {coarse : Settings α} (h : fine.Finer coarse) :
    coarse.selfLimit ≤ fine.selfLimit := by
  have hdepth := h.maxDepth_le
  simp only [selfLimit]
  omega

/-- What is resolvable is so under finer settings: its frame is the same. -/
theorem Branch.isResolvable_under (htrans : Scalar.LeTransitive α) (hfine : fine.Finer b.settings)
    (large : b.isResolvable = true) : (b.under fine).isResolvable = true := by
  have hlimit := level_lt_of_isResolvable large
  have hle := hfine.selfLimit_le
  rw [isResolvable, Bool.and_eq_true] at large
  -- the scale is at least the old resolution, and that is at least the new one
  have hscale := htrans _ _ _ hfine.resolution_le large.1
  have hroom : b.level < fine.selfLimit := by omega
  rw [isResolvable, Bool.and_eq_true]
  exact ⟨hscale, decide_eq_true hroom⟩

/-- The growth of a branch is finer if what is inside of its copies is. -/
theorem Branch.cutBack_growth_of_inside (htrans : Scalar.LeTransitive α)
    (hfine : fine.Finer b.settings) (hlinks : links ≠ [])
    (hinside : b.isResolvable = true → ∀ p q, ((b.child p q).growth links links).CutBack
      (((b.child p q).under fine).growth links links))
    (part : List (Point α × Point α)) :
    (b.growth links part).CutBack ((b.under fine).growth links part) := by
  induction part with
  | nil =>
    rw [growth_nil, growth_nil]
    exact .nil
  | cons ends part ih =>
    cases large : b.isResolvable with
    | true =>
      rw [growth_cons_of_isResolvable large,
        growth_cons_of_isResolvable (isResolvable_under htrans hfine large)]
      exact .fractal (hinside large ends.1 ends.2) ih
    -- a line stays a line, or it becomes a copy with something inside
    | false =>
      rw [growth_cons_of_small large]
      cases large' : (b.under fine).isResolvable with
      | true =>
        rw [growth_cons_of_isResolvable large']
        exact .cut (lines_growth_ne_nil hlinks hlinks) ih
      | false =>
        rw [growth_cons_of_small large']
        exact .line ih

/-- Under finer settings the growth is finer. -/
theorem Branch.cutBack_growth (htrans : Scalar.LeTransitive α) (hfine : fine.Finer b.settings)
    (hlinks : links ≠ []) (part : List (Point α × Point α)) :
    (b.growth links part).CutBack ((b.under fine).growth links part) := by
  induction hlevels : b.settings.selfLimit - b.level generalizing b part with
  -- without a level no branch is resolvable, so there is nothing inside
  | zero =>
    exact cutBack_growth_of_inside htrans hfine hlinks
      (fun large => absurd large (not_isResolvable_of_levels hlevels)) part
  | succ levels ih =>
    refine cutBack_growth_of_inside htrans hfine hlinks (fun _ p q => ?_) part
    -- a child has the same settings and a level less
    refine ih (b := b.child p q) hfine links ?_
    simp only [child]
    omega

end SelfSimilar
