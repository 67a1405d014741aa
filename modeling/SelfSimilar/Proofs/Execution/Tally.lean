import Mathlib.Algebra.Ring.GeomSum
import SelfSimilar.Proofs.Execution.Expansion
import SelfSimilar.Proofs.Path.Extension

/-!
# How much a figure draws

The body of a figure draws copies of the figure and lines, all between points that are written out.
On each level all of its lines are drawn, and each copy is one more level, or a line on the last
one. So the lines are counted by a recurrence over the levels for SELF, and so are the branches that
are derived.

* `Stmt.Figure`: bodies of copies and lines, in any order
* `Figure.lines`, `Figure.branches`: the sums that solve the recurrences
* `Execution.tallies`: how much is drawn inside a figure
* `Branch.tallies_draw`: how much is drawn by name
-/

namespace SelfSimilar

/-- The statements draw SELF between the points of each of the pairs `copies`, and so many lines, in
any order. All points are written out. -/
inductive Stmt.Figure {α : Type} : List (Stmt α) → List (Point α × Point α) → Nat → Prop
  | nil : Figure [] [] 0
  | copy {segment span p q body copies lines} (joins : segment.Joins p q)
      (rest : Figure body copies lines) :
      Figure (.drawSelf segment span :: body) ((p, q) :: copies) lines
  | line {segment span p q body copies lines} (joins : segment.Joins p q)
      (rest : Figure body copies lines) :
      Figure (.line segment span :: body) copies (lines + 1)

/-- The first statement of a figure and the others each have their part of the figure. -/
theorem Stmt.Figure.split {α : Type} {s : Stmt α} {rest : List (Stmt α)}
    {copies : List (Point α × Point α)} {lines : Nat} (h : Figure (s :: rest) copies lines) :
    ∃ copies₁ copies₂ lines₁ lines₂, Figure [s] copies₁ lines₁ ∧ Figure rest copies₂ lines₂ ∧
      copies = copies₁ ++ copies₂ ∧ lines = lines₁ + lines₂ := by
  cases h with
  | copy joins rest => exact ⟨[_], _, 0, lines, .copy joins .nil, rest, rfl, (Nat.zero_add _).symm⟩
  | @line _ _ _ _ _ _ lines joins rest =>
    exact ⟨[], _, 1, lines, .line joins .nil, rest, rfl, Nat.add_comm _ _⟩

/-! ## The sums -/

namespace Figure

open Finset

/-- How many lines a copy of a figure of `k` copies and `m` lines comes to, so many levels above the
last one. -/
def lines (k m levels : Nat) : Nat := m * ∑ i ∈ range levels, k ^ i + k ^ levels

/-- How many branches a copy of a figure of `k` copies is drawn on, so many levels above the last
one. -/
def branches (k levels : Nat) : Nat := ∑ i ∈ range levels, k ^ i

@[simp] theorem lines_zero (k m : Nat) : lines k m 0 = 1 := by simp [lines]

/-- A copy draws the lines of the figure and its copies one level deeper. -/
theorem lines_succ (k m levels : Nat) : lines k m (levels + 1) = m + k * lines k m levels := by
  -- `k` times the sum of the powers up to one level, and one, is the sum up to the next level
  rw [lines, lines, geom_sum_succ, pow_succ]
  ring

@[simp] theorem branches_zero (k : Nat) : branches k 0 = 0 := rfl

/-- A copy has a branch of its own, and its copies have theirs. -/
theorem branches_succ (k levels : Nat) : branches k (levels + 1) = 1 + k * branches k levels := by
  rw [branches, branches, geom_sum_succ, Nat.add_comm]

end Figure

/-! ## What is counted -/

/-- Whether the event is that of a branch that is derived. -/
def Event.isDerived {α : Type} : Event α → Bool
  | .derived .. => true
  | _ => false

variable {α : Type} [Scalar α]

/-- The path `q` is the path `p` with so many lines and moves after it. -/
def Path.Grows (p q : Path α) (lines moves : Nat) : Prop :=
  ∃ added : List (Command α), q = p.extend added ∧ added.countP Command.draws = lines ∧
    added.countP (fun command => !command.draws) = moves

/-- The outcome is that of work, begun on the canvas `c`, that has succeeded and has drawn so many
lines and derived so many branches. The pen was moved to the start of each line and to the origin of
each branch. -/
structure Outcome.Tallies (o : Outcome α Failure (Value α)) (c : Canvas α) (lines branches : Nat) :
    Prop where
  ok : ∃ v, o.result = .ok v
  grows : c.path.Grows o.canvas.path lines (lines + branches)
  derived : o.events.countP Event.isDerived = branches

section

variable {p q r : Path α} {l l' m m' : Nat}

theorem Path.Grows.refl (p : Path α) : p.Grows p 0 0 := ⟨[], rfl, rfl, rfl⟩

/-- What is added one after another adds up. -/
theorem Path.Grows.trans (h : p.Grows q l m) (h' : q.Grows r l' m') :
    p.Grows r (l + l') (m + m') := by
  obtain ⟨first, rfl, rfl, rfl⟩ := h
  obtain ⟨later, rfl, rfl, rfl⟩ := h'
  exact ⟨first ++ later, (p.extend_append first later).symm, List.countP_append, List.countP_append⟩

theorem Path.grows_moveTo (p : Path α) (place : Position α) : p.Grows (p.moveTo place) 0 1 :=
  ⟨[.moveTo place], rfl, rfl, rfl⟩

theorem Path.grows_lineTo (p : Path α) (place : Position α) : p.Grows (p.lineTo place) 1 0 :=
  ⟨[.lineTo place], rfl, rfl, rfl⟩

end

variable {b child : Branch α} {t : Task α} {c d : Canvas α} {o : Outcome α Failure (Value α)}
  {f : Fractal α} {s : Stmt α} {copies part : List (Point α × Point α)} {p q : Point α}
  {segment : Segment α} {lines lines' l l' n n' : Nat} {events : List (Event α)} {v : Value α}

/-- A line between points that are written out is a move and a line. -/
theorem Branch.grows_lined (h : segment.Joins p q) (b : Branch α) (c : Canvas α) :
    c.path.Grows (b.lined segment (p, q) c).path 1 1 := by
  obtain ⟨_, _, rfl⟩ := h
  exact (c.path.grows_moveTo (b.place p)).trans
    ((c.path.moveTo (b.place p)).grows_lineTo (b.place q))

/-- What is drawn one after another adds up. -/
theorem Outcome.Tallies.cons (h : Outcome.Tallies ⟨.ok v, d, events⟩ c l n)
    (h' : o.Tallies d l' n') :
    Outcome.Tallies ⟨o.result, o.canvas, events ++ o.events⟩ c (l + l') (n + n') where
  ok := h'.ok
  grows := by
    have hgrows := h.grows.trans h'.grows
    rwa [Nat.add_add_add_comm] at hgrows
  derived := by rw [List.countP_append, h.derived, h'.derived]

/-- A statement that runs a body draws what the body does, on one more branch. -/
theorem Outcome.Tallies.above (hdraws : Draws b c s f child d) (h : o.Tallies d l n) :
    (o.above child c).Tallies c l (1 + n) where
  ok := h.ok
  grows := by
    -- the pen goes to the origin of the child first
    have hgrows := (c.path.grows_moveTo (child.place .origin)).trans (hdraws.path_eq ▸ h.grows)
    rwa [Nat.zero_add, Nat.add_left_comm] at hgrows
  derived := by
    show List.countP Event.isDerived (_ :: o.events) = _
    rw [List.countP_cons_of_pos rfl, h.derived, Nat.add_comm]

/-! ## Drawing a figure -/

/-- Inside a figure, some of its copies and lines are drawn, each copy with as many lines and
branches as belong to the levels that are left for SELF. -/
theorem Execution.tallies (h : Execution b t c o) (hself : c.current = .ok f)
    (hbody : Stmt.Figure f.body copies lines) (hlarge : b.LargeBelow copies)
    (hpart : ∀ ends ∈ part, ends ∈ copies) (ht : Stmt.Figure t.statements part lines') :
    o.Tallies c
      (lines' + part.length *
        Figure.lines copies.length lines (b.settings.selfLimit - b.level))
      (part.length * Figure.branches copies.length (b.settings.selfLimit - b.level)) := by
  -- the body that SELF runs is that of the figure again, with all of its copies and lines
  induction h generalizing part lines' with
  -- the points are written out, so the ends can be read
  | selfUnread read =>
    obtain _ | ⟨hjoins, _⟩ := ht
    rw [Stmt.selfDraw_eq_ok.2 ⟨hself, hjoins.endpoints_eq _ _ _⟩] at read
    cases read
  | @selfLine b c _ _ _ _ read small =>
    obtain _ | ⟨hjoins, _ | _⟩ := ht
    cases (hjoins.endpoints_eq _ _ _).symm.trans (Stmt.selfDraw_eq_ok.1 read).2
    -- a small branch that is large enough is one on the last level
    rw [hlarge.levels_eq_zero small]
    exact ⟨⟨_, rfl⟩, by simpa using Branch.grows_lined hjoins b c, by simp [Event.isDerived]⟩
  | @self b c _ _ _ _ child o read large derived inner ih =>
    have hdraws := Draws.self read large derived
    -- the outcome is unique, so it is also the one that `Draws` tells of
    have hend := (hdraws.execution inner).eq_perform.symm.trans
      (Execution.self read large derived inner).eq_perform
    obtain _ | ⟨hjoins, _ | _⟩ := ht
    obtain ⟨hcurrent, hends⟩ := Stmt.selfDraw_eq_ok.1 read
    cases hself.symm.trans hcurrent
    cases (hjoins.endpoints_eq _ _ _).symm.trans hends
    -- on the child, the whole figure has its turn, with a level less
    have hchild : child.LargeBelow copies := derived ▸ hlarge.child (hpart _ List.mem_cons_self)
    have hinner := ih hself hchild (fun _ mem => mem) hbody
    rw [hdraws.settings_eq, hdraws.level_eq] at hinner
    rw [← hend, Branch.levels_eq_of_isResolvable large, Figure.lines_succ, Figure.branches_succ]
    simpa using hinner.above hdraws
  | lineUnread read =>
    obtain _ | _ | ⟨hjoins, _⟩ := ht
    cases (hjoins.endpoints_eq _ _ _).symm.trans read
  | @line b c _ _ _ read =>
    obtain _ | _ | ⟨hjoins, _ | _⟩ := ht
    cases (hjoins.endpoints_eq _ _ _).symm.trans read
    exact ⟨⟨_, rfl⟩, by simpa using Branch.grows_lined hjoins b c, by simp⟩
  | @nil b c sum =>
    cases ht
    exact ⟨⟨_, rfl⟩, by simpa using Path.Grows.refl c.path, by simp⟩
  | fail _ ih =>
    -- no statement of a figure fails
    obtain ⟨copies₁, copies₂, _, _, hs, _, rfl, _⟩ := ht.split
    have hfirst := ih hself hlarge (fun _ mem => hpart _ (List.mem_append_left _ mem)) hs
    obtain ⟨_, hok⟩ := hfirst.ok
    cases hok
  -- the first statement and the others each count their own copies and lines
  | cons first _ ihFirst ihLater =>
    obtain ⟨copies₁, copies₂, lines₁, lines₂, hs, hrest, rfl, rfl⟩ := ht.split
    have hfirst := ihFirst hself hlarge (fun _ mem => hpart _ (List.mem_append_left _ mem)) hs
    have hself' := hself
    rw [Canvas.current_eq_ok, ← first.active_eq, ← Canvas.current_eq_ok] at hself'
    have hlater :=
      ihLater hself' hlarge (fun _ mem => hpart _ (List.mem_append_right _ mem)) hrest
    have hboth := hfirst.cons hlater
    rw [List.length_append, Nat.add_mul, Nat.add_mul]
    rwa [Nat.add_add_add_comm] at hboth
  | _ => obtain _ | _ | _ := ht

/-- Where a level is left, a figure is drawn by name with all of its copies and lines on a branch of
its own. -/
theorem Branch.tallies_draw {name : String} {span : Span} (hroom : b.level < b.depthLimit)
    (hname : b.lookup c name = .ok (.fractal f)) (hbody : Stmt.Figure f.body copies lines)
    (hends : Stmt.endpoints (.draw name segment span) segment b c = .ok (p, q))
    (hlarge : (b.child p q).LargeBelow copies) :
    (b.perform (.one (.draw name segment span)) c).Tallies c
      (Figure.lines copies.length lines (b.settings.selfLimit - (b.level + 1) + 1))
      (Figure.branches copies.length (b.settings.selfLimit - (b.level + 1) + 1)) := by
  have hdraws := Draws.named (Stmt.namedDraw_eq_ok.2 ⟨hends, hname⟩) hroom rfl
  have hinner := execution_perform ((b.child p q).within f.scope) (.all .origin f.body)
    ((((b.child p q).within f.scope).moveTo .origin c).start f)
  -- inside the body the figure is drawn whole, on one level less
  have htallies := hinner.tallies rfl hbody hlarge (fun _ mem => mem) hbody
  rw [(hdraws.execution hinner).eq_perform, Figure.lines_succ, Figure.branches_succ]
  exact htallies.above hdraws

end SelfSimilar
