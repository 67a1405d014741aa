import Mathlib.Data.List.Chain
import SelfSimilar.Proofs.Path.Replay

/-!
# Curves

A curve is a row of segments without a gap: each begins where the one before it has ended. A path
goes on with a curve if the segments that are drawn after those of the path are one.

* `Stroke.Connect`: segments that lead from one place to another
* `Path.GoesOn.line`, `Path.GoesOn.trans`: a line is a curve, and curves are drawn one after another
-/

namespace SelfSimilar

variable {α : Type} {start middle stop : Position α}

/-- The segments lead from `start` to `stop`. There is at least one. -/
structure Stroke.Connect (start stop : Position α) (drawn : List (Stroke α)) : Prop where
  /-- The first segment begins at the start. -/
  head_eq : drawn.head?.map Stroke.start = some start
  /-- Each segment begins where the one before it has ended. -/
  isChain : drawn.IsChain fun s t => t.start = s.stop
  /-- The last segment ends at the stop. -/
  last_eq : drawn.getLast?.map Stroke.stop = some stop

/-- One segment leads from its start to its stop. -/
theorem Stroke.connect_singleton (start stop : Position α) : Connect start stop [⟨start, stop⟩] :=
  ⟨rfl, .singleton _, rfl⟩

/-- Segments that lead to a place and segments that lead on from there. -/
theorem Stroke.Connect.append {drawn later : List (Stroke α)} (h : Connect start middle drawn)
    (h' : Connect middle stop later) : Connect start stop (drawn ++ later) := by
  -- neither list is empty, so both have a first and a last segment
  obtain ⟨s, hs, hstart⟩ := Option.map_eq_some_iff.1 h.head_eq
  obtain ⟨l, hl, hmiddle⟩ := Option.map_eq_some_iff.1 h.last_eq
  obtain ⟨s', hs', hmiddle'⟩ := Option.map_eq_some_iff.1 h'.head_eq
  obtain ⟨l', hl', hstop⟩ := Option.map_eq_some_iff.1 h'.last_eq
  refine ⟨?_, h.isChain.append h'.isChain fun x hx y hy => ?_, ?_⟩
  · rw [List.head?_append, hs, Option.some_or, Option.map_some, hstart]
  · -- the one gap that there could be is at the middle
    cases hl.symm.trans hx
    cases hs'.symm.trans hy
    rw [hmiddle, hmiddle']
  · rw [List.getLast?_append, hl', Option.some_or, Option.map_some, hstop]

variable [Scalar α] {p q r : Path α}

/-- The path `q` is the path `p` and after it a curve that leads from `start` to `stop`. -/
def Path.GoesOn (p q : Path α) (start stop : Position α) : Prop :=
  ∃ drawn, q.segments.toList = p.segments.toList ++ drawn ∧ Stroke.Connect start stop drawn

namespace Path

/-- A line is a curve of one segment. -/
theorem GoesOn.line (p : Path α) (start stop : Position α) :
    p.GoesOn ((p.moveTo start).lineTo stop) start stop :=
  ⟨_, by simp, Stroke.connect_singleton start stop⟩

/-- A curve that is drawn after another one, from where that one ends. -/
theorem GoesOn.trans (h : p.GoesOn q start middle) (h' : q.GoesOn r middle stop) :
    p.GoesOn r start stop := by
  obtain ⟨drawn, hq, hdrawn⟩ := h
  obtain ⟨later, hr, hlater⟩ := h'
  exact ⟨drawn ++ later, by rw [hr, hq, List.append_assoc], hdrawn.append hlater⟩

/-- To move the pen first makes no difference: a curve begins where it begins. -/
theorem GoesOn.of_moveTo {place : Position α} (h : (p.moveTo place).GoesOn q start stop) :
    p.GoesOn q start stop := by
  obtain ⟨drawn, hq, hdrawn⟩ := h
  exact ⟨drawn, by rw [hq, segments_moveTo], hdrawn⟩

end Path

end SelfSimilar
