import Mathlib.Data.List.Forall2
import SelfSimilar.Path.Basic

/-!
# Growths

A fractal that draws itself is drawn as copies, and each copy is a line or copies again. A `Growth`
is the tree of these copies. It is finer than another one that is got by cutting copies back to
lines. Each line that is left then stands for the lines that were inside of it, so a finer growth
has more lines.

* `Growth.lines`: the lines of a growth, in the order in which they are drawn
* `Growth.CutBack.blocks`: the lines of the finer growth, one block for each line of the other one
* `Growth.CutBack.length_lines_le`: there are at least as many
-/

namespace SelfSimilar

/-- Copies of a fractal, one after another, each with the segment between its ends. -/
inductive Growth (α : Type) where
  /-- No more copies. -/
  | nil
  /-- A copy that is drawn as a line, and the copies after it. -/
  | line (stroke : Stroke α) (rest : Growth α)
  /-- A copy that is drawn as the copies inside of it, and the copies after it. -/
  | fractal (stroke : Stroke α) (inner rest : Growth α)

namespace Growth

variable {α : Type}

/-- The lines of a growth, in order. -/
def lines : Growth α → List (Stroke α)
  | nil => []
  | line stroke rest => stroke :: rest.lines
  | fractal _ inner rest => inner.lines ++ rest.lines

/-- A growth has a copy between the ends of the segment, and the copy comes to the lines. -/
inductive Has : Growth α → Stroke α → List (Stroke α) → Prop
  | line {s rest} : Has (.line s rest) s [s]
  | fractal {s inner rest} : Has (.fractal s inner rest) s inner.lines
  | inside {s inner rest s' drawn} (has : Has inner s' drawn) : Has (.fractal s inner rest) s' drawn
  | afterLine {s rest s' drawn} (has : Has rest s' drawn) : Has (.line s rest) s' drawn
  | afterFractal {s inner rest s' drawn} (has : Has rest s' drawn) :
      Has (.fractal s inner rest) s' drawn

/-- `coarse.CutBack fine`: the growth `coarse` is the growth `fine` where some copies, with all that
is inside of them, are cut back to lines. There is something inside of each of them. -/
inductive CutBack : Growth α → Growth α → Prop
  | nil : CutBack .nil .nil
  | line {s rest rest'} (later : CutBack rest rest') : CutBack (.line s rest) (.line s rest')
  | fractal {s inner inner' rest rest'} (inside : CutBack inner inner')
      (later : CutBack rest rest') :
      CutBack (.fractal s inner rest) (.fractal s inner' rest')
  | cut {s inner rest rest'} (filled : inner.lines ≠ []) (later : CutBack rest rest') :
      CutBack (.line s rest) (.fractal s inner rest')

variable {coarse fine : Growth α}

/-- A growth has at least as many lines as one that is got by cutting it back. -/
theorem CutBack.length_lines_le (h : coarse.CutBack fine) :
    coarse.lines.length ≤ fine.lines.length := by
  induction h with
  | nil => exact Nat.le_refl _
  | line _ ih => simpa [lines] using ih
  | fractal _ _ ihInside ihLater =>
    simp only [lines, List.length_append]
    omega
  | cut filled _ ih =>
    -- one line stands for what was inside, and that is not nothing
    have hinner := List.length_pos_iff.2 filled
    simp only [lines, List.length_cons, List.length_append]
    omega

/-- The lines of the finer growth are blocks, one for each line of the other growth and in the same
order. The line is a copy of the finer growth, and its block is what that copy comes to. -/
theorem CutBack.blocks (h : coarse.CutBack fine) :
    ∃ blocks, fine.lines = List.flatten blocks ∧ List.Forall₂ fine.Has coarse.lines blocks ∧
      ∀ block ∈ blocks, block ≠ [] := by
  induction h with
  | nil => exact ⟨[], rfl, .nil, by simp⟩
  -- a line that is left is a block of its own
  | line _ ih =>
    obtain ⟨blocks, hlines, hblocks, hfilled⟩ := ih
    refine ⟨[_] :: blocks, by simp [lines, hlines],
      .cons .line (hblocks.imp fun _ _ => .afterLine), ?_⟩
    exact List.forall_mem_cons.2 ⟨by simp, hfilled⟩
  -- the blocks of what is inside, and then those of the copies after it
  | @fractal s inner inner' rest rest' _ _ ihInside ihLater =>
    obtain ⟨blocks, hlines, hblocks, hfilled⟩ := ihInside
    obtain ⟨blocks', hlines', hblocks', hfilled'⟩ := ihLater
    refine ⟨blocks ++ blocks', by simp [lines, hlines, hlines'], ?_, ?_⟩
    · -- what is inside comes first
      exact List.rel_append (hblocks.imp fun _ _ => .inside) (hblocks'.imp fun _ _ => .afterFractal)
    · exact List.forall_mem_append.2 ⟨hfilled, hfilled'⟩
  | @cut s inner rest rest' filled _ ih =>
    -- the line stands for all that is inside of the copy
    obtain ⟨blocks, hlines, hblocks, hfilled⟩ := ih
    refine ⟨inner.lines :: blocks, by simp [lines, hlines],
      .cons .fractal (hblocks.imp fun _ _ => .afterFractal), ?_⟩
    exact List.forall_mem_cons.2 ⟨filled, hfilled⟩

end Growth

end SelfSimilar
