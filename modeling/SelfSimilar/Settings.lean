import SelfSimilar.Scalar.Basic

/-!
# Settings

When a fractal that draws itself stops doing so, and how deep fractals may be drawn by name.
-/

namespace SelfSimilar

/-- What bounds a drawing. -/
structure Settings (α : Type) where
  /-- The length on the screen of the unit segment below which SELF is drawn as a line. -/
  resolution : α
  /-- How deep SELF is drawn as a fractal, and not as a line. -/
  maxDepth : Nat
deriving DecidableEq, Repr

namespace Settings

/-- How many levels beyond `maxDepth` a fractal may be drawn by name. -/
def margin : Nat := 64

/-- No limit lies above this one. -/
def greatestLimit : Nat := 4294967295

/-- The level from which on SELF is drawn as a line. -/
def selfLimit {α : Type} (s : Settings α) : Nat := min s.maxDepth greatestLimit

/-- The level from which on no fractal is drawn by name. -/
def depthLimit {α : Type} (s : Settings α) : Nat := min (s.maxDepth + margin) greatestLimit

/-- SELF stops before draws by name do. -/
theorem selfLimit_le_depthLimit {α : Type} (s : Settings α) : s.selfLimit ≤ s.depthLimit := by
  simp only [selfLimit, depthLimit]
  omega

/-- A greater `maxDepth` lets fractals be drawn deeper. -/
theorem depthLimit_mono {α : Type} {s s' : Settings α} (h : s.maxDepth ≤ s'.maxDepth) :
    s.depthLimit ≤ s'.depthLimit := by
  simp only [depthLimit]
  omega

/-- Where no limit cuts it off, SELF stops at the greatest depth. -/
theorem selfLimit_eq {α : Type} {s : Settings α} (h : s.maxDepth + 64 ≤ 4294967295) :
    s.selfLimit = s.maxDepth := by
  simp only [selfLimit, greatestLimit]
  omega

/-- Where no limit cuts it off, draws by name go on by the margin. -/
theorem depthLimit_eq {α : Type} {s : Settings α} (h : s.maxDepth + 64 ≤ 4294967295) :
    s.depthLimit = s.maxDepth + 64 := by
  simp only [depthLimit, margin, greatestLimit]
  omega

variable {α : Type} [Scalar α]

/-- A resolution of `0.1` and fifteen levels. -/
def standard : Settings α := ⟨Scalar.single (1 / Scalar.ofInt 10), 15⟩

/-- The resolution of a view in which a unit of the screen spans so many pixels along each
axis: the shorter side of a pixel. -/
def resolutionFor (x y : α) : α :=
  Scalar.single (Scalar.least (1 / Scalar.abs x) (1 / Scalar.abs y))

end Settings

end SelfSimilar
