import SelfSimilar.Path.Basic
import SelfSimilar.Proofs.Geometry.Frame

/-!
# Moved paths

A path that is moved about the screen: each command leads to the image of the place that it led to
before. The hash is computed from displacements, which a turn changes but a shift does not.

* `Path.movedBy_startingAt`, `Path.MovedBy.moveTo`, `Path.MovedBy.lineTo`: paths stay moved
-/

namespace SelfSimilar

/-- The same command for the image of the place. -/
def Command.map {α β : Type} (f : Position α → Position β) : Command α → Command β
  | .moveTo place => .moveTo (f place)
  | .lineTo place => .lineTo (f place)

variable {K : Type} [Field K] [DecidableEq K] [ExactArithmetic K] {R : Frame K} {p q : Path K}

/-- The frame moves everything by the same displacement. -/
def Frame.IsShift (R : Frame K) : Prop := ∃ x y, R = .shift x y

/-- A shift leaves displacements as they are, and a hash is made of displacements only. -/
theorem PathHash.add_carry (hR : R.IsShift) (h : PathHash K) (start stop : Position K) :
    h.add (R.carry start) (R.carry stop) = h.add start stop := by
  obtain ⟨x, y, rfl⟩ := hR
  simp only [add, Frame.carry, Frame.shift, Matrix3.shift, Matrix3.apply]
  congr 2 <;> ring

namespace Path

/-- The path `q` is the path `p`, moved by `R`. -/
structure MovedBy (R : Frame K) (p q : Path K) : Prop where
  /-- Each command is that for the image. -/
  commands_eq : q.commands = p.commands.map (Command.map R.carry)
  /-- The pen is at the image. -/
  pen_eq : q.pen = R.carry p.pen
  /-- A shift keeps the hash. -/
  hash_eq : R.IsShift → q.hash = p.hash

/-- A path that is started at the image of a place. -/
theorem movedBy_startingAt (R : Frame K) (place : Position K) :
    (startingAt place).MovedBy R (startingAt (R.carry place)) :=
  ⟨by simp [startingAt, Command.map], rfl, fun _ => rfl⟩

/-- A move to the image of a place. -/
theorem MovedBy.moveTo (h : p.MovedBy R q) (place : Position K) :
    (p.moveTo place).MovedBy R (q.moveTo (R.carry place)) where
  commands_eq := by simp [Path.moveTo, h.commands_eq, Command.map]
  pen_eq := by rw [pen_moveTo, pen_moveTo]
  hash_eq := h.hash_eq

/-- A line to the image of a place. -/
theorem MovedBy.lineTo (h : p.MovedBy R q) (place : Position K) :
    (p.lineTo place).MovedBy R (q.lineTo (R.carry place)) where
  commands_eq := by simp [Path.lineTo, h.commands_eq, Command.map]
  pen_eq := by rw [pen_lineTo, pen_lineTo]
  hash_eq hR := by
    -- the segment that is folded in starts at the image of the pen
    rw [hash_lineTo, hash_lineTo, h.hash_eq hR, h.pen_eq, PathHash.add_carry hR]

end Path

end SelfSimilar
