import SelfSimilar.Proofs.Path.Replay

/-!
# Moves to where the pen is

A move to where the pen is leaves no mark and the pen where it is. A path with such moves has more
commands, and everything else is the same.

* `Command.Lingers`: commands and the same ones with such moves among them
* `Command.Lingers.strokes_eq`: both draw the same segments
* `Path.Lingers.moveTo`, `Path.Lingers.lineTo`: such paths stay so under the same commands
* `Path.Lingers.stay`: and if the second pen is moved to where it is
-/

namespace SelfSimilar

variable {α : Type} [Scalar α]

namespace Command

/-- The second commands are the first ones with more moves, each to where the pen is. -/
inductive Lingers : Array (Command α) → Array (Command α) → Prop
  | nil : Lingers #[] #[]
  | push {commands commands'} (command : Command α) (lingers : Lingers commands commands') :
      Lingers (commands.push command) (commands'.push command)
  | stay {commands commands' command} (lingers : Lingers commands commands')
      (last : commands'.back? = some command) :
      Lingers commands (commands'.push (.moveTo command.target))

variable {commands commands' : Array (Command α)}

/-- Following the commands ends where the last one leads. -/
theorem foldl_follow_of_back? {command : Command α} (h : commands.back? = some command) :
    (commands.foldl Path.follow (⟨0, 0⟩, #[])).1 = command.target := by
  -- the pen of a path is that of its commands, whatever the hash
  rw [Path.foldl_follow_fst ⟨commands, .fresh⟩]
  simp [Path.pen, h]

/-- Following such commands ends at the same place, with the same segments drawn. -/
theorem Lingers.foldl_follow_eq (h : Lingers commands commands') :
    commands'.foldl Path.follow (⟨0, 0⟩, #[]) = commands.foldl Path.follow (⟨0, 0⟩, #[]) := by
  induction h with
  | nil => rfl
  | push command _ ih => rw [Array.foldl_push, Array.foldl_push, ih]
  | stay _ last ih =>
    -- the place is the one that the pen was at, and the move draws nothing
    have hpen := foldl_follow_of_back? last
    rw [Array.foldl_push, ← hpen, ← ih]
    rfl

/-- Such commands draw the same segments. -/
theorem Lingers.strokes_eq (h : Lingers commands commands') :
    strokes commands' = strokes commands :=
  congrArg Prod.snd h.foldl_follow_eq

end Command

/-- The path `q` is the path `p` with moves to where the pen is. -/
structure Path.Lingers (p q : Path α) : Prop where
  commands : Command.Lingers p.commands q.commands
  /-- At least one command was given. -/
  begun : ∃ command, q.commands.back? = some command
  hash_eq : q.hash = p.hash

namespace Path

variable {p q : Path α}

/-- The pen of such a path is at the same place. -/
theorem Lingers.pen_eq (h : p.Lingers q) : q.pen = p.pen := by
  -- the pen is where following the commands ends
  rw [← foldl_follow_fst, ← foldl_follow_fst, h.commands.foldl_follow_eq]

/-- To move the pen to where it is makes no difference. -/
theorem Lingers.stay (h : p.Lingers q) : p.Lingers (q.moveTo q.pen) := by
  obtain ⟨command, hlast⟩ := h.begun
  -- some command has led the pen to where it is, so the move is one to its target
  have hpen : q.pen = command.target := by simp [pen, hlast]
  refine ⟨?_, ⟨_, Array.back?_push⟩, h.hash_eq⟩
  rw [hpen]
  exact h.commands.stay hlast

/-- A path that is started has no such moves yet. -/
theorem lingers_startingAt (place : Position α) : (startingAt place).Lingers (startingAt place) :=
  ⟨.push _ .nil, ⟨_, rfl⟩, rfl⟩

omit [Scalar α] in
theorem Lingers.moveTo (h : p.Lingers q) (place : Position α) :
    (p.moveTo place).Lingers (q.moveTo place) :=
  ⟨h.commands.push _, ⟨_, Array.back?_push⟩, h.hash_eq⟩

/-- Both pens draw a line to the same place, from the same place. -/
theorem Lingers.lineTo (h : p.Lingers q) (place : Position α) :
    (p.lineTo place).Lingers (q.lineTo place) where
  commands := h.commands.push _
  begun := ⟨_, Array.back?_push⟩
  hash_eq := by rw [hash_lineTo, hash_lineTo, h.hash_eq, h.pen_eq]

end Path

end SelfSimilar
