import SelfSimilar.Path.Basic

/-!
# Extending a path

Moves and lines only append to the commands of a path, so a path that was not erased is the old one
with more commands given to the pen (`Path.extend`).
-/

namespace SelfSimilar

namespace Path

variable {α : Type} [Scalar α]

/-- Give the pen a command. -/
def give (p : Path α) : Command α → Path α
  | .moveTo place => p.moveTo place
  | .lineTo place => p.lineTo place

/-- Give the pen commands in order. -/
def extend (p : Path α) (commands : List (Command α)) : Path α := commands.foldl give p

/-- The command itself is appended, be it a move or a line. -/
theorem commands_give (p : Path α) (command : Command α) :
    (p.give command).commands = p.commands.push command := by
  cases command <;> rfl

/-- The commands are appended to the old ones. -/
theorem commands_extend (p : Path α) (commands : List (Command α)) :
    (p.extend commands).commands = p.commands ++ commands := by
  induction commands generalizing p with
  | nil => simp [extend]
  | cons command rest ih =>
    -- the first command is given to the path before the rest are
    rw [extend, List.foldl_cons, ← extend, ih, commands_give]
    simp

/-- Commands may be given in two parts. -/
theorem extend_append (p : Path α) (first later : List (Command α)) :
    p.extend (first ++ later) = (p.extend first).extend later :=
  List.foldl_append

/-- A move after an extension belongs to it. -/
theorem moveTo_extend (p : Path α) (commands : List (Command α)) (place : Position α) :
    (p.extend commands).moveTo place = p.extend (commands ++ [.moveTo place]) := by
  simp [extend, give]

/-- A line after an extension belongs to it. -/
theorem lineTo_extend (p : Path α) (commands : List (Command α)) (place : Position α) :
    (p.extend commands).lineTo place = p.extend (commands ++ [.lineTo place]) := by
  simp [extend, give]

end Path

end SelfSimilar
