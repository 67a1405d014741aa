import SelfSimilar.Path.Hash

/-!
# Paths

The path that a program traces on the screen: the commands for the pen, in order, with the hash of
the segments drawn so far. A path starts with a move, so the pen always rests somewhere.

What the operations do to the views of a path:

* `pen_moveTo`, `pen_lineTo`: the pen goes where it is sent
* `segments_moveTo`, `segments_lineTo`: only a line adds a segment, from where the pen was
* `size_segments`: the count is that of the segments
-/

namespace SelfSimilar

/-- A command for the pen. -/
inductive Command (α : Type) where
  /-- Go to a place without leaving a mark. -/
  | moveTo (place : Position α)
  /-- Draw a segment from where the pen is. -/
  | lineTo (place : Position α)
deriving BEq, DecidableEq, Repr

namespace Command

variable {α : Type}

/-- Where the pen is after the command. -/
def target : Command α → Position α
  | .moveTo place => place
  | .lineTo place => place

/-- Whether the command leaves a mark. -/
def draws : Command α → Bool
  | .moveTo _ => false
  | .lineTo _ => true

end Command

/-- A drawn segment. -/
structure Stroke (α : Type) where
  /-- Where the pen was. -/
  start : Position α
  /-- Where the pen went. -/
  stop : Position α
deriving BEq, DecidableEq, Repr

/-- The commands given to the pen so far and the hash of the segments they draw. -/
structure Path (α : Type) where
  /-- The commands, the oldest first. -/
  commands : Array (Command α)
  /-- The hash of the drawn segments. -/
  hash : PathHash α
deriving BEq, DecidableEq, Repr

namespace Path

variable {α : Type} [Scalar α]

/-- The path of a pen that rests at `start` and has drawn nothing. -/
def startingAt (start : Position α) : Path α := ⟨#[.moveTo start], .fresh⟩

/-- Where the pen is. -/
def pen (p : Path α) : Position α :=
  match p.commands.back? with
  | some command => command.target
  | none => ⟨0, 0⟩

/-- Move the pen. -/
def moveTo (p : Path α) (place : Position α) : Path α :=
  { p with commands := p.commands.push (.moveTo place) }

/-- Draw a segment from the pen to a place. -/
def lineTo (p : Path α) (place : Position α) : Path α :=
  -- the hash first, so that nothing else holds the commands when one is added
  let hash := p.hash.add p.pen place
  { commands := p.commands.push (.lineTo place), hash }

/-- How many segments are drawn. -/
def segmentCount (p : Path α) : Nat := p.commands.countP Command.draws

/-- Follow one command: where the pen is then, and the segments drawn so far. -/
def follow : Position α × Array (Stroke α) → Command α → Position α × Array (Stroke α)
  | (_, drawn), .moveTo place => (place, drawn)
  | (pen, drawn), .lineTo place => (place, drawn.push ⟨pen, place⟩)

/-- The segments that the commands draw, in order. -/
def segments (p : Path α) : Array (Stroke α) :=
  (p.commands.foldl follow (⟨0, 0⟩, #[])).2

/-! ## The views after an operation -/

@[simp] theorem pen_startingAt (start : Position α) : (startingAt start).pen = start := rfl

@[simp] theorem pen_moveTo (p : Path α) (place : Position α) : (p.moveTo place).pen = place := by
  simp [pen, moveTo, Command.target]

@[simp] theorem pen_lineTo (p : Path α) (place : Position α) : (p.lineTo place).pen = place := by
  simp [pen, lineTo, Command.target]

omit [Scalar α] in
/-- A move leaves no mark, so that the hash stays. -/
@[simp] theorem hash_moveTo (p : Path α) (place : Position α) :
    (p.moveTo place).hash = p.hash := rfl

/-- A line goes into the hash, from where the pen was. -/
@[simp] theorem hash_lineTo (p : Path α) (place : Position α) :
    (p.lineTo place).hash = p.hash.add p.pen place := rfl

omit [Scalar α] in
/-- Following a command ends at its target. -/
theorem follow_fst (s : Position α × Array (Stroke α)) (c : Command α) :
    (follow s c).1 = c.target := by
  cases c <;> rfl

/-- Following all commands ends where the pen is. -/
theorem foldl_follow_fst (p : Path α) :
    (p.commands.foldl follow (⟨0, 0⟩, #[])).1 = p.pen := by
  by_cases h : p.commands = #[]
  · simp [h, pen]
  · obtain ⟨front, c, h⟩ := Array.exists_push_of_ne_empty h
    simp [h, pen, follow_fst]

@[simp] theorem segments_startingAt (start : Position α) : (startingAt start).segments = #[] := rfl

@[simp] theorem segments_moveTo (p : Path α) (place : Position α) :
    (p.moveTo place).segments = p.segments := by
  simp [segments, moveTo, follow]

/-- A line adds one segment, from where the pen was. -/
@[simp] theorem segments_lineTo (p : Path α) (place : Position α) :
    (p.lineTo place).segments = p.segments.push ⟨p.pen, place⟩ := by
  simp [segments, lineTo, follow, foldl_follow_fst]

omit [Scalar α] in
/-- Each line that is followed adds one segment to those drawn before. -/
private theorem size_foldl_follow (l : List (Command α)) (pen : Position α)
    (drawn : Array (Stroke α)) :
    (l.foldl follow (pen, drawn)).2.size = drawn.size + l.countP Command.draws := by
  -- the pen and the segments so far change with each command
  induction l generalizing pen drawn with
  | nil => simp
  | cons c rest ih =>
    cases c <;> simp only [List.foldl_cons, List.countP_cons, follow, Command.draws, ih,
      Array.size_push] <;> grind

/-- The number of segments is the number of lines. -/
theorem size_segments (p : Path α) : p.segments.size = p.segmentCount := by
  rw [segments, segmentCount, ← Array.foldl_toList, ← Array.countP_toList, size_foldl_follow]
  simp

end Path

end SelfSimilar
