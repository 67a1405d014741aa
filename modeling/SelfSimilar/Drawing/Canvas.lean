import SelfSimilar.Path.Basic
import SelfSimilar.Scope.Environment
import SelfSimilar.Settings
import SelfSimilar.Geometry.Frame

/-!
# Canvas and branches

A `Canvas` is all that a drawing changes: the path, the bindings, and the fractals that are being
drawn. A `Branch` is the view from which something is drawn: its frame, its level and its scope. A
branch is never changed; to draw a fractal inside another one is to go on from a child branch.
-/

namespace SelfSimilar

/-- What a drawing changes. -/
structure Canvas (α : Type) where
  /-- The path drawn so far. -/
  path : Path α
  /-- The bindings. -/
  env : Environment (Value α)
  /-- The fractals being drawn, the innermost first. -/
  active : List (Fractal α)

/-- The view from which something is drawn. -/
structure Branch (α : Type) where
  /-- What bounds the drawing. -/
  settings : Settings α
  /-- From local coordinates to the screen. -/
  frame : Frame α
  /-- How many fractals there are around. -/
  level : Nat
  /-- Where names are looked up and bound. -/
  scope : ScopeId

/-- The scope in which programs bind names at the top level. -/
def ScopeId.globals : ScopeId := ⟨1⟩

variable {α : Type} [Scalar α]

/-- The oldest scope with the predefined points, and a scope for programs inside it. -/
def Environment.predefined : Environment (Value α) :=
  let env := Environment.empty.bindAll .root
    [("O", .point .origin), ("X", .point .xUnit), ("Y", .point .yUnit)]
  (env.push .root).2

namespace Canvas

/-- The canvas on which nothing was drawn, with the pen at the origin of a frame. -/
def fresh (frame : Frame α) : Canvas α :=
  ⟨.startingAt (frame.apply .origin), .predefined, []⟩

/-- Begin to draw a fractal. -/
def start (c : Canvas α) (f : Fractal α) : Canvas α := { c with active := f :: c.active }

/-- Be done with the innermost fractal. -/
def stop (c : Canvas α) : Canvas α := { c with active := c.active.tail }

/-- The fractal that SELF stands for. -/
def current (c : Canvas α) : Except Fault (Fractal α) :=
  match c.active with
  | f :: _ => .ok f
  | [] => .error .noActiveFractal

/-- Remove everything that programs have bound. The predefined points stay. -/
def forget (c : Canvas α) : Canvas α := { c with env := c.env.clear .globals }

end Canvas

namespace Branch

/-- The branch that programs are run from. -/
def root (settings : Settings α) (frame : Frame α) : Branch α := ⟨settings, frame, 0, .globals⟩

/-- The same branch with names in another scope. -/
def within (b : Branch α) (scope : ScopeId) : Branch α := { b with scope }

/-- The branch one level deeper whose unit segment lies from `start` to `stop`. -/
def child (b : Branch α) (start stop : Point α) : Branch α :=
  { b with frame := b.frame.derive start stop, level := b.level + 1 }

/-- The level from which on no fractal is drawn by name. -/
def depthLimit (b : Branch α) : Nat := b.settings.depthLimit

/-- Whether SELF is drawn as a fractal here, and not as a line. -/
def isResolvable (b : Branch α) : Bool :=
  Scalar.le b.settings.resolution b.frame.scale && decide (b.level < b.settings.selfLimit)

/-- The place of a point on the screen. -/
def place (b : Branch α) (p : Point α) : Position α := b.frame.apply p

/-! ## What a branch reads from a canvas -/

/-- The value of a name. -/
def lookup (b : Branch α) (c : Canvas α) (id : String) : Except Fault (Value α) :=
  c.env.lookup b.scope id

/-- Where the pen is, in local coordinates. -/
def pen (b : Branch α) (c : Canvas α) : Except Fault (Point α) :=
  match b.frame.unapply? c.path.pen with
  | some p => .ok p
  | none => .error .singularFrame

/-! ## What a branch changes on a canvas -/

/-- Bind a name. -/
def bind (b : Branch α) (id : String) (v : Value α) (c : Canvas α) : Canvas α :=
  { c with env := c.env.bind b.scope id v }

/-- Move the pen. -/
def moveTo (b : Branch α) (p : Point α) (c : Canvas α) : Canvas α :=
  { c with path := c.path.moveTo (b.place p) }

/-- Draw a line from the pen to a point. -/
def lineTo (b : Branch α) (p : Point α) (c : Canvas α) : Canvas α :=
  { c with path := c.path.lineTo (b.place p) }

/-- Erase everything drawn; the pen rests at the origin. -/
def erase (b : Branch α) (c : Canvas α) : Canvas α :=
  { c with path := .startingAt (b.place .origin) }

/-! ## What the changes leave alone -/

variable (b : Branch α) (c : Canvas α) (id : String) (v : Value α) (p : Point α)

omit [Scalar α] in
@[simp] theorem path_bind : (b.bind id v c).path = c.path := rfl

omit [Scalar α] in
@[simp] theorem active_bind : (b.bind id v c).active = c.active := rfl

@[simp] theorem path_moveTo : (b.moveTo p c).path = c.path.moveTo (b.place p) := rfl

@[simp] theorem env_moveTo : (b.moveTo p c).env = c.env := rfl

@[simp] theorem active_moveTo : (b.moveTo p c).active = c.active := rfl

@[simp] theorem path_lineTo : (b.lineTo p c).path = c.path.lineTo (b.place p) := rfl

@[simp] theorem env_lineTo : (b.lineTo p c).env = c.env := rfl

@[simp] theorem active_lineTo : (b.lineTo p c).active = c.active := rfl

@[simp] theorem path_erase : (b.erase c).path = .startingAt (b.place .origin) := rfl

@[simp] theorem env_erase : (b.erase c).env = c.env := rfl

@[simp] theorem active_erase : (b.erase c).active = c.active := rfl

end Branch

namespace Canvas

variable (c : Canvas α) (f : Fractal α)

omit [Scalar α]

@[simp] theorem path_start : (c.start f).path = c.path := rfl

@[simp] theorem env_start : (c.start f).env = c.env := rfl

@[simp] theorem active_start : (c.start f).active = f :: c.active := rfl

@[simp] theorem path_stop : c.stop.path = c.path := rfl

@[simp] theorem env_stop : c.stop.env = c.env := rfl

@[simp] theorem active_stop : c.stop.active = c.active.tail := rfl

end Canvas

end SelfSimilar
