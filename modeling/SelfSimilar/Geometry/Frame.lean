import SelfSimilar.Geometry.Matrix3

/-!
# Frames

A frame takes the local coordinates of a fractal to the screen. Each drawing of a fractal has its
own frame, whose unit segment lies between the ends of the drawing; `Frame.derive` builds it from
the frame that the ends are given in.
-/

namespace SelfSimilar

/-- A map from local coordinates to the screen. -/
structure Frame (α : Type) where
  /-- The matrix of the map. -/
  toScreen : Matrix3 α
deriving BEq, DecidableEq, Repr

namespace Frame

variable {α : Type} [Scalar α]

/-- Local coordinates are screen coordinates. -/
def identity : Frame α := ⟨.identity⟩

/-- A shift. -/
def shift (x y : α) : Frame α := ⟨.shift x y⟩

/-- A turn by an angle in radians. -/
def rotation (angle : α) : Frame α := ⟨.rotation angle⟩

/-- A stretch along each axis. A negative factor turns the axis round. -/
def scaling (x y : α) : Frame α := ⟨.scaling x y⟩

/-- The similarity that puts the unit segment onto the segment from `start` to `stop`. -/
def ontoSegment (start stop : Point α) : Frame α :=
  ⟨.ontoSegment start.toPosition stop.toPosition⟩

/-- First the map `inner`, then `outer`. -/
def andThen (outer inner : Frame α) : Frame α := ⟨outer.toScreen.mul inner.toScreen⟩

/-- The frame whose unit segment lies from `start` to `stop`, both in the coordinates of `f`. -/
def derive (f : Frame α) (start stop : Point α) : Frame α := f.andThen (ontoSegment start stop)

/-- The place of a point on the screen. -/
def apply (f : Frame α) (p : Point α) : Position α := f.toScreen.apply p.toPosition

/-- The point at a place on the screen, unless the frame has collapsed. -/
def unapply? (f : Frame α) (place : Position α) : Option (Point α) :=
  f.toScreen.inverse?.map fun inverse =>
    let p := inverse.apply place
    .round p.x p.y

/-- The length on the screen of the unit segment. -/
def scale (f : Frame α) : α :=
  let start := f.toScreen.apply ⟨0, 0⟩
  let stop := f.toScreen.apply ⟨1, 0⟩
  Scalar.hypot (stop.x - start.x) (stop.y - start.y)

/-- The frame with its matrix entries as text. -/
def text (f : Frame α) : String :=
  let entries := ", ".intercalate (f.toScreen.entries.map (Scalar.text .literal))
  s!"Frame \x7b to_screen: [{entries}] \x7d"

end Frame

end SelfSimilar
