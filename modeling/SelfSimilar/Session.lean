import SelfSimilar.Drawing.Execution

/-!
# Sessions

A session runs one program after another on the same canvas, so one program can define a fractal
and a later one can draw it. A program that fails leaves what it drew and bound before it failed.
Erasing wipes the drawing, forgetting removes the bindings, and a reset does both.
-/

namespace SelfSimilar

/-- What a program has drawn. -/
structure Rendering (α : Type) where
  /-- The whole path of the session. -/
  commands : Array (Command α)
  /-- The sum of the points that the statements yield. -/
  resultant : Point α
  /-- The hash of the path. -/
  hash : Int64
deriving DecidableEq, Repr

/-- Whether two renderings count as the same: the resultants need only be near. -/
def Rendering.same {α : Type} [Scalar α] (r s : Rendering α) : Bool :=
  r.commands == s.commands && r.resultant.near s.resultant && r.hash == s.hash

/-- A drawing session. -/
structure Session (α : Type) where
  /-- The frame that programs are run in. -/
  frame : Frame α
  /-- What bounds the drawing. -/
  settings : Settings α
  /-- What was drawn and bound so far. -/
  canvas : Canvas α

/-- What an action on a session yields. -/
structure Reply (α β : Type) where
  /-- The answer. -/
  value : β
  /-- The session afterwards. -/
  session : Session α
  /-- What was reported, in order. -/
  events : List (Event α)

namespace Session

variable {α : Type} [Scalar α]

/-- A session in which nothing has happened yet. -/
def start (frame : Frame α) (settings : Settings α) : Session α :=
  ⟨frame, settings, .fresh frame⟩

/-- The branch that programs are run from. -/
def root (s : Session α) : Branch α := .root s.settings s.frame

/-- Run a program. -/
def run (s : Session α) (program : Program α) : Reply α (Except Failure (Rendering α)) :=
  let o := s.root.runProgram program s.canvas
  let session := { s with canvas := o.canvas }
  match o.result with
  | .ok resultant =>
    ⟨.ok ⟨o.canvas.path.commands, resultant, o.canvas.path.hash.value⟩, session, o.events⟩
  | .error failure => ⟨.error failure, session, o.events ++ [.failed failure]⟩

/-- Erase the drawing, as a program does that only clears. -/
def clear (s : Session α) : Reply α Unit :=
  ⟨(), { s with canvas := s.root.erase s.canvas }, [.clearing s.canvas.path.segmentCount]⟩

/-- Start over with the same frame and settings. -/
def reset (s : Session α) : Reply α Unit := ⟨(), .start s.frame s.settings, []⟩

/-- Remove what programs have bound. -/
def forget (s : Session α) : Reply α Unit := ⟨(), { s with canvas := s.canvas.forget }, []⟩

/-- Change the resolution. -/
def setResolution (s : Session α) (resolution : α) : Reply α Unit :=
  ⟨(), { s with settings := { s.settings with resolution } },
    [.resolutionChanged s.settings.resolution resolution]⟩

/-- The value of a name at the top level. -/
def binding (s : Session α) (id : String) : Except Fault (Value α) :=
  s.canvas.env.lookup .globals id

/-- Something that can be done to a session. -/
inductive Action (α : Type) where
  /-- Run a program. -/
  | run (program : Program α)
  /-- Erase the drawing. -/
  | clear
  /-- Start over. -/
  | reset
  /-- Remove what programs have bound. -/
  | forget
  /-- Change the resolution. -/
  | setResolution (resolution : α)

/-- The session after an action. -/
def perform (s : Session α) : Action α → Session α
  | .run program => (s.run program).session
  | .clear => s.clear.session
  | .reset => s.reset.session
  | .forget => s.forget.session
  | .setResolution resolution => (s.setResolution resolution).session

end Session

/-- Run one program in a session of its own. -/
def render {α : Type} [Scalar α] (program : Program α) (frame : Frame α)
    (settings : Settings α) : Reply α (Except Failure (Rendering α)) :=
  (Session.start frame settings).run program

end SelfSimilar
