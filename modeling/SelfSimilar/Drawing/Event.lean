import SelfSimilar.Fault
import SelfSimilar.Geometry.Frame

/-!
# Events

What a drawing reports while it goes on, as data. `Event.severity` and `Event.text` say how an
event appears in a journal.
-/

namespace SelfSimilar

/-- How much an event matters, the gravest first. -/
inductive Severity where
  | error
  | warn
  | info
  | debug
  | trace
deriving DecidableEq, Repr

namespace Severity

/-- The severity as text. -/
def text : Severity → String
  | error => "ERROR"
  | warn => "WARN"
  | info => "INFO"
  | debug => "DEBUG"
  | trace => "TRACE"

/-- The place of a severity, counted from the gravest. -/
def rank : Severity → Nat
  | error => 1
  | warn => 2
  | info => 3
  | debug => 4
  | trace => 5

end Severity

/-- Something that a drawing reports. -/
inductive Event (α : Type) where
  /-- A fractal is about to be drawn in a frame of its own. -/
  | derived (level : Nat) (frame : Frame α)
  /-- A fractal that draws itself has become small enough for a line. -/
  | bottomedOut (level : Nat) (name : String)
  /-- A fractal was defined. -/
  | defined (name : String) (statements : Nat)
  /-- A fractal was to be drawn by name beyond the limit. -/
  | nestedPast (name : String) (limit : Nat)
  /-- The path is about to be erased. -/
  | clearing (segments : Nat)
  /-- The resolution changes. -/
  | resolutionChanged (old new : α)
  /-- A program has come to its end. -/
  | finished (segments : Nat) (resultant : Point α) (hash : Int64)
  /-- A program has failed. -/
  | failed (failure : Failure)
  /-- The place of the pen was needed in a frame that has collapsed. -/
  | collapsed (level : Nat) (frame : Frame α)

namespace Event

variable {α : Type}

/-- The severity of an event. -/
def severity : Event α → Severity
  | derived .. => .trace
  | bottomedOut .. => .trace
  | defined .. => .debug
  | nestedPast .. => .debug
  | clearing .. => .debug
  | resolutionChanged .. => .debug
  | finished .. => .info
  | failed .. => .debug
  | collapsed .. => .error

/-- A word in base sixteen. A negative one is shown by its bits. -/
def hexText (n : Int64) : String :=
  "0x" ++ String.ofList (Nat.toDigits 16 n.toUInt64.toNat)

variable [Scalar α]

/-- An event as text. -/
def text : Event α → String
  | derived level frame =>
    let scale := Scalar.text .sixPlaces frame.scale
    s!"derived level {level} frame, scale {scale}"
  | bottomedOut level name => s!"level {level}: `{name}` bottomed out as a line"
  | defined name statements => s!"defined fractal `{name}` ({statements} statements)"
  | nestedPast name limit => s!"`{name}` nested past level {limit}"
  | clearing segments => s!"clearing path ({segments} segments)"
  | resolutionChanged old new =>
    let old := Scalar.text .plainSingle old
    let new := Scalar.text .plainSingle new
    s!"resolution {old} -> {new}"
  | finished segments resultant hash =>
    s!"program done: {segments} segments, resultant {resultant.text}, hash {hexText hash}"
  | failed failure => s!"evaluation failed: {failure.message}"
  | collapsed level frame =>
    s!"unrecoverable error: fractal frame is non-invertible (level {level}, frame {frame.text})"

/-- The line of an event in a journal. -/
def line (e : Event α) : String := s!"{e.severity.text} {e.text}"

end Event

end SelfSimilar
