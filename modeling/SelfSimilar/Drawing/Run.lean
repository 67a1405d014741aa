import SelfSimilar.Drawing.Canvas
import SelfSimilar.Drawing.Event

/-!
# Runs

A run changes a canvas, reports events, and ends with a value or an error. An error ends the run
but undoes nothing: what was drawn and bound before it stays, and so do the events.
-/

namespace SelfSimilar

/-- How a run ends. -/
structure Outcome (α ε β : Type) where
  /-- The value or the error that the run ends with. -/
  result : Except ε β
  /-- The canvas that it leaves. -/
  canvas : Canvas α
  /-- What it has reported, in order. -/
  events : List (Event α)

/-- Something that can be run on a canvas. -/
def Run (α ε β : Type) := Canvas α → Outcome α ε β

namespace Run

variable {α ε β γ : Type}

/-- End with a value at once. -/
def done (v : β) : Run α ε β := fun c => ⟨.ok v, c, []⟩

/-- Events and then later ones. Without later ones nothing is copied, so that runs inside runs
cost no more the deeper they are. -/
def followedBy (events later : List (Event α)) : List (Event α) :=
  if later.isEmpty then events else events ++ later

/-- The short cut for no later events changes nothing. -/
@[simp] theorem followedBy_eq (events later : List (Event α)) :
    followedBy events later = events ++ later := by
  cases later <;> simp [followedBy]

/-- Go on with the value of a run, unless it fails. -/
def andThen (r : Run α ε β) (next : β → Run α ε γ) : Run α ε γ := fun c =>
  match r c with
  | ⟨.ok v, c, events⟩ =>
    let rest := next v c
    { rest with events := followedBy events rest.events }
  | ⟨.error e, c, events⟩ => ⟨.error e, c, events⟩

instance : Monad (Run α ε) where
  pure := done
  bind := andThen

/-- Fail. -/
def fail (e : ε) : Run α ε β := fun c => ⟨.error e, c, []⟩

/-- Report an event. -/
def note (e : Event α) : Run α ε Unit := fun c => ⟨.ok (), c, [e]⟩

/-- The canvas as it is. -/
def canvas : Run α ε (Canvas α) := fun c => ⟨.ok c, c, []⟩

/-- Change the canvas. -/
def change (f : Canvas α → Canvas α) : Run α ε Unit := fun c => ⟨.ok (), f c, []⟩

/-- Run while a fractal is the innermost active one. It is no longer active afterwards, also if
the run fails. -/
def drawing (f : Fractal α) (r : Run α ε β) : Run α ε β := fun c =>
  let o := r { c with active := f :: c.active }
  { o with canvas := { o.canvas with active := o.canvas.active.tail } }

@[simp] theorem pure_apply (v : β) (c : Canvas α) : (pure v : Run α ε β) c = ⟨.ok v, c, []⟩ := rfl

@[simp] theorem fail_apply (e : ε) (c : Canvas α) :
    (fail e : Run α ε β) c = ⟨.error e, c, []⟩ := rfl

@[simp] theorem note_apply (e : Event α) (c : Canvas α) :
    (note e : Run α ε Unit) c = ⟨.ok (), c, [e]⟩ := rfl

@[simp] theorem canvas_apply (c : Canvas α) :
    (canvas : Run α ε (Canvas α)) c = ⟨.ok c, c, []⟩ := rfl

@[simp] theorem change_apply (f : Canvas α → Canvas α) (c : Canvas α) :
    (change f : Run α ε Unit) c = ⟨.ok (), f c, []⟩ := rfl

/-- A run goes on from the canvas that the first part leaves, and only if that part does not
fail. -/
theorem bind_apply (r : Run α ε β) (next : β → Run α ε γ) (c : Canvas α) :
    (r >>= next) c =
      match r c with
      | ⟨.ok v, c, events⟩ =>
        let rest := next v c
        { rest with events := events ++ rest.events }
      | ⟨.error e, c, events⟩ => ⟨.error e, c, events⟩ := by
  change andThen r next c = _
  rw [andThen]
  split <;> simp

/-! ## What a run does after its first part -/

/-- Where the first part ends with a value, the rest follows, and so do its events. -/
theorem bind_ok {r : Run α ε β} {next : β → Run α ε γ} {c d : Canvas α} {v : β}
    {events : List (Event α)} (h : r c = ⟨.ok v, d, events⟩) :
    (r >>= next) c = ⟨(next v d).result, (next v d).canvas, events ++ (next v d).events⟩ := by
  simp [bind_apply, h]

/-- Where the first part fails, that is the end. -/
theorem bind_error {r : Run α ε β} {next : β → Run α ε γ} {c d : Canvas α} {e : ε}
    {events : List (Event α)} (h : r c = ⟨.error e, d, events⟩) :
    (r >>= next) c = ⟨.error e, d, events⟩ := by
  simp [bind_apply, h]

/-- Changes of the canvas fail never and report nothing. -/
@[simp] theorem change_bind (f : Canvas α → Canvas α) (next : Unit → Run α ε γ) (c : Canvas α) :
    (change f >>= next) c = next () (f c) := by
  simp [bind_apply]

/-- An event that is noted comes before those of what follows. -/
@[simp] theorem note_bind (e : Event α) (next : Unit → Run α ε γ) (c : Canvas α) :
    (note e >>= next) c =
      ⟨(next () c).result, (next () c).canvas, e :: (next () c).events⟩ := by
  simp [bind_apply]

/-- What follows may read the canvas that the run is on. -/
@[simp] theorem canvas_bind (next : Canvas α → Run α ε γ) (c : Canvas α) :
    (canvas >>= next) c = next c c := by
  simp [bind_apply]

/-- A fractal is active during its own drawing only. -/
theorem drawing_apply (f : Fractal α) (r : Run α ε β) (c : Canvas α) :
    drawing f r c =
      ⟨(r (c.start f)).result, (r (c.start f)).canvas.stop, (r (c.start f)).events⟩ := rfl

end Run

namespace Branch

variable {α β : Type} [Scalar α]

/-- The event that a fault is reported with. Only a collapsed frame is reported at once. As reading
ends at its first fault, and only the place of the pen fails for want of a frame, the event comes
where the pen is read (`Expr.read_eq_reading`). -/
def report (b : Branch α) : Fault → List (Event α)
  | .singularFrame => [.collapsed b.level b.frame]
  | _ => []

/-- Read something from the canvas, which may fail at a node. -/
def reading (b : Branch α) (f : Canvas α → Except Failure β) : Run α Failure β := fun c =>
  match f c with
  | .ok v => ⟨.ok v, c, []⟩
  | .error failure => ⟨.error failure, c, b.report failure.fault⟩

omit [Scalar α] in
/-- What is read and found is passed on, and nothing is reported. -/
theorem reading_bind_ok {γ : Type} {b : Branch α} {f : Canvas α → Except Failure β}
    {next : β → Run α Failure γ} {c : Canvas α} {v : β} (h : f c = .ok v) :
    (b.reading f >>= next) c = next v c := by
  simp [Run.bind_apply, reading, h]

omit [Scalar α] in
/-- What is read and not found ends the run, on the canvas as it was. -/
theorem reading_bind_error {γ : Type} {b : Branch α} {f : Canvas α → Except Failure β}
    {next : β → Run α Failure γ} {c : Canvas α} {e : Failure} (h : f c = .error e) :
    (b.reading f >>= next) c = ⟨.error e, c, b.report e.fault⟩ := by
  simp [Run.bind_apply, reading, h]

/-- Where the pen is, in local coordinates. -/
def here (b : Branch α) : Run α Fault (Point α) := fun c =>
  match b.pen c with
  | .ok p => ⟨.ok p, c, []⟩
  | .error fault => ⟨.error fault, c, b.report fault⟩

/-- Start on a branch that was derived from another one: the pen goes to its origin. -/
def enter {ε : Type} (b : Branch α) : Run α ε Unit := do
  Run.note (.derived b.level b.frame)
  Run.change (b.moveTo .origin)

/-- A branch is entered before anything else happens on it. -/
@[simp] theorem enter_bind {ε γ : Type} (b : Branch α) (next : Unit → Run α ε γ) (c : Canvas α) :
    (b.enter >>= next) c =
      ⟨(next () (b.moveTo .origin c)).result, (next () (b.moveTo .origin c)).canvas,
        .derived b.level b.frame :: (next () (b.moveTo .origin c)).events⟩ := by
  simp [enter, Run.bind_apply]

end Branch

end SelfSimilar
