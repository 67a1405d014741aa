import SelfSimilar.Drawing.Evaluation
import SelfSimilar.Drawing.Run

/-!
# Running statements

A statement is run on a branch. Statements nest in two ways. A block runs its statements on the
same branch, which is recursion on the program. To draw a fractal is to run its body one level
deeper, and the body is a value, not a part of the program; `Stmt.exec` therefore takes what to do
one level deeper, if there is a level left, and `runBody` supplies it by recursion on the number of
levels left.

Below the limit, a draw by name runs the body; at the limit it fails. SELF runs the body while the
branch is resolvable, which implies that there is a level left, and draws a line after that.
-/

namespace SelfSimilar

variable {α : Type} [Scalar α]

/-- A way to run the statements of a body. The result is the sum of their points. -/
abbrev BodyRunner (α : Type) := Branch α → List (Stmt α) → Run α Failure (Point α)

/-- The sum of points, with one more value: what is not a point adds nothing. -/
def Value.addTo (sum : Point α) : Value α → Point α
  | .point p => sum.add p
  | _ => sum

namespace Stmt

/-- A fault at a statement. -/
def failure (s : Stmt α) (fault : Fault) : Failure := ⟨fault, s.text, s.span⟩

/-- Tie a fault to a statement. -/
def attach {β : Type} (s : Stmt α) : Except Fault β → Except Failure β
  | .ok v => .ok v
  | .error fault => .error (s.failure fault)

/-- What is tied to a statement is only a fault. -/
@[simp] theorem attach_eq_ok {β : Type} {s : Stmt α} {x : Except Fault β} {v : β} :
    s.attach x = .ok v ↔ x = .ok v := by
  cases x <;> simp [attach]

/-- The ends of what a statement draws. The target is evaluated first; without a source the pen is
the start. -/
def endpoints (s : Stmt α) (segment : Segment α) (b : Branch α) (c : Canvas α) :
    Except Failure (Point α × Point α) := do
  let target ← segment.target.evalPoint b c
  match segment.source with
  | some source => return (← source.evalPoint b c, target)
  | none => return (← s.attach (b.pen c), target)

/-- What a draw by name reads: the ends, then the fractal. -/
def namedDraw (s : Stmt α) (name : String) (segment : Segment α) (b : Branch α) (c : Canvas α) :
    Except Failure ((Point α × Point α) × Fractal α) := do
  let ends ← s.endpoints segment b c
  let v ← s.attach (b.lookup c name)
  let f ← s.attach v.asFractal
  return (ends, f)

/-- What SELF reads: the fractal, then the ends. -/
def selfDraw (s : Stmt α) (segment : Segment α) (b : Branch α) (c : Canvas α) :
    Except Failure (Fractal α × (Point α × Point α)) := do
  let f ← s.attach c.current
  let ends ← s.endpoints segment b c
  return (f, ends)

variable {s : Stmt α} {b : Branch α} {c : Canvas α} {segment : Segment α} {f : Fractal α}
  {ends : Point α × Point α}

/-- Ends that are written out as points are those points. -/
@[simp] theorem endpoints_between (s : Stmt α) (start stop : Point α) (b : Branch α)
    (c : Canvas α) :
    s.endpoints (.between start stop) b c = .ok (start, stop) := rfl

/-- A draw by name finds its ends and a fractal of that name. -/
theorem namedDraw_eq_ok {name : String} :
    s.namedDraw name segment b c = .ok (ends, f) ↔
      s.endpoints segment b c = .ok ends ∧ b.lookup c name = .ok (.fractal f) := by
  constructor
  · intro h
    obtain ⟨ends', he, h⟩ := bind_eq_ok.1 h
    obtain ⟨v, hv, h⟩ := bind_eq_ok.1 h
    obtain ⟨g, hg, h⟩ := bind_eq_ok.1 h
    rw [attach_eq_ok] at hv hg
    cases v <;> simp [Value.asFractal] at hg
    cases h
    exact ⟨he, hg ▸ hv⟩
  · rintro ⟨he, hf⟩
    simp [namedDraw, he, hf, attach, Value.asFractal, bind, Except.bind, pure, Except.pure]

/-- SELF finds the innermost active fractal and its ends. -/
theorem selfDraw_eq_ok :
    s.selfDraw segment b c = .ok (f, ends) ↔
      c.current = .ok f ∧ s.endpoints segment b c = .ok ends := by
  constructor
  · intro h
    obtain ⟨g, hg, h⟩ := bind_eq_ok.1 h
    obtain ⟨ends', he, h⟩ := bind_eq_ok.1 h
    rw [attach_eq_ok] at hg
    cases h
    exact ⟨hg, he⟩
  · rintro ⟨hf, he⟩
    simp [selfDraw, he, hf, attach, bind, Except.bind, pure, Except.pure]

end Stmt

/-- Draw a straight line. Only a line with a source moves the pen to its start. -/
def Branch.drawLine (b : Branch α) (segment : Segment α) (ends : Point α × Point α) :
    Run α Failure (Value α) := do
  if segment.source.isSome then
    Run.change (b.moveTo ends.1)
  Run.change (b.lineTo ends.2)
  return .point ends.2

/-- Erase the path, and report it. -/
def Branch.clear {ε : Type} (b : Branch α) : Run α ε Unit := do
  let c ← Run.canvas
  Run.note (.clearing c.path.segmentCount)
  Run.change b.erase

mutual

/-- Run a statement. `deeper` runs the body of a fractal one level deeper; it is there as long as
there is a level left. -/
def Stmt.exec (deeper : Option (BodyRunner α)) (b : Branch α) : Stmt α → Run α Failure (Value α)
  | .block body _ => do
    return .point (← execAll deeper b .origin body)
  | .define name body _ => do
    let f : Fractal α := ⟨name, body, b.scope⟩
    Run.note (.defined name body.length)
    Run.change (b.bind name (.fractal f))
    return .fractal f
  | s@(.draw name segment _) => do
    let (ends, f) ← b.reading (s.namedDraw name segment b)
    match deeper with
    | none => do
      Run.note (.nestedPast name b.depthLimit)
      Run.fail (s.failure (.tooDeep b.depthLimit))
    | some run => do
      let child := (b.child ends.1 ends.2).within f.scope
      child.enter
      return .point (← Run.drawing f (run child f.body))
  | s@(.drawSelf segment _) => do
    let (f, ends) ← b.reading (s.selfDraw segment b)
    match deeper, b.isResolvable with
    | some run, true => do
      let child := b.child ends.1 ends.2
      child.enter
      return .point (← run child f.body)
    | _, _ => do
      Run.note (.bottomedOut b.level f.name)
      b.drawLine segment ends
  | s@(.line segment _) => do
    let ends ← b.reading (s.endpoints segment b)
    b.drawLine segment ends
  | .assign id value _ => do
    let v ← b.reading (fun c => value.eval b c)
    Run.change (b.bind id v)
    return .noValue
  | .clear _ => do
    b.clear
    return .noValue
  | .home _ => do
    Run.change (b.moveTo .origin)
    return .noValue

/-- Run statements in order, and add the points that they yield to a sum. -/
def execAll (deeper : Option (BodyRunner α)) (b : Branch α) (sum : Point α) :
    List (Stmt α) → Run α Failure (Point α)
  | [] => pure sum
  | s :: rest => do
    let v ← s.exec deeper b
    execAll deeper b (v.addTo sum) rest

end

/-- Run the statements of a body with so many levels left. -/
def runBody : Nat → BodyRunner α
  | 0 => fun b body => execAll none b .origin body
  | levels + 1 => fun b body => execAll (some (runBody levels)) b .origin body

namespace Branch

/-- How many levels are left. -/
def levelsLeft (b : Branch α) : Nat := b.depthLimit - b.level

/-- How the bodies of fractals are run from a branch, if there is a level left. -/
def deeper (b : Branch α) : Option (BodyRunner α) :=
  match b.levelsLeft with
  | 0 => none
  | levels + 1 => some (runBody levels)

/-- Run a statement. -/
def run (b : Branch α) (s : Stmt α) : Run α Failure (Value α) := s.exec b.deeper b

/-- Run statements in order. The result is the sum of their points. -/
def runAll (b : Branch α) (body : List (Stmt α)) : Run α Failure (Point α) :=
  execAll b.deeper b .origin body

/-- Run a program, and report its end. -/
def runProgram (b : Branch α) (program : Program α) : Run α Failure (Point α) := do
  let resultant ← b.runAll program
  let c ← Run.canvas
  Run.note (.finished c.path.segmentCount resultant c.path.hash.value)
  return resultant

end Branch

end SelfSimilar
