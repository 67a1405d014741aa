import SelfSimilar.Proofs.Execution.Events
import SelfSimilar.Proofs.Scalar.Exact
import SelfSimilar.Proofs.Session.History

/-!
# The journal of a program

A session reports the end of a program once, as the last thing: that it is done, or how it has
failed. All before that is routine, except that a collapsed frame is reported just before the
failure that it causes. So a reader of the journal sees from its last entries how a program has
ended.

* `Reply.Journal`: the three ways in which the journal of a program can end
* `Session.journal_run`: one of them for each program
* `journal_tells_the_end`: what the gravest events and the last ones say about the end
-/

namespace SelfSimilar

variable {α : Type}

/-- How the events of a program end. -/
inductive Reply.Journal (reply : Reply α (Except Failure (Rendering α))) : Prop
  /-- A program that is done reports its rendering. -/
  | finished {r before} (value : reply.value = .ok r)
      (events : reply.events =
        before ++ [.finished (r.commands.countP Command.draws) r.resultant r.hash])
      (routine : ∀ event ∈ before, event.IsRoutine)
  /-- A program that has failed reports its failure. -/
  | failed {e before} (value : reply.value = .error e)
      (fault : e.fault ≠ .singularFrame) (events : reply.events = before ++ [.failed e])
      (routine : ∀ event ∈ before, event.IsRoutine)
  /-- A program that has failed for want of the pen has reported the collapsed frame before that. -/
  | collapsed {e before level frame} (value : reply.value = .error e)
      (fault : e.fault = .singularFrame)
      (events : reply.events = before ++ [.collapsed level frame, .failed e])
      (routine : ∀ event ∈ before, event.IsRoutine)

/-- Routine events are neither grave nor the end of anything. -/
theorem Event.IsRoutine.severity_eq {event : Event α} (h : event.IsRoutine) :
    event.severity = .debug ∨ event.severity = .trace := by
  cases event with
  | derived _ _ => exact .inr rfl
  | bottomedOut _ _ => exact .inr rfl
  | defined _ _ => exact .inl rfl
  | nestedPast _ _ => exact .inl rfl
  | clearing _ => exact .inl rfl
  | _ => exact h.elim

/-- How many events of a severity are among the events. -/
def Severity.count (severity : Severity) (events : List (Event α)) : Nat :=
  events.countP fun event => event.severity = severity

/-- Routine events are of no severity above `debug`, so the others are all that count. -/
theorem Severity.count_of_routine {severity : Severity} {events before last : List (Event α)}
    (h : events = before ++ last) (hroutine : ∀ event ∈ before, event.IsRoutine)
    (hgrave : severity.rank < debug.rank) : severity.count events = severity.count last := by
  -- no routine event has such a severity
  have hnone : severity.count before = 0 := by
    refine List.countP_eq_zero.2 fun event hmem => ?_
    rw [decide_eq_true_eq]
    rintro rfl
    rcases (hroutine event hmem).severity_eq with heq | heq <;> rw [heq] at hgrave <;>
      exact absurd hgrave (by decide)
  rw [h, count, List.countP_append, ← count, hnone, Nat.zero_add]
  rfl

variable [Scalar α]

/-- The events of a program end with what it comes to. -/
theorem Session.journal_run (s : Session α) (program : Program α) : (s.run program).Journal := by
  have hex := execution_perform s.root (.all .origin program) s.canvas
  rcases run_cases hex with ⟨p, hp, hrun⟩ | ⟨e, he, hrun⟩
  · rw [hrun]
    exact .finished rfl rfl (hex.reports.of_ok hp)
  · rw [hrun]
    -- the failure comes after the events of the work, which may end with a collapsed frame
    cases hex.reports with
    | routine routine result => exact .failed rfl (result e he) rfl routine
    | @collapsed before level frame e' events_eq routine result fault =>
      cases he.symm.trans result
      have hevents := congrArg (· ++ [Event.failed e]) events_eq
      rw [List.append_assoc] at hevents
      exact .collapsed rfl fault hevents routine

/-- The journal of a program tells how it has ended. A program is done exactly if one event is an
information: that is the last one, and it has the segments, the resultant and the hash of the
rendering. A program has failed exactly if no event is an information, and then the last one is its
failure. There is an error among the events exactly if the program has failed for want of the pen in
a collapsed frame; then there is one, and the failure comes right after it. -/
theorem journal_tells_the_end (s : Session α) (program : Program α) :
    let reply := s.run program
    (∀ r, reply.value = .ok r → Severity.info.count reply.events = 1 ∧
      reply.events.getLast? =
        some (.finished (r.commands.countP Command.draws) r.resultant r.hash)) ∧
    (∀ e, reply.value = .error e → Severity.info.count reply.events = 0 ∧
      reply.events.getLast? = some (.failed e)) ∧
    (∀ e, reply.value = .error e → e.fault = .singularFrame →
      Severity.error.count reply.events = 1 ∧
      ∃ before level frame, reply.events = before ++ [.collapsed level frame, .failed e]) ∧
    ((∃ r, reply.value = .ok r) ↔
      Severity.info.count reply.events = 1 ∧
        ∃ event, reply.events.getLast? = some event ∧ event.severity = .info) ∧
    ((∃ e, reply.value = .error e) ↔
      Severity.info.count reply.events = 0 ∧ ∃ e, reply.events.getLast? = some (.failed e)) ∧
    (0 < Severity.error.count reply.events ↔
      ∃ e, reply.value = .error e ∧ e.fault = .singularFrame) := by
  intro reply
  have hjournal : reply.Journal := s.journal_run program
  -- in each of the three ways, count the grave events at the end and take the last one
  cases hjournal with
  | @finished r before value events routine =>
    have hlast := congrArg List.getLast? events
    rw [List.getLast?_concat] at hlast
    have hinfo : Severity.info.count reply.events = 1 :=
      Severity.count_of_routine events routine (by decide)
    have herror : Severity.error.count reply.events = 0 :=
      Severity.count_of_routine events routine (by decide)
    simp [value, hlast, hinfo, herror, Event.severity]
  | @failed e before value fault events routine =>
    have hlast := congrArg List.getLast? events
    rw [List.getLast?_concat] at hlast
    have hinfo : Severity.info.count reply.events = 0 :=
      Severity.count_of_routine events routine (by decide)
    have herror : Severity.error.count reply.events = 0 :=
      Severity.count_of_routine events routine (by decide)
    simp [value, fault, hlast, hinfo, herror]
  | @collapsed e before level frame value fault events routine =>
    have hlast := congrArg List.getLast? events
    rw [List.append_cons, List.getLast?_concat] at hlast
    have hinfo : Severity.info.count reply.events = 0 :=
      Severity.count_of_routine events routine (by decide)
    have herror : Severity.error.count reply.events = 1 :=
      Severity.count_of_routine events routine (by decide)
    have hends :
        ∃ before level frame, reply.events = before ++ [.collapsed level frame, .failed e] :=
      ⟨before, level, frame, events⟩
    simp [value, fault, hlast, hinfo, herror, hends]

/-- A fractal that goes on from where the pen is, drawn along a segment and drawn at a single
point. -/
theorem journal_tells_the_end_collapsed :
    let line : Stmt ℚ := .line ⟨none, .literal (.point .xUnit) {}⟩ {}
    let program (stop : Point ℚ) : Program ℚ :=
      [.define "f" [line] {}, .draw "f" (.between .origin stop) {}]
    let s : Session ℚ := .start .identity ⟨0, 1⟩
    let e : Failure := line.failure .singularFrame
    (∃ r, (s.run (program .xUnit)).value = .ok r ∧
      Severity.info.count (s.run (program .xUnit)).events = 1) ∧
      (s.run (program .origin)).value = .error e ∧
      ∃ before level frame,
        (s.run (program .origin)).events = before ++ [.collapsed level frame, .failed e] := by
  intro line program s e
  have hok : (s.run (program .xUnit)).value.isOk = true := by decide +kernel
  have hfails : (s.run (program .origin)).value = .error e := by decide +kernel
  obtain ⟨hdone, _⟩ := journal_tells_the_end s (program .xUnit)
  obtain ⟨_, _, hcollapsed, _⟩ := journal_tells_the_end s (program .origin)
  refine ⟨?_, hfails, (hcollapsed e hfails rfl).2⟩
  cases hr : (s.run (program .xUnit)).value with
  | ok r => exact ⟨r, rfl, (hdone r hr).1⟩
  | error e =>
    rw [hr] at hok
    cases hok

end SelfSimilar
