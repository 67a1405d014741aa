import SelfSimilar.Proofs.Execution.Rules

/-!
# Events of a run

Work reports what it does as it goes on. A collapsed frame is reported where the place of the pen is
needed and not found, and that is where the work ends: no block, draw or body goes on after a
failure, and none reports anything on the way out.

* `Event.IsRoutine`: the events of work that goes on
* `Execution.reports`: what work reports, and what its last event says about its end
-/

namespace SelfSimilar

variable {α : Type}

/-- The event is one of work that goes on: neither the end of a program nor a collapsed frame. -/
def Event.IsRoutine : Event α → Prop
  | .derived .. | .bottomedOut .. | .defined .. | .nestedPast .. | .clearing .. => True
  | .resolutionChanged .. | .finished .. | .failed .. | .collapsed .. => False

/-- The events of an outcome are routine, and after them comes a collapsed frame exactly if that is
what the work has failed with. -/
inductive Outcome.Reports {β : Type} (o : Outcome α Failure β) : Prop
  | routine (routine : ∀ event ∈ o.events, event.IsRoutine)
      (result : ∀ e, o.result = .error e → e.fault ≠ .singularFrame)
  | collapsed {before level frame e} (events_eq : o.events = before ++ [.collapsed level frame])
      (routine : ∀ event ∈ before, event.IsRoutine) (result : o.result = .error e)
      (fault : e.fault = .singularFrame)

/-- Work that has not failed reports routine events. -/
theorem Outcome.Reports.of_ok {β : Type} {o : Outcome α Failure β} {v : β} (h : o.Reports)
    (hok : o.result = .ok v) : ∀ event ∈ o.events, event.IsRoutine := by
  cases h with
  | routine routine _ => exact routine
  | collapsed _ _ result _ => cases hok.symm.trans result

/-- Routine events may come before. -/
theorem Outcome.Reports.after {β : Type} {o : Outcome α Failure β} {events : List (Event α)}
    (h : o.Reports) (hevents : ∀ event ∈ events, event.IsRoutine) (c : Canvas α) :
    Outcome.Reports ⟨o.result, c, events ++ o.events⟩ := by
  cases h with
  | routine routine result => exact .routine (List.forall_mem_append.2 ⟨hevents, routine⟩) result
  | @collapsed before level frame e events_eq routine result fault =>
    have hall : events ++ o.events = (events ++ before) ++ [.collapsed level frame] := by
      rw [events_eq, List.append_assoc]
    exact .collapsed hall (List.forall_mem_append.2 ⟨hevents, routine⟩) result fault

/-- One routine event may come before. -/
theorem Outcome.Reports.cons {β : Type} {o : Outcome α Failure β} {event : Event α}
    (h : o.Reports) (hevent : event.IsRoutine) (c : Canvas α) :
    Outcome.Reports ⟨o.result, c, event :: o.events⟩ :=
  h.after (List.forall_mem_singleton.2 hevent) c

variable [Scalar α] {b : Branch α} {t : Task α} {c : Canvas α} {o : Outcome α Failure (Value α)}

omit [Scalar α] in
/-- Of what cannot be read, only the place of the pen is reported. -/
theorem Branch.reports_report (b : Branch α) (e : Failure) (c : Canvas α) :
    Outcome.Reports (⟨.error e, c, b.report e.fault⟩ : Outcome α Failure (Value α)) := by
  by_cases hfault : e.fault = .singularFrame
  · have hlast : b.report e.fault = [] ++ [.collapsed b.level b.frame] := by
      rw [hfault]
      rfl
    exact .collapsed hlast (List.forall_mem_nil _) rfl hfault
  · have hquiet : b.report e.fault = [] := by
      unfold report
      split
      · contradiction
      · rfl
    rw [hquiet]
    refine .routine (List.forall_mem_nil _) fun e' he' => ?_
    cases he'
    exact hfault

/-- Work reports routine events, and a collapsed frame last of all if it fails for want of the
pen. -/
theorem Execution.reports (h : Execution b t c o) : o.Reports := by
  -- what is reported before a part of the work is routine, since that part is reached
  induction h with
  | block _ ih => exact ih
  | fail _ ih => exact ih
  | cons _ _ ihFirst ihLater => exact ihLater.after (ihFirst.of_ok rfl) _
  | draw _ _ _ _ ih => exact ih.cons (by trivial) _
  | self _ _ _ _ ih => exact ih.cons (by trivial) _
  | @drawUnread b c _ _ _ e _ => exact b.reports_report e c
  | @selfUnread b c _ _ e _ => exact b.reports_report e c
  | @lineUnread b c _ _ e _ => exact b.reports_report e c
  | @assignUnread b c _ _ _ e _ => exact b.reports_report e c
  -- a draw that is refused reports so, which is routine, and fails for its depth
  | drawTooDeep _ _ =>
    refine .routine (List.forall_mem_singleton.2 trivial) fun e he => ?_
    cases he
    simp [Stmt.failure]
  | _ => exact .routine (by simp [Event.IsRoutine]) (by simp)

end SelfSimilar
