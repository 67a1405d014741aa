import Mathlib.Data.List.Forall2
import SelfSimilar.Proofs.Execution.Bare
import SelfSimilar.Proofs.Execution.Events
import SelfSimilar.Proofs.Session.Rewriting
import SelfSimilar.Scalar.Double

/-!
# Sessions of bare programs

Programs that differ only in the places of their nodes and in the sorts of their names have the same
bare forms, and a session of bare programs is the bare form of the session. So two sessions that are
fed with such programs never come to differ in more than that: in the bodies that they store, and in
the places that failures name.

* `Session.run_bare`, `Session.after_bare`: the session of the bare programs
* `places_and_sorts_are_for_messages`: two sessions with the same bare forms
-/

namespace SelfSimilar

variable {α : Type}

/-- The event without the place of the failure that it reports. -/
def Event.bare : Event α → Event α
  | .failed e => .failed e.bare
  | event => event

/-- The session in which all known fractals have bare bodies. -/
def Session.bare (s : Session α) : Session α := { s with canvas := s.canvas.bare }

/-- The same action with a bare program. -/
def Session.Action.bare : Session.Action α → Session.Action α
  | .run program => .run (program.map Stmt.bare)
  | action => action

/-- The reply with a bare failure, in the bare session. -/
def Reply.bare {β : Type} (reply : Reply α (Except Failure β)) : Reply α (Except Failure β) :=
  ⟨reply.value.mapError Failure.bare, reply.session.bare, reply.events.map Event.bare⟩

/-- Two events are the same, or they report failures that differ only in their places. -/
inductive Event.SameButPlace : Event α → Event α → Prop
  | same {event} : SameButPlace event event
  | failed {e span} : SameButPlace (.failed e) (.failed { e with span })

/-! ## Bare events -/

/-- Routine events report no failure, so they have no place. -/
theorem Event.IsRoutine.bare_eq {event : Event α} (h : event.IsRoutine) : event.bare = event := by
  cases event with
  | failed _ => exact h.elim
  | _ => rfl

/-- Only a whole program reports a failure. -/
theorem Outcome.Reports.map_bare {β : Type} {o : Outcome α Failure β} (h : o.Reports) :
    o.events.map Event.bare = o.events := by
  have hroutine : ∀ {events : List (Event α)}, (∀ event ∈ events, event.IsRoutine) →
      events.map Event.bare = events :=
    fun h => (List.map_congr_left fun event mem => (h event mem).bare_eq).trans (List.map_id _)
  -- the events of work are routine, and a collapsed frame is no failure yet
  cases h with
  | routine routine _ => exact hroutine routine
  | collapsed events_eq routine _ _ =>
    rw [events_eq, List.map_append, hroutine routine]
    rfl

/-- Failures with the same bare form differ in their places only. -/
theorem Failure.eq_of_bare_eq {e₁ e₂ : Failure} (h : e₁.bare = e₂.bare) :
    e₂ = { e₁ with span := e₂.span } := by
  rcases e₁ with ⟨fault₁, node₁, span₁⟩
  rcases e₂ with ⟨fault₂, node₂, span₂⟩
  cases h
  rfl

/-- Events with the same bare form are the same, but for the place of a failure. -/
theorem Event.sameButPlace_of_bare_eq {event₁ event₂ : Event α} (h : event₁.bare = event₂.bare) :
    event₁.SameButPlace event₂ := by
  cases event₁ with
  | failed e₁ =>
    cases event₂ with
    | failed e₂ =>
      rw [Failure.eq_of_bare_eq (Event.failed.inj h)]
      exact .failed
    | _ => cases h
  | _ =>
    cases event₂ with
    | failed e₂ => cases h
    | _ => cases h <;> exact .same

variable [Scalar α]

/-! ## Bare sessions -/

/-- A bare program in a bare session has the bare reply. -/
theorem Session.run_bare (s : Session α) (program : Program α) :
    s.bare.run (program.map Stmt.bare) = (s.run program).bare := by
  have hex := execution_perform s.root (.all .origin program) s.canvas
  have hevents := hex.reports.map_bare
  have hbare : Execution s.bare.root (.all .origin (program.map Stmt.bare)) s.bare.canvas _ :=
    hex.bare
  -- the reply is read off the work, and the work of the bare program is the bare work
  rcases run_cases hex with ⟨p, hp, hrun⟩ | ⟨e, he, hrun⟩
  · have hp' := congrArg (fun r => (r.mapError Failure.bare).map (Value.rewrite Stmt.bare)) hp
    rw [run_of_ok hbare hp', hrun, Reply.bare, List.map_append, hevents]
    rfl
  · have he' := congrArg (fun r => (r.mapError Failure.bare).map (Value.rewrite Stmt.bare)) he
    rw [run_of_error hbare he', hrun, Reply.bare, List.map_append, hevents]
    rfl

/-- What programs have bound is forgotten, and the predefined values are no fractals. -/
theorem Canvas.bare_fresh (frame : Frame α) : (fresh frame).bare = fresh frame := by
  simp only [bare, fresh, Environment.map_rewrite_predefined]
  rfl

/-- A bare action in the bare session leaves the bare session. -/
theorem Session.perform_bare (s : Session α) (a : Action α) :
    s.bare.perform a.bare = (s.perform a).bare := by
  cases a with
  | run program => exact congrArg Reply.session (s.run_bare program)
  | clear => rfl
  | reset =>
    show start s.frame s.settings = (start s.frame s.settings).bare
    rw [bare, start, Canvas.bare_fresh]
  | forget =>
    show { s.bare with canvas := s.canvas.bare.forget } = s.forget.session.bare
    simp only [bare, forget, Canvas.bare, Canvas.forget, Environment.clear_map]
  | setResolution resolution => rfl

/-- Bare actions in the bare session leave the bare session. -/
theorem Session.after_bare (s : Session α) (actions : List (Action α)) :
    s.bare.after (actions.map Action.bare) = (s.after actions).bare := by
  induction actions generalizing s with
  | nil => rfl
  | cons a rest ih =>
    simp only [after, List.map_cons, List.foldl_cons] at ih ⊢
    rw [perform_bare, ih]

/-! ## Replies with the same bare forms -/

/-- Results with the same bare form are the same value, or the same failure at two places. -/
theorem eq_of_mapError_bare_eq {β : Type} {x y : Except Failure β}
    (h : x.mapError Failure.bare = y.mapError Failure.bare) :
    (∃ v, x = .ok v ∧ y = .ok v) ∨ ∃ e span, x = .error e ∧ y = .error { e with span } := by
  cases x with
  | ok v =>
    cases y with
    | ok w => cases h; exact .inl ⟨v, rfl, rfl⟩
    | error e => cases h
  | error e₁ =>
    cases y with
    | ok w => cases h
    | error e₂ => exact .inr ⟨e₁, e₂.span, rfl,
        congrArg Except.error (Failure.eq_of_bare_eq (Except.error.inj h))⟩

/-- Two equal sessions are fed with actions whose programs differ only in the places of their nodes
and in the sorts of their names. Then each program has the same reply in both: the same rendering,
or the same failure at another place. It leaves the same path and hash, the same bindings and active
fractals but for the places and sorts in their bodies, and it reports the same events but for the
place of its failure. -/
theorem places_and_sorts_are_for_messages (s : Session α)
    (actions₁ actions₂ : List (Session.Action α))
    (hactions : actions₁.map Session.Action.bare = actions₂.map Session.Action.bare)
    (program₁ program₂ : Program α) (hprogram : program₁.map Stmt.bare = program₂.map Stmt.bare) :
    let reply₁ := (s.after actions₁).run program₁
    let reply₂ := (s.after actions₂).run program₂
    ((∃ r, reply₁.value = .ok r ∧ reply₂.value = .ok r) ∨
      ∃ e span, reply₁.value = .error e ∧ reply₂.value = .error { e with span }) ∧
    reply₁.session.canvas.path = reply₂.session.canvas.path ∧
    reply₁.session.bare = reply₂.session.bare ∧
    (∀ id, (reply₁.session.binding id).map (Value.rewrite Stmt.bare) =
      (reply₂.session.binding id).map (Value.rewrite Stmt.bare)) ∧
    List.Forall₂ Event.SameButPlace reply₁.events reply₂.events := by
  intro reply₁ reply₂
  -- both replies have the bare form of the reply to the bare program in the bare session
  have hbare : reply₁.bare = reply₂.bare := by
    rw [← Session.run_bare, ← Session.run_bare, ← Session.after_bare, ← Session.after_bare,
      hactions, hprogram]
  have hsession : reply₁.session.bare = reply₂.session.bare := congrArg Reply.session hbare
  have hevents : reply₁.events.map Event.bare = reply₂.events.map Event.bare :=
    congrArg Reply.events hbare
  -- each part of the replies is read off that bare form
  refine ⟨eq_of_mapError_bare_eq (congrArg Reply.value hbare),
    congrArg (fun s => s.canvas.path) hsession, hsession, fun id => ?_, ?_⟩
  · rw [Session.binding, Session.binding, ← Environment.lookup_map, ← Environment.lookup_map]
    exact congrArg (fun s => s.canvas.env.lookup .globals id) hsession
  · rw [← List.forall₂_eq_eq_eq, List.forall₂_map_left_iff, List.forall₂_map_right_iff] at hevents
    exact hevents.imp fun _ _ h => Event.sameButPlace_of_bare_eq h

/-- A fractal whose body adds a point and a fractal is drawn by a later program, twice with other
places and another sort. -/
theorem places_and_sorts_are_for_messages_body :
    let sum (sort : NameSort) (span : Span) : Expr Float :=
      .binary .add (.name sort "X" span) (.name .fractal "f" span) span
    let actions (sort : NameSort) (span : Span) : List (Session.Action Float) :=
      [.run [.define "f" [.line ⟨none, sum sort span⟩ span] span]]
    let program (span : Span) : Program Float := [.draw "f" (.between .origin .xUnit) span]
    let s : Session Float := .start .identity .standard
    let reply (sort : NameSort) (span : Span) := (s.after (actions sort span)).run (program span)
    let e (span : Span) : Failure := ⟨.kindMismatch .point .fractal, "(X + f)", span⟩
    ((actions .point ⟨1, 7⟩).map Session.Action.bare =
        (actions .number ⟨2, 0⟩).map Session.Action.bare ∧
      (program ⟨1, 7⟩).map Stmt.bare = (program ⟨2, 0⟩).map Stmt.bare) ∧
      (reply .point ⟨1, 7⟩).value = .error (e ⟨1, 7⟩) ∧
      (reply .number ⟨2, 0⟩).value = .error (e ⟨2, 0⟩) ∧
      (reply .point ⟨1, 7⟩).session.canvas.path = (reply .number ⟨2, 0⟩).session.canvas.path ∧
      List.Forall₂ Event.SameButPlace (reply .point ⟨1, 7⟩).events
        (reply .number ⟨2, 0⟩).events := by
  intro sum actions program s reply e
  obtain ⟨_, hpath, _, _, hevents⟩ := places_and_sorts_are_for_messages s (actions .point ⟨1, 7⟩)
    (actions .number ⟨2, 0⟩) rfl (program ⟨1, 7⟩) (program ⟨2, 0⟩) rfl
  exact ⟨⟨rfl, rfl⟩, rfl, rfl, hpath, hevents⟩

end SelfSimilar
