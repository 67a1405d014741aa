import SelfSimilar.Proofs.Execution.Globals
import SelfSimilar.Proofs.Session.History
import SelfSimilar.Scalar.Double

/-!
# Globals of a session

All actions of a session leave the two scopes that it starts with: the predefined points, and the
globals inside them.

* `Session.isGlobal_after`: the environment after any actions
* `bindings_stay_global`: what is bound where, and what is left when the bindings are forgotten
-/

namespace SelfSimilar

variable {α : Type} [Scalar α]

namespace Session

/-- An action leaves two scopes, with computed values and global fractals in the inner one. -/
theorem isGlobal_perform {s : Session α} (a : Action α) (h : s.canvas.env.IsGlobal) :
    (s.perform a).canvas.env.IsGlobal := by
  cases a with
  | run program =>
    exact perform_run_induct (fun c => c.env.IsGlobal) fun _ hex => hex.isGlobal rfl h
  | clear => exact h
  | reset => exact Environment.isGlobal_predefined
  -- to forget leaves the environment that a session starts with
  | forget =>
    have hforget : (s.perform .forget).canvas.env = .predefined := h.clear
    rw [hforget]
    exact Environment.isGlobal_predefined
  | setResolution resolution => exact h

/-- So do any actions. -/
theorem isGlobal_after (frame : Frame α) (settings : Settings α) (actions : List (Action α)) :
    ((start frame settings).after actions).canvas.env.IsGlobal :=
  after_induct (fun s => s.canvas.env.IsGlobal) Environment.isGlobal_predefined
    (fun _ a => isGlobal_perform a) actions

/-- When the bindings are forgotten, the predefined points are left. -/
theorem binding_forget {s : Session α} (h : s.canvas.env.IsGlobal) {id : String} {v : Value α} :
    s.forget.session.binding id = .ok v ↔
      (Bindings.predefined : Bindings (Value α)).find? id = some v := by
  have henv : s.forget.session.canvas.env = .global .empty := h.clear
  rw [binding, henv, Environment.lookup_global]
  simp

end Session

/-- After any actions of a session there are two scopes: the oldest one, which binds the three
predefined points and nothing else, and the globals inside it, which bind numbers, points and
fractals that were defined among the globals. So when the bindings are forgotten, the predefined
points are what is found. -/
theorem bindings_stay_global (frame : Frame α) (settings : Settings α)
    (actions : List (Session.Action α)) :
    let s := (Session.start frame settings).after actions
    s.canvas.env.scopeCount = 2 ∧
    (∃ scope, Scope.at? s.canvas.env.scopes ScopeId.root.index = some scope ∧
      scope.parent = none ∧
      ∀ id v, scope.bindings.find? id = some v ↔
        (id = "O" ∧ v = .point ⟨0, 0⟩) ∨ (id = "X" ∧ v = .point ⟨1, 0⟩) ∨
          (id = "Y" ∧ v = .point ⟨0, 1⟩)) ∧
    (∃ scope, Scope.at? s.canvas.env.scopes ScopeId.globals.index = some scope ∧
      scope.parent = some .root ∧
      ∀ id v, scope.bindings.find? id = some v →
        v.kind ≠ .noValue ∧ ∀ f, v = .fractal f → f.scope = .globals) ∧
    ∀ id v, s.forget.session.binding id = .ok v ↔
      (id = "O" ∧ v = .point ⟨0, 0⟩) ∨ (id = "X" ∧ v = .point ⟨1, 0⟩) ∨
        (id = "Y" ∧ v = .point ⟨0, 1⟩) := by
  intro s
  have hs : s.canvas.env.IsGlobal := Session.isGlobal_after frame settings actions
  obtain ⟨globals, henv, hglobals⟩ := Session.isGlobal_after frame settings actions
  -- the number of scopes, the oldest one, the globals, and what is left when they are forgotten
  refine ⟨by rw [henv]; rfl, ⟨_, by rw [henv]; rfl, rfl, ?_⟩, ⟨_, by rw [henv]; rfl, rfl, ?_⟩, ?_⟩
  · exact fun id v => Bindings.find?_predefined
  · exact fun id v hv => ⟨(hglobals id v hv).kind_ne, (hglobals id v hv).scope_eq⟩
  · exact fun id v => (Session.binding_forget hs).trans Bindings.find?_predefined

/-- A fractal that is defined by the name of a predefined point hides the point until the bindings
are forgotten. -/
theorem bindings_stay_global_hidden :
    let f : Fractal Float := ⟨"O", [.line (.between .origin .xUnit) {}], .globals⟩
    let program : Program Float := [.define "O" f.body {}]
    let s := (Session.start .identity .standard : Session Float).after [.run program]
    s.binding "O" = .ok (.fractal f) ∧
    (∃ scope, Scope.at? s.canvas.env.scopes ScopeId.globals.index = some scope ∧
      scope.bindings.find? "O" = some (.fractal f) ∧ f.scope = .globals) ∧
    s.forget.session.binding "O" = .ok (.point ⟨0, 0⟩) := by
  intro f program s
  obtain ⟨_, _, ⟨scope, hat, _, hglobals⟩, hforget⟩ :=
    bindings_stay_global (.identity : Frame Float) .standard [.run program]
  have hscope : Scope.at? s.canvas.env.scopes ScopeId.globals.index =
      some ⟨some .root, Bindings.empty.insert "O" (.fractal f)⟩ := rfl
  have hfind : scope.bindings.find? "O" = some (.fractal f) := by
    obtain rfl := Option.some.inj (hat.symm.trans hscope)
    rfl
  obtain ⟨_, hdefined⟩ := hglobals "O" (.fractal f) hfind
  exact ⟨rfl, ⟨scope, hat, hfind, hdefined f rfl⟩, (hforget "O" _).2 (.inl ⟨rfl, rfl⟩)⟩

end SelfSimilar
