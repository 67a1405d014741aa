import Mathlib.Data.List.Perm.Subperm
import SelfSimilar.Proofs.Execution.Recursion
import SelfSimilar.Proofs.Scalar.Exact
import SelfSimilar.Proofs.Session.Globals
import SelfSimilar.Proofs.Session.Nesting
import SelfSimilar.Scalar.Double

/-!
# Depth and recursion

A draw by name is refused because of its level, whatever is drawn around it. At least 65 fractals
are drawn inside one another then, so if a program has no more than 64 to draw, one of them is drawn
inside of itself. But a program may have more: in a row of 65 different fractals none is drawn
inside of itself, and the last one is refused all the same.

* `Fractal.IsGiven`: the fractals that a program can draw, all of them known from the start
* `too_deep_is_recursion_among_few`: among few fractals, a draw is refused inside of itself
* `Session.row_refused`: a row of different fractals that is longer than the limit is cut off
* `sixty_five_fractals_are_too_deep`: such a row, where no fractal is drawn inside of itself
-/

namespace SelfSimilar

variable {α : Type} [Scalar α]

/-! ## What a program can draw -/

/-- A fractal that is defined among the globals. It is bound, or its definition stands in the
program or in the body of a fractal that is bound. -/
structure Fractal.IsGiven (f : Fractal α) (program : Program α) (env : Environment (Value α)) :
    Prop where
  scope_eq : f.scope = .globals
  bound_or_defined :
    env.Binds (.fractal f) ∨ ∃ span, (Stmt.define f.name f.body span).IsGiven program env

/-- A fractal that a program defines was given when the program was begun. -/
theorem Fractal.inherited_isGiven (program : Program α) (env : Environment (Value α)) :
    Inherited (fun b => b.scope = .globals) (fun st => st.IsGiven program env)
      (fun f => f.IsGiven program env) where
  child _ _ hb := hb
  within _ hf := hf.scope_eq
  body := by
    -- a statement of the body occurs where the definition does, or in the body that is bound
    rintro f ⟨_, hf | ⟨span, hf | ⟨g, hg, hf⟩⟩⟩ st hst
    · exact .inr ⟨f, hf, hst⟩
    · exact .inl (hf.of_inner hst)
    · exact .inr ⟨g, hg, hf.of_inner hst⟩
  define hb ht := ⟨hb, .inr ⟨_, (Stmt.throughout_singleton.1 ht).1⟩⟩

/-- What is bound in two global scopes is a global value. -/
theorem Environment.IsGlobal.of_binds {env : Environment (Value α)} (h : env.IsGlobal)
    {v : Value α} (hv : env.Binds v) : v.IsGlobal := by
  obtain ⟨globals, rfl, hglobals⟩ := h
  obtain ⟨scope, hscope, id, hfind⟩ := hv
  simp only [global, List.mem_cons, List.not_mem_nil, or_false] at hscope
  rcases hscope with rfl | rfl
  · exact hglobals id v hfind
  · -- the predefined values are points
    rcases Bindings.find?_predefined.1 hfind with ⟨_, rfl⟩ | ⟨_, rfl⟩ | ⟨_, rfl⟩ <;>
      exact Value.isGlobal_of_isComputed rfl

namespace Session

/-- No action changes `maxDepth`. -/
theorem maxDepth_after (frame : Frame α) (settings : Settings α) (actions : List (Action α)) :
    ((start frame settings).after actions).settings.maxDepth = settings.maxDepth := by
  refine after_induct (fun s => s.settings.maxDepth = settings.maxDepth) rfl (fun s a hs => ?_)
    actions
  cases a with
  | run program =>
    show (s.run program).session.settings.maxDepth = settings.maxDepth
    rw [session_run]
    exact hs
  | _ => exact hs

/-- All fractals that are known in the course of a run were given when the program was begun. -/
theorem knowsOnly_isGiven {frame : Frame α} {settings : Settings α} {actions : List (Action α)}
    {program : Program α} {b : Branch α} {st : Stmt α} {c : Canvas α} :
    let s := (start frame settings).after actions
    Visits s.root (.all .origin program) s.canvas b st c →
      c.KnowsOnly fun f => f.IsGiven program s.canvas.env := by
  intro s hv
  have hactive : s.canvas.active = [] := active_after frame settings actions
  have hglobal : s.canvas.env.IsGlobal := isGlobal_after frame settings actions
  have hknown : s.canvas.KnowsOnly fun f => f.IsGiven program s.canvas.env :=
    .of_binds hactive fun f hf => ⟨(hglobal.of_binds hf).scope_eq f rfl, .inl hf⟩
  exact (hv.knowsOnly (Fractal.inherited_isGiven program s.canvas.env) rfl
    (fun st hst => .inl hst) hknown).2.2

end Session

/-- If a program fails because of its depth after any actions of a session, then at least 64
fractals are active at the draw that is refused, and all of them, as well as the fractal that was to
be drawn, were given when the program was begun. So if no more than 64 fractals were given, one of
them is drawn inside of itself. -/
theorem too_deep_is_recursion_among_few (frame : Frame α) (settings : Settings α)
    (hmargin : settings.maxDepth + 64 ≤ 4294967295) (actions : List (Session.Action α))
    (program : Program α) (e : Failure) (limit : Nat)
    (h : (((Session.start frame settings).after actions).run program).value = .error e)
    (hfault : e.fault = .tooDeep limit) :
    let s := (Session.start frame settings).after actions
    ∃ b st c f, Visits s.root (.all .origin program) s.canvas b st c ∧ Refuses b c st f ∧
      (b.run st c).result = .error e ∧ 64 ≤ c.active.length ∧
      (∀ g ∈ f :: c.active, g.IsGiven program s.canvas.env) ∧
      ∀ given : List (Fractal α), (∀ g : Fractal α, g.IsGiven program s.canvas.env → g ∈ given) →
        given.length ≤ 64 → ¬ (f :: c.active).Nodup := by
  intro s
  have hmargin' : s.settings.maxDepth + 64 ≤ 4294967295 := by
    rw [Session.maxDepth_after frame settings actions]
    exact hmargin
  obtain ⟨draws, b, st, c, f, hinside, hf, hrun, _, _, _, hnamed⟩ :=
    Session.refused hmargin' h hfault
  -- the fractals that are drawn by name are active
  have hactive : 64 ≤ c.active.length := by
    rw [hinside.active_eq, List.length_append]
    omega
  -- the refused fractal is bound, and the others are active, so all of them are known
  have hgiven : ∀ g ∈ f :: c.active, g.IsGiven program s.canvas.env := by
    have hknown := Session.knowsOnly_isGiven hinside.visits
    intro g hg
    rcases List.mem_cons.1 hg with rfl | hg
    · exact hknown g (.inl hf.binds)
    · exact hknown g (.inr hg)
  refine ⟨b, st, c, f, hinside.visits, hf, hrun, hactive, hgiven, fun given hall hfew hnodup => ?_⟩
  -- 65 different fractals cannot all be among 64
  have hsub : f :: c.active ⊆ given := fun g hg => hall g (hgiven g hg)
  have hcount := (List.subperm_of_subset hnodup hsub).length_le
  rw [List.length_cons] at hcount
  omega

/-- A fractal that draws itself by its name is the only one that is given, so it is drawn inside of
itself. -/
theorem too_deep_is_recursion_among_few_one :
    let named : Stmt ℚ := .draw "f" (.between .origin .xUnit) {}
    let program : Program ℚ := [.define "f" [named] {}, named]
    let s : Session ℚ := .start .identity ⟨1, 3⟩
    let e : Failure := named.failure (.tooDeep 67)
    (s.settings.maxDepth + 64 ≤ 4294967295 ∧ (s.run program).value = .error e) ∧
      (∀ g : Fractal ℚ, g.IsGiven program s.canvas.env → g ∈ [⟨"f", [named], .globals⟩]) ∧
      ∃ b st c f, Visits s.root (.all .origin program) s.canvas b st c ∧ Refuses b c st f ∧
        (b.run st c).result = .error e ∧ ¬ (f :: c.active).Nodup := by
  intro named program s e
  have hmargin : s.settings.maxDepth + 64 ≤ 4294967295 := by decide
  have hfails : (s.run program).value = .error e := by decide +kernel
  have hgiven : ∀ g : Fractal ℚ, g.IsGiven program s.canvas.env →
      g ∈ [⟨"f", [named], .globals⟩] := by
    -- the program has no definition but the one of `f`
    have hdefined : Stmt.Throughout (fun st => ∀ name body span, st = .define name body span →
        name = "f" ∧ body = [named]) program := by
      simp [program, named, Stmt.throughout_cons_iff, Stmt.inner]
    rintro ⟨name, body, scope⟩ ⟨hscope, hg | ⟨span, hg | ⟨f, hf, _⟩⟩⟩
    · exact absurd (.inl hg) (Canvas.not_knows_fresh _ _)
    · obtain ⟨rfl, rfl⟩ := hdefined _ hg name body span rfl
      cases hscope
      exact List.mem_cons_self
    · exact absurd (.inl hf) (Canvas.not_knows_fresh _ f)
  obtain ⟨b, st, c, f, hv, hf, hrun, _, _, hrepeated⟩ :=
    too_deep_is_recursion_among_few .identity ⟨1, 3⟩ hmargin [] program e 67 hfails rfl
  exact ⟨⟨hmargin, hfails⟩, hgiven, b, st, c, f, hv, hf, hrun, hrepeated _ hgiven (by simp)⟩

/-! ## Rows of different fractals -/

/-- After any actions of a session, a row of different fractals that is longer than the limit is cut
off at a fractal that is not active, and the active ones are different from one another too. -/
theorem Session.row_refused (frame : Frame α) (settings : Settings α)
    (actions : List (Session.Action α)) {names : List String} (hnames : names.Nodup) :
    let s := (start frame settings).after actions
    s.settings.depthLimit < names.length →
    ∃ b st c f, Visits s.root (.all .origin (Program.row names)) s.canvas b st c ∧
      Refuses b c st f ∧
      (s.run (Program.row names)).value = .error (st.failure (.tooDeep s.settings.depthLimit)) ∧
      (b.run st c).result = .error (st.failure (.tooDeep s.settings.depthLimit)) ∧
      (f :: c.active).Nodup := by
  intro s hlong
  have hactive : s.canvas.active = [] := active_after frame settings actions
  -- programs are begun on level 0
  have hlong' : s.root.depthLimit < s.root.level + names.length := by
    rw [show s.root.level = 0 from rfl, Nat.zero_add]
    exact hlong
  obtain ⟨b, st, c, f, before, hv, hf, hstack, hrow⟩ :=
    Visits.exists_row_refused (Nat.le_of_lt (Branch.root_level_lt_depthLimit ..)) hlong' rfl
      (isGlobal_after frame settings actions) hnames
  have hrun : (b.run st c).result = .error (st.failure (.tooDeep s.settings.depthLimit)) := by
    obtain ⟨name, hperform⟩ := hf.perform_eq
    rw [Branch.depthLimit_eq hv.settings_eq] at hperform
    exact congrArg Outcome.result hperform
  refine ⟨b, st, c, f, hv, hf, ?_, hrun, ?_⟩
  · exact value_run_of_error (execution_perform _ _ _) (hv.perform_eq_error hrun)
  · -- the active fractals and the refused one stand in the row, in opposite order
    have hdifferent : (before ++ [f]).Nodup := hrow.sublist.nodup (Fractal.nodup_row hnames)
    rw [hstack, hactive, List.append_nil, ← List.nodup_reverse]
    simpa using hdifferent

/-- In a session that is begun with no level for SELF, 65 fractals draw one another in a row. All of
them are different, also by their names, and the last one is refused. -/
theorem sixty_five_fractals_are_too_deep :
    let names := (List.range 65).map fun n => "f" ++ toString n
    let s : Session Float := .start .identity ⟨1, 0⟩
    ∃ e b st c f, (s.run (Program.row names)).value = .error e ∧ e.fault = .tooDeep 64 ∧
      Visits s.root (.all .origin (Program.row names)) s.canvas b st c ∧ Refuses b c st f ∧
      (b.run st c).result = .error e ∧ (f :: c.active).Nodup := by
  intro names s
  have hnames : names.Nodup := by decide +kernel
  have hlong : s.settings.depthLimit < names.length := by decide +kernel
  obtain ⟨b, st, c, f, hv, hf, hvalue, hrun, hdifferent⟩ :=
    Session.row_refused (.identity : Frame Float) ⟨1, 0⟩ [] hnames hlong
  exact ⟨_, b, st, c, f, hvalue, rfl, hv, hf, hrun, hdifferent⟩

end SelfSimilar
