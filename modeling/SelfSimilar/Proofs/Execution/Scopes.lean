import SelfSimilar.Proofs.Execution.Descent
import SelfSimilar.Scalar.Double

/-!
# Scopes of bodies

The body of a fractal is run in the scope that the fractal was defined in, wherever it is drawn
from. A draw by name goes there by itself. SELF stays in the scope of its branch, which is that of
the fractal, because all through a body SELF stands for the fractal of that body.

* `Branch.SelfInScope`: SELF stands for a fractal that was defined in the scope of the branch
* `Draws.scope_eq`, `Visits.selfInScope`: so it is everywhere in the course of a run
* `Execution.at?_eq`: a scope in which nothing is run stays as it is
* `bodies_run_in_their_scopes`: both together
-/

namespace SelfSimilar

/-- A binding changes no other scope. -/
theorem Environment.at?_bind {β : Type} (env : Environment β) {scope scope' : ScopeId} (id : String)
    (v : β) (h : scope' ≠ scope) :
    Scope.at? (env.bind scope id v).scopes scope'.index = Scope.at? env.scopes scope'.index := by
  have hindex : scope'.index ≠ scope.index := fun hsame => h (congrArg ScopeId.mk hsame)
  rw [bind, Scope.at?_update, if_neg hindex]

variable {α : Type} [Scalar α]

/-- SELF stands for no fractal, or for one that was defined in the scope of the branch. -/
def Branch.SelfInScope (b : Branch α) (c : Canvas α) : Prop :=
  ∀ f, c.current = .ok f → f.scope = b.scope

/-- The statement `s`, begun on the branch `b` and the canvas `c`, is run in a scope: names are
looked up there, values are bound there, and a definition captures it. -/
structure Branch.RunsIn (b : Branch α) (scope : ScopeId) (s : Stmt α) (c : Canvas α) : Prop where
  lookup_eq : ∀ id, b.lookup c id = c.env.lookup scope id
  assign_eq : ∀ id value span v, s = .assign id value span → value.eval b c = .ok v →
    (b.run s c).canvas.env = c.env.bind scope id v
  define_eq : ∀ name body span, s = .define name body span →
    (b.run s c).result = .ok (.fractal ⟨name, body, scope⟩) ∧
      (b.run s c).canvas.env = c.env.bind scope name (.fractal ⟨name, body, scope⟩)

section

variable {b b' child : Branch α} {t : Task α} {c d c' : Canvas α} {s : Stmt α} {f : Fractal α}
  {o : Outcome α Failure (Value α)} {scope : ScopeId}

/-- A statement is run in the scope of its branch. -/
theorem Branch.runsIn (b : Branch α) (s : Stmt α) (c : Canvas α) : b.RunsIn b.scope s c where
  lookup_eq _ := rfl
  assign_eq := by
    rintro id value span v rfl hv
    exact congrArg (·.canvas.env) (perform_assign_of_ok hv)
  define_eq := by
    rintro name body span rfl
    exact ⟨rfl, rfl⟩

/-! ## The scope of a body -/

omit [Scalar α] in
/-- Only the active fractals and the scope of the branch matter. -/
theorem Branch.SelfInScope.of_active_eq (h : b.SelfInScope c) (hactive : d.active = c.active) :
    b.SelfInScope d := by
  intro f hf
  refine h f ?_
  rw [Canvas.current_eq_ok, ← hactive]
  exact Canvas.current_eq_ok.1 hf

/-- A body is run in the scope that its fractal was defined in. -/
theorem Draws.scope_eq (h : Draws b c s f child d) (hself : b.SelfInScope c) :
    child.scope = f.scope := by
  cases h with
  | named _ _ derived => rw [derived]; rfl
  -- SELF stays on its branch, whose scope is that of the fractal already
  | self read _ derived =>
    rw [derived]
    exact (hself f (Stmt.selfDraw_eq_ok.1 read).1).symm

/-- SELF stands for that fractal there. -/
theorem Draws.selfInScope (h : Draws b c s f child d) (hself : b.SelfInScope c) :
    child.SelfInScope d := by
  intro g hg
  rw [h.current_eq] at hg
  cases hg
  exact (h.scope_eq hself).symm

/-- All through a run, SELF stands for fractals that were defined where it is run. -/
theorem Visits.selfInScope (h : Visits b t c b' s c') (hself : b.SelfInScope c) :
    b'.SelfInScope c' := by
  induction h with
  | meets met => exact hself.of_active_eq met.active_eq
  | drawn met draws _ ih => exact ih (draws.selfInScope (hself.of_active_eq met.active_eq))

/-! ## What is left alone -/

/-- A scope in which no statement is run stays as it is, however the run ends. -/
theorem Execution.at?_eq (h : Execution b t c o)
    (hscope : ∀ b' s d, Visits b t c b' s d → scope ≠ b'.scope) :
    Scope.at? o.canvas.env.scopes scope.index = Scope.at? c.env.scopes scope.index := by
  induction h with
  | block _ ih => exact ih fun _ _ _ hv => hscope _ _ _ hv.block
  | define => exact Environment.at?_bind _ _ _ (hscope _ _ _ (.meets .here))
  | assign _ => exact Environment.at?_bind _ _ _ (hscope _ _ _ (.meets .here))
  | draw read room derived _ ih =>
    -- to go into a body and back binds nothing
    exact ih fun _ _ _ hv => hscope _ _ _ (.drawn .here (.named read room derived) hv)
  | self read large derived _ ih =>
    exact ih fun _ _ _ hv => hscope _ _ _ (.drawn .here (.self read large derived) hv)
  | selfLine _ _ => rw [Branch.env_lined]
  | line _ => rw [Branch.env_lined]
  | fail _ ih => exact ih fun _ _ _ hv => hscope _ _ _ hv.first
  | cons first _ ihFirst ihLater =>
    exact (ihLater fun _ _ _ hv => hscope _ _ _ (hv.later first.eq_perform)).trans
      (ihFirst fun _ _ _ hv => hscope _ _ _ hv.first)
  | _ => rfl

/-- What is defined in a set of scopes captures one of them, and what is drawn goes to one of
them. -/
theorem inherited_scope (S : ScopeId → Prop) :
    Inherited (α := α) (fun b => S b.scope) (fun _ => True) (fun f => S f.scope) where
  child _ _ hb := hb
  within _ hf := hf
  body _ _ _ := trivial
  define hb _ := hb

/-- All that is run is run in the scope that the work is begun in or in that of a fractal that was
known then. -/
theorem Visits.scope_eq_or (h : Visits b t c b' s c') :
    b'.scope = b.scope ∨ ∃ f, c.Knows f ∧ f.scope = b'.scope := by
  -- the scope of the work and those of the known fractals are closed under drawing and defining
  have hinherited := inherited_scope (α := α) fun scope =>
    scope = b.scope ∨ ∃ f, c.Knows f ∧ f.scope = scope
  exact (h.knowsOnly hinherited (.inl rfl) (fun _ _ => trivial)
    fun f hf => .inr ⟨f, hf, rfl⟩).1

end

/-- Work is begun on any branch and any canvas on which SELF stands for no fractal or for one that
was defined in the scope of the branch. A statement in its course stands in the work itself, and is
run in the scope of the branch, or it is met in the body of a fractal, and is run in the scope that
the fractal was defined in. After a draw the statements go on in the scope of the draw, and SELF
stands for a fractal of that scope again. So all scopes but the one that the work is begun in, and
those of the fractals that are known then, stay as they are, however the work ends. -/
theorem bodies_run_in_their_scopes (b : Branch α) (c : Canvas α) (hself : b.SelfInScope c)
    (t : Task α) :
    (∀ b' s c', Visits b t c b' s c' →
      (b' = b ∧ Meets b t c s c' ∧ b.RunsIn b.scope s c') ∨
      ∃ b₁ s₁ c₁ f d, Visits b t c b₁ s₁ c₁ ∧ Draws b₁ c₁ s₁ f b' d ∧
        Meets b' (.all .origin f.body) d s c' ∧ b'.RunsIn f.scope s c') ∧
    (∀ b' s c' f child d, Visits b t c b' s c' → Draws b' c' s f child d →
      (∀ s' e, Meets child (.all .origin f.body) d s' e → child.RunsIn f.scope s' e) ∧
      b'.SelfInScope (b'.run s c').canvas ∧
      ∀ v e events sum rest, b'.run s c' = ⟨.ok v, e, events⟩ →
        b'.perform (.all sum (s :: rest)) c' =
          let o := b'.perform (.all (v.addTo sum) rest) e
          ⟨o.result, o.canvas, events ++ o.events⟩) ∧
    ∀ scope, scope ≠ b.scope → (∀ f, c.Knows f → f.scope ≠ scope) →
      Scope.at? (b.perform t c).canvas.env.scopes scope.index =
        Scope.at? c.env.scopes scope.index := by
  -- a body is run where its fractal was defined, whoever draws it
  have hbody : ∀ b' s c' f child d, Visits b t c b' s c' → Draws b' c' s f child d →
      ∀ s' e, child.RunsIn f.scope s' e := by
    intro b' s c' f child d hv hdraws s' e
    rw [← hdraws.scope_eq (hv.selfInScope hself)]
    exact child.runsIn s' e
  refine ⟨fun b' s c' hv => ?_, fun b' s c' f child d hv hdraws => ⟨?_, ?_, ?_⟩,
    fun scope hscope hknown => ?_⟩
  -- a statement stands in the work itself, or in the body that was drawn last
  · rcases hv.meets_or_drawn with ⟨rfl, met⟩ | ⟨b₁, s₁, c₁, f, d, hv₁, hdraws, met⟩
    · exact .inl ⟨rfl, met, b'.runsIn s c'⟩
    · exact .inr ⟨b₁, s₁, c₁, f, d, hv₁, hdraws, met, hbody b₁ s₁ c₁ f b' d hv₁ hdraws s c'⟩
  · exact fun s' e _ => hbody b' s c' f child d hv hdraws s' e
  · exact (hv.selfInScope hself).of_active_eq (execution_perform b' (.one s) c').active_eq
  · exact fun v e events sum rest hrun => Branch.perform_cons_of_ok hrun
  -- what is run in the scope would be run there for one of the known fractals
  · refine (execution_perform b t c).at?_eq fun b' s d hv => ?_
    rcases hv.scope_eq_or with hb' | ⟨f, hf, hb'⟩
    · rwa [hb']
    · rw [← hb']
      exact (hknown f hf).symm

/-- A fractal that was defined in one scope is drawn from another one, and assigns a value. -/
theorem bodies_run_in_their_scopes_elsewhere :
    let value : Expr Float := .literal (.int 1) {}
    let f : Fractal Float := ⟨"f", [.assign "k" value {}], ⟨2⟩⟩
    let draw : Stmt Float := .draw "f" (.between .origin .xUnit) {}
    let env : Environment (Value Float) :=
      ((Environment.predefined.push .globals).2.push .globals).2
    let c : Canvas Float :=
      { Canvas.fresh .identity with env := env.bind .globals "f" (.fractal f) }
    let b : Branch Float := (Branch.root .standard .identity).within ⟨3⟩
    let child := (b.child .origin .xUnit).within ⟨2⟩
    let d := (child.moveTo .origin c).start f
    b.SelfInScope c ∧ Draws b c draw f child d ∧
      (child.run (.assign "k" value {}) d).canvas.env = c.env.bind ⟨2⟩ "k" (.int 1) ∧
      Scope.at? (b.run draw c).canvas.env.scopes 1 = Scope.at? c.env.scopes 1 := by
  intro value f draw env c b child d
  have hself : b.SelfInScope c := by
    rintro g ⟨⟩
  have hdraws : Draws b c draw f child d := .named rfl (by decide) rfl
  -- the one fractal that is known has captured a scope of its own
  have hknown : ∀ g, c.Knows g → g.scope ≠ .globals := by
    rintro g (hg | hg)
    · rcases Environment.binds_bind hg with hg | hg
      · cases hg
        decide
      · have hfresh := Environment.binds_of_push (Environment.binds_of_push hg)
        exact absurd (.inl hfresh) (Canvas.not_knows_fresh .identity g)
    · cases hg
  obtain ⟨_, hbody, hframe⟩ := bodies_run_in_their_scopes b c hself (.one draw)
  obtain ⟨hruns, _⟩ := hbody b draw c f child d (.meets .here) hdraws
  have hassign :=
    (hruns (.assign "k" value {}) d (.first .here)).assign_eq "k" value {} (.int 1) rfl rfl
  exact ⟨hself, hdraws, hassign, hframe .globals (by decide) hknown⟩

end SelfSimilar
