import SelfSimilar.Proofs.Execution.Kinds
import SelfSimilar.Proofs.Execution.Visits
import SelfSimilar.Proofs.Program.Occurrence

/-!
# Bodies within reach

The bodies that a run executes are values: they are fetched from the bindings or from the active
fractals. All of them stem from the work itself, or from fractals that the canvas knew at the start.
So what is true of all those statements is true of each statement that is begun in the course of the
run, through any number of definitions, assignments and draws. In the same way what is true of the
known fractals stays true of them, as long as it passes on to those that are defined.

* `Expr.eval_eq_fractal`: an expression yields a fractal only as the value of a name
* `Inherited`: what is true of branches, statements and known fractals passes on to new ones
* `Execution.knowsOnly`, `Visits.knowsOnly`: so it is true all through a run
* `Visits.throughout`: each statement in the course of a run was within reach at the start
-/

namespace SelfSimilar

/-- Some scope binds a name to the value. -/
def Environment.Binds {β : Type} (env : Environment β) (v : β) : Prop :=
  ∃ scope ∈ env.scopes, ∃ id, scope.bindings.find? id = some v

/-- A fractal is bound to a name or active. -/
def Canvas.Knows {α : Type} (c : Canvas α) (f : Fractal α) : Prop :=
  c.env.Binds (.fractal f) ∨ f ∈ c.active

/-- The statements of a piece of work. -/
def Task.statements {α : Type} : Task α → List (Stmt α)
  | .one s => [s]
  | .all _ body => body

/-- All statements in the bodies of known fractals have a property. -/
def Canvas.Throughout {α : Type} (P : Stmt α → Prop) (c : Canvas α) : Prop :=
  ∀ f, c.Knows f → Stmt.Throughout P f.body

/-- All known fractals have a property. -/
def Canvas.KnowsOnly {α : Type} (Q : Fractal α → Prop) (c : Canvas α) : Prop :=
  ∀ f, c.Knows f → Q f

/-! ## Bindings -/

namespace Scope

variable {β : Type} {v w : β} {id : String} {index : Nat} {l : List (Scope β)}

/-- What a look-up finds is bound in one of the scopes. -/
theorem exists_of_find? (h : find? id l index = some v) :
    ∃ scope ∈ l, ∃ id, scope.bindings.find? id = some v := by
  -- a look-up goes on from the parent, so the induction is for all scopes at once
  induction l generalizing index with
  | nil => simp [find?] at h
  | cons scope older ih =>
    have hlater : ∀ {i}, find? id older i = some v →
        ∃ s ∈ scope :: older, ∃ id, s.bindings.find? id = some v := by
      intro i hi
      obtain ⟨s, hs, hv⟩ := ih hi
      exact ⟨s, List.mem_cons_of_mem _ hs, hv⟩
    rw [find?] at h
    split at h
    · cases hfound : scope.bindings.find? id with
      | some u =>
        rw [hfound] at h
        exact ⟨scope, List.mem_cons_self, id, hfound.trans h⟩
      | none =>
        cases hparent : scope.parent with
        | none => simp [hfound, hparent] at h
        | some parent =>
          simp only [hfound, hparent] at h
          exact hlater h
    · exact hlater h

/-- An insertion binds no other value. -/
theorem exists_of_update_insert {scope : Scope β} {id' : String}
    (hs : scope ∈ update index (·.insert id v) l) (hw : scope.bindings.find? id' = some w) :
    w = v ∨ ∃ scope ∈ l, ∃ id, scope.bindings.find? id = some w := by
  induction l with
  | nil => simp [update] at hs
  | cons head older ih =>
    have hkept : ∀ {s : Scope β}, s ∈ head :: older → s.bindings.find? id' = some w →
        w = v ∨ ∃ s ∈ head :: older, ∃ id, s.bindings.find? id = some w :=
      fun hmem hfind => .inr ⟨_, hmem, id', hfind⟩
    -- the changed scope binds the new value and what it bound before, the others only that
    rw [update] at hs
    split at hs
    · -- this is the scope that is changed
      rcases List.mem_cons.1 hs with rfl | hs
      · by_cases hid : id' = id
        · subst hid
          rw [Bindings.find?_insert_self] at hw
          exact .inl (Option.some.inj hw).symm
        · rw [Bindings.find?_insert_ne _ _ hid] at hw
          exact hkept List.mem_cons_self hw
      · exact hkept (List.mem_cons_of_mem _ hs) hw
    · rcases List.mem_cons.1 hs with rfl | hs
      · exact hkept List.mem_cons_self hw
      · refine (ih hs).imp_right ?_
        rintro ⟨s, hmem, hfind⟩
        exact ⟨s, List.mem_cons_of_mem _ hmem, hfind⟩

end Scope

namespace Environment

variable {β : Type} {env : Environment β} {scope : ScopeId} {id : String} {v w : β}

/-- What is looked up is bound somewhere. -/
theorem binds_of_lookup (h : env.lookup scope id = .ok v) : env.Binds v := by
  unfold lookup at h
  split at h
  next hfind =>
    cases h
    exact Scope.exists_of_find? hfind
  · cases h

/-- After a binding, a value is bound that was bound before or is the new one. -/
theorem binds_bind (h : (env.bind scope id v).Binds w) : w = v ∨ env.Binds w := by
  obtain ⟨s, hs, id', hfind⟩ := h
  exact Scope.exists_of_update_insert hs hfind

/-- The empty environment binds nothing. -/
theorem not_binds_empty : ¬ (empty : Environment β).Binds v := by
  rintro ⟨s, hs, id, hfind⟩
  cases List.mem_singleton.1 hs
  cases hfind

/-- A new scope binds nothing. -/
theorem binds_of_push {parent : ScopeId} (h : (env.push parent).2.Binds v) : env.Binds v := by
  obtain ⟨s, hs, id, hfind⟩ := h
  rcases List.mem_cons.1 hs with rfl | hs
  · cases hfind
  · exact ⟨s, hs, id, hfind⟩

end Environment

/-! ## Values of expressions -/

section

variable {α : Type} [Scalar α] {b child b' : Branch α} {t : Task α} {c d c' : Canvas α}
  {s : Stmt α} {f : Fractal α}

/-- An expression yields a fractal only as the value of a name. -/
theorem Expr.eval_eq_fractal {e : Expr α} (h : e.eval b c = .ok (.fractal f)) :
    ∃ id, b.lookup c id = .ok (.fractal f) := by
  rcases isComputed_or_bound h with hcomputed | hbound
  · cases hcomputed
  · exact hbound

/-- At first no fractal is known. -/
theorem Canvas.not_knows_fresh (frame : Frame α) (f : Fractal α) : ¬ (fresh frame).Knows f := by
  rintro (hf | hf)
  · -- the three predefined names are bound to points
    rcases Environment.binds_bind (Environment.binds_of_push hf) with hf | hf
    · cases hf
    rcases Environment.binds_bind hf with hf | hf
    · cases hf
    rcases Environment.binds_bind hf with hf | hf
    · cases hf
    exact Environment.not_binds_empty hf
  · cases hf

/-! ## What stays true of all known fractals -/

variable {I : Branch α → Prop} {P : Stmt α → Prop} {Q : Fractal α → Prop}
  {o : Outcome α Failure (Value α)}

namespace Canvas.KnowsOnly

omit [Scalar α] in
/-- Only the bindings and the active fractals matter. -/
theorem of_eq (h : c.KnowsOnly Q) (henv : d.env = c.env) (hactive : d.active = c.active) :
    d.KnowsOnly Q := by
  intro f hf
  unfold Canvas.Knows at hf
  rw [henv, hactive] at hf
  exact h f hf

omit [Scalar α] in
/-- Where no fractal is active, the known ones are bound. -/
theorem of_binds (hactive : c.active = []) (h : ∀ f, c.env.Binds (.fractal f) → Q f) :
    c.KnowsOnly Q := by
  rintro f (hf | hf)
  · exact h f hf
  · rw [hactive] at hf
    cases hf

omit [Scalar α] in
/-- A fractal that becomes active becomes known. -/
theorem start (h : c.KnowsOnly Q) (hf : Q f) : (c.start f).KnowsOnly Q := by
  rintro g (hg | hg)
  · exact h g (.inl hg)
  · rcases List.mem_cons.1 hg with rfl | hg
    · exact hf
    · exact h g (.inr hg)

omit [Scalar α] in
/-- No fractal becomes known when a draw has come to its end. -/
theorem stop (h : c.KnowsOnly Q) : c.stop.KnowsOnly Q := by
  rintro g (hg | hg)
  · exact h g (.inl hg)
  · exact h g (.inr (List.mem_of_mem_tail hg))

omit [Scalar α] in
/-- A binding makes the fractal known that the new value is, and no other one. -/
theorem bind {id : String} {v : Value α} (h : c.KnowsOnly Q) (hv : ∀ f, v = .fractal f → Q f) :
    (b.bind id v c).KnowsOnly Q := by
  rintro g (hg | hg)
  · rcases Environment.binds_bind hg with hg | hg
    · exact hv g hg.symm
    · exact h g (.inl hg)
  · exact h g (.inr hg)

/-- A line makes no fractal known. -/
theorem lined {segment : Segment α} {ends : Point α × Point α} (h : c.KnowsOnly Q) :
    (b.lined segment ends c).KnowsOnly Q :=
  h.of_eq (b.env_lined ..) (b.active_lined ..)

/-- The fractal of a draw by name is bound. -/
theorem of_namedDraw {name : String} {segment : Segment α} {ends : Point α × Point α}
    (h : c.KnowsOnly Q) (read : s.namedDraw name segment b c = .ok (ends, f)) : Q f :=
  h f (.inl (Environment.binds_of_lookup (Stmt.namedDraw_eq_ok.1 read).2))

/-- The fractal of SELF is active. -/
theorem of_selfDraw {segment : Segment α} {ends : Point α × Point α} (h : c.KnowsOnly Q)
    (read : s.selfDraw segment b c = .ok (f, ends)) : Q f :=
  h f (.inr (List.mem_of_mem_head? (Canvas.current_eq_ok.1 (Stmt.selfDraw_eq_ok.1 read).1)))

end Canvas.KnowsOnly

/-- What is true of a branch, of all statements of the work on it and of all known fractals passes
on to child branches, to the bodies of the fractals, and to the fractals that the work defines. -/
structure Inherited (I : Branch α → Prop) (P : Stmt α → Prop) (Q : Fractal α → Prop) : Prop where
  /-- SELF goes on in the scope of its branch. -/
  child : ∀ {b} start stop, I b → I (b.child start stop)
  /-- A draw by name goes on in the scope of its fractal. -/
  within : ∀ {b f}, I b → Q f → I (b.within f.scope)
  /-- The statements of a body are those of its fractal. -/
  body : ∀ {f}, Q f → Stmt.Throughout P f.body
  /-- A definition captures its statements and the scope of its branch. -/
  define : ∀ {b name body span}, I b → Stmt.Throughout P [.define name body span] →
    Q ⟨name, body, b.scope⟩

section

variable (hI : Inherited I P Q)
include hI

/-- What is true of all known fractals and is inherited is still true after work, however it
ends. -/
theorem Execution.knowsOnly (h : Execution b t c o) (hb : I b)
    (ht : Stmt.Throughout P t.statements) (hc : c.KnowsOnly Q) : o.canvas.KnowsOnly Q := by
  induction h with
  | block _ ih => exact ih hb (Stmt.throughout_singleton.1 ht).2 hc
  | define =>
    -- the new fractal takes its body and its scope from here
    refine hc.bind fun f hf => ?_
    cases hf
    exact hI.define hb ht
  | draw read _ derived _ ih =>
    -- the body becomes the work, and its fractal becomes known, which changes nothing
    have hf := hc.of_namedDraw read
    exact (ih (derived ▸ hI.within (hI.child _ _ hb) hf) (hI.body hf)
      ((hc.of_eq rfl rfl).start hf)).stop
  | self read _ derived _ ih =>
    exact ih (derived ▸ hI.child _ _ hb) (hI.body (hc.of_selfDraw read)) (hc.of_eq rfl rfl)
  | selfLine _ _ => exact hc.lined
  | line _ => exact hc.lined
  | assign read =>
    -- a fractal that is assigned was the value of a name before
    refine hc.bind fun f hf => ?_
    subst hf
    obtain ⟨id, hlookup⟩ := Expr.eval_eq_fractal read
    exact hc f (.inl (Environment.binds_of_lookup hlookup))
  | clear => exact hc.of_eq rfl rfl
  | home => exact hc.of_eq rfl rfl
  | fail _ ih => exact ih hb (Stmt.throughout_cons.1 ht).1 hc
  | cons _ _ ihFirst ihLater =>
    obtain ⟨hfirst, hrest⟩ := Stmt.throughout_cons.1 ht
    exact ihLater hb hrest (ihFirst hb hfirst hc)
  | _ => exact hc

/-- A draw finds its fractal among the known ones. -/
theorem Draws.knowsOnly (h : Draws b c s f child d) (hb : I b) (hc : c.KnowsOnly Q) :
    I child ∧ Q f ∧ d.KnowsOnly Q := by
  cases h with
  | named read _ derived =>
    have hf := hc.of_namedDraw read
    exact ⟨derived ▸ hI.within (hI.child _ _ hb) hf, hf, (hc.of_eq rfl rfl).start hf⟩
  | self read _ derived =>
    exact ⟨derived ▸ hI.child _ _ hb, hc.of_selfDraw read, hc.of_eq rfl rfl⟩

/-- What is inherited is true where a statement of the work itself is begun. -/
theorem Meets.knowsOnly (h : Meets b t c s d) (hb : I b) (ht : Stmt.Throughout P t.statements)
    (hc : c.KnowsOnly Q) : Stmt.Throughout P [s] ∧ d.KnowsOnly Q := by
  induction h with
  | here => exact ⟨ht, hc⟩
  | block _ ih => exact ih (Stmt.throughout_singleton.1 ht).2 hc
  | first _ ih => exact ih (Stmt.throughout_cons.1 ht).1 hc
  | later first _ ih =>
    obtain ⟨hfirst, hrest⟩ := Stmt.throughout_cons.1 ht
    exact ih hrest ((execution_iff.2 first).knowsOnly hI hb hfirst hc)

/-- What is inherited is true wherever a statement is begun in the course of a run. -/
theorem Visits.knowsOnly (h : Visits b t c b' s c') (hb : I b)
    (ht : Stmt.Throughout P t.statements) (hc : c.KnowsOnly Q) :
    I b' ∧ Stmt.Throughout P [s] ∧ c'.KnowsOnly Q := by
  induction h with
  | meets met => exact ⟨hb, met.knowsOnly hI hb ht hc⟩
  | drawn met draws _ ih =>
    obtain ⟨hchild, hf, hd⟩ := draws.knowsOnly hI hb (met.knowsOnly hI hb ht hc).2
    exact ih hchild (hI.body hf) hd

end

/-! ## What stays true of all statements within reach -/

omit [Scalar α] in
/-- Only the bindings and the active fractals matter. -/
theorem Canvas.Throughout.of_eq (h : c.Throughout P) (henv : d.env = c.env)
    (hactive : d.active = c.active) : d.Throughout P :=
  KnowsOnly.of_eq h henv hactive

/-- A definition holds the statements of the fractal that it defines. -/
theorem inherited_throughout (P : Stmt α → Prop) :
    Inherited (fun _ => True) P fun f => Stmt.Throughout P f.body where
  child _ _ _ := trivial
  within _ _ := trivial
  body h := h
  define _ h := (Stmt.throughout_singleton.1 h).2

/-- Each statement that is begun in the course of a run was within reach at the start. -/
theorem Visits.throughout (h : Visits b t c b' s c') (ht : Stmt.Throughout P t.statements)
    (hc : c.Throughout P) : Stmt.Throughout P [s] ∧ c'.Throughout P :=
  (h.knowsOnly (inherited_throughout P) trivial ht hc).2

/-- What is true of all statements within reach is true of those that are begun. -/
theorem Visits.holds (h : Visits b t c b' s c') (ht : Stmt.Throughout P t.statements)
    (hc : c.Throughout P) : P s :=
  (Stmt.throughout_singleton.1 (h.throughout ht hc).1).1

end

end SelfSimilar
