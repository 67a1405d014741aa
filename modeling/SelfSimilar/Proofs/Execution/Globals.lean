import SelfSimilar.Proofs.Execution.Kinds
import SelfSimilar.Proofs.Execution.Rules

/-!
# Globals

Programs run in the scope of globals, which lies inside the scope of the predefined points. No
statement opens a scope, and a fractal that is defined among the globals is drawn among them. So
work that begins there stays there, and the predefined points stay as they are: a program that gives
one of their names a value of its own only hides the point.

* `Environment.IsGlobal`: the two scopes, with values among the globals that programs can bind
* `Environment.IsGlobal.of_lookup`: what is found there can be bound again
* `Execution.isGlobal`: work among the globals keeps the environment so
-/

namespace SelfSimilar

variable {α : Type} [Scalar α]

/-- The bindings of the predefined points. -/
def Bindings.predefined : Bindings (Value α) :=
  ((empty.insert "O" (.point .origin)).insert "X" (.point .xUnit)).insert "Y" (.point .yUnit)

/-- The three names and their points. -/
theorem Bindings.find?_predefined {id : String} {v : Value α} :
    predefined.find? id = some v ↔
      (id = "O" ∧ v = .point .origin) ∨ (id = "X" ∧ v = .point .xUnit) ∨
        (id = "Y" ∧ v = .point .yUnit) := by
  simp only [predefined, find?_insert, find?_empty]
  grind

/-- A value that a program can bind: there is one, and a fractal was defined among the globals. -/
structure Value.IsGlobal (v : Value α) : Prop where
  /-- There is a value. -/
  kind_ne : v.kind ≠ .noValue
  /-- A fractal was defined among the globals. -/
  scope_eq : ∀ f, v = .fractal f → f.scope = .globals

omit [Scalar α] in
/-- Programs can bind numbers and points. -/
theorem Value.isGlobal_of_isComputed {v : Value α} (h : v.kind.isComputed = true) : v.IsGlobal where
  kind_ne hkind := by
    rw [hkind] at h
    cases h
  scope_eq f hf := by
    rw [hf] at h
    cases h

namespace Environment

/-- The scope of the predefined points and the scope of the globals inside it. -/
def global (globals : Bindings (Value α)) : Environment (Value α) :=
  ⟨[⟨some .root, globals⟩, ⟨none, .predefined⟩]⟩

variable {globals : Bindings (Value α)} {id : String} {v : Value α} {env : Environment (Value α)}

/-- At first there are no globals. -/
theorem predefined_eq_global : (predefined : Environment (Value α)) = global .empty := rfl

theorem bind_global : (global globals).bind .globals id v = global (globals.insert id v) := rfl

theorem clear_global : (global globals).clear .globals = global .empty := rfl

/-- The globals hide the predefined points. -/
theorem lookup_global : (global globals).lookup .globals id = .ok v ↔
    globals.find? id = some v ∨
      globals.find? id = none ∧ (Bindings.predefined : Bindings (Value α)).find? id = some v := by
  simp only [lookup, global, Scope.find?, ScopeId.globals, ScopeId.root]
  -- a name that is not among the globals is looked up further out
  cases globals.find? id with
  | some w => simp
  | none => cases (Bindings.predefined : Bindings (Value α)).find? id <;> simp

/-- There are the two scopes, and each value among the globals is one that a program can bind. -/
def IsGlobal (env : Environment (Value α)) : Prop :=
  ∃ globals, env = global globals ∧ ∀ id v, globals.find? id = some v → v.IsGlobal

/-- At first there are no globals that a program could not bind. -/
theorem isGlobal_predefined : (predefined : Environment (Value α)).IsGlobal :=
  ⟨.empty, predefined_eq_global, fun id v h => by cases h⟩

/-- A value that a program can bind is bound. -/
theorem IsGlobal.bind (h : env.IsGlobal) (hv : v.IsGlobal) : (env.bind .globals id v).IsGlobal := by
  obtain ⟨globals, rfl, hglobals⟩ := h
  refine ⟨globals.insert id v, bind_global, fun id' w hw => ?_⟩
  rw [Bindings.find?_insert] at hw
  split at hw
  · cases hw
    exact hv
  · exact hglobals id' w hw

/-- A name that is bound has its new value. -/
theorem IsGlobal.lookup_bind (h : env.IsGlobal) (id : String) (v : Value α) :
    (env.bind .globals id v).lookup .globals id = .ok v := by
  obtain ⟨globals, rfl, _⟩ := h
  rw [bind_global]
  exact lookup_global.2 (.inl (Bindings.find?_insert_self ..))

/-- All other names have the values that they had. -/
theorem IsGlobal.lookup_bind_ne (h : env.IsGlobal) {id' : String} (hne : id' ≠ id) :
    (env.bind .globals id v).lookup .globals id' = env.lookup .globals id' := by
  obtain ⟨globals, rfl, _⟩ := h
  rw [bind_global]
  simp only [lookup, global, Scope.find?, Bindings.find?_insert, if_neg hne]

/-- A name that is not among those that are bound has the value that it had. -/
theorem IsGlobal.lookup_bindAll_of_notMem {pairs : List (String × Value α)} (h : env.IsGlobal)
    (hpairs : ∀ pair ∈ pairs, pair.2.IsGlobal) (hid : id ∉ pairs.map Prod.fst) :
    (env.bindAll .globals pairs).lookup .globals id = env.lookup .globals id := by
  induction pairs generalizing env with
  | nil => rfl
  | cons pair pairs ih =>
    rw [List.map_cons, List.mem_cons, not_or] at hid
    rw [List.forall_mem_cons] at hpairs
    exact (ih (h.bind hpairs.1) hpairs.2 hid.2).trans (h.lookup_bind_ne hid.1)

/-- Different names that are bound one after another have the values that they were bound to. -/
theorem IsGlobal.lookup_bindAll {pairs : List (String × Value α)} (h : env.IsGlobal)
    (hpairs : ∀ pair ∈ pairs, pair.2.IsGlobal) (hnames : (pairs.map Prod.fst).Nodup)
    (hmem : (id, v) ∈ pairs) : (env.bindAll .globals pairs).lookup .globals id = .ok v := by
  induction pairs generalizing env with
  | nil => cases hmem
  | cons pair pairs ih =>
    rw [List.map_cons, List.nodup_cons] at hnames
    rw [List.forall_mem_cons] at hpairs
    have hpair : (env.bind .globals pair.1 pair.2).IsGlobal := h.bind hpairs.1
    rcases List.mem_cons.1 hmem with rfl | hmem
    · -- no later binding is one of this name
      exact (hpair.lookup_bindAll_of_notMem hpairs.2 hnames.1).trans (h.lookup_bind id v)
    · exact ih hpair hpairs.2 hnames.2 hmem

/-- Without its globals, the environment is the one of the start. -/
theorem IsGlobal.clear (h : env.IsGlobal) : env.clear .globals = predefined := by
  obtain ⟨globals, rfl, _⟩ := h
  rw [clear_global, predefined_eq_global]

/-- What is found among the globals can be bound there again. -/
theorem IsGlobal.of_lookup (h : env.IsGlobal) (hv : env.lookup .globals id = .ok v) :
    v.IsGlobal := by
  obtain ⟨globals, rfl, hglobals⟩ := h
  rcases lookup_global.1 hv with hfind | ⟨_, hfind⟩
  · exact hglobals id v hfind
  · -- the predefined values are points
    rcases Bindings.find?_predefined.1 hfind with ⟨_, rfl⟩ | ⟨_, rfl⟩ | ⟨_, rfl⟩ <;>
      exact Value.isGlobal_of_isComputed rfl

end Environment

/-- Work that begins among the globals binds nothing but globals, however it ends. -/
theorem Execution.isGlobal {b : Branch α} {t : Task α} {c : Canvas α}
    {o : Outcome α Failure (Value α)} (h : Execution b t c o) (hb : b.scope = .globals)
    (hc : c.env.IsGlobal) : o.canvas.env.IsGlobal := by
  have hlookup : ∀ {b : Branch α} {c : Canvas α} {id v}, b.scope = .globals → c.env.IsGlobal →
      b.lookup c id = .ok v → v.IsGlobal := by
    intro b c id v hb hc hv
    rw [Branch.lookup, hb] at hv
    exact hc.of_lookup hv
  -- every branch in the course of the work binds among the globals
  induction h with
  | block _ ih => exact ih hb hc
  | @define b c name body span =>
    -- the new fractal is to be drawn in the scope of this branch
    rw [Branch.bind, hb]
    refine hc.bind ⟨by simp [Value.kind], fun f hf => ?_⟩
    cases hf
    rfl
  | draw read _ derived _ ih =>
    -- the body is run where its fractal was defined
    have hf := (hlookup hb hc (Stmt.namedDraw_eq_ok.1 read).2).scope_eq _ rfl
    exact ih (by rw [derived]; exact hf) hc
  | self _ _ derived _ ih => exact ih (by rw [derived]; exact hb) hc
  | selfLine _ _ => rwa [Branch.env_lined]
  | line _ => rwa [Branch.env_lined]
  | assign read =>
    rw [Branch.bind, hb]
    rcases Expr.isComputed_or_bound read with hcomputed | ⟨id, hbound⟩
    · exact hc.bind (Value.isGlobal_of_isComputed hcomputed)
    · exact hc.bind (hlookup hb hc hbound)
  | fail _ ih => exact ih hb hc
  | cons _ _ ihFirst ihLater => exact ihLater hb (ihFirst hb hc)
  | _ => exact hc

end SelfSimilar
