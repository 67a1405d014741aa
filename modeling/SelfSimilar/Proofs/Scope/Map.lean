import SelfSimilar.Scope.Environment

/-!
# Mapping the values of an environment

A map of values, applied to all bindings. Names, scopes and their parents stay, so what is looked up
afterwards is what was looked up before, mapped.

* `Environment.lookup_map`: what is looked up afterwards
* `Environment.bind_map`, `Environment.clear_map`: the map goes through changes of the bindings
-/

namespace SelfSimilar

variable {β γ : Type}

namespace Bindings

/-- The same names with other values. -/
def map (g : β → γ) (b : Bindings β) : Bindings γ :=
  ⟨b.entries.map fun a => (a.1, g a.2), List.pairwise_map.2 b.rising⟩

/-- What is found is mapped. -/
theorem find?_map (g : β → γ) (b : Bindings β) (id : String) :
    (b.map g).find? id = (b.find? id).map g := by
  simp only [find?, map]
  induction b.entries with
  | nil => rfl
  | cons head rest ih =>
    rw [List.map_cons, findEntry, findEntry]
    split
    · rfl
    · exact ih

/-- An insertion of a mapped value. -/
theorem insert_map (g : β → γ) (b : Bindings β) (id : String) (v : β) :
    (b.insert id v).map g = (b.map g).insert id (g v) := by
  -- both sides find the same values, so they are the same bindings
  refine ext_find? fun id' => ?_
  by_cases h : id' = id
  · subst h
    rw [find?_map, find?_insert_self, find?_insert_self, Option.map_some]
  · rw [find?_map, find?_insert_ne _ _ h, find?_insert_ne _ _ h, find?_map]

/-- To change no value changes no bindings. -/
theorem map_id (b : Bindings β) : b.map id = b := by
  refine ext_find? fun id' => ?_
  rw [find?_map, Option.map_id, id]

end Bindings

namespace Scope

/-- The same scope with other values. -/
def map (g : β → γ) (s : Scope β) : Scope γ := ⟨s.parent, s.bindings.map g⟩

/-- A look-up among the mapped scopes finds the mapped value. -/
theorem find?_map (g : β → γ) (id : String) (l : List (Scope β)) (index : Nat) :
    find? id (l.map (map g)) index = (find? id l index).map g := by
  -- a look-up goes on from the parent, so the induction is for all scopes at once
  induction l generalizing index with
  | nil => rfl
  | cons scope older ih =>
    rw [List.map_cons, find?, find?, List.length_map]
    split
    · rw [map, Bindings.find?_map]
      cases scope.bindings.find? id with
      | some v => rfl
      | none =>
        cases scope.parent with
        | none => rfl
        -- both look-ups go on from the same parent
        | some parent => exact ih parent.index
    · exact ih index

/-- A change that the map goes through, made to one scope. -/
theorem update_map (g : β → γ) (index : Nat) {change : Bindings β → Bindings β}
    {change' : Bindings γ → Bindings γ} (h : ∀ b, (change b).map g = change' (b.map g))
    (l : List (Scope β)) :
    (update index change l).map (map g) = update index change' (l.map (map g)) := by
  induction l with
  | nil => rfl
  | cons scope older ih =>
    rw [List.map_cons, update, update, List.length_map]
    split
    · rw [List.map_cons, map, map, h]
    · rw [List.map_cons, ih]

end Scope

namespace Environment

/-- The same scopes with other values. -/
def map (g : β → γ) (env : Environment β) : Environment γ := ⟨env.scopes.map (Scope.map g)⟩

/-- What is looked up is mapped, and a failure stays the same. -/
theorem lookup_map (g : β → γ) (env : Environment β) (scope : ScopeId) (id : String) :
    (env.map g).lookup scope id = (env.lookup scope id).map g := by
  simp only [lookup, map, Scope.find?_map]
  cases Scope.find? id env.scopes scope.index <;> rfl

/-- A mapped value is bound. -/
theorem bind_map (g : β → γ) (env : Environment β) (scope : ScopeId) (id : String) (v : β) :
    (env.bind scope id v).map g = (env.map g).bind scope id (g v) :=
  congrArg Environment.mk
    (Scope.update_map g scope.index (fun b => b.insert_map g id v) env.scopes)

/-- Nothing is left to be mapped in a scope that is cleared. -/
theorem clear_map (g : β → γ) (env : Environment β) (scope : ScopeId) :
    (env.clear scope).map g = (env.map g).clear scope :=
  congrArg Environment.mk (Scope.update_map g scope.index (fun _ => rfl) env.scopes)

/-- To change no value changes no scope. -/
theorem map_id (env : Environment β) : env.map id = env := by
  have hscope : Scope.map (id : β → β) = id := by
    funext s
    rw [Scope.map, Bindings.map_id, id]
  rw [map, hscope, List.map_id]

end Environment

end SelfSimilar
