import SelfSimilar.Fault
import SelfSimilar.Scope.Bindings
import SelfSimilar.Value.Basic

/-!
# Environments

The scopes of a drawing. Scopes are opened one after another and never closed, so the handle of a
scope stays valid. Each scope but the oldest one names an older scope as its parent, in which names
are looked up that it does not bind itself.

The scopes are kept with the newest first: a handle counts the scopes that are older, so opening a
scope changes no handle, and a look-up goes on in the older scopes, where the parent is.
-/

namespace SelfSimilar

/-- One scope. -/
structure Scope (β : Type) where
  /-- Where to look up the names that are not bound here. -/
  parent : Option ScopeId
  /-- The names that are bound here. -/
  bindings : Bindings β

namespace Scope

variable {β : Type}

/-- The scope with a handle, in a list with the newest scope first. -/
def at? : List (Scope β) → Nat → Option (Scope β)
  | [], _ => none
  | scope :: older, index => if index = older.length then some scope else at? older index

/-- Change the bindings of the scope with a handle. -/
def update (index : Nat) (change : Bindings β → Bindings β) : List (Scope β) → List (Scope β)
  | [] => []
  | scope :: older =>
    if index = older.length then { scope with bindings := change scope.bindings } :: older
    else scope :: update index change older

/-- The value of a name in the nearest scope that binds it, from the scope with a handle on. -/
def find? (id : String) : List (Scope β) → Nat → Option β
  | [], _ => none
  | scope :: older, index =>
    if index = older.length then
      match scope.bindings.find? id with
      | some v => some v
      | none =>
        match scope.parent with
        | some parent => find? id older parent.index
        | none => none
    else find? id older index

/-- A change keeps the number of scopes. -/
@[simp] theorem length_update (index : Nat) (change : Bindings β → Bindings β)
    (l : List (Scope β)) : (update index change l).length = l.length := by
  induction l with
  | nil => rfl
  | cons scope older ih =>
    rw [update]
    split
    · rfl
    · simp [ih]

/-- A change reaches the scope with the handle and no other one. -/
theorem at?_update (index i : Nat) (change : Bindings β → Bindings β) (l : List (Scope β)) :
    at? (update index change l) i =
      if i = index then (at? l i).map fun s => { s with bindings := change s.bindings }
      else at? l i := by
  induction l with
  | nil => simp [update, at?]
  | cons scope older ih => grind [update, at?, length_update]

end Scope

/-- The scopes of a drawing. -/
structure Environment (β : Type) where
  /-- The scopes, the newest first. -/
  scopes : List (Scope β)

namespace Environment

variable {β : Type}

/-- A single scope without bindings. -/
def empty : Environment β := ⟨[⟨none, .empty⟩]⟩

/-- How many scopes there are. -/
def scopeCount (env : Environment β) : Nat := env.scopes.length

/-- Open a scope with the given parent, and return its handle. -/
def push (env : Environment β) (parent : ScopeId) : ScopeId × Environment β :=
  (⟨env.scopes.length⟩, ⟨⟨some parent, .empty⟩ :: env.scopes⟩)

/-- Bind a name in a scope, replacing an older binding in that scope. -/
def bind (env : Environment β) (scope : ScopeId) (id : String) (v : β) : Environment β :=
  ⟨Scope.update scope.index (·.insert id v) env.scopes⟩

/-- Remove all bindings of a scope. The scope itself stays. -/
def clear (env : Environment β) (scope : ScopeId) : Environment β :=
  ⟨Scope.update scope.index (fun _ => .empty) env.scopes⟩

/-- Bind names to values in a scope, one by one. -/
def bindAll (env : Environment β) (scope : ScopeId) (pairs : List (String × β)) : Environment β :=
  pairs.foldl (fun env pair => env.bind scope pair.1 pair.2) env

/-- Open a scope in which each name is bound to the value that stands at the same place. What is
left over on either side is ignored. -/
def extend (env : Environment β) (parent : ScopeId) (ids : List String) (values : List β) :
    ScopeId × Environment β :=
  let (scope, env) := env.push parent
  (scope, env.bindAll scope (ids.zip values))

/-- The value of a name, seen from a scope. -/
def lookup (env : Environment β) (scope : ScopeId) (id : String) : Except Fault β :=
  match Scope.find? id env.scopes scope.index with
  | some v => .ok v
  | none => .error (.unbound id)

/-- The names bound in a scope itself, in rising order. -/
def names (env : Environment β) (scope : ScopeId) : List String :=
  match Scope.at? env.scopes scope.index with
  | some s => s.bindings.names
  | none => []

/-- The names bound in a scope itself, as text. -/
def text (env : Environment β) (scope : ScopeId) : String :=
  let names := " ".intercalate (env.names scope)
  s!"[{names}]"

@[simp] theorem scopeCount_push (env : Environment β) (parent : ScopeId) :
    (env.push parent).2.scopeCount = env.scopeCount + 1 := rfl

@[simp] theorem scopeCount_bind (env : Environment β) (scope : ScopeId) (id : String) (v : β) :
    (env.bind scope id v).scopeCount = env.scopeCount := by
  simp [scopeCount, bind]

@[simp] theorem scopeCount_clear (env : Environment β) (scope : ScopeId) :
    (env.clear scope).scopeCount = env.scopeCount := by
  simp [scopeCount, clear]

end Environment

end SelfSimilar
