import SelfSimilar.Scope.Environment

/-!
# Chains of scopes

What is seen from a scope are the values that it binds itself, and of the names that it does not
bind what is seen from its parent. Look-ups are made from scope to scope. They come to an end
because each parent is older than its child, which every change of an environment keeps.

* `Environment.bound?`, `Environment.parent?`: a scope by itself, and what changes do to it
* `Environment.ParentsAreOlder`: why look-ups come to an end
* `Environment.lookup_eq`: one step of a look-up
* `Environment.Walk`: all its steps, of which `Environment.walk_lookup` says that they can be made
* `Environment.lookup_eq_ok_iff`, `Environment.lookup_eq_error_iff`: what is found is bound in the
  nearest scope that binds the name
* `Environment.lookup_bind_ne`: from where a new binding is seen
-/

namespace SelfSimilar

variable {β : Type}

/-! ## Names of a scope -/

namespace Bindings

variable {id : String}

/-- What is found is in the list, under its name. -/
theorem findEntry_isSome_iff {l : List (String × β)} :
    (findEntry id l).isSome ↔ id ∈ l.map (·.1) := by
  induction l with
  | nil => simp [findEntry]
  | cons head rest ih =>
    rw [findEntry, List.map_cons, List.mem_cons]
    split
    next same => simp [same]
    next different => simp [different, ih]

/-- The names are those that have a value. -/
theorem mem_names_iff (b : Bindings β) : id ∈ b.names ↔ (b.find? id).isSome :=
  findEntry_isSome_iff.symm

/-- The names of a scope are in strictly rising order. -/
theorem names_rising (b : Bindings β) : b.names.Pairwise (· < ·) := List.pairwise_map.2 b.rising

end Bindings

/-! ## Scopes in a list -/

namespace Scope

variable {l : List (Scope β)} {i : Nat} {s : Scope β}

/-- There is no scope from the length of the list on. -/
theorem at?_eq_none_iff : at? l i = none ↔ l.length ≤ i := by
  induction l with
  | nil => simp [at?]
  | cons scope older ih =>
    rw [at?, List.length_cons]
    split
    next here => simp [here]
    next other =>
      rw [ih]
      omega

/-- A scope that is there has an index below the length of the list. -/
theorem lt_of_at? (h : at? l i = some s) : i < l.length := by
  refine Nat.lt_of_not_le fun hle => ?_
  rw [at?_eq_none_iff.2 hle] at h
  cases h

/-- Below the length of the list, there is a scope at each index. -/
theorem exists_at? (h : i < l.length) : ∃ s, at? l i = some s := by
  rw [← Option.isSome_iff_exists, Option.isSome_iff_ne_none, ne_eq, at?_eq_none_iff]
  omega

/-- One step of a look-up in a list in which parents are older than their children. -/
theorem find?_eq (h : ∀ i s p, at? l i = some s → s.parent = some p → p.index < i) (id : String)
    (i : Nat) :
    find? id l i = (at? l i).bind fun s =>
      (s.bindings.find? id).or (s.parent.bind fun p => find? id l p.index) := by
  induction l with
  | nil => rfl
  | cons scope older ih =>
    -- the newest scope is of no matter to a look-up from an older one
    have hskip : ∀ j, j < older.length → find? id (scope :: older) j = find? id older j :=
      fun j hj => if_neg (by omega)
    -- the older scopes satisfy the assumption by themselves
    have holder : ∀ i s p, at? older i = some s → s.parent = some p → p.index < i := by
      intro i s p hs hp
      have hi := lt_of_at? hs
      exact h i s p (by rw [at?, if_neg (by omega), hs]) hp
    rw [find?, at?]
    split
    next here =>
      rw [Option.bind_some]
      cases hfind : scope.bindings.find? id with
      | some v => rfl
      | none =>
        cases hparent : scope.parent with
        | none => rfl
        | some p =>
          -- the parent of the newest scope is one of the older ones
          have hp := h i scope p (by rw [at?, if_pos here]) hparent
          exact (hskip p.index (by omega)).symm
    next other =>
      rw [ih holder]
      cases hs : at? older i with
      | none => rfl
      | some s =>
        rw [Option.bind_some, Option.bind_some]
        cases hparent : s.parent with
        | none => rfl
        | some p =>
          have hi := lt_of_at? hs
          have hp := holder i s p hs hparent
          rw [Option.bind_some, Option.bind_some, hskip p.index (by omega)]

end Scope

namespace Environment

variable {env : Environment β} {scope scope' s t p : ScopeId} {id id' : String} {v : β}

/-! ## A scope by itself -/

/-- The handle is that of a scope. -/
def Has (env : Environment β) (scope : ScopeId) : Prop := scope.index < env.scopeCount

/-- The value that a scope itself binds a name to. -/
def bound? (env : Environment β) (id : String) (scope : ScopeId) : Option β :=
  (Scope.at? env.scopes scope.index).bind (·.bindings.find? id)

/-- Where the names are looked up that a scope does not bind itself. -/
def parent? (env : Environment β) (scope : ScopeId) : Option ScopeId :=
  (Scope.at? env.scopes scope.index).bind (·.parent)

/-- Each scope of the environment has its entry in the list. -/
theorem exists_at? (h : env.Has s) : ∃ sc, Scope.at? env.scopes s.index = some sc :=
  Scope.exists_at? h

/-- A scope that is not there binds nothing. -/
theorem bound?_of_not_has (h : ¬ env.Has s) : env.bound? id s = none := by
  rw [bound?, Scope.at?_eq_none_iff.2 (Nat.le_of_not_lt h), Option.bind_none]

/-- The names of a scope are those that it binds itself. -/
theorem mem_names_iff (env : Environment β) (s : ScopeId) :
    id ∈ env.names s ↔ (env.bound? id s).isSome := by
  rw [names, bound?]
  cases Scope.at? env.scopes s.index with
  | none => simp
  | some scope => exact scope.bindings.mem_names_iff

/-- The names that a scope binds itself are in strictly rising order. -/
theorem names_rising (env : Environment β) (s : ScopeId) : (env.names s).Pairwise (· < ·) := by
  rw [names]
  split
  · exact Bindings.names_rising _
  · exact .nil

/-! ## What changes do to a scope -/

/-- The newest scope is the one that was opened. -/
theorem at?_push (env : Environment β) (p s : ScopeId) :
    Scope.at? (env.push p).2.scopes s.index =
      if s = (env.push p).1 then some ⟨some p, .empty⟩ else Scope.at? env.scopes s.index := by
  obtain ⟨i⟩ := s
  simp only [push, Scope.at?, ScopeId.mk.injEq]

/-- There is one more scope than before. -/
theorem has_push : (env.push p).2.Has s ↔ (env.push p).1 = s ∨ env.Has s := by
  obtain ⟨i⟩ := s
  simp only [Has, push, scopeCount, List.length_cons, ScopeId.mk.injEq]
  omega

/-- The handle that is returned was not one before. -/
theorem not_has_push (env : Environment β) (p : ScopeId) : ¬ env.Has (env.push p).1 :=
  Nat.lt_irrefl _

/-- The scope that is opened has the parent that it is opened with. -/
theorem parent?_push (env : Environment β) (p s : ScopeId) :
    (env.push p).2.parent? s = if s = (env.push p).1 then some p else env.parent? s := by
  rw [parent?, at?_push]
  split <;> rfl

/-- The scope that is opened binds nothing. -/
theorem bound?_push (env : Environment β) (p s : ScopeId) :
    (env.push p).2.bound? id s = if s = (env.push p).1 then none else env.bound? id s := by
  rw [bound?, at?_push]
  split <;> rfl

/-- A change of bindings changes no parents. -/
theorem parent?_update (change : Bindings β → Bindings β) (env : Environment β) (s t : ScopeId) :
    parent? ⟨Scope.update s.index change env.scopes⟩ t = env.parent? t := by
  rw [parent?, Scope.at?_update]
  split
  · rw [Option.bind_map]
    rfl
  · rfl

/-- A change of the bindings of one scope changes no other scope. -/
theorem bound?_update (change : Bindings β → Bindings β) (env : Environment β) (s t : ScopeId) :
    bound? ⟨Scope.update s.index change env.scopes⟩ id t =
      if t = s then (Scope.at? env.scopes s.index).bind fun sc => (change sc.bindings).find? id
      else env.bound? id t := by
  obtain ⟨i⟩ := s
  obtain ⟨j⟩ := t
  simp only [bound?, Scope.at?_update, ScopeId.mk.injEq]
  split
  next same => rw [same, Option.bind_map]; rfl
  · rfl

@[simp] theorem parent?_bind (env : Environment β) (s t : ScopeId) (id : String) (v : β) :
    (env.bind s id v).parent? t = env.parent? t := parent?_update _ env s t

@[simp] theorem parent?_clear (env : Environment β) (s t : ScopeId) :
    (env.clear s).parent? t = env.parent? t := parent?_update _ env s t

/-- A name is bound in one scope, and all else is bound as before. -/
theorem bound?_bind (h : env.Has s) (t : ScopeId) (id id' : String) (v : β) :
    (env.bind s id v).bound? id' t = if t = s ∧ id' = id then some v else env.bound? id' t := by
  obtain ⟨sc, hsc⟩ := exists_at? h
  rw [bind, bound?_update, hsc, Option.bind_some, Bindings.find?_insert]
  grind [bound?]

/-- A scope that is cleared binds nothing, and all others what they did before. -/
theorem bound?_clear (env : Environment β) (s t : ScopeId) :
    (env.clear s).bound? id t = if t = s then none else env.bound? id t := by
  rw [clear, bound?_update]
  split
  · cases Scope.at? env.scopes s.index <;> rfl
  · rfl

/-! ## Look-ups -/

/-- Every parent is older than its child. -/
def ParentsAreOlder (env : Environment β) : Prop :=
  ∀ s p, env.parent? s = some p → p.index < s.index

/-- What is handed on from a parent to its children is true of all scopes. -/
theorem ParentsAreOlder.induct (h : env.ParentsAreOlder) {motive : ScopeId → Prop}
    (step : ∀ s, (∀ p, env.parent? s = some p → motive p) → motive s) (s : ScopeId) : motive s := by
  obtain ⟨i⟩ := s
  -- the index gets smaller with each step to a parent
  induction i using Nat.strongRecOn with
  | ind i ih => exact step ⟨i⟩ fun p hp => ih p.index (h ⟨i⟩ p hp)

/-- One step of a look-up: the scope itself, or its parent. -/
theorem lookup_eq (h : env.ParentsAreOlder) (s : ScopeId) (id : String) :
    env.lookup s id =
      match env.bound? id s, env.parent? s with
      | some v, _ => .ok v
      | none, some p => env.lookup p id
      | none, none => .error (.unbound id) := by
  -- the list of scopes has the same order, read off by indices
  have hlist : ∀ i sc p, Scope.at? env.scopes i = some sc → sc.parent = some p → p.index < i := by
    intro i sc p hsc hp
    exact h ⟨i⟩ p (by rw [parent?, hsc, Option.bind_some, hp])
  rw [lookup, Scope.find?_eq hlist, bound?, parent?]
  cases Scope.at? env.scopes s.index with
  | none => rfl
  | some sc =>
    rw [Option.bind_some, Option.bind_some, Option.bind_some]
    cases sc.bindings.find? id with
    | some v => rfl
    | none =>
      cases sc.parent with
      | none => rfl
      | some p => rfl

/-- A look-up, scope by scope. Each scope that it comes to has to exist. It ends at a scope that
binds the name, or at one that has no parent. -/
inductive Walk (env : Environment β) (id : String) : ScopeId → Except Fault β → Prop where
  | found {s : ScopeId} {sc : Scope β} {v : β} (here : Scope.at? env.scopes s.index = some sc)
      (bound : sc.bindings.find? id = some v) : Walk env id s (.ok v)
  | outward {s p : ScopeId} {sc : Scope β} {r : Except Fault β}
      (here : Scope.at? env.scopes s.index = some sc) (free : sc.bindings.find? id = none)
      (up : sc.parent = some p) (rest : Walk env id p r) : Walk env id s r
  | outermost {s : ScopeId} {sc : Scope β} (here : Scope.at? env.scopes s.index = some sc)
      (free : sc.bindings.find? id = none) (last : sc.parent = none) :
      Walk env id s (.error (.unbound id))

/-- A look-up from any scope comes to an end, at scopes that exist, with the result of `lookup`. -/
theorem walk_lookup (h : env.ParentsAreOlder) (id : String) (hs : env.Has s) :
    env.Walk id s (env.lookup s id) := by
  -- on the way out: a scope may use that the walk from its parent can be made
  induction s using h.induct with
  | step s ih =>
    obtain ⟨sc, hsc⟩ := exists_at? hs
    have hbound : env.bound? id s = sc.bindings.find? id := by rw [bound?, hsc, Option.bind_some]
    have hparent : env.parent? s = sc.parent := by rw [parent?, hsc, Option.bind_some]
    rw [lookup_eq h, hbound, hparent]
    cases hfind : sc.bindings.find? id with
    | some v => exact .found hsc hfind
    | none =>
      cases hup : sc.parent with
      | none => exact .outermost hsc hfind hup
      | some p =>
        have hp : env.parent? s = some p := hparent.trans hup
        -- the parent is older than a scope that is there, and so it is there too
        exact .outward hsc hfind hup (ih p hp (Nat.lt_trans (h s p hp) hs))

/-- A walk can end in one way only. -/
theorem Walk.eq_lookup (h : env.ParentsAreOlder) {r : Except Fault β} (hw : env.Walk id s r) :
    r = env.lookup s id := by
  induction hw with
  | found here bound =>
    rw [lookup_eq h, bound?, here, Option.bind_some, bound]
  | outward here free up _ ih =>
    rw [lookup_eq h, bound?, parent?, here, Option.bind_some, Option.bind_some, free, up, ih]
  | outermost here free last =>
    rw [lookup_eq h, bound?, parent?, here, Option.bind_some, Option.bind_some, free, last]

/-- The scope `t` is the nearest one on the way out from `s` that holds a value, which is `v`. -/
inductive Nearest (parent : ScopeId → Option ScopeId) (held : ScopeId → Option β) :
    ScopeId → ScopeId → β → Prop where
  | here {s : ScopeId} {v : β} (holds : held s = some v) : Nearest parent held s s v
  | outward {s p t : ScopeId} {v : β} (free : held s = none) (up : parent s = some p)
      (rest : Nearest parent held p t v) : Nearest parent held s t v

/-- The scope `t` is on the way out from `s`. -/
inductive OnChain (parent : ScopeId → Option ScopeId) : ScopeId → ScopeId → Prop where
  | here {s : ScopeId} : OnChain parent s s
  | outward {s p t : ScopeId} (up : parent s = some p) (rest : OnChain parent p t) :
      OnChain parent s t

/-- What is found is the value in the nearest scope that holds one. -/
theorem lookup_eq_ok_iff (h : env.ParentsAreOlder) :
    env.lookup s id = .ok v ↔ ∃ t, Nearest env.parent? (env.bound? id) s t v := by
  constructor
  · intro hv
    induction s using h.induct with
    | step s ih =>
      rw [lookup_eq h] at hv
      split at hv
      next w _ hw =>
        cases hv
        exact ⟨s, .here hw⟩
      next p hfree hp =>
        obtain ⟨t, ht⟩ := ih p hp hv
        exact ⟨t, .outward hfree hp ht⟩
      next => cases hv
  -- conversely, each step outwards is one of the look-up
  · rintro ⟨t, ht⟩
    induction ht with
    | here holds => rw [lookup_eq h, holds]
    | outward free up _ ih =>
      rw [lookup_eq h, free, up]
      exact ih

/-- Nothing is found if no scope on the way out holds a value, and only then. -/
theorem lookup_eq_error_iff (h : env.ParentsAreOlder) {fault : Fault} :
    env.lookup s id = .error fault ↔
      fault = .unbound id ∧ ∀ t, OnChain env.parent? s t → env.bound? id t = none := by
  induction s using h.induct with
  | step s ih =>
    rw [lookup_eq h]
    split
    next v _ hv =>
      refine ⟨(nomatch ·), fun ⟨_, hfree⟩ => ?_⟩
      rw [hfree s .here] at hv
      cases hv
    next p hfree hp =>
      rw [ih p hp]
      refine and_congr_right fun _ =>
        ⟨fun hall t ht => ?_, fun hall t ht => hall t (.outward hp ht)⟩
      cases ht with
      | here => exact hfree
      | outward up rest =>
        rw [hp] at up
        cases up
        exact hall t rest
    -- at the outermost scope, the way out has come to its end
    next hfree hlast =>
      refine ⟨fun hf => ?_, fun ⟨hfault, _⟩ => hfault ▸ rfl⟩
      cases hf
      refine ⟨rfl, fun t ht => ?_⟩
      cases ht with
      | here => exact hfree
      | outward up _ =>
        rw [hlast] at up
        cases up

/-- A binding is seen from where its scope is the nearest one that holds the name, and from nowhere
else. -/
theorem lookup_bind_ne (h : env.ParentsAreOlder) (hs : env.Has s)
    (hne : (env.bind s id v).lookup t id' ≠ env.lookup t id') :
    id' = id ∧ Nearest env.parent? ((env.bind s id v).bound? id) t s v := by
  -- parents are as old as before, so that look-ups can be taken apart on both sides
  have hbind : (env.bind s id v).ParentsAreOlder := fun t p hp => h t p (by simpa using hp)
  induction t using h.induct with
  | step t ih =>
    by_cases hhere : t = s ∧ id' = id
    · obtain ⟨rfl, rfl⟩ := hhere
      exact ⟨rfl, .here (by rw [bound?_bind hs, if_pos ⟨rfl, rfl⟩])⟩
    · -- here nothing was bound, so that it is the parent from which something else is seen
      have hsame : (env.bind s id v).bound? id' t = env.bound? id' t := by
        rw [bound?_bind hs, if_neg hhere]
      rw [lookup_eq hbind, lookup_eq h, hsame, parent?_bind] at hne
      cases hfree : env.bound? id' t with
      | some w => simp [hfree] at hne
      | none =>
        cases hp : env.parent? t with
        | none => simp [hfree, hp] at hne
        | some p =>
          simp only [hfree, hp] at hne
          obtain ⟨rfl, hnear⟩ := ih p hp hne
          exact ⟨rfl, .outward (hsame.trans hfree) hp hnear⟩

end Environment

end SelfSimilar
