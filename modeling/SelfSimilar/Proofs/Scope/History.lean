import SelfSimilar.Proofs.Scope.Chain

/-!
# What a history of changes leaves

An environment begins with one scope, and is changed by opening scopes, binding names and clearing
scopes. A history is the list of these changes, the latest first. What a scope holds can be read off
it: the latest value that a name was bound to there, unless the scope was cleared since. So can the
parent of a scope, and so, by going from parent to parent, what is found from a scope.

* `Environment.after`: the environment after a history
* `Environment.handles`: the handles that were returned in its course
* `Environment.parentIn`, `Environment.latest`: what the history says of a scope
* `Environment.parent?_after`, `Environment.bound?_after`: so it is in the environment
* `lookups_follow_the_history`: all of it together
-/

namespace SelfSimilar

namespace Environment

variable {β : Type}

/-! ## Histories -/

/-- A change of an environment. -/
inductive Change (β : Type) where
  /-- A scope is opened. -/
  | push (parent : ScopeId)
  /-- A scope is opened with bindings. -/
  | extend (parent : ScopeId) (ids : List String) (values : List β)
  /-- A name is bound. -/
  | bind (scope : ScopeId) (id : String) (v : β)
  /-- All bindings of a scope are removed. -/
  | clear (scope : ScopeId)

namespace Change

/-- Make a change. -/
def apply (env : Environment β) : Change β → Environment β
  | push parent => (env.push parent).2
  | extend parent ids values => (env.extend parent ids values).2
  | bind scope id v => env.bind scope id v
  | clear scope => env.clear scope

/-- The handle that is returned if a scope is opened. -/
def opened? (env : Environment β) : Change β → Option ScopeId
  | push parent => some (env.push parent).1
  | extend parent ids values => some (env.extend parent ids values).1
  | bind .. => none
  | clear _ => none

/-- The handle that a change is made with. -/
def given : Change β → ScopeId
  | push parent => parent
  | extend parent _ _ => parent
  | bind scope _ _ => scope
  | clear scope => scope

end Change

/-- The environment after a history. -/
def after : List (Change β) → Environment β
  | [] => empty
  | change :: past => change.apply (after past)

/-- The handles that there are after a history: that of the oldest scope, and those that were
returned. -/
def handles : List (Change β) → List ScopeId
  | [] => [.root]
  | change :: past => (change.opened? (after past)).toList ++ handles past

/-- Each change is made with a handle that there was at its time. -/
def UsesHandles : List (Change β) → Prop
  | [] => True
  | change :: past => change.given ∈ handles past ∧ UsesHandles past

/-- The parent that a scope was opened with. -/
def parentIn : List (Change β) → ScopeId → Option ScopeId
  | [], _ => none
  | change :: past, s =>
    if change.opened? (after past) = some s then some change.given else parentIn past s

/-- The value that stands last with a name. -/
def lastValue (id : String) : List (String × β) → Option β
  | [] => none
  | (key, v) :: rest => (lastValue id rest).or (if key = id then some v else none)

/-- The latest value that a name was bound to in a scope itself, since the scope was last
cleared. -/
def latest (id : String) : List (Change β) → ScopeId → Option β
  | [], _ => none
  | .push _ :: past, s => latest id past s
  | .extend parent ids values :: past, s =>
    if s = ((after past).extend parent ids values).1 then lastValue id (ids.zip values)
    else latest id past s
  | .bind scope key v :: past, s => if s = scope ∧ id = key then some v else latest id past s
  | .clear scope :: past, s => if s = scope then none else latest id past s

variable {env : Environment β} {past : List (Change β)} {s t p : ScopeId} {id id' : String} {v : β}
  {pairs : List (String × β)} {ids : List String} {values : List β}

/-! ## Bindings made together -/

@[simp] theorem scopeCount_bindAll (env : Environment β) (s : ScopeId) (pairs : List (String × β)) :
    (env.bindAll s pairs).scopeCount = env.scopeCount := by
  induction pairs generalizing env with
  | nil => rfl
  | cons pair pairs ih => exact (ih _).trans (scopeCount_bind ..)

@[simp] theorem parent?_bindAll (env : Environment β) (s t : ScopeId) (pairs : List (String × β)) :
    (env.bindAll s pairs).parent? t = env.parent? t := by
  induction pairs generalizing env with
  | nil => rfl
  | cons pair pairs ih => exact (ih _).trans (parent?_bind ..)

/-- Of bindings made together, the last one of a name counts. -/
theorem bound?_bindAll (h : env.Has s) (t : ScopeId) (id : String) (pairs : List (String × β)) :
    (env.bindAll s pairs).bound? id t =
      if t = s then (lastValue id pairs).or (env.bound? id s) else env.bound? id t := by
  induction pairs generalizing env with
  | nil => split <;> simp_all [bindAll, lastValue]
  | cons pair pairs ih =>
    have hs : (env.bind s pair.1 pair.2).Has s := by
      rw [Has, scopeCount_bind]
      exact h
    -- the first name is bound before the others, so it counts only if none of them is the same
    have hrest := ih hs
    rw [bound?_bind h, bound?_bind h] at hrest
    refine hrest.trans ?_
    rw [lastValue]
    grind

/-! ## The last value of a name -/

/-- There is no last value of a name that stands nowhere. -/
theorem lastValue_eq_none_iff :
    lastValue id pairs = none ↔ ∀ (i : Nat) (w : β), pairs[i]? ≠ some (id, w) := by
  induction pairs with
  | nil => simp [lastValue]
  | cons pair pairs ih =>
    obtain ⟨key, w⟩ := pair
    rw [lastValue, Option.or_eq_none_iff, ih]
    constructor
    · rintro ⟨hrest, hfirst⟩ (_ | i) u hi
      · cases hi
        simp at hfirst
      · exact hrest i u hi
    · intro h
      refine ⟨fun i u hi => h (i + 1) u hi, if_neg fun same => ?_⟩
      exact h 0 w (same ▸ rfl)

/-- The value that stands last with a name is the one after which the name does not stand again. -/
theorem lastValue_eq_some_iff :
    lastValue id pairs = some v ↔
      ∃ i : Nat, pairs[i]? = some (id, v) ∧
        ∀ (j : Nat) (w : β), i < j → pairs[j]? ≠ some (id, w) := by
  induction pairs with
  | nil => simp [lastValue]
  | cons pair pairs ih =>
    obtain ⟨key, w⟩ := pair
    rw [lastValue, Option.or_eq_some_iff]
    constructor
    -- the name stands among the rest, or it stands first and not among the rest
    · rintro (hrest | ⟨hrest, hfirst⟩)
      · obtain ⟨i, hi, hlast⟩ := ih.1 hrest
        refine ⟨i + 1, hi, fun j u hij => ?_⟩
        obtain ⟨j, rfl⟩ := Nat.exists_eq_add_of_lt hij
        exact hlast _ u (by omega)
      · obtain ⟨same, rfl⟩ : key = id ∧ w = v := by simpa using hfirst
        refine ⟨0, same ▸ rfl, fun j u hj => ?_⟩
        obtain ⟨j, rfl⟩ := Nat.exists_eq_add_of_lt hj
        exact lastValue_eq_none_iff.1 hrest _ u
    · rintro ⟨_ | i, hi, hlast⟩
      · cases hi
        exact .inr ⟨lastValue_eq_none_iff.2 fun j u => hlast (j + 1) u (by omega), if_pos rfl⟩
      · exact .inl (ih.2 ⟨i, hi, fun j u hij => hlast (j + 1) u (by omega)⟩)

/-- Of two lists of different length, what is left over on either side does not count. -/
theorem lastValue_zip :
    lastValue id (ids.zip values) = some v ↔
      ∃ i : Nat, ids[i]? = some id ∧ values[i]? = some v ∧
        ∀ j : Nat, i < j → ids[j]? = some id → values[j]? = none := by
  -- the pairs end where the shorter list does, so a later name may be left without a value
  simp only [lastValue_eq_some_iff, ne_eq, List.getElem?_zip_eq_some, not_and, and_assoc,
    Option.eq_none_iff_forall_ne_some]
  grind

/-! ## What the history says of a scope -/

/-- To open a scope with bindings is to open it and to bind the names. -/
theorem extend_eq (env : Environment β) (parent : ScopeId) (ids : List String) (values : List β) :
    env.extend parent ids values =
      ((env.push parent).1, (env.push parent).2.bindAll (env.push parent).1 (ids.zip values)) := rfl

/-- A change leaves all scopes there, and one more if it opens one. -/
theorem Change.has_apply {change : Change β} :
    (change.apply env).Has s ↔ change.opened? env = some s ∨ env.Has s := by
  cases change with
  | push parent => simp only [apply, opened?, has_push, Option.some.injEq]
  | extend parent ids values =>
    rw [apply, opened?, extend_eq, Has, scopeCount_bindAll, Option.some.injEq]
    exact has_push
  | bind scope id v => simp [apply, opened?, Has]
  | clear scope => simp [apply, opened?, Has]

/-- A change leaves all parents as they are, and a scope that is opened has the given one. -/
theorem Change.parent?_apply {change : Change β} :
    (change.apply env).parent? s =
      if change.opened? env = some s then some change.given else env.parent? s := by
  cases change with
  | push parent => simp only [apply, opened?, given, parent?_push, Option.some.injEq, eq_comm]
  | extend parent ids values =>
    simp only [apply, opened?, given, extend_eq, parent?_bindAll, parent?_push, Option.some.injEq,
      eq_comm]
  | bind scope id v => exact parent?_bind ..
  | clear scope => exact parent?_clear ..

/-- Scopes are never closed, so that every handle that was ever returned stays valid. -/
theorem mem_handles_iff : s ∈ handles past ↔ (after past).Has s := by
  induction past with
  | nil =>
    obtain ⟨i⟩ := s
    simp [handles, after, Has, empty, scopeCount, ScopeId.root]
  | cons change past ih =>
    rw [handles, List.mem_append, Option.mem_toList, ih, after, Change.has_apply]

/-- The parent of a scope is the one that it was opened with. -/
theorem parent?_after (past : List (Change β)) : (after past).parent? = parentIn past := by
  funext s
  induction past with
  | nil => obtain ⟨_ | i⟩ := s <;> rfl
  | cons change past ih => rw [after, Change.parent?_apply, parentIn, ih]

/-- The index of a scope is the number of those before it. -/
theorem opened?_index {change : Change β} (h : change.opened? env = some s) :
    s.index = env.scopeCount := by
  cases change <;> cases h <;> rfl

/-- A scope is opened with a parent that is there already, and no change gives it another one. -/
theorem parentsAreOlder_after (h : UsesHandles past) : (after past).ParentsAreOlder := by
  induction past with
  | nil =>
    intro s p hp
    rw [parent?_after] at hp
    cases hp
  | cons change past ih =>
    intro s p hp
    rw [after, Change.parent?_apply] at hp
    split at hp
    -- the parent was there before, so its index is below the number of scopes
    next hnew =>
      cases hp
      rw [opened?_index hnew]
      exact mem_handles_iff.1 h.1
    next => exact ih h.2 s p hp

/-- A scope holds the latest value of a name. -/
theorem bound?_after (h : UsesHandles past) (id : String) :
    (after past).bound? id = latest id past := by
  funext s
  induction past with
  | nil => obtain ⟨_ | i⟩ := s <;> rfl
  | cons change past ih =>
    have hpast := ih h.2
    cases change with
    -- the handle that is returned was not one before, so nothing is bound there yet
    | push parent =>
      rw [after, latest, Change.apply, bound?_push]
      split
      next hnew => rw [← hpast, hnew, bound?_of_not_has (not_has_push _ _)]
      next => exact hpast
    | extend parent ids values =>
      -- the new scope is empty at first, so only the bindings made with it count
      rw [after, latest, Change.apply, extend_eq, bound?_bindAll (has_push.2 (.inl rfl)),
        bound?_push, bound?_push, if_pos rfl, Option.or_none]
      split
      next => rfl
      next => exact hpast
    | bind scope key v =>
      have hscope : (after past).Has scope := mem_handles_iff.1 h.1
      rw [after, latest, Change.apply, bound?_bind hscope, hpast]
    | clear scope => rw [after, latest, Change.apply, bound?_clear, hpast]

end Environment

open Environment in
/-- Let an environment be changed in any way, each time with a handle that there is. Then parents
are older than their children, and every handle that was ever returned is that of a scope with the
parent that it was opened with. To look up a name is to walk from scope to scope, which comes to an
end at scopes that exist. What is found is the latest value of the name in the nearest scope that
holds one. A new binding is seen only from where its scope is the nearest one that holds the name.
To open a scope with bindings is to open it and to bind the names one by one, so that the last value
of a name counts and what is left over does not. The names of a scope are those that it holds, in
strictly rising order. -/
theorem lookups_follow_the_history {β : Type} (past : List (Change β)) (h : UsesHandles past) :
    (∀ i scope p, Scope.at? (after past).scopes i = some scope → scope.parent = some p →
      p.index < i) ∧
    (∀ s ∈ handles past,
      (∃ scope, Scope.at? (after past).scopes s.index = some scope ∧
        scope.parent = parentIn past s) ∧
      ∀ id, (∀ r, (after past).Walk id s r ↔ r = (after past).lookup s id) ∧
        (∀ v, (after past).lookup s id = .ok v ↔
          ∃ t, Nearest (parentIn past) (latest id past) s t v) ∧
        (∀ fault, (after past).lookup s id = .error fault ↔
          fault = .unbound id ∧ ∀ t, OnChain (parentIn past) s t → latest id past t = none)) ∧
    (∀ s ∈ handles past, ∀ t ∈ handles past, ∀ id id' v,
      ((after past).bind s id v).lookup t id' ≠ (after past).lookup t id' →
        id' = id ∧ Nearest (parentIn past) (latest id (.bind s id v :: past)) t s v) ∧
    (∀ parent ∈ handles past, ∀ ids values,
      (after past).extend parent ids values =
        (let (scope, env) := (after past).push parent
         (scope, (ids.zip values).foldl (fun env pair => env.bind scope pair.1 pair.2) env)) ∧
      ∀ id v, ((after past).extend parent ids values).2.bound? id
            ((after past).extend parent ids values).1 = some v ↔
          ∃ i : Nat, ids[i]? = some id ∧ values[i]? = some v ∧
            ∀ j : Nat, i < j → ids[j]? = some id → values[j]? = none) ∧
    ∀ s ∈ handles past, ((after past).names s).Pairwise (· < ·) ∧
      ∀ id, id ∈ (after past).names s ↔ (latest id past s).isSome := by
  have holder := parentsAreOlder_after h
  have hparent := parent?_after past
  refine ⟨fun i scope p hscope hp => ?_,
    fun s hs => ⟨?_, fun id => ⟨fun r => ?_, fun v => ?_, fun fault => ?_⟩⟩,
    fun s hs t _ id id' v hne => ?_, fun parent _ ids values => ⟨rfl, fun id v => ?_⟩,
    fun s _ => ⟨names_rising _ s, fun id => ?_⟩⟩
  · exact holder ⟨i⟩ p (by rw [parent?, hscope, Option.bind_some, hp])
  · obtain ⟨scope, hscope⟩ := exists_at? (mem_handles_iff.1 hs)
    exact ⟨scope, hscope, by rw [← hparent, parent?, hscope, Option.bind_some]⟩
  · refine ⟨(·.eq_lookup holder), ?_⟩
    rintro rfl
    exact walk_lookup holder id (mem_handles_iff.1 hs)
  · rw [lookup_eq_ok_iff holder, hparent, bound?_after h]
  · rw [lookup_eq_error_iff holder, hparent, bound?_after h]
  -- one more change, made with a handle that there is
  · have hbind : UsesHandles (.bind s id v :: past) := ⟨hs, h⟩
    have hbound : ((after past).bind s id v).bound? id = latest id (.bind s id v :: past) :=
      bound?_after hbind id
    rw [← hparent, ← hbound]
    exact lookup_bind_ne holder (mem_handles_iff.1 hs) hne
  · rw [extend_eq, bound?_bindAll (has_push.2 (.inl rfl)), if_pos rfl, bound?_push, if_pos rfl,
      Option.or_none, lastValue_zip]
  · rw [mem_names_iff, bound?_after h]

/-- A history in which a name is bound again further out, after a scope further in was cleared. -/
def Environment.shadowing : List (Environment.Change Nat) :=
  [.bind .root "x" 5, .clear ⟨1⟩, .extend ⟨1⟩ ["y", "x", "y"] [1, 2, 3, 4], .bind ⟨1⟩ "x" 0,
    .push .root]

open Environment in
/-- Further in the last of two bindings is seen, and further out the one that was made again. -/
theorem lookups_follow_the_history_shadowing :
    UsesHandles shadowing ∧
    (after shadowing).lookup ⟨2⟩ "x" = .ok 2 ∧ (after shadowing).lookup ⟨2⟩ "y" = .ok 3 ∧
    (after shadowing).lookup ⟨1⟩ "x" = .ok 5 ∧
    (after shadowing).lookup ⟨1⟩ "y" = .error (.unbound "y") := by
  have uses : UsesHandles shadowing :=
    ⟨by decide, by decide, by decide, by decide, by decide, trivial⟩
  obtain ⟨_, hlookup, _⟩ := lookups_follow_the_history shadowing uses
  have hin := hlookup ⟨2⟩ (by decide)
  have hout := hlookup ⟨1⟩ (by decide)
  refine ⟨uses, ((hin.2 "x").2.1 2).2 ⟨⟨2⟩, .here rfl⟩, ((hin.2 "y").2.1 3).2 ⟨⟨2⟩, .here rfl⟩,
    ((hout.2 "x").2.1 5).2 ⟨.root, .outward rfl rfl (.here rfl)⟩,
    ((hout.2 "y").2.2 _).2 ⟨rfl, fun t ht => ?_⟩⟩
  -- the cleared scope and its parent are all there is on the way out
  cases ht with
  | here => rfl
  | outward up rest =>
    cases up
    cases rest with
    | here => rfl
    | outward up _ => cases up

end SelfSimilar
