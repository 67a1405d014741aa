/-!
# Bindings

The bindings of one scope: names in strictly rising order, each with its value. The order makes the
list of names the one that is shown, and makes two bindings equal as soon as they bind the same
names to the same values.

* `find?_insert_self`, `find?_insert_ne` say what an insertion does to a look-up
* `Bindings.ext_find?` says that look-ups determine the bindings
-/

namespace SelfSimilar

/-- Names with their values, in strictly rising order of the names. -/
structure Bindings (β : Type) where
  /-- The names with their values. -/
  entries : List (String × β)
  /-- The names rise. -/
  rising : entries.Pairwise (fun a b => a.1 < b.1)

namespace Bindings

variable {β : Type}

/-- No bindings. -/
def empty : Bindings β := ⟨[], .nil⟩

/-- Put a name into its place, or give it a new value there. -/
def insertEntry (id : String) (v : β) : List (String × β) → List (String × β)
  | [] => [(id, v)]
  | (key, w) :: rest =>
    if id < key then (id, v) :: (key, w) :: rest
    else if id = key then (id, v) :: rest
    else (key, w) :: insertEntry id v rest

/-- The value of a name in a list of names with values. -/
def findEntry (id : String) : List (String × β) → Option β
  | [] => none
  | (key, v) :: rest => if id = key then some v else findEntry id rest

/-- An insertion adds one entry, and all others were there before. -/
theorem mem_insertEntry {id : String} {v : β} {a : String × β} {l : List (String × β)}
    (h : a ∈ insertEntry id v l) : a = (id, v) ∨ a ∈ l := by
  induction l with
  | nil => simpa [insertEntry] using h
  | cons head rest ih =>
    obtain ⟨key, w⟩ := head
    rw [insertEntry] at h
    split at h
    · simpa using h
    · split at h
      · rcases List.mem_cons.1 h with rfl | h
        · exact .inl rfl
        · exact .inr (List.mem_cons_of_mem _ h)
      · rcases List.mem_cons.1 h with rfl | h
        · exact .inr List.mem_cons_self
        · exact (ih h).imp_right (List.mem_cons_of_mem _)

/-- An insertion keeps names in rising order. -/
theorem rising_insertEntry (id : String) (v : β) {l : List (String × β)}
    (h : l.Pairwise (fun a b => a.1 < b.1)) :
    (insertEntry id v l).Pairwise (fun a b => a.1 < b.1) := by
  induction l with
  | nil => simp [insertEntry]
  | cons head rest ih =>
    obtain ⟨key, w⟩ := head
    rw [List.pairwise_cons] at h
    rw [insertEntry]
    split
    next less =>
      refine List.pairwise_cons.2 ⟨fun a ha => ?_, List.pairwise_cons.2 h⟩
      rcases List.mem_cons.1 ha with rfl | ha
      · exact less
      · exact String.lt_trans less (h.1 a ha)
    next notLess =>
      split
      next same =>
        subst same
        exact List.pairwise_cons.2 ⟨h.1, h.2⟩
      next different =>
        refine List.pairwise_cons.2 ⟨fun a ha => ?_, ih h.2⟩
        -- behind the first name stands the new one or one that was there
        rcases mem_insertEntry ha with rfl | ha
        · exact Std.lt_of_le_of_ne (String.not_lt.1 notLess) (Ne.symm different)
        · exact h.1 a ha

/-- Bind a name, replacing an older binding. -/
def insert (b : Bindings β) (id : String) (v : β) : Bindings β :=
  ⟨insertEntry id v b.entries, rising_insertEntry id v b.rising⟩

/-- The value of a name. -/
def find? (b : Bindings β) (id : String) : Option β := findEntry id b.entries

/-- The bound names, in rising order. -/
def names (b : Bindings β) : List String := b.entries.map (·.1)

/-! ## Look-ups after an insertion -/

@[simp] theorem find?_empty (id : String) : (empty : Bindings β).find? id = none := rfl

/-- The name that is inserted has the new value. -/
@[simp] theorem find?_insert_self (b : Bindings β) (id : String) (v : β) :
    (b.insert id v).find? id = some v := by
  simp only [find?, insert]
  induction b.entries with
  | nil => simp [insertEntry, findEntry]
  | cons head rest ih =>
    rw [insertEntry]
    split
    · simp [findEntry]
    · split
      · simp [findEntry]
      next different => simp [findEntry, different, ih]

/-- All other names have the values that they had. -/
theorem find?_insert_ne (b : Bindings β) {id id' : String} (v : β) (h : id' ≠ id) :
    (b.insert id v).find? id' = b.find? id' := by
  simp only [find?, insert]
  induction b.entries with
  | nil => simp [insertEntry, findEntry, h]
  | cons head rest ih =>
    rw [insertEntry]
    split
    · simp [findEntry, h]
    · split
      next same => simp [findEntry, h, ← same]
      · simp [findEntry, ih]

/-- A look-up after an insertion. -/
theorem find?_insert (b : Bindings β) (id id' : String) (v : β) :
    (b.insert id v).find? id' = if id' = id then some v else b.find? id' := by
  split
  next same => rw [same, find?_insert_self]
  next different => rw [find?_insert_ne b v different]

/-! ## Look-ups determine the bindings -/

/-- A name before all others is not among them. -/
theorem findEntry_eq_none_of_lt {id : String} {l : List (String × β)}
    (h : ∀ a ∈ l, id < a.1) : findEntry id l = none := by
  induction l with
  | nil => rfl
  | cons head rest ih =>
    obtain ⟨key, v⟩ := head
    have different : id ≠ key := fun same =>
      String.lt_irrefl key (same ▸ h (key, v) List.mem_cons_self)
    rw [findEntry, if_neg different]
    exact ih fun a ha => h a (List.mem_cons_of_mem _ ha)

/-- Lists of rising names are equal if all names are found alike in them. -/
theorem eq_of_findEntry_eq {l₁ l₂ : List (String × β)}
    (h₁ : l₁.Pairwise (fun a b => a.1 < b.1)) (h₂ : l₂.Pairwise (fun a b => a.1 < b.1))
    (h : ∀ id, findEntry id l₁ = findEntry id l₂) : l₁ = l₂ := by
  induction l₁ generalizing l₂ with
  | nil =>
    cases l₂ with
    | nil => rfl
    | cons head rest => simpa [findEntry] using h head.1
  | cons head₁ rest₁ ih =>
    cases l₂ with
    | nil => simpa [findEntry] using h head₁.1
    | cons head₂ rest₂ =>
      obtain ⟨key₁, v₁⟩ := head₁
      obtain ⟨key₂, v₂⟩ := head₂
      rw [List.pairwise_cons] at h₁ h₂
      -- a first name that is smaller than the other one is found on its side only
      have above₁ : ¬ key₁ < key₂ := fun less => by
        have none₂ : findEntry key₁ ((key₂, v₂) :: rest₂) = none :=
          findEntry_eq_none_of_lt fun a ha => by
            rcases List.mem_cons.1 ha with rfl | ha
            · exact less
            · exact String.lt_trans less (h₂.1 a ha)
        have found := h key₁
        rw [none₂] at found
        simp [findEntry] at found
      have above₂ : ¬ key₂ < key₁ := fun less => by
        have none₁ : findEntry key₂ ((key₁, v₁) :: rest₁) = none :=
          findEntry_eq_none_of_lt fun a ha => by
            rcases List.mem_cons.1 ha with rfl | ha
            · exact less
            · exact String.lt_trans less (h₁.1 a ha)
        have found := h key₂
        rw [none₁] at found
        simp [findEntry] at found
      have same : key₁ = key₂ :=
        String.le_antisymm (String.not_lt.1 above₂) (String.not_lt.1 above₁)
      subst same
      have values : v₁ = v₂ := by simpa [findEntry] using h key₁
      subst values
      -- the rests are equal too, as the first name is in neither of them
      rw [ih h₁.2 h₂.2 fun id => ?_]
      by_cases isKey : id = key₁
      · subst isKey
        rw [findEntry_eq_none_of_lt h₁.1, findEntry_eq_none_of_lt h₂.1]
      · simpa [findEntry, isKey] using h id

/-- Bindings of the same names to the same values are equal. -/
theorem ext_find? {b₁ b₂ : Bindings β} (h : ∀ id, b₁.find? id = b₂.find? id) : b₁ = b₂ := by
  cases b₁
  cases b₂
  congr
  exact eq_of_findEntry_eq (by assumption) (by assumption) h

end Bindings

end SelfSimilar
