import SelfSimilar.Program.Stmt

/-!
# Statements inside others

Blocks and definitions hold statements of their own, at any depth. What is assumed of all statements
of a program is assumed of those too.

* `Stmt.OccursIn`: a statement is one of a body or is inside one of them
* `Stmt.throughout_singleton`, `Stmt.throughout_cons`: a property of all statements, taken apart
* `Stmt.StandsIn`: a statement is one of a body or is inside a block, but in no definition
-/

namespace SelfSimilar

variable {α : Type}

namespace Stmt

/-- The statements that a statement holds. -/
def inner : Stmt α → List (Stmt α)
  | .block body _ => body
  | .define _ body _ => body
  | _ => []

/-- A statement is one of a body, or it is inside one of them. -/
inductive OccursIn (s : Stmt α) : List (Stmt α) → Prop
  | member {body} (mem : s ∈ body) : OccursIn s body
  | inside {body outer} (mem : outer ∈ body) (occurs : OccursIn s outer.inner) : OccursIn s body

variable {s s' : Stmt α} {rest : List (Stmt α)} {P : Stmt α → Prop}

/-- In no statements there is none. -/
theorem not_occursIn_nil : ¬ s.OccursIn [] := by
  intro h
  cases h with
  | member mem => cases mem
  | inside mem _ => cases mem

/-- What is in one statement is that statement or is inside of it. -/
theorem occursIn_singleton : s.OccursIn [s'] ↔ s = s' ∨ s.OccursIn s'.inner := by
  constructor
  · intro h
    cases h with
    | member mem => exact .inl (List.mem_singleton.1 mem)
    | inside mem occurs => exact .inr (List.mem_singleton.1 mem ▸ occurs)
  · rintro (rfl | h)
    · exact .member (List.mem_singleton.2 rfl)
    · exact .inside (List.mem_singleton.2 rfl) h

/-- What is in a body is in its first statement or in the others. -/
theorem occursIn_cons : s.OccursIn (s' :: rest) ↔ s.OccursIn [s'] ∨ s.OccursIn rest := by
  rw [occursIn_singleton]
  constructor
  · intro h
    cases h with
    | member mem => exact (List.mem_cons.1 mem).imp .inl .member
    | inside mem occurs =>
      rcases List.mem_cons.1 mem with rfl | mem
      · exact .inl (.inr occurs)
      · exact .inr (.inside mem occurs)
  -- conversely: the first statement, what is inside of it, and the others
  · rintro ((rfl | h) | h)
    · exact .member List.mem_cons_self
    · exact .inside List.mem_cons_self h
    · cases h with
      | member mem => exact .member (List.mem_cons_of_mem _ mem)
      | inside mem occurs => exact .inside (List.mem_cons_of_mem _ mem) occurs

/-- What is inside a statement of a body is inside the body. -/
theorem OccursIn.of_inner {body : List (Stmt α)} (h : s'.OccursIn body) (hs : s.OccursIn s'.inner) :
    s.OccursIn body := by
  induction h with
  | member mem => exact .inside mem hs
  | inside mem _ ih => exact .inside mem ih

/-- All statements of a body have a property, also those inside others. -/
def Throughout (P : Stmt α → Prop) (body : List (Stmt α)) : Prop :=
  ∀ s : Stmt α, s.OccursIn body → P s

theorem throughout_singleton : Throughout P [s] ↔ P s ∧ Throughout P s.inner := by
  simp only [Throughout, occursIn_singleton, or_imp, forall_and, forall_eq]

/-- A property of all that is in a body, for the first statement and for the others. -/
theorem throughout_cons : Throughout P (s :: rest) ↔ Throughout P [s] ∧ Throughout P rest := by
  unfold Throughout
  rw [← forall_and]
  refine forall_congr' fun s' => ?_
  rw [occursIn_cons, or_imp]

@[simp] theorem throughout_nil : Throughout P [] := fun _ h => absurd h not_occursIn_nil

/-- A property of all statements, taken apart down to the statements themselves. -/
theorem throughout_cons_iff :
    Throughout P (s :: rest) ↔ P s ∧ Throughout P s.inner ∧ Throughout P rest := by
  rw [throughout_cons, throughout_singleton, and_assoc]

/-! ## Outside of definitions -/

/-- A statement is one of a body, or it is inside blocks of that body, but it is not inside the
definition of a fractal. -/
inductive StandsIn (s : Stmt α) : List (Stmt α) → Prop
  | member {body} (mem : s ∈ body) : StandsIn s body
  | inBlock {body inner span} (mem : .block inner span ∈ body) (stands : StandsIn s inner) :
      StandsIn s body

/-- Where a body is part of another one, so is what stands in it. -/
theorem StandsIn.mono {body body' : List (Stmt α)} (h : s.StandsIn body)
    (hsub : ∀ s' ∈ body, s' ∈ body') : s.StandsIn body' := by
  cases h with
  | member mem => exact .member (hsub s mem)
  | inBlock mem stands => exact .inBlock (hsub _ mem) stands

end Stmt

end SelfSimilar
