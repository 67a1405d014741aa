import SelfSimilar.Value.Operators

/-!
# Dispatch by kinds

The entries of the table of operators are functions on the contents of values, so they are never
given operands of other kinds. An implementation of an operator may also be written on values: then
it takes its operands apart, and it is stuck on what it cannot take apart. Here the standard table
is written so, with each implementation registered for the kinds of operands that it is meant for.
That choosing it by the kinds of the operands is enough never to get stuck has to be proved.

* `Operators.Implementation`, `Operators.implementations`: implementations on values, with their
  kinds
* `Operators.fits_of_mem`: each computes what the table does, on all values of its kinds
* `Operators.supports_eq`: there is one for each entry of the table
* `Operators.dispatch?_eq`: what is chosen by the kinds of the operands is never stuck
-/

namespace SelfSimilar

/-- All operators. -/
def BinaryOp.all : List BinaryOp := [.add, .sub, .mul, .div, .mod]

namespace Operators

/-- An implementation of an operator for operands of two kinds. -/
structure Implementation (α : Type) where
  /-- The operator. -/
  op : BinaryOp
  /-- The kind of the left operand. -/
  left : Kind
  /-- The kind of the right operand. -/
  right : Kind
  /-- The result on two values, or nothing if it is stuck on them. -/
  run? : Value α → Value α → Option (Except Fault (Value α))

/-- What an implementation is registered for. -/
def Implementation.key {α : Type} (i : Implementation α) : BinaryOp × Kind × Kind :=
  (i.op, i.left, i.right)

variable {α : Type} [Scalar α]

/-! ## The implementations -/

/-- An operator on whole numbers, stuck on all other values. -/
def onIntegers? (op : BinaryOp) : Value α → Value α → Option (Except Fault (Value α))
  | .int a, .int b => some (.ok (onIntegers op a b))
  | _, _ => none

/-- An operator on real numbers, stuck on what does not count as one. -/
def onReals? (op : BinaryOp) (l r : Value α) : Option (Except Fault (Value α)) :=
  match l.asReal, r.asReal with
  | .ok x, .ok y => some (.ok (.real (onReals op x y)))
  | _, _ => none

/-- An operator on points, stuck on all other values. -/
def onPoints? (op : BinaryOp) : Value α → Value α → Option (Except Fault (Value α))
  | .point p, .point q => some (.ok (.point (onPoints op p q)))
  | _, _ => none

/-- A point is stretched by a factor that is computed from a real number. -/
def scale? (factor : α → α) (l r : Value α) : Option (Except Fault (Value α)) :=
  match l, r.asReal with
  | .point p, .ok x => some (.ok (.point (p.scale (factor x))))
  | _, _ => none

/-- The remainder of a point by a whole number, stuck on all other values. -/
def rem? : Value α → Value α → Option (Except Fault (Value α))
  | .point p, .int n => some (.ok (.point (p.rem n.toInt)))
  | _, _ => none

/-- The implementations for whole numbers. -/
def ofIntegers : List (Implementation α) :=
  BinaryOp.all.map fun op => ⟨op, .integer, .integer, onIntegers? op⟩

/-- The implementations for numbers of which one is real. -/
def ofReals : List (Implementation α) :=
  [(Kind.real, Kind.real), (.real, .integer), (.integer, .real)].flatMap fun kinds =>
    BinaryOp.all.map fun op => ⟨op, kinds.1, kinds.2, onReals? op⟩

/-- The implementations for points. -/
def ofPoints : List (Implementation α) :=
  BinaryOp.all.map (fun op => ⟨op, .point, .point, onPoints? op⟩) ++
    [Kind.integer, Kind.real].flatMap (fun kind =>
      [⟨.mul, .point, kind, scale? id⟩, ⟨.div, .point, kind, scale? (1 / ·)⟩]) ++
    [⟨.mod, .point, .integer, rem?⟩]

/-- All implementations. -/
def implementations : List (Implementation α) := ofIntegers ++ ofReals ++ ofPoints

/-- The operators and kinds that there is an implementation for. -/
def keys : List (BinaryOp × Kind × Kind) :=
  BinaryOp.all.map (·, .integer, .integer) ++
    [(Kind.real, Kind.real), (.real, .integer), (.integer, .real)].flatMap (fun kinds =>
      BinaryOp.all.map (·, kinds)) ++
    BinaryOp.all.map (·, .point, .point) ++
    [Kind.integer, Kind.real].flatMap (fun kind => [(.mul, .point, kind), (.div, .point, kind)]) ++
    [(.mod, .point, .integer)]

/-- The implementations are registered under these keys. -/
theorem map_key_implementations :
    (implementations : List (Implementation α)).map Implementation.key = keys :=
  rfl

/-! ## Each implementation fits its kinds -/

/-- The implementation computes what the table does from all operands of its kinds. In particular,
it is not stuck on them. -/
def Implementation.Fits (i : Implementation α) : Prop :=
  ∀ l r : Value α, l.kind = i.left → r.kind = i.right → i.run? l r = some (standard.apply i.op l r)

/-- Whole numbers are taken apart. -/
theorem fits_onIntegers (op : BinaryOp) :
    (⟨op, .integer, .integer, onIntegers? op⟩ : Implementation α).Fits := by
  intro l r hl hr
  cases l <;> cases hl
  cases r <;> cases hr
  rfl

/-- Of two numbers, each counts as a real number. -/
theorem fits_onReals {kinds : Kind × Kind}
    (h : kinds ∈ [(Kind.real, Kind.real), (.real, .integer), (.integer, .real)]) (op : BinaryOp) :
    (⟨op, kinds.1, kinds.2, onReals? op⟩ : Implementation α).Fits := by
  intro l r hl hr
  simp only [List.mem_cons, List.not_mem_nil, or_false] at h
  -- three pairs of kinds, and for each pair one kind of values on each side
  rcases h with rfl | rfl | rfl <;> cases l <;> cases hl <;> cases r <;> cases hr <;> rfl

/-- Points are taken apart. -/
theorem fits_onPoints (op : BinaryOp) :
    (⟨op, .point, .point, onPoints? op⟩ : Implementation α).Fits := by
  intro l r hl hr
  cases l <;> cases hl
  cases r <;> cases hr
  rfl

/-- A point and a number are taken apart, whichever kind the number has. -/
theorem fits_scale {kind : Kind} (h : kind ∈ [Kind.integer, Kind.real]) :
    (⟨.mul, .point, kind, scale? id⟩ : Implementation α).Fits ∧
      (⟨.div, .point, kind, scale? (1 / ·)⟩ : Implementation α).Fits := by
  simp only [List.mem_cons, List.not_mem_nil, or_false] at h
  constructor
  all_goals
    intro l r hl hr
    cases l <;> cases hl
    rcases h with rfl | rfl <;> cases r <;> cases hr <;> rfl

/-- A point and a whole number are taken apart. -/
theorem fits_rem : (⟨.mod, .point, .integer, rem?⟩ : Implementation α).Fits := by
  intro l r hl hr
  cases l <;> cases hl
  cases r <;> cases hr
  rfl

/-- Each implementation computes what the table does, on all values of its kinds. -/
theorem fits_of_mem {i : Implementation α} (h : i ∈ implementations) : i.Fits := by
  simp only [implementations, ofIntegers, ofReals, ofPoints, List.mem_append, List.mem_map,
    List.mem_flatMap, List.mem_singleton] at h
  -- whole numbers, real numbers, points, a point and a number, a remainder
  rcases h with (⟨op, _, rfl⟩ | ⟨kinds, hkinds, op, _, rfl⟩) |
    (⟨op, _, rfl⟩ | ⟨kind, hkind, hi⟩) | rfl
  · exact fits_onIntegers op
  · exact fits_onReals hkinds op
  · exact fits_onPoints op
  · rcases List.mem_cons.1 hi with rfl | hi
    · exact (fits_scale hkind).1
    · exact List.mem_singleton.1 hi ▸ (fits_scale hkind).2
  · exact fits_rem

/-! ## Dispatch -/

/-- There is an implementation for each entry of the table, and for no other operator and kinds. -/
theorem supports_eq (op : BinaryOp) (left right : Kind) :
    (standard : Operators α).supports op left right = decide ((op, left, right) ∈ keys) := by
  cases op <;> cases left <;> cases right <;> rfl

/-- Choose an implementation by the operator and the kinds of the operands. Without one, the kinds
are a mismatch. -/
def dispatch? (op : BinaryOp) (l r : Value α) : Option (Except Fault (Value α)) :=
  match implementations.find? fun i => i.key = (op, l.kind, r.kind) with
  | some i => i.run? l r
  | none => some (.error (.kindMismatch l.kind r.kind))

omit [Scalar α] in
/-- Without an entry in the table, the kinds are a mismatch. -/
theorem apply_of_not_supports {t : Operators α} {op : BinaryOp} {l r : Value α}
    (h : t.supports op l.kind r.kind = false) :
    t.apply op l r = .error (.kindMismatch l.kind r.kind) := by
  rw [supports, Option.isSome_eq_false_iff, Option.isNone_iff_eq_none] at h
  unfold apply
  rw [h]

/-- What is chosen by the kinds of the operands is never stuck on them, and it computes what the
table does. -/
theorem dispatch?_eq (op : BinaryOp) (l r : Value α) :
    dispatch? op l r = some (standard.apply op l r) := by
  unfold dispatch?
  cases hfind : implementations.find? fun i : Implementation α => i.key = (op, l.kind, r.kind) with
  | some i =>
    -- the key of what is found says which operands it fits
    have hkey := List.find?_some hfind
    obtain ⟨rfl, hl, hr⟩ : i.op = op ∧ i.left = l.kind ∧ i.right = r.kind := by
      simpa [Implementation.key] using hkey
    exact fits_of_mem (List.mem_of_find?_eq_some hfind) l r hl.symm hr.symm
  | none =>
    -- no implementation has the key, so the table has no entry
    have hkeys : (op, l.kind, r.kind) ∉ keys := by
      rw [← map_key_implementations (α := α), List.mem_map]
      rintro ⟨i, hi, hkey⟩
      exact List.find?_eq_none.1 hfind i hi (decide_eq_true hkey)
    rw [apply_of_not_supports (by rw [supports_eq, decide_eq_false hkeys])]

/-- An operator fails exactly where the table has no entry, and the fault names the kinds. -/
theorem apply_eq_error_iff {op : BinaryOp} {l r : Value α} {fault : Fault} :
    standard.apply op l r = .error fault ↔
      (standard : Operators α).supports op l.kind r.kind = false ∧
        fault = .kindMismatch l.kind r.kind := by
  constructor
  · intro h
    -- only for a point on the left does the operator decide whether there is an entry
    cases l with
    | point p => cases r <;> cases op <;> cases h <;> exact ⟨rfl, rfl⟩
    | _ => cases r <;> cases h <;> exact ⟨rfl, rfl⟩
  · rintro ⟨h, rfl⟩
    exact apply_of_not_supports h

end Operators

end SelfSimilar
