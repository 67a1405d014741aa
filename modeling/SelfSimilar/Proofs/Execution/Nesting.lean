import SelfSimilar.Proofs.Execution.Levels
import SelfSimilar.Proofs.Execution.Origin
import SelfSimilar.Proofs.Execution.Rewriting

/-!
# Nested draws

The fractals that are being drawn where a statement is begun form a list, the outermost first. Each
of them is one level, whether it is drawn by name or by SELF, but only those that are drawn by name
are active. SELF goes on below `maxDepth` only, so whatever stands beyond that level in the list is
drawn by name.

* `Inside`: a statement in the course of a run, with the draws around it
* `Inside.level_eq`, `Inside.active_eq`: what the level and the active fractals say about the draws
* `Inside.isNamed_of_mem_drop`: beyond `maxDepth` fractals are drawn by name
* `Unread.fault_ne_tooDeep`: what cannot be read is not a matter of depth
* `Execution.refused`: only draws by name that find no level left fail because of their depth
-/

namespace SelfSimilar

variable {α : Type}

/-- A statement that draws a fractal by running its body. -/
structure Draw (α : Type) where
  /-- The statement. -/
  statement : Stmt α
  /-- The fractal that it draws. -/
  fractal : Fractal α

/-- The statement draws a fractal by its name. -/
def Stmt.isNamedDraw : Stmt α → Bool
  | .draw _ _ _ => true
  | _ => false

/-- The fractal is drawn by its name, and not by SELF. -/
def Draw.isNamed (d : Draw α) : Bool := d.statement.isNamedDraw

/-- The fractals of some draws that are drawn by their names, the last one first. -/
def Draw.activated (draws : List (Draw α)) : List (Fractal α) :=
  ((draws.filter isNamed).map fractal).reverse

variable [Scalar α]

/-- `Inside b t c draws b' s c'`: in the course of the work `t` on the branch `b`, begun on the
canvas `c`, the statement `s` is begun on the branch `b'` and the canvas `c'`, inside of the draws,
the outermost first. -/
inductive Inside :
    Branch α → Task α → Canvas α → List (Draw α) → Branch α → Stmt α → Canvas α → Prop
  /-- The work itself is inside of no draw. -/
  | meets {b t c s c'} (met : Meets b t c s c') : Inside b t c [] b s c'
  /-- The body of a fractal is inside of the draw of the fractal. -/
  | drawn {b t c d child e e' draws b' s c'} (met : Meets b t c d.statement e)
      (runs : Draws b e d.statement d.fractal child e')
      (inner : Inside child (.all .origin d.fractal.body) e' draws b' s c') :
      Inside b t c (d :: draws) b' s c'

section

variable {b child b' : Branch α} {t : Task α} {c d c' : Canvas α} {s : Stmt α} {f : Fractal α}
  {draws : List (Draw α)}

/-! ## Draws around a statement -/

/-- A statement in the course of a run is inside of some draws. -/
theorem Visits.inside (h : Visits b t c b' s c') : ∃ draws, Inside b t c draws b' s c' := by
  induction h with
  | meets met => exact ⟨[], .meets met⟩
  | @drawn b t c s d f child e b' s' c' met runs _ ih =>
    obtain ⟨draws, hinner⟩ := ih
    exact ⟨⟨s, f⟩ :: draws, .drawn met runs hinner⟩

/-- A statement inside of draws is one in the course of the run. -/
theorem Inside.visits (h : Inside b t c draws b' s c') : Visits b t c b' s c' := by
  induction h with
  | meets met => exact .meets met
  | drawn met runs _ ih => exact .drawn met runs ih

/-- Each draw around a statement is one level. -/
theorem Inside.level_eq (h : Inside b t c draws b' s c') : b'.level = b.level + draws.length := by
  induction h with
  | meets _ => rfl
  | drawn _ runs _ ih =>
    have hchild := runs.level_eq
    rw [List.length_cons]
    omega

/-- A draw by name makes its fractal active, SELF makes none active. -/
theorem Draws.active_eq (h : Draws b c s f child d) :
    d.active = Draw.activated [⟨s, f⟩] ++ c.active := by
  cases h <;> rfl

omit [Scalar α] in
/-- The fractal of the innermost draw is the last one to become active. -/
theorem Draw.activated_cons (d : Draw α) (draws : List (Draw α)) :
    activated (d :: draws) = activated draws ++ activated [d] := by
  simp only [activated, ← List.reverse_append, ← List.map_append, ← List.filter_append,
    List.singleton_append]

/-- The active fractals are those that are drawn by name, on top of those that were active
before. -/
theorem Inside.active_eq (h : Inside b t c draws b' s c') :
    c'.active = Draw.activated draws ++ c.active := by
  induction h with
  | meets met => exact met.active_eq
  | @drawn b t c d child e e' draws b' s c' met runs _ ih =>
    rw [ih, runs.active_eq, met.active_eq, Draw.activated_cons d draws, List.append_assoc]

/-- On a level without SELF, what runs a body is a draw by name. -/
theorem Draws.isNamedDraw (h : Draws b c s f child d) (hlevel : b.settings.selfLimit ≤ b.level) :
    s.isNamedDraw = true := by
  cases h with
  | named _ _ _ => rfl
  | self _ large _ =>
    have := Branch.level_lt_of_isResolvable large
    omega

/-- Beyond `maxDepth` fractals are drawn by name. -/
theorem Inside.isNamed_of_mem_drop (h : Inside b t c draws b' s c') {d : Draw α}
    (hd : d ∈ draws.drop (b.settings.selfLimit - b.level)) : d.isNamed = true := by
  -- from the outermost draw inwards; each one that is passed uses up a level for SELF
  induction h with
  | meets _ => simp at hd
  | @drawn b t c d' child e e' draws b' s c' _ runs _ ih =>
    rw [runs.settings_eq, runs.level_eq] at ih
    by_cases hlevel : b.level < b.settings.selfLimit
    · -- this draw is not beyond `maxDepth`, so those that are lie inside it
      have hcount : b.settings.selfLimit - b.level = b.settings.selfLimit - (b.level + 1) + 1 := by
        omega
      rw [hcount, List.drop_succ_cons] at hd
      exact ih hd
    · have hhere : b.settings.selfLimit - b.level = 0 := by omega
      have hinner : b.settings.selfLimit - (b.level + 1) = 0 := by omega
      rw [hhere, List.drop_zero, List.mem_cons] at hd
      rw [hinner, List.drop_zero] at ih
      rcases hd with rfl | hd
      · exact runs.isNamedDraw (Nat.le_of_not_lt hlevel)
      · exact ih hd

/-- At most one draw for each level below `maxDepth` is not by name. -/
theorem Inside.length_le_activated (h : Inside b t c draws b' s c') :
    draws.length - (b.settings.selfLimit - b.level) ≤ (Draw.activated draws).length := by
  have hnamed : ∀ d ∈ draws.drop (b.settings.selfLimit - b.level), d.isNamed = true :=
    fun _ => h.isNamed_of_mem_drop
  calc
    draws.length - (b.settings.selfLimit - b.level)
      = (draws.drop (b.settings.selfLimit - b.level)).length := List.length_drop.symm
    _ = ((draws.drop (b.settings.selfLimit - b.level)).filter Draw.isNamed).length := by
      rw [List.filter_eq_self.2 hnamed]
    _ ≤ (draws.filter Draw.isNamed).length := ((List.drop_sublist _ _).filter _).length_le
    _ = (Draw.activated draws).length := by simp [Draw.activated]

/-- Work that begins within the limit comes to no level beyond it. -/
theorem Visits.level_le_depthLimit (h : Visits b t c b' s c') (hb : b.level ≤ b.depthLimit) :
    b'.level ≤ b.depthLimit := by
  induction h with
  | meets _ => exact hb
  | drawn _ runs _ ih =>
    rw [Branch.depthLimit_eq runs.settings_eq, runs.level_eq] at ih
    exact ih runs.level_lt

/-! ## What is refused -/

/-- A draw that is refused reports so and fails, and changes nothing. -/
theorem Refuses.perform_eq (h : Refuses b c s f) :
    ∃ name, b.perform (.one s) c =
      ⟨.error (s.failure (.tooDeep b.depthLimit)), c, [.nestedPast name b.depthLimit]⟩ := by
  cases h with
  | named read limit => exact ⟨_, Branch.perform_draw_of_le read limit⟩

/-- A draw is refused at the limit or beyond. -/
theorem Refuses.depthLimit_le (h : Refuses b c s f) : b.depthLimit ≤ b.level := by
  cases h with
  | named _ limit => exact limit

/-- A fractal whose draw is refused is bound. -/
theorem Refuses.binds (h : Refuses b c s f) : c.env.Binds (.fractal f) := by
  cases h with
  | named read _ => exact Environment.binds_of_lookup (Stmt.namedDraw_eq_ok.1 read).2

variable {segment : Segment α} {limit : Nat} {e : Failure}

/-- No expression fails because of its depth. -/
theorem Expr.fault_ne_tooDeep {whole : Expr α} (h : whole.eval b c = .error e) :
    e.fault ≠ .tooDeep limit := by
  intro hfault
  -- the failure of an expression is at an expression
  obtain ⟨n, _, hat⟩ := eval_eq_error (.home {}) h
  have hfits := hat.fits
  rw [hfault] at hfits
  obtain ⟨⟨_, _, _, hn⟩, _⟩ := hfits
  cases hn

/-- Nor do the ends of a segment. -/
theorem Stmt.endpoints_fault_ne_tooDeep (h : s.endpoints segment b c = .error e) :
    e.fault ≠ .tooDeep limit := by
  intro hfault
  -- a line with the same ends fails alike, and its failure is at no draw
  obtain ⟨e', he', hsame⟩ :=
    eq_error_of_mapError (mapError_endpoints s (.line segment {}) segment b c) h
  obtain ⟨n, hn, hat⟩ := endpoints_eq_error rfl he'
  have hfits := hat.fits
  rw [← hsame, hfault] at hfits
  obtain ⟨⟨_, _, _, rfl⟩, _⟩ := hfits
  cases hn

/-- Nor does what a draw by name reads. -/
theorem Stmt.namedDraw_fault_ne_tooDeep {name : String}
    (h : s.namedDraw name segment b c = .error e) : e.fault ≠ .tooDeep limit := by
  rcases bind_eq_error.1 h with hends | ⟨ends, _, h⟩
  · exact endpoints_fault_ne_tooDeep hends
  -- the ends are fine, so it is the name or the kind of its value
  rcases bind_eq_error.1 h with hlookup | ⟨v, _, h⟩
  · obtain ⟨fault, hfault, rfl⟩ := attach_eq_error.1 hlookup
    obtain rfl := Branch.lookup_eq_error hfault
    simp [failure]
  rcases bind_eq_error.1 h with hfractal | ⟨f, _, h⟩
  · obtain ⟨fault, hfault, rfl⟩ := attach_eq_error.1 hfractal
    obtain rfl := Value.asFractal_eq_error hfault
    simp [failure]
  · cases h

/-- Nor does what SELF reads. -/
theorem Stmt.selfDraw_fault_ne_tooDeep (h : s.selfDraw segment b c = .error e) :
    e.fault ≠ .tooDeep limit := by
  rcases bind_eq_error.1 h with hcurrent | ⟨f, _, h⟩
  · obtain ⟨fault, hfault, rfl⟩ := attach_eq_error.1 hcurrent
    obtain ⟨rfl, _⟩ := Canvas.current_eq_error hfault
    simp [failure]
  rcases bind_eq_error.1 h with hends | ⟨ends, _, h⟩
  · exact endpoints_fault_ne_tooDeep hends
  · cases h

variable {o : Outcome α Failure (Value α)}

/-- What cannot be read is not a matter of depth. -/
theorem Unread.fault_ne_tooDeep (h : Unread b c s e) : e.fault ≠ .tooDeep limit := by
  cases h with
  | draw read => exact Stmt.namedDraw_fault_ne_tooDeep read
  | self read => exact Stmt.selfDraw_fault_ne_tooDeep read
  | line read => exact Stmt.endpoints_fault_ne_tooDeep read
  | assign read => exact Expr.fault_ne_tooDeep read

/-- Work that fails because of its depth comes to a draw by name that is refused, and fails as that
draw does. -/
theorem Execution.refused (h : Execution b t c o) (he : o.result = .error e)
    (hfault : e.fault = .tooDeep limit) :
    ∃ draws b' s c' f, Inside b t c draws b' s c' ∧ Refuses b' c' s f ∧
      (b'.run s c').result = .error e ∧ e = s.failure (.tooDeep b.depthLimit) := by
  obtain ⟨b', s, c', o', hv, hplain, hstays, hex, he'⟩ := h.visits_of_error he
  obtain ⟨draws, hinside⟩ := hv.inside
  have hrun : (b'.run s c').result = .error e := by
    rw [← he', ← hex.eq_perform]
    rfl
  -- the statement that fails by itself cannot read something, which would be another fault
  rcases hex.unread_or_refused hplain hstays he' with hunread | ⟨hfailure, f, hf⟩
  · exact absurd hfault hunread.fault_ne_tooDeep
  · rw [Branch.depthLimit_eq hv.settings_eq] at hfailure
    exact ⟨draws, b', s, c', f, hinside, hf, hrun, hfailure⟩

end

end SelfSimilar
