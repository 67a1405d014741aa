import Mathlib.Data.List.Nodup
import SelfSimilar.Proofs.Execution.Globals
import SelfSimilar.Proofs.Execution.Nesting

/-!
# Rows of fractals

Each fractal of a row draws the next one by its name, and the last one draws a line. All of them
have different names, so none is drawn inside of itself. Whether they can be drawn is a matter of
the levels that are left, and not of recursion.

* `Program.row`: the program that defines a row and draws its first fractal
* `IsGlobal.lookup_row`: each name of a row stands for its own fractal
* `Visits.exists_row_refused`: where fewer levels are left than a row has fractals, one is refused
-/

namespace SelfSimilar

variable {α : Type} [Scalar α]

/-- Draw the first of the fractals with these names, or a line if there is none. -/
def Program.drawFirst : List String → Program α
  | [] => [.line (.between .origin .xUnit) {}]
  | name :: _ => [.draw name (.between .origin .xUnit) {}]

/-- Fractals with these names, each of which draws the next one. -/
def Fractal.row : List String → List (Fractal α)
  | [] => []
  | name :: rest => ⟨name, Program.drawFirst rest, .globals⟩ :: row rest

/-- Define the fractals of a row, and draw the first one. -/
def Program.row (names : List String) : Program α :=
  (Fractal.row names).map (fun f => .define f.name f.body {}) ++ drawFirst names

/-! ## Definitions -/

/-- The fractals of a row have the names of the row. -/
@[simp] theorem Fractal.map_name_row (names : List String) :
    (row names : List (Fractal α)).map name = names := by
  induction names with
  | nil => rfl
  | cons name rest ih => rw [row, List.map_cons, ih]

/-- The fractals of a row are defined among the globals. -/
theorem Fractal.scope_of_mem_row {names : List String} {f : Fractal α} (h : f ∈ row names) :
    f.scope = .globals := by
  induction names with
  | nil => cases h
  | cons name rest ih =>
    rcases List.mem_cons.1 h with rfl | h
    · rfl
    · exact ih h

/-- Fractals of different names are different. -/
theorem Fractal.nodup_row {names : List String} (h : names.Nodup) :
    (row names : List (Fractal α)).Nodup := by
  rw [← map_name_row (α := α) names] at h
  exact h.of_map name

/-- Fractals with the names that they are defined under. -/
def Fractal.bindings (fractals : List (Fractal α)) : List (String × Value α) :=
  fractals.map fun f => (f.name, .fractal f)

/-- After different names were defined, each stands for its own fractal. -/
theorem Environment.IsGlobal.lookup_row {env : Environment (Value α)} {names : List String}
    {f : Fractal α} (h : env.IsGlobal) (hnames : names.Nodup) (hf : f ∈ Fractal.row names) :
    (env.bindAll .globals (Fractal.bindings (Fractal.row names))).lookup .globals f.name =
      .ok (.fractal f) := by
  -- what is bound are fractals of the globals, and no name is bound twice
  refine h.lookup_bindAll (fun pair hpair => ?_) ?_ (List.mem_map.2 ⟨f, hf, rfl⟩)
  · obtain ⟨g, hg, rfl⟩ := List.mem_map.1 hpair
    refine ⟨by simp [Value.kind], fun g' hg' => ?_⟩
    cases hg'
    exact Fractal.scope_of_mem_row hg
  · have hkeys :
        (Fractal.bindings (Fractal.row names : List (Fractal α))).map Prod.fst = names := by
      rw [Fractal.bindings, List.map_map]
      exact Fractal.map_name_row names
    rwa [hkeys]

variable {b b' : Branch α} {c c' : Canvas α} {s : Stmt α}

/-- What comes after definitions is begun when all of them are bound. -/
theorem Visits.after_definitions {fractals : List (Fractal α)} {sum : Point α}
    {rest : List (Stmt α)} (hscope : ∀ f ∈ fractals, f.scope = b.scope)
    (h : Visits b (.all sum rest)
      { c with env := c.env.bindAll b.scope (Fractal.bindings fractals) } b' s c') :
    Visits b (.all sum (fractals.map (fun f => .define f.name f.body {}) ++ rest)) c b' s c' := by
  induction fractals generalizing c with
  | nil => exact h
  | cons f fractals ih =>
    rw [List.forall_mem_cons] at hscope
    -- a definition yields its fractal, which adds nothing to the sum
    refine .later (b.perform_define ..) (ih hscope.2 ?_)
    have hf : (⟨f.name, f.body, b.scope⟩ : Fractal α) = f := by rw [← hscope.1]
    rw [hf]
    exact h

/-! ## Draws -/

/-- Among the globals, a draw between two points reads the fractal that its name is bound to. -/
theorem Stmt.namedDraw_between {name : String} {f : Fractal α} (start stop : Point α)
    (hscope : b.scope = .globals) (hname : c.env.lookup .globals name = .ok (.fractal f)) :
    namedDraw (.draw name (.between start stop) {}) name (.between start stop) b c =
      .ok ((start, stop), f) := by
  refine namedDraw_eq_ok.2 ⟨rfl, ?_⟩
  rw [Branch.lookup, hscope]
  exact hname

/-- Where a row has more fractals than there are levels left, the draw of one of them is refused,
and the active ones are those that stand before it in the row. -/
theorem Visits.exists_drawFirst_refused {names : List String} (hlevel : b.level ≤ b.depthLimit)
    (hlong : b.depthLimit < b.level + names.length) (hscope : b.scope = .globals)
    (hbound : ∀ f ∈ Fractal.row names, c.env.lookup .globals f.name = .ok (.fractal f)) :
    ∃ b' s c' f before, Visits b (.all .origin (Program.drawFirst names)) c b' s c' ∧
      Refuses b' c' s f ∧ c'.active = before.reverse ++ c.active ∧
      before ++ [f] <+: Fractal.row names := by
  -- one fractal of the row and one level less at each step
  induction names generalizing b c with
  | nil =>
    rw [List.length_nil] at hlong
    omega
  | cons name rest ih =>
    rw [Fractal.row, List.forall_mem_cons] at hbound
    rw [List.length_cons] at hlong
    have read := Stmt.namedDraw_between .origin .xUnit hscope hbound.1
    by_cases hlt : b.level < b.depthLimit
    -- the first fractal of the row is drawn, and its body draws the rest of the row
    · obtain ⟨child, d, hdraws, hglobals, henv, hstack⟩ :
          ∃ child d, Draws b c (.draw name (.between .origin .xUnit) {})
            ⟨name, Program.drawFirst rest, .globals⟩ child d ∧ child.scope = .globals ∧
            d.env = c.env ∧ d.active = ⟨name, Program.drawFirst rest, .globals⟩ :: c.active :=
        ⟨_, _, .named read hlt rfl, rfl, rfl, rfl⟩
      have hlimit := Branch.depthLimit_eq hdraws.settings_eq
      have hchild := hdraws.level_eq
      obtain ⟨b', s, c', g, before, hv, hg, hactive, hrow⟩ :=
        ih (by omega) (by omega) hglobals (by rw [henv]; exact hbound.2)
      refine ⟨b', s, c', g, _ :: before, .first (.drawn .here hdraws hv), hg, ?_,
        (List.prefix_cons_inj _).2 hrow⟩
      -- the fractals before the refused one are active, the last one innermost
      rw [hactive, hstack, List.reverse_cons, List.append_assoc, List.singleton_append]
    -- no level is left, so already the first draw is refused
    · exact ⟨b, _, c, _, [], .first (.meets .here), .named read (Nat.le_of_not_lt hlt), rfl,
        List.prefix_append [_] _⟩

/-- So it is for the program that defines the row and draws its first fractal. -/
theorem Visits.exists_row_refused {names : List String} (hlevel : b.level ≤ b.depthLimit)
    (hlong : b.depthLimit < b.level + names.length) (hscope : b.scope = .globals)
    (hc : c.env.IsGlobal) (hnames : names.Nodup) :
    ∃ b' s c' f before, Visits b (.all .origin (Program.row names)) c b' s c' ∧
      Refuses b' c' s f ∧ c'.active = before.reverse ++ c.active ∧
      before ++ [f] <+: Fractal.row names := by
  -- after the definitions each name stands for its own fractal
  have hbound : ∀ f ∈ Fractal.row names,
      (c.env.bindAll b.scope (Fractal.bindings (Fractal.row names))).lookup .globals f.name =
        .ok (.fractal f) := by
    intro f hf
    rw [hscope]
    exact hc.lookup_row hnames hf
  obtain ⟨b', s, c', f, before, hv, hf, hactive, hrow⟩ := exists_drawFirst_refused (b := b)
    (c := { c with env := c.env.bindAll b.scope (Fractal.bindings (Fractal.row names)) })
    hlevel hlong hscope hbound
  refine ⟨b', s, c', f, before, after_definitions (fun f hf => ?_) hv, hf, hactive, hrow⟩
  rw [hscope, Fractal.scope_of_mem_row hf]

end SelfSimilar
