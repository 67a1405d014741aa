import SelfSimilar.Proofs.Execution.Nesting
import SelfSimilar.Proofs.Scalar.Exact
import SelfSimilar.Proofs.Session.Origin

/-!
# How deep the draws of a session nest

A draw by name is refused on the level `maxDepth + 64` and nowhere else. SELF is drawn as a fractal
below `maxDepth` only, so the last 64 of the draws around a refused one are all by name: SELF never
takes the place of a draw by name.

* `Session.refused`: a program that fails because of its depth comes to a draw that is refused
* `nesting_margin_is_honoured`: there at least 64 fractals are drawn by name
-/

namespace SelfSimilar

variable {α : Type} [Scalar α]

omit [Scalar α] in
/-- On the level that programs are begun on, there are `maxDepth` levels left for SELF. -/
theorem Session.root_selfLimit (s : Session α) (hmargin : s.settings.maxDepth + 64 ≤ 4294967295) :
    s.root.settings.selfLimit - s.root.level = s.settings.maxDepth :=
  Settings.selfLimit_eq hmargin

/-- A program that fails because of its depth comes to a draw by name that is refused on the level
`maxDepth + 64`, inside of as many draws as the level says, of which at least 64 are by name. -/
theorem Session.refused {s : Session α} (hmargin : s.settings.maxDepth + 64 ≤ 4294967295)
    {program : Program α} {e : Failure} {limit : Nat} (h : (s.run program).value = .error e)
    (hfault : e.fault = .tooDeep limit) :
    ∃ draws b st c f, Inside s.root (.all .origin program) s.canvas draws b st c ∧
      Refuses b c st f ∧ (b.run st c).result = .error e ∧
      e = st.failure (.tooDeep (s.settings.maxDepth + 64)) ∧
      b.level = s.settings.maxDepth + 64 ∧ draws.length = s.settings.maxDepth + 64 ∧
      64 ≤ (Draw.activated draws).length := by
  obtain ⟨o, hex, he⟩ := exists_of_run_eq_error h
  obtain ⟨draws, b, st, c, f, hinside, hf, hrun, hfailure⟩ := hex.refused he hfault
  have hlimit : s.root.depthLimit = s.settings.maxDepth + 64 := Settings.depthLimit_eq hmargin
  -- no level is beyond the limit, and below it nothing is refused
  have hlevel : b.level = s.settings.maxDepth + 64 := by
    have hle :=
      hinside.visits.level_le_depthLimit (Nat.le_of_lt (Branch.root_level_lt_depthLimit ..))
    have hge := hf.depthLimit_le
    rw [Branch.depthLimit_eq hinside.visits.settings_eq] at hge
    exact (Nat.le_antisymm hle hge).trans hlimit
  -- programs are begun on level 0, and at most `maxDepth` of the draws are not by name
  have hcount : draws.length = s.settings.maxDepth + 64 := by
    rw [← hlevel, hinside.level_eq]
    exact (Nat.zero_add _).symm
  have hnamed := hinside.length_le_activated
  rw [s.root_selfLimit hmargin, hcount] at hnamed
  rw [hlimit] at hfailure
  exact ⟨draws, b, st, c, f, hinside, hf, hrun, hfailure, hlevel, hcount, by omega⟩

/-- A program that fails because of its depth does so at a draw by name on the level `maxDepth +
64`. The draws around it are as many as the level says, the last 64 of them are by name, and the
fractals that are drawn by name are those that have become active, so at least 64 are. If never more
than 63 draws by name are around one another, no program fails because of its depth, however they
are mixed with SELF. -/
theorem nesting_margin_is_honoured (s : Session α) (hmargin : s.settings.maxDepth + 64 ≤ 4294967295)
    (program : Program α) :
    (∀ e limit, (s.run program).value = .error e → e.fault = .tooDeep limit →
      ∃ draws b st c f, Inside s.root (.all .origin program) s.canvas draws b st c ∧
        Refuses b c st f ∧ (b.run st c).result = .error e ∧
        limit = s.settings.maxDepth + 64 ∧ b.level = s.settings.maxDepth + 64 ∧
        draws.length = s.settings.maxDepth + 64 ∧
        (∀ d ∈ draws.drop s.settings.maxDepth, d.isNamed = true) ∧
        c.active = Draw.activated draws ++ s.canvas.active ∧ 64 ≤ c.active.length) ∧
    ((∀ draws b st c, Inside s.root (.all .origin program) s.canvas draws b st c →
        (draws.filter Draw.isNamed).length ≤ 63) →
      ∀ e limit, (s.run program).value = .error e → e.fault ≠ .tooDeep limit) := by
  refine ⟨fun e limit he hfault => ?_, fun hfew e limit he hfault => ?_⟩
  · obtain ⟨draws, b, st, c, f, hinside, hf, hrun, rfl, hlevel, hcount, hnamed⟩ :=
      Session.refused hmargin he hfault
    have hlimit : s.settings.maxDepth + 64 = limit := Fault.tooDeep.inj hfault
    have hactive := hinside.active_eq
    refine ⟨draws, b, st, c, f, hinside, hf, hrun, hlimit.symm, hlevel, hcount, fun d hd => ?_,
      hactive, ?_⟩
    · exact hinside.isNamed_of_mem_drop (by rwa [s.root_selfLimit hmargin])
    · rw [hactive, List.length_append]
      omega
  · obtain ⟨draws, b, st, c, f, hinside, _, _, _, _, _, hnamed⟩ :=
      Session.refused hmargin he hfault
    have hfew := hfew draws b st c hinside
    rw [Draw.activated, List.length_reverse, List.length_map] at hnamed
    omega

/-- A fractal that draws itself first by SELF and then by its name. SELF takes up the second level,
and 64 draws by name come after it. -/
theorem nesting_margin_is_honoured_mixed :
    let unit : Segment ℚ := .between .origin .xUnit
    let named : Stmt ℚ := .draw "f" unit {}
    let program : Program ℚ := [.define "f" [.drawSelf unit {}, named] {}, named]
    let s : Session ℚ := .start .identity ⟨0, 2⟩
    let e : Failure := named.failure (.tooDeep 66)
    s.settings.maxDepth + 64 ≤ 4294967295 ∧ (s.run program).value = .error e ∧
      ∃ draws b st c f, Inside s.root (.all .origin program) s.canvas draws b st c ∧
        Refuses b c st f ∧ (b.run st c).result = .error e ∧ b.level = 66 ∧
        (∀ d ∈ draws.drop 2, d.isNamed = true) ∧ 64 ≤ c.active.length := by
  intro unit named program s e
  have hmargin : s.settings.maxDepth + 64 ≤ 4294967295 := by decide
  have hfails : (s.run program).value = .error e := by decide +kernel
  obtain ⟨draws, b, st, c, f, hinside, hf, hrun, _, hlevel, _, hnamed, _, hactive⟩ :=
    (nesting_margin_is_honoured s hmargin program).1 e 66 hfails rfl
  exact ⟨hmargin, hfails, draws, b, st, c, f, hinside, hf, hrun, hlevel, hnamed, hactive⟩

end SelfSimilar
