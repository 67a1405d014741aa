import SelfSimilar.Proofs.Execution.Bodies
import SelfSimilar.Proofs.Execution.Parallel
import SelfSimilar.Proofs.Path.Extension
import SelfSimilar.Scalar.Double

/-!
# What was drawn before

All that work reads of a path is where the pen is. On two canvases that differ only in what was
drawn before, it takes the same course; without CLEAR the paths are extended by the same commands,
and with CLEAR nothing is left of what was different.

* `Stmt.readsAlike`: what a statement reads does not depend on what was drawn before
* `Branch.Clears.perform_eq`: after CLEAR the canvases are equal, up to the end of the work
* `work_ignores_the_past`: both together, for statements, bodies and programs
-/

namespace SelfSimilar

variable {α : Type} [Scalar α]

namespace Path

/-- The pen is at the same place. -/
def SamePen (p₁ p₂ : Path α) : Prop := p₁.pen = p₂.pen

/-- The same commands were given to both pens after what was drawn before. -/
def SameAdded (old₁ old₂ p₁ p₂ : Path α) : Prop :=
  ∃ added, p₁ = old₁.extend added ∧ p₂ = old₂.extend added

/-- The same commands were given to the pen after what was drawn before. -/
def SameSince (old₁ old₂ : Path α) (p₁ p₂ : Path α) : Prop :=
  p₁.pen = p₂.pen ∧ ∃ added, p₁ = old₁.extend added ∧ p₂ = old₂.extend added

/-- Pens that are at the same place stay together. -/
theorem samePen_parallel : Parallel (α := α) SamePen where
  moveTo place _ := by simp [SamePen]
  lineTo place _ := by simp [SamePen]

/-- Each further command is added on both sides. -/
theorem sameAdded_parallel (old₁ old₂ : Path α) : Parallel (SameAdded old₁ old₂) where
  moveTo place := by
    rintro ⟨added, rfl, rfl⟩
    exact ⟨_, moveTo_extend .., moveTo_extend ..⟩
  lineTo place := by
    rintro ⟨added, rfl, rfl⟩
    exact ⟨_, lineTo_extend .., lineTo_extend ..⟩

/-- Pens that were together are moved together, by the same commands. -/
theorem sameSince_parallel (old₁ old₂ : Path α) : Parallel (SameSince old₁ old₂) where
  moveTo place h :=
    ⟨samePen_parallel.moveTo place h.1, (sameAdded_parallel old₁ old₂).moveTo place h.2⟩
  lineTo place h :=
    ⟨samePen_parallel.lineTo place h.1, (sameAdded_parallel old₁ old₂).lineTo place h.2⟩

end Path

/-- Two canvases that differ at most in what was drawn before: bindings, active fractals and the
place of the pen are the same. -/
def Canvas.Alike (c₁ c₂ : Canvas α) : Prop := c₁.Beside Path.SamePen c₂

/-- In the course of the work a CLEAR is begun. -/
def Branch.Clears (b : Branch α) (t : Task α) (c : Canvas α) : Prop :=
  ∃ b' span c', Visits b t c b' (.clear span) c'

section

variable {R : Path α → Path α → Prop} {b child b' : Branch α} {t : Task α}
  {c c₁ c₂ d₁ : Canvas α} {s : Stmt α} {f : Fractal α}

/-! ## Reading -/

/-- Expressions see the same names and the same place of the pen. -/
theorem Branch.seesAlike (h : c₁.Alike c₂) : b.SeesAlike b c₁ c₂ where
  lookup_eq id := by
    unfold lookup
    rw [h.env_eq]
  pen_eq := by
    have hpen : c₁.path.pen = c₂.path.pen := h.related
    unfold pen
    rw [hpen]

/-- What a statement reads does not depend on what was drawn before. -/
theorem Stmt.readsAlike (h : c₁.Alike c₂) (s : Stmt α)
    (hclear : ∀ span, s = .clear span →
      R (.startingAt (b.place .origin)) (.startingAt (b.place .origin))) :
    s.ReadsAlike R b c₁ c₂ :=
  goesAlike_self.1 (goesAlike (Branch.seesAlike h) h.active_eq rfl s hclear)

/-! ## Taking the same course -/

/-- Work reads alike on canvases with the pens at the same place, even after a CLEAR. -/
theorem Branch.readsAlike_samePen : b.ReadsAlike Path.SamePen t c :=
  fun _ s _ _ _ h => s.readsAlike h fun _ _ => rfl

/-- Without CLEAR the same commands are given to the pen on both sides. -/
theorem Branch.readsAlike_sameSince {old₁ old₂ : Path α} (h : ¬ b.Clears t c) :
    b.ReadsAlike (Path.SameSince old₁ old₂) t c := by
  intro b' s d₁ d₂ hv hd
  -- the pens are together, and only a CLEAR would break the relation
  refine s.readsAlike ⟨hd.env_eq, hd.active_eq, hd.related.1⟩ fun span hs => ?_
  subst hs
  exact absurd ⟨b', span, d₁, hv⟩ h

/-- Work has the same result, and leaves canvases that are alike. -/
theorem Branch.perform_alike (h : c₁.Alike c₂) (t : Task α) :
    (b.perform t c₁).result = (b.perform t c₂).result ∧
      (b.perform t c₁).canvas.Alike (b.perform t c₂).canvas :=
  perform_parallel Path.samePen_parallel readsAlike_samePen h

/-- Without CLEAR, work adds the same commands on both sides. -/
theorem Branch.perform_extend (hc : c₁.Alike c₂) (hclear : ¬ b.Clears t c₁) :
    ∃ added, (b.perform t c₁).canvas.path = c₁.path.extend added ∧
      (b.perform t c₂).canvas.path = c₂.path.extend added := by
  -- at the start nothing is added yet
  have hsince : c₁.Beside (Path.SameSince c₁.path c₂.path) c₂ :=
    ⟨hc.env_eq, hc.active_eq, hc.related, [], rfl, rfl⟩
  -- the relation holds until the end, where it says what was added
  obtain ⟨o₂, hex, _, hd⟩ := (execution_perform b t c₁).parallel
    (Path.sameSince_parallel c₁.path c₂.path) (Branch.readsAlike_sameSince hclear) hsince
  rw [hex.eq_perform]
  exact hd.related.2

theorem Canvas.Alike.symm (h : c₁.Alike c₂) : c₂.Alike c₁ :=
  ⟨h.env_eq.symm, h.active_eq.symm, Eq.symm h.related⟩

/-- Where statements read alike on both sides, work that comes to a CLEAR does so on both. -/
theorem Branch.Clears.parallel (hR : Path.Parallel R) (h : b.Clears t c₁)
    (hreads : b.ReadsAlike R t c₁) (hc : c₁.Beside R c₂) : b.Clears t c₂ := by
  obtain ⟨b', span, d₁, hv⟩ := h
  obtain ⟨d₂, hv', _⟩ := hv.parallel hR hreads hc
  exact ⟨b', span, d₂, hv'⟩

/-- Work comes to a CLEAR on both sides or on neither. -/
theorem Branch.clears_iff (h : c₁.Alike c₂) : b.Clears t c₁ ↔ b.Clears t c₂ :=
  ⟨fun hclears => hclears.parallel Path.samePen_parallel readsAlike_samePen h,
    fun hclears => hclears.parallel Path.samePen_parallel readsAlike_samePen h.symm⟩

/-! ## After CLEAR -/

/-- Canvases that have become equal after a statement of a body stay equal. -/
theorem Meets.perform_eq (hR : Path.Parallel R) (h : Meets b t c₁ s d₁)
    (hreads : b.ReadsAlike R t c₁) (hc : c₁.Beside R c₂)
    (hs : ∀ d₂, d₁.Beside R d₂ →
      (b.perform (.one s) d₁).canvas = (b.perform (.one s) d₂).canvas) :
    (b.perform t c₁).canvas = (b.perform t c₂).canvas := by
  induction h generalizing c₂ with
  | here => exact hs c₂ hc
  | block _ ih =>
    rw [Branch.perform_block, Branch.perform_block]
    exact ih (fun _ _ _ _ hv => hreads _ _ _ _ hv.block) hc hs
  | first _ ih =>
    -- the values are equal anyway, so the others start from the same sum and the same canvas
    have hfirst := fun b' s d₁ d₂ hv => hreads b' s d₁ d₂ (Visits.first hv)
    obtain ⟨hres, _⟩ := Branch.perform_parallel hR hfirst hc
    rw [Branch.canvas_perform_cons, Branch.canvas_perform_cons, ← hres, ← ih hfirst hc hs]
  | later first _ ih =>
    -- the canvases are not equal yet, but alike, and so is the rest of the body
    have hfirst := fun b' s d₁ d₂ hv => hreads b' s d₁ d₂ (Visits.first hv)
    obtain ⟨hres, he⟩ := Branch.perform_parallel hR hfirst hc
    rw [Branch.canvas_perform_cons, Branch.canvas_perform_cons, ← hres]
    rw [first] at he ⊢
    exact ih (fun _ _ _ _ hv => hreads _ _ _ _ (hv.later first)) he hs

/-- A statement that draws a fractal leaves the canvas that the body leaves, with the active
fractals as they were. -/
theorem Draws.perform_eq (hR : Path.Parallel R) (h : Draws b c₁ s f child d₁)
    (hread : s.ReadsAlike R b c₁ c₂) (hc : c₁.Beside R c₂)
    (hbody : ∀ d₂, d₁.Beside R d₂ →
      (child.perform (.all .origin f.body) d₁).canvas =
        (child.perform (.all .origin f.body) d₂).canvas) :
    (b.perform (.one s) c₁).canvas = (b.perform (.one s) c₂).canvas := by
  cases h with
  -- the second draw finds the same fractal on the same child
  | named read room derived =>
    rw [Branch.perform_draw_of_lt read room derived,
      Branch.perform_draw_of_lt (hread.symm.trans read) room derived]
    exact congrArg Canvas.stop (hbody _ ((hc.moveTo hR _).start f))
  | self read large derived =>
    rw [Branch.perform_drawSelf_of_isResolvable read large derived,
      Branch.perform_drawSelf_of_isResolvable (hread.symm.trans read) large derived]
    exact hbody _ (hc.moveTo hR _)

/-- After CLEAR the canvases are equal, up to the end of the work. -/
theorem Branch.Clears.perform_eq (hR : Path.Parallel R) (h : b.Clears t c₁)
    (hreads : b.ReadsAlike R t c₁) (hc : c₁.Beside R c₂) :
    (b.perform t c₁).canvas = (b.perform t c₂).canvas := by
  obtain ⟨b', span, d₁, hv⟩ := h
  generalize hs : Stmt.clear span = s at hv
  -- outwards from the CLEAR: the paths become equal there, and what follows keeps that
  induction hv generalizing c₂ with
  | meets met =>
    -- CLEAR leaves nothing but the start of a path, which is the same on both sides
    refine met.perform_eq hR hreads hc fun d₂ hd => ?_
    rw [← hs, Branch.perform_clear, Branch.perform_clear]
    simp only [Branch.erase, Canvas.mk.injEq]
    exact ⟨trivial, hd.env_eq, hd.active_eq⟩
  | drawn met draws _ ih =>
    refine met.perform_eq hR hreads hc fun d₂ hd => ?_
    -- the CLEAR is inside a body: equal after the body, equal after its draw, equal after the work
    refine draws.perform_eq hR (hreads _ _ _ _ (.meets met) hd) hd fun e₂ he => ?_
    exact ih (fun _ _ _ _ hv => hreads _ _ _ _ (.drawn met draws hv)) he hs

/-- The statement is not a CLEAR. -/
def Stmt.NotClear (s : Stmt α) : Prop := ∀ span, s ≠ .clear span

/-- No CLEAR is within reach of a body: none occurs in it, and none in the body of a fractal that is
bound or active. -/
structure Canvas.NoClear (c : Canvas α) (body : List (Stmt α)) : Prop where
  /-- None occurs in the body. -/
  body : Stmt.Throughout Stmt.NotClear body
  /-- None occurs in the body of a known fractal. -/
  known : c.Throughout Stmt.NotClear

/-- A run comes only to statements that were within reach at the start. -/
theorem Canvas.NoClear.not_clears (h : c.NoClear t.statements) : ¬ b.Clears t c := by
  rintro ⟨b', span, c', hv⟩
  exact hv.holds h.body h.known span rfl

/-! ## Both runs -/

/-- The outcomes of the same work on two canvases are the same but for what was drawn before. -/
structure Branch.EndsAlike {β : Type} (b : Branch α) (t : Task α) (c₁ c₂ : Canvas α)
    (o₁ o₂ : Outcome α Failure β) : Prop where
  /-- The same value, or the same failure. -/
  result_eq : o₁.result = o₂.result
  /-- The same bindings, the same active fractals and the same pen. -/
  alike : o₁.canvas.Alike o₂.canvas
  /-- The same commands are added, or nothing is left of what was different. -/
  path :
    (¬ b.Clears t c₁ ∧ ¬ b.Clears t c₂ ∧
      ∃ added, o₁.canvas.path = c₁.path.extend added ∧ o₂.canvas.path = c₂.path.extend added) ∨
    (b.Clears t c₁ ∧ b.Clears t c₂ ∧ o₁.canvas.path = o₂.canvas.path)

/-- A piece of work ends alike on both canvases. -/
theorem Branch.endsAlike_perform (h : c₁.Alike c₂) (t : Task α) :
    b.EndsAlike t c₁ c₂ (b.perform t c₁) (b.perform t c₂) := by
  obtain ⟨hres, hcanvas⟩ := b.perform_alike h t
  refine ⟨hres, hcanvas, ?_⟩
  by_cases hclear : b.Clears t c₁
  · -- the first run comes to a CLEAR, so the second one does
    exact .inr ⟨hclear, (b.clears_iff h).1 hclear, congrArg Canvas.path
      (hclear.perform_eq Path.samePen_parallel readsAlike_samePen h)⟩
  · exact .inl ⟨hclear, fun hclear₂ => hclear ((b.clears_iff h).2 hclear₂),
      b.perform_extend h hclear⟩

/-- So does a body. -/
theorem Branch.endsAlike_runAll (h : c₁.Alike c₂) (body : List (Stmt α)) :
    b.EndsAlike (.all .origin body) c₁ c₂ (b.runAll body c₁) (b.runAll body c₂) := by
  have hends := b.endsAlike_perform h (.all .origin body)
  rw [perform_body, perform_body] at hends
  exact ⟨Outcome.result_eq_of_map hends.result_eq, hends.alike, hends.path⟩

/-- So does a program. -/
theorem Branch.endsAlike_runProgram (h : c₁.Alike c₂) (program : Program α) :
    b.EndsAlike (.all .origin program) c₁ c₂ (b.runProgram program c₁)
      (b.runProgram program c₂) := by
  have hends := b.endsAlike_runAll h program
  -- the end of a program is reported, which changes neither the result nor the canvas
  constructor
  · rw [result_runProgram, result_runProgram]
    exact hends.result_eq
  · rw [canvas_runProgram, canvas_runProgram]
    exact hends.alike
  · rw [canvas_runProgram, canvas_runProgram]
    exact hends.path

/-- Without CLEAR the old commands are the first of the new ones. -/
theorem Branch.EndsAlike.commands_prefix {β : Type} {o₁ o₂ : Outcome α Failure β}
    (h : b.EndsAlike t c₁ c₂ o₁ o₂) (hclear : ¬ b.Clears t c₁) :
    c₁.path.commands.toList <+: o₁.canvas.path.commands.toList := by
  rcases h.path with ⟨_, _, added, hpath, _⟩ | ⟨hclears, _, _⟩
  · rw [hpath, Path.commands_extend]
    simp
  · exact absurd hclears hclear

end

/-- On canvases that differ only in what was drawn before, statements, bodies and programs end with
the same value or the same failure, the same bindings and the same pen. Either neither run comes to
a CLEAR, and the same commands are added on both sides, or both do, and the paths become equal. If
no CLEAR is within reach, the old commands are a prefix of the new ones. -/
theorem work_ignores_the_past (b : Branch α) {c₁ c₂ : Canvas α} (h : c₁.Alike c₂) :
    (∀ s, b.EndsAlike (.one s) c₁ c₂ (b.run s c₁) (b.run s c₂) ∧
      (c₁.NoClear [s] → ¬ b.Clears (.one s) c₁ ∧
        c₁.path.commands.toList <+: (b.run s c₁).canvas.path.commands.toList)) ∧
    (∀ body, b.EndsAlike (.all .origin body) c₁ c₂ (b.runAll body c₁) (b.runAll body c₂) ∧
      (c₁.NoClear body → ¬ b.Clears (.all .origin body) c₁ ∧
        c₁.path.commands.toList <+: (b.runAll body c₁).canvas.path.commands.toList)) ∧
    ∀ program, b.EndsAlike (.all .origin program) c₁ c₂ (b.runProgram program c₁)
        (b.runProgram program c₂) ∧
      (c₁.NoClear program → ¬ b.Clears (.all .origin program) c₁ ∧
        c₁.path.commands.toList <+: (b.runProgram program c₁).canvas.path.commands.toList) := by
  -- without CLEAR in reach, none is begun, and the first case of the path is left
  refine ⟨fun s => ?_, fun body => ?_, fun program => ?_⟩
  · have hends := b.endsAlike_perform h (.one s)
    exact ⟨hends, fun hno => ⟨hno.not_clears, hends.commands_prefix hno.not_clears⟩⟩
  · have hends := b.endsAlike_runAll h body
    exact ⟨hends, fun hno => ⟨hno.not_clears, hends.commands_prefix hno.not_clears⟩⟩
  · have hends := b.endsAlike_runProgram h program
    exact ⟨hends, fun hno => ⟨hno.not_clears, hends.commands_prefix hno.not_clears⟩⟩

/-- A line from where the pen is, after nothing was drawn and after a line to and fro. -/
theorem work_ignores_the_past_line :
    let b : Branch Float := .root .standard .identity
    let c₁ : Canvas Float := .fresh .identity
    let c₂ : Canvas Float := b.lineTo .origin (b.lineTo .xUnit c₁)
    let program : Program Float := [.line ⟨none, .literal (.point .yUnit) {}⟩ {}]
    c₁.Alike c₂ ∧ c₁.path ≠ c₂.path ∧ c₁.NoClear program ∧
      (b.runProgram program c₁).result = (b.runProgram program c₂).result ∧
      ∃ added, (b.runProgram program c₁).canvas.path = c₁.path.extend added ∧
        (b.runProgram program c₂).canvas.path = c₂.path.extend added := by
  intro b c₁ c₂ program
  have halike : c₁.Alike c₂ := ⟨rfl, rfl, by simp [Path.SamePen, c₁, c₂, b, Canvas.fresh]; rfl⟩
  -- the second path has two segments, the first one none
  have hne : c₁.path ≠ c₂.path := by
    intro h
    have hcount := congrArg Path.segmentCount h
    exact absurd hcount (by decide +kernel)
  -- nothing but a line is within reach
  have hno : c₁.NoClear program := by
    refine ⟨Stmt.throughout_singleton.2 ⟨?_, ?_⟩, fun f hf => ?_⟩
    · rintro span ⟨⟩
    · exact fun s hs => absurd hs Stmt.not_occursIn_nil
    · exact absurd hf (Canvas.not_knows_fresh _ f)
  obtain ⟨hends, hkept⟩ := (work_ignores_the_past b halike).2.2 program
  refine ⟨halike, hne, hno, hends.result_eq, ?_⟩
  rcases hends.path with ⟨_, _, hadded⟩ | ⟨hclears, _⟩
  · exact hadded
  · exact absurd hclears (hkept hno).1

end SelfSimilar
