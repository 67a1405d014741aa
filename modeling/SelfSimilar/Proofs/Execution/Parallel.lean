import SelfSimilar.Proofs.Execution.Correspondence

/-!
# Runs side by side

The same work is done on two canvases with the same bindings and the same active fractals. Their
paths are related in some way that moves and lines keep. As long as each statement in the course of
the first run reads the same on both sides, the runs take the same course: they end with the same
value or the same error, the same bindings, and related paths.

* `Execution.parallel`: the second run ends as the first one does
* `Visits.parallel`: and it comes to the same statements
-/

namespace SelfSimilar

variable {α : Type} [Scalar α]

/-- Moves and lines to the same places keep a relation between paths. -/
structure Path.Parallel (R : Path α → Path α → Prop) : Prop where
  /-- Moves keep it. -/
  moveTo : ∀ {p₁ p₂} place, R p₁ p₂ → R (p₁.moveTo place) (p₂.moveTo place)
  /-- Lines keep it. -/
  lineTo : ∀ {p₁ p₂} place, R p₁ p₂ → R (p₁.lineTo place) (p₂.lineTo place)

/-- A statement reads the same on both canvases, and if it erases the paths, that relates them. -/
def Stmt.ReadsAlike (R : Path α → Path α → Prop) (b : Branch α) (c₁ c₂ : Canvas α) :
    Stmt α → Prop
  | s@(.draw name segment _) => s.namedDraw name segment b c₁ = s.namedDraw name segment b c₂
  | s@(.drawSelf segment _) => s.selfDraw segment b c₁ = s.selfDraw segment b c₂
  | s@(.line segment _) => s.endpoints segment b c₁ = s.endpoints segment b c₂
  | .assign _ value _ => value.eval b c₁ = value.eval b c₂
  | .clear _ => R (.startingAt (b.place .origin)) (.startingAt (b.place .origin))
  | _ => True

/-- In the course of the work `t`, each statement reads alike on all canvases beside the one that it
is begun on. -/
def Branch.ReadsAlike (R : Path α → Path α → Prop) (b : Branch α) (t : Task α) (c : Canvas α) :
    Prop :=
  ∀ b' s d₁ d₂, Visits b t c b' s d₁ → d₁.Beside R d₂ → s.ReadsAlike R b' d₁ d₂

section

variable {R : Path α → Path α → Prop} {b child b' : Branch α} {t : Task α}
  {c c₁ c₂ d d₁ c' : Canvas α} {s : Stmt α} {f : Fractal α} {o₁ : Outcome α Failure (Value α)}

/-! ## Two runs -/

/-- A branch corresponds to itself. -/
theorem Path.Parallel.correspondence (hR : Path.Parallel R) : Correspondence Eq R where
  scope_eq hb := by rw [hb]
  level_eq hb := by rw [hb]
  depthLimit_eq hb := by rw [hb]
  child _ _ hb := by rw [hb]
  within _ hb := by rw [hb]
  moveTo _ hb h := hb ▸ hR.moveTo _ h
  lineTo _ hb h := hb ▸ hR.lineTo _ h

/-- On one branch, to go on alike is to read alike. -/
theorem Stmt.goesAlike_self : s.GoesAlike R b b c₁ c₂ ↔ s.ReadsAlike R b c₁ c₂ := by
  cases s with
  | drawSelf => exact and_iff_left rfl
  | _ => exact Iff.rfl

theorem Canvas.Beside.moveTo (h : c₁.Beside R c₂) (hR : Path.Parallel R) (p : Point α) :
    (b.moveTo p c₁).Beside R (b.moveTo p c₂) :=
  hR.correspondence.moved rfl h p

/-- A run on a canvas beside the first one ends as the first run does. -/
theorem Execution.parallel (hR : Path.Parallel R) (h : Execution b t c₁ o₁)
    (hreads : b.ReadsAlike R t c₁) (hc : c₁.Beside R c₂) :
    ∃ o₂, Execution b t c₂ o₂ ∧ o₁.result = o₂.result ∧ o₁.canvas.Beside R o₂.canvas := by
  -- one branch for both runs is the special case of two branches that are equal
  have halike : b.GoesAlike Eq R t c₁ := by
    rintro b₁ s d₁ _ d₂ hv rfl hd
    exact Stmt.goesAlike_self.2 (hreads b₁ s d₁ d₂ hv hd)
  exact h.corresponding hR.correspondence halike rfl hc

/-- What `Execution.parallel` says about the outcomes themselves. -/
theorem Branch.perform_parallel (hR : Path.Parallel R) (hreads : b.ReadsAlike R t c₁)
    (hc : c₁.Beside R c₂) :
    (b.perform t c₁).result = (b.perform t c₂).result ∧
      (b.perform t c₁).canvas.Beside R (b.perform t c₂).canvas := by
  obtain ⟨o₂, hex, hres, hd⟩ := (execution_perform b t c₁).parallel hR hreads hc
  rw [hex.eq_perform]
  exact ⟨hres, hd⟩

/-! ## Statements in the course of two runs -/

/-- A draw finds the same fractal on both sides and runs its body on the same branch. -/
theorem Draws.parallel (hR : Path.Parallel R) (h : Draws b c₁ s f child d₁)
    (hread : s.ReadsAlike R b c₁ c₂) (hc : c₁.Beside R c₂) :
    ∃ d₂, Draws b c₂ s f child d₂ ∧ d₁.Beside R d₂ := by
  cases h with
  -- the same ends and the same fractal are read, so the child is the same
  | named read room derived =>
    exact ⟨_, .named (hread.symm.trans read) room derived, (hc.moveTo hR _).start f⟩
  | self read large derived =>
    exact ⟨_, .self (hread.symm.trans read) large derived, hc.moveTo hR _⟩

/-- What the first run meets, the second run meets too, on a canvas beside it. -/
theorem Meets.parallel (hR : Path.Parallel R) (h : Meets b t c₁ s d₁)
    (hreads : b.ReadsAlike R t c₁) (hc : c₁.Beside R c₂) :
    ∃ d₂, Meets b t c₂ s d₂ ∧ d₁.Beside R d₂ := by
  induction h generalizing c₂ with
  | here => exact ⟨c₂, .here, hc⟩
  | block _ ih =>
    obtain ⟨d₂, met, hd⟩ := ih (fun _ _ _ _ hv => hreads _ _ _ _ hv.block) hc
    exact ⟨d₂, .block met, hd⟩
  | first _ ih =>
    obtain ⟨d₂, met, hd⟩ := ih (fun _ _ _ _ hv => hreads _ _ _ _ hv.first) hc
    exact ⟨d₂, .first met, hd⟩
  | later first _ ih =>
    -- the second run gets past the first statement too
    obtain ⟨⟨_, e₂, events₂⟩, hex, hres, he⟩ :=
      (execution_iff.2 first).parallel hR (fun _ _ _ _ hv => hreads _ _ _ _ hv.first) hc
    cases hres
    obtain ⟨d₂, met, hd⟩ := ih (fun _ _ _ _ hv => hreads _ _ _ _ (hv.later first)) he
    exact ⟨d₂, .later hex.eq_perform met, hd⟩

/-- What is begun in the course of a run is begun in the course of a run beside it. -/
theorem Visits.parallel (hR : Path.Parallel R) (h : Visits b t c₁ b' s d₁)
    (hreads : b.ReadsAlike R t c₁) (hc : c₁.Beside R c₂) :
    ∃ d₂, Visits b t c₂ b' s d₂ ∧ d₁.Beside R d₂ := by
  induction h generalizing c₂ with
  | meets met =>
    obtain ⟨d₂, met', hd⟩ := met.parallel hR hreads hc
    exact ⟨d₂, .meets met', hd⟩
  | drawn met draws _ ih =>
    -- both runs come to the draw, and then both go on inside the body
    obtain ⟨e₂, met', he⟩ := met.parallel hR hreads hc
    obtain ⟨e₂', draws', he'⟩ := draws.parallel hR (hreads _ _ _ _ (.meets met) he) he
    obtain ⟨d₂, visits', hd⟩ := ih (fun _ _ _ _ hv => hreads _ _ _ _ (.drawn met draws hv)) he'
    exact ⟨d₂, .drawn met' draws' visits', hd⟩

end

end SelfSimilar
