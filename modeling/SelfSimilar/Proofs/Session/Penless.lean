import SelfSimilar.Proofs.Execution.Origin
import SelfSimilar.Proofs.Execution.Past
import SelfSimilar.Proofs.Scalar.Exact
import SelfSimilar.Proofs.Session.Origin

/-!
# Programs that do not read the pen

In a program without HERE, in which everything that is drawn has a source, each line first moves the
pen to its start. Where the pen was before does not matter then, nor does it matter that no place
can be read back in a collapsed frame.

* `Canvas.Penless.readsAlike`: statements read alike, wherever the pens are
* `Canvas.Penless.perform_cases`: runs take the same course, and do the same to both paths
* `Execution.fault_ne_singularFrame`: no collapsed frame is met
* `penless_programs_ignore_the_pen`: both, for the programs of two sessions
-/

namespace SelfSimilar

variable {α : Type} [Scalar α] {R : Path α → Path α → Prop} {b b' : Branch α} {t : Task α}
  {c c₁ c₂ d : Canvas α} {s : Stmt α} {o : Outcome α Failure (Value α)}

theorem Path.anything_parallel : Parallel (α := α) fun _ _ => True where
  moveTo _ _ := trivial
  lineTo _ _ := trivial

/-- Nothing within reach of a body reads the pen: no statement of the body, and none of the body of
a fractal that is bound or active. -/
structure Canvas.Penless (c : Canvas α) (body : List (Stmt α)) : Prop where
  /-- No statement of the body reads the pen. -/
  body : Stmt.Throughout (fun s => ¬ s.ReadsPen) body
  /-- Nor does one of the body of a known fractal. -/
  known : c.Throughout fun s => ¬ s.ReadsPen

namespace Canvas.Penless

/-- What a run comes to does not read the pen. -/
theorem not_readsPen (h : c.Penless t.statements) (hv : Visits b t c b' s d) : ¬ s.ReadsPen :=
  hv.holds h.body h.known

/-- Statements read alike, wherever the pens are. Only a CLEAR may break a relation between the
paths. -/
theorem readsAlike (h : c.Penless t.statements)
    (hclear : b.Clears t c → ∀ place, R (.startingAt place) (.startingAt place)) :
    b.ReadsAlike R t c := by
  intro b' s d₁ d₂ hv hd
  -- names have the same values, and nothing else is read
  have hlookup : ∀ id, b'.lookup d₁ id = b'.lookup d₂ id := by
    intro id
    unfold Branch.lookup
    rw [hd.env_eq]
  have halike : s.GoesAlike R b' b' d₁ d₂ := by
    refine Stmt.goesAlike_of_lookup_eq hlookup hd.active_eq rfl s (fun hreads => ?_)
      fun span hs => ?_
    · exact absurd hreads (h.not_readsPen hv)
    · subst hs
      exact hclear ⟨b', span, d₁, hv⟩ _
  exact Stmt.goesAlike_self.1 halike

/-- The paths of two runs are extended by the same commands, or a CLEAR has made the canvases
equal. -/
theorem perform_cases (h : c₁.Penless t.statements) (henv : c₁.env = c₂.env)
    (hactive : c₁.active = c₂.active) :
    (b.perform t c₁).result = (b.perform t c₂).result ∧
    (b.perform t c₁).canvas.env = (b.perform t c₂).canvas.env ∧
    ((¬ b.Clears t c₁ ∧ ¬ b.Clears t c₂ ∧ Path.SameAdded c₁.path c₂.path
      (b.perform t c₁).canvas.path (b.perform t c₂).canvas.path) ∨
    (b.Clears t c₁ ∧ b.Clears t c₂ ∧
      (b.perform t c₁).canvas.path = (b.perform t c₂).canvas.path)) := by
  -- any two paths will do, as the pens are not read
  have hbeside : c₁.Beside (fun _ _ => True) c₂ := ⟨henv, hactive, trivial⟩
  have hreads : b.ReadsAlike (fun _ _ => True) t c₁ := h.readsAlike fun _ _ => trivial
  obtain ⟨hres, hend⟩ := Branch.perform_parallel Path.anything_parallel hreads hbeside
  refine ⟨hres, hend.env_eq, ?_⟩
  by_cases hclear : b.Clears t c₁
  · exact .inr ⟨hclear, hclear.parallel Path.anything_parallel hreads hbeside,
      congrArg Canvas.path (hclear.perform_eq Path.anything_parallel hreads hbeside)⟩
  · -- the second run comes to no CLEAR either, so all that is done to the paths is to extend them
    have hclear₂ : ¬ b.Clears t c₂ := by
      intro hclears
      have h₂ : c₂.Penless t.statements := ⟨h.body, h.known.of_eq henv.symm hactive.symm⟩
      exact hclear (hclears.parallel Path.anything_parallel (h₂.readsAlike fun _ _ => trivial)
        ⟨henv.symm, hactive.symm, trivial⟩)
    have hadded : (b.perform t c₁).canvas.Beside (Path.SameAdded c₁.path c₂.path)
        (b.perform t c₂).canvas :=
      (Branch.perform_parallel (Path.sameAdded_parallel _ _)
        (h.readsAlike fun hclears => absurd hclears hclear) ⟨henv, hactive, [], rfl, rfl⟩).2
    exact .inl ⟨hclear, hclear₂, hadded.related⟩

end Canvas.Penless

/-- Where nothing reads the pen, no collapsed frame is met. -/
theorem Execution.fault_ne_singularFrame (h : Execution b t c o) (hc : c.Penless t.statements)
    {e : Failure} (he : o.result = .error e) : e.fault ≠ .singularFrame := by
  intro hfault
  obtain ⟨b', s, d, n, hv, hn, _, _, hfits⟩ := h.origin he
  have hs : ¬ s.ReadsPen := hc.not_readsPen hv
  rw [hfault] at hfits
  -- such a failure arises at HERE, or at a statement that leaves its source out
  obtain ⟨_, ⟨span, rfl⟩ | ⟨rfl, segment, hsegment, hsource⟩⟩ := hfits
  · cases hn with
    | part mem part => exact hs (.inr ⟨_, mem, span, part⟩)
  · exact hs (.inl ⟨segment, hsegment, hsource⟩)

/-- If neither a program nor the body of a fractal that is bound reads the pen, then no collapsed
frame is met when the program is run. In a session with the same frame, settings and bindings,
wherever its pen is and whatever it has drawn, the program fails in the same way or has the same
resultant, and leaves the same bindings. Either neither run comes to a CLEAR, and the same commands
are added on both sides, or both do, and the paths become equal. -/
theorem penless_programs_ignore_the_pen (frame : Frame α) (settings₁ settings₂ : Settings α)
    (actions₁ actions₂ : List (Session.Action α)) (program : Program α)
    (hprogram : Stmt.Throughout (fun st => ¬ st.ReadsPen) program)
    (hbound : ∀ f, ((Session.start frame settings₁).after actions₁).canvas.env.Binds (.fractal f) →
      Stmt.Throughout (fun st => ¬ st.ReadsPen) f.body) :
    let s₁ := (Session.start frame settings₁).after actions₁
    let s₂ := (Session.start frame settings₂).after actions₂
    let reply₁ := s₁.run program
    let reply₂ := s₂.run program
    (∀ e, reply₁.value = .error e → e.fault ≠ .singularFrame) ∧
    (s₁.settings = s₂.settings → s₁.canvas.env = s₂.canvas.env →
      ((∃ e, reply₁.value = .error e ∧ reply₂.value = .error e) ∨
        ∃ r₁ r₂, reply₁.value = .ok r₁ ∧ reply₂.value = .ok r₂ ∧ r₁.resultant = r₂.resultant) ∧
      reply₁.session.canvas.env = reply₂.session.canvas.env ∧
      ((¬ s₁.root.Clears (.all .origin program) s₁.canvas ∧
        ¬ s₂.root.Clears (.all .origin program) s₂.canvas ∧
        ∃ added, reply₁.session.canvas.path = s₁.canvas.path.extend added ∧
          reply₂.session.canvas.path = s₂.canvas.path.extend added) ∨
      (s₁.root.Clears (.all .origin program) s₁.canvas ∧
        s₂.root.Clears (.all .origin program) s₂.canvas ∧
        reply₁.session.canvas.path = reply₂.session.canvas.path))) := by
  intro s₁ s₂ reply₁ reply₂
  have hactive₁ : s₁.canvas.active = [] := Session.active_after ..
  have hactive₂ : s₂.canvas.active = [] := Session.active_after ..
  have hpenless : s₁.canvas.Penless program :=
    ⟨hprogram, Canvas.KnowsOnly.of_binds hactive₁ hbound⟩
  refine ⟨fun e he => ?_, fun hsettings henv => ?_⟩
  · obtain ⟨o, hex, hresult⟩ := Session.exists_of_run_eq_error he
    exact hex.fault_ne_singularFrame hpenless hresult
  -- with the same settings, both programs are run on the same branch
  · have hroot : s₁.root = s₂.root := by
      have hframe : s₁.frame = s₂.frame :=
        (Session.frame_after ..).trans (Session.frame_after ..).symm
      unfold Session.root
      rw [hsettings, hframe]
    obtain ⟨hres, henv', hpath⟩ := hpenless.perform_cases (b := s₁.root)
      (t := .all .origin program) henv (hactive₁.trans hactive₂.symm)
    refine ⟨?_, ?_, ?_⟩
    · have hex₂ := execution_perform s₂.root (.all .origin program) s₂.canvas
      refine Session.value_run_of_result_eq (execution_perform _ _ _) hex₂ ?_
      rw [← hroot]
      exact hres
    · simpa only [reply₁, reply₂, Session.session_run, ← hroot] using henv'
    · simpa only [reply₁, reply₂, Session.session_run, ← hroot, Path.SameAdded] using hpath

/-- A fractal that is drawn from a point to itself and draws itself there, with the pen at the
origin and with the pen elsewhere. -/
theorem penless_programs_ignore_the_pen_collapsed :
    let segment : Segment ℚ := .between .xUnit .xUnit
    let body : List (Stmt ℚ) := [.drawSelf segment {}, .line segment {}, .home {}]
    let program : Program ℚ := [.define "f" body {}, .draw "f" segment {}]
    let earlier : List (Session.Action ℚ) := [.run [.line (.between .origin .yUnit) {}]]
    let s₁ : Session ℚ := .start .identity ⟨0, 4⟩
    let s₂ : Session ℚ := s₁.after earlier
    (Stmt.Throughout (fun st => ¬ st.ReadsPen) program ∧
      ∀ f, ¬ s₁.canvas.env.Binds (.fractal f)) ∧
    s₁.canvas.path.pen ≠ s₂.canvas.path.pen ∧ s₁.canvas.env = s₂.canvas.env ∧
    Frame.unapply? (Frame.identity.derive .xUnit .xUnit) s₁.canvas.path.pen = none ∧
    (∀ e, (s₁.run program).value = .error e → e.fault ≠ .singularFrame) ∧
    ∃ added, (s₁.run program).session.canvas.path = s₁.canvas.path.extend added ∧
      (s₂.run program).session.canvas.path = s₂.canvas.path.extend added := by
  intro segment body program earlier s₁ s₂
  -- all points are written out, and no CLEAR is there
  have hprogram : Stmt.Throughout (fun st => ¬ st.ReadsPen ∧ st.NotClear) program := by
    simp [program, body, segment, Stmt.throughout_cons_iff, Stmt.inner, Stmt.NotClear,
      Stmt.ReadsPen, Stmt.segment?, Stmt.exprs, Segment.exprs, Segment.between,
      Expr.not_readsPen_literal]
  have hbound : ∀ f, ¬ s₁.canvas.env.Binds (.fractal f) :=
    fun f hf => Canvas.not_knows_fresh _ f (.inl hf)
  have henv : s₁.canvas.env = s₂.canvas.env := rfl
  obtain ⟨hfault, hsame⟩ := penless_programs_ignore_the_pen .identity ⟨0, 4⟩ ⟨0, 4⟩ [] earlier
    program (fun st hst => (hprogram st hst).1) fun f hf => absurd hf (hbound f)
  refine ⟨⟨fun st hst => (hprogram st hst).1, hbound⟩, by decide +kernel, henv, by decide +kernel,
    hfault, ?_⟩
  obtain ⟨_, _, ⟨_, _, hadded⟩ | ⟨hclears, _⟩⟩ := hsame rfl henv
  · exact hadded
  · -- no CLEAR is within reach
    have hno : s₁.canvas.NoClear program :=
      ⟨fun st hst => (hprogram st hst).2, fun f hf => absurd hf (Canvas.not_knows_fresh _ f)⟩
    exact absurd hclears hno.not_clears

end SelfSimilar
