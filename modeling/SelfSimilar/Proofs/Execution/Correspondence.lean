import SelfSimilar.Proofs.Execution.Visits
import SelfSimilar.Proofs.Program.Pen

/-!
# Runs on corresponding branches

The same work is done on two branches that correspond, say because the frame of one is that of the
other moved about the screen, and on two canvases with the same bindings and the same active
fractals. Their paths are related in some way that moves and lines on such branches keep. As long as
each statement in the course of the first run goes on alike on both sides, the runs end with the
same value or the same error, the same bindings, and related paths.

* `Correspondence`: what is asked of the branches and of the relation between the paths
* `Stmt.goesAlike_of_lookup_eq`, `Stmt.goesAlike`: statements go on alike where both sides see the
  same names, and the same pen if they read it
* `Execution.corresponding`: the second run ends as the first one does
-/

namespace SelfSimilar

variable {α : Type} [Scalar α]

/-- Branches that correspond bind in the same scope and count levels alike, also when they go on to
a child, and moves and lines on them keep the relation between the paths. -/
structure Correspondence (B : Branch α → Branch α → Prop) (R : Path α → Path α → Prop) : Prop where
  scope_eq : ∀ {b₁ b₂}, B b₁ b₂ → b₁.scope = b₂.scope
  level_eq : ∀ {b₁ b₂}, B b₁ b₂ → b₁.level = b₂.level
  depthLimit_eq : ∀ {b₁ b₂}, B b₁ b₂ → b₁.depthLimit = b₂.depthLimit
  child : ∀ {b₁ b₂} start stop, B b₁ b₂ → B (b₁.child start stop) (b₂.child start stop)
  within : ∀ {b₁ b₂} scope, B b₁ b₂ → B (b₁.within scope) (b₂.within scope)
  moveTo : ∀ {b₁ b₂ p₁ p₂} p, B b₁ b₂ → R p₁ p₂ →
    R (p₁.moveTo (b₁.place p)) (p₂.moveTo (b₂.place p))
  lineTo : ∀ {b₁ b₂ p₁ p₂} p, B b₁ b₂ → R p₁ p₂ →
    R (p₁.lineTo (b₁.place p)) (p₂.lineTo (b₂.place p))

/-- Two canvases with the same bindings, the same active fractals and related paths. -/
structure Canvas.Beside (R : Path α → Path α → Prop) (c₁ c₂ : Canvas α) : Prop where
  env_eq : c₁.env = c₂.env
  active_eq : c₁.active = c₂.active
  related : R c₁.path c₂.path

/-- A statement goes on alike: it reads the same on both sides, SELF is drawn as a fractal on both
sides or on neither, and if the paths are erased, that relates them. -/
def Stmt.GoesAlike (R : Path α → Path α → Prop) (b₁ b₂ : Branch α) (c₁ c₂ : Canvas α) :
    Stmt α → Prop
  | s@(.draw name segment _) => s.namedDraw name segment b₁ c₁ = s.namedDraw name segment b₂ c₂
  | s@(.drawSelf segment _) =>
    s.selfDraw segment b₁ c₁ = s.selfDraw segment b₂ c₂ ∧ b₁.isResolvable = b₂.isResolvable
  | s@(.line segment _) => s.endpoints segment b₁ c₁ = s.endpoints segment b₂ c₂
  | .assign _ value _ => value.eval b₁ c₁ = value.eval b₂ c₂
  | .clear _ => R (.startingAt (b₁.place .origin)) (.startingAt (b₂.place .origin))
  | _ => True

/-- In the course of the work `t`, each statement goes on alike on all branches that correspond to
the one that it is begun on, and all canvases beside the one that it is begun on. -/
def Branch.GoesAlike (B : Branch α → Branch α → Prop) (R : Path α → Path α → Prop) (b : Branch α)
    (t : Task α) (c : Canvas α) : Prop :=
  ∀ b₁ s d₁ b₂ d₂, Visits b t c b₁ s d₁ → B b₁ b₂ → d₁.Beside R d₂ → s.GoesAlike R b₁ b₂ d₁ d₂

/-- Names have the same values on both sides, and the pen is at the same point. -/
structure Branch.SeesAlike (b₁ b₂ : Branch α) (c₁ c₂ : Canvas α) : Prop where
  lookup_eq : ∀ id, b₁.lookup c₁ id = b₂.lookup c₂ id
  -- or at none, if both frames have collapsed
  pen_eq : b₁.pen c₁ = b₂.pen c₂

section

variable {B : Branch α → Branch α → Prop} {R : Path α → Path α → Prop}
  {b b₁ b₂ child₁ child₂ : Branch α} {t : Task α} {c₁ c₂ : Canvas α} {s : Stmt α}
  {o₁ : Outcome α Failure (Value α)}

/-! ## Reading -/

/-- An expression reads names, and the pen if HERE stands in it. -/
theorem Expr.eval_congr (hlookup : ∀ id, b₁.lookup c₁ id = b₂.lookup c₂ id) (e : Expr α)
    (hpen : e.ReadsPen → b₁.pen c₁ = b₂.pen c₂) : e.eval b₁ c₁ = e.eval b₂ c₂ := by
  -- an operand that reads the pen does so for the whole expression, so both sides agree on it
  induction e with
  | literal value _ => rfl
  | name _ id _ => simp only [eval, hlookup]
  | binary op left right _ ihLeft ihRight =>
    have hleft := ihLeft fun h => hpen (h.of_operand (by simp [operands]))
    have hright := ihRight fun h => hpen (h.of_operand (by simp [operands]))
    simp only [eval, hleft, hright]
  | negate operand _ ih =>
    have hoperand := ih fun h => hpen (h.of_operand (by simp [operands]))
    simp only [eval, hoperand]
  | rotation angle _ ih =>
    have hangle := ih fun h => hpen (h.of_operand (by simp [operands]))
    simp only [eval, hangle]
  | here span => simp only [eval, hpen ⟨span, .itself⟩]

/-- The ends of a segment are read by their names, and from the pen if one of them asks for it. -/
theorem Stmt.endpoints_congr (hlookup : ∀ id, b₁.lookup c₁ id = b₂.lookup c₂ id)
    (segment : Segment α) (hpen : segment.ReadsPen → b₁.pen c₁ = b₂.pen c₂) :
    s.endpoints segment b₁ c₁ = s.endpoints segment b₂ c₂ := by
  have hend : ∀ e ∈ segment.exprs, e.evalPoint b₁ c₁ = e.evalPoint b₂ c₂ := by
    intro e mem
    simp only [Expr.evalPoint, Expr.eval_congr hlookup e fun h => hpen (.inr ⟨e, mem, h⟩)]
  have htarget := hend segment.target (by simp [Segment.exprs])
  -- a source that is left out is where the pen is
  cases hsource : segment.source with
  | none => simp only [endpoints, htarget, hsource, hpen (.inl hsource)]
  | some source =>
    have hstart := hend source (by simp [Segment.exprs, hsource])
    simp only [endpoints, htarget, hsource, hstart]

/-- Statements go on alike where names have the same values on both sides, and where the pen is at
the same point if the statement reads it. -/
theorem Stmt.goesAlike_of_lookup_eq (hlookup : ∀ id, b₁.lookup c₁ id = b₂.lookup c₂ id)
    (hactive : c₁.active = c₂.active) (hresolvable : b₁.isResolvable = b₂.isResolvable) (s : Stmt α)
    (hpen : s.ReadsPen → b₁.pen c₁ = b₂.pen c₂)
    (hclear : ∀ span, s = .clear span →
      R (.startingAt (b₁.place .origin)) (.startingAt (b₂.place .origin))) :
    s.GoesAlike R b₁ b₂ c₁ c₂ := by
  have hends : ∀ segment, s.segment? = some segment →
      s.endpoints segment b₁ c₁ = s.endpoints segment b₂ c₂ :=
    fun segment hs => endpoints_congr hlookup segment fun h =>
      hpen ((readsPen_iff_of_segment hs).2 h)
  -- blocks, definitions and HOME read nothing
  cases s with
  | draw name segment span => simp only [GoesAlike, namedDraw, hends segment rfl, hlookup]
  | drawSelf segment span =>
    have hcurrent : c₁.current = c₂.current := by
      unfold Canvas.current
      rw [hactive]
    refine ⟨?_, hresolvable⟩
    simp only [selfDraw, hends segment rfl, hcurrent]
  | line segment span => exact hends segment rfl
  | assign id value span =>
    exact Expr.eval_congr hlookup value fun h => hpen (.inr ⟨value, List.mem_singleton.2 rfl, h⟩)
  | clear span => exact hclear span rfl
  | _ => trivial

/-- Statements go on alike where both sides see the same names and the same pen. -/
theorem Stmt.goesAlike (h : b₁.SeesAlike b₂ c₁ c₂) (hactive : c₁.active = c₂.active)
    (hresolvable : b₁.isResolvable = b₂.isResolvable) (s : Stmt α)
    (hclear : ∀ span, s = .clear span →
      R (.startingAt (b₁.place .origin)) (.startingAt (b₂.place .origin))) :
    s.GoesAlike R b₁ b₂ c₁ c₂ :=
  goesAlike_of_lookup_eq h.lookup_eq hactive hresolvable s (fun _ => h.pen_eq) hclear

/-! ## Changes on both sides -/

omit [Scalar α] in
theorem Canvas.Beside.bind {id : String} {v : Value α} (h : c₁.Beside R c₂)
    (hscope : b₁.scope = b₂.scope) : (b₁.bind id v c₁).Beside R (b₂.bind id v c₂) := by
  refine ⟨?_, h.active_eq, h.related⟩
  simp only [Branch.bind, hscope, h.env_eq]

omit [Scalar α] in
theorem Canvas.Beside.start (h : c₁.Beside R c₂) (f : Fractal α) :
    (c₁.start f).Beside R (c₂.start f) :=
  ⟨h.env_eq, congrArg (f :: ·) h.active_eq, h.related⟩

omit [Scalar α] in
theorem Canvas.Beside.stop (h : c₁.Beside R c₂) : c₁.stop.Beside R c₂.stop :=
  ⟨h.env_eq, congrArg List.tail h.active_eq, h.related⟩

/-- Both pens are moved. -/
theorem Correspondence.moved (hB : Correspondence B R) (hb : B b₁ b₂) (hc : c₁.Beside R c₂)
    (p : Point α) : (b₁.moveTo p c₁).Beside R (b₂.moveTo p c₂) :=
  ⟨hc.env_eq, hc.active_eq, hB.moveTo p hb hc.related⟩

/-- A line is drawn on both sides. -/
theorem Correspondence.lined (hB : Correspondence B R) (hb : B b₁ b₂) (hc : c₁.Beside R c₂)
    (segment : Segment α) (ends : Point α × Point α) :
    (b₁.lined segment ends c₁).Beside R (b₂.lined segment ends c₂) := by
  have hline : ∀ {d₁ d₂ : Canvas α}, d₁.Beside R d₂ →
      (b₁.lineTo ends.2 d₁).Beside R (b₂.lineTo ends.2 d₂) :=
    fun hd => ⟨hd.env_eq, hd.active_eq, hB.lineTo ends.2 hb hd.related⟩
  unfold Branch.lined
  -- without a source the line starts where the pen is
  split
  · exact hline (hB.moved hb hc ends.1)
  · exact hline hc

/-! ## Two runs -/

/-- A run on a branch that corresponds to the first one ends as the first run does. -/
theorem Execution.corresponding (hB : Correspondence B R) (h : Execution b₁ t c₁ o₁)
    (halike : b₁.GoesAlike B R t c₁) (hb : B b₁ b₂) (hc : c₁.Beside R c₂) :
    ∃ o₂, Execution b₂ t c₂ o₂ ∧ o₁.result = o₂.result ∧ o₁.canvas.Beside R o₂.canvas := by
  -- the first statement begun is the work itself, if it is a single statement
  have hhere : ∀ {b₁ b₂ : Branch α} {s c₁ c₂}, b₁.GoesAlike B R (.one s) c₁ → B b₁ b₂ →
      c₁.Beside R c₂ → s.GoesAlike R b₁ b₂ c₁ c₂ :=
    fun halike hb hc => halike _ _ _ _ _ (.meets .here) hb hc
  -- the induction is on the first run: what it reads is read again, so the same rule applies
  induction h generalizing b₂ c₂ with
  | block _ ih =>
    obtain ⟨o₂, hex, hres, hd⟩ := ih (fun _ _ _ _ _ hv => halike _ _ _ _ _ hv.block) hb hc
    exact ⟨o₂, .block hex, hres, hd⟩
  | define =>
    refine ⟨_, .define, ?_, ?_⟩
    · rw [hB.scope_eq hb]
    · rw [hB.scope_eq hb]
      exact hc.bind (hB.scope_eq hb)
  | drawUnread read =>
    have hread := hhere halike hb hc
    exact ⟨_, .drawUnread (hread.symm.trans read), rfl, hc⟩
  | drawTooDeep read limit =>
    have hread := hhere halike hb hc
    rw [hB.depthLimit_eq hb, hB.level_eq hb] at limit
    rw [hB.depthLimit_eq hb]
    exact ⟨_, .drawTooDeep (hread.symm.trans read) limit, rfl, hc⟩
  -- what is visited inside the body is visited in the course of the draw
  | @draw b₁ c₁ name segment span ends f child o read room derived _ ih =>
    have hread := hhere halike hb hc
    have hdraws := Draws.named read room derived
    have hchild : B child ((b₂.child ends.1 ends.2).within f.scope) :=
      derived ▸ hB.within _ (hB.child _ _ hb)
    rw [hB.depthLimit_eq hb, hB.level_eq hb] at room
    obtain ⟨o₂, hex, hres, hd⟩ := ih (fun _ _ _ _ _ hv => halike _ _ _ _ _ (.drawn .here hdraws hv))
      hchild ((hB.moved hchild hc _).start _)
    exact ⟨_, .draw (hread.symm.trans read) room rfl hex, hres, hd.stop⟩
  | selfUnread read =>
    obtain ⟨hread, _⟩ := hhere halike hb hc
    exact ⟨_, .selfUnread (hread.symm.trans read), rfl, hc⟩
  | selfLine read small =>
    obtain ⟨hread, hresolvable⟩ := hhere halike hb hc
    exact ⟨_, .selfLine (hread.symm.trans read) (hresolvable.symm.trans small), rfl,
      hB.lined hb hc _ _⟩
  | @self b₁ c₁ segment span f ends child o read large derived _ ih =>
    obtain ⟨hread, hresolvable⟩ := hhere halike hb hc
    have hdraws := Draws.self read large derived
    have hchild : B child (b₂.child ends.1 ends.2) := derived ▸ hB.child _ _ hb
    obtain ⟨o₂, hex, hres, hd⟩ := ih (fun _ _ _ _ _ hv => halike _ _ _ _ _ (.drawn .here hdraws hv))
      hchild (hB.moved hchild hc _)
    exact ⟨_, .self (hread.symm.trans read) (hresolvable.symm.trans large) rfl hex, hres, hd⟩
  | lineUnread read =>
    have hread := hhere halike hb hc
    exact ⟨_, .lineUnread (hread.symm.trans read), rfl, hc⟩
  | line read =>
    have hread := hhere halike hb hc
    exact ⟨_, .line (hread.symm.trans read), rfl, hB.lined hb hc _ _⟩
  | assignUnread read =>
    have hread := hhere halike hb hc
    exact ⟨_, .assignUnread (hread.symm.trans read), rfl, hc⟩
  | assign read =>
    have hread := hhere halike hb hc
    exact ⟨_, .assign (hread.symm.trans read), rfl, hc.bind (hB.scope_eq hb)⟩
  | clear =>
    -- the only change to a path that `R` need not survive in general
    exact ⟨_, .clear, rfl, hc.env_eq, hc.active_eq, hhere halike hb hc⟩
  | home => exact ⟨_, .home, rfl, hB.moved hb hc _⟩
  | nil => exact ⟨_, .nil, rfl, hc⟩
  | fail _ ih =>
    obtain ⟨⟨_, d₂, events₂⟩, hex, hres, hd⟩ :=
      ih (fun _ _ _ _ _ hv => halike _ _ _ _ _ hv.first) hb hc
    cases hres
    exact ⟨_, .fail hex, rfl, hd⟩
  | cons first _ ihFirst ihLater =>
    -- the value of the first statement is the same, and so is the sum that the others start from
    obtain ⟨⟨_, d₂, events₂⟩, hex, hres, hd⟩ :=
      ihFirst (fun _ _ _ _ _ hv => halike _ _ _ _ _ hv.first) hb hc
    cases hres
    obtain ⟨o₂, hex', hres', hd'⟩ :=
      ihLater (fun _ _ _ _ _ hv => halike _ _ _ _ _ (hv.later first.eq_perform)) hb hd
    exact ⟨_, .cons hex hex', hres', hd'⟩

end

end SelfSimilar
