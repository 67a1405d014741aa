import SelfSimilar.Proofs.Program.Text
import SelfSimilar.Proofs.Session.Origin

/-!
# What the text of a failure names

A failure names the node where it arises by the text of that node. If the expressions of a program
are legible, that text is the text of one expression only, up to places and sorts of names, and it
is no text of a statement.

* `Failure.Names`: the text that a failure has is that of one node only
* `Failure.names_of_belongsTo`: it is so for each node of a legible statement
* `text_determines_expression`: texts of expressions, and failures of expressions and programs
-/

namespace SelfSimilar

variable {α : Type} [Scalar α] {failure : Failure}

/-- The statement holds legible expressions only. -/
def Stmt.IsLegible (st : Stmt α) : Prop := ∀ e ∈ st.exprs, e.IsLegible

/-- The legible expressions with the text that the failure has are the node, up to places and sorts
of names. If the node is a statement, there are none. -/
def Failure.Names (failure : Failure) (n : Node α) : Prop :=
  ∀ e : Expr α, e.IsLegible →
    (e.text = failure.node ↔ ∃ offender, n = .expr offender ∧ e.bare = offender.bare)

/-- A failure with the text of a legible expression names that expression. -/
theorem Failure.names_expr {n : Expr α} (hn : n.IsLegible) (hnode : failure.node = n.text) :
    failure.Names (.expr n) := by
  intro e he
  rw [hnode, he.text_eq_iff hn]
  simp

/-- A failure with the text of a statement names no expression. -/
theorem Failure.names_stmt {st : Stmt α} (hnode : failure.node = st.text) :
    failure.Names (.stmt st) := by
  intro e he
  rw [hnode]
  exact ⟨fun h => absurd h (he.text_ne_stmt st), fun ⟨_, h, _⟩ => nomatch h⟩

/-- A failure with the text of a node of a legible statement names that node. -/
theorem Failure.names_of_belongsTo {st : Stmt α} {n : Node α} (hst : st.IsLegible)
    (hn : n.BelongsTo st) (hnode : failure.node = n.text) : failure.Names n := by
  cases hn with
  | itself => exact names_stmt hnode
  | part mem part => exact names_expr ((hst _ mem).of_partOf part) hnode

/-- Legible expressions are those of whole numbers that are not negative, names that are
identifiers, and HERE, by operators, opposites and rotations.

* Two of them have the same text exactly if they are the same up to places and sorts of names.
* If such an expression fails, the failure arises at a part of it, and its text names that part.
* If a program fails in a session, and neither the program nor the body of a fractal that is bound
  holds other expressions, then the failure arises at a node of a statement that is begun in the
  course of the run, and its text names that node. -/
theorem text_determines_expression :
    (∀ e e' : Expr α, e.IsLegible → e'.IsLegible → (e.text = e'.text ↔ e.bare = e'.bare)) ∧
    (∀ (st : Stmt α) (whole : Expr α) b c failure, whole.IsLegible →
      whole.eval b c = .error failure →
      ∃ n, n.PartOf whole ∧ failure.ArisesAt b c st (.expr n) ∧ failure.Names (.expr n)) ∧
    ∀ (frame : Frame α) settings actions program failure,
      let s := (Session.start frame settings).after actions
      (∀ st : Stmt α, st.IsGiven program s.canvas.env → st.IsLegible) →
      (s.run program).value = .error failure →
      ∃ b st c n, Visits s.root (.all .origin program) s.canvas b st c ∧ Node.BelongsTo n st ∧
        failure.ArisesAt b c st n ∧ failure.Names n := by
  refine ⟨fun e e' he he' => he.text_eq_iff he', ?_, ?_⟩
  · intro st whole b c failure hwhole h
    obtain ⟨n, hn, hat⟩ := Expr.eval_eq_error st h
    exact ⟨n, hn, hat, Failure.names_expr (hwhole.of_partOf hn) hat.node_eq⟩
  · intro frame settings actions program failure s hlegible h
    obtain ⟨o, hex, hresult⟩ := Session.exists_of_run_eq_error h
    obtain ⟨b, st, c, n, hv, hn, hat⟩ := hex.origin hresult
    -- the failing statement was given, so it is legible
    have hgiven := Session.isGiven_of_visits (Session.active_after frame settings actions) hv
    exact ⟨b, st, c, n, hv, hn, hat,
      Failure.names_of_belongsTo (hlegible st hgiven) hn hat.node_eq⟩

/-- A fractal whose body takes the opposite of the sum of a point and a fractal from a rotation. -/
theorem text_determines_expression_body :
    let X : Expr Float := .name .point "X" ⟨2, 1⟩
    let sum : Expr Float := .binary .add X (.name .fractal "f" ⟨2, 5⟩) ⟨2, 3⟩
    let three : Expr Float := .literal (.int 3) {}
    let whole : Expr Float := .binary .sub (.rotation three {}) (.negate sum {}) {}
    let other : Expr Float := .binary .add (.name .number "X" {}) (.name .number "f" {}) {}
    let body : List (Stmt Float) := [.line ⟨some X, whole⟩ {}]
    let program : Program Float := [.define "f" body {}, .draw "f" ⟨some X, X⟩ {}]
    let s : Session Float := .start .identity .standard
    let failure : Failure := ⟨.kindMismatch .point .fractal, "(X + f)", ⟨2, 3⟩⟩
    let c : Canvas Float := s.root.bind "f" (.fractal ⟨"f", body, .globals⟩) s.canvas
    (other.IsLegible ∧ sum.IsLegible ∧ whole.IsLegible ∧
      ∀ st : Stmt Float, st.IsGiven program s.canvas.env → st.IsLegible) ∧
    (other.text = sum.text ∧ other.bare = sum.bare) ∧
    (whole.eval s.root c = .error failure ∧
      ∃ n, n.PartOf whole ∧ failure.ArisesAt s.root c (.clear {}) (.expr n) ∧
        failure.Names (.expr n)) ∧
    (s.run program).value = .error failure ∧
      ∃ b st d n, Visits s.root (.all .origin program) s.canvas b st d ∧ Node.BelongsTo n st ∧
        failure.ArisesAt b d st n ∧ failure.Names n := by
  intro X sum three whole other body program s failure c
  obtain ⟨htext, heval, hrun⟩ := text_determines_expression (α := Float)
  -- the names `X` and `f` and the number three are legible, and so is all that is made of them
  have hX : ∀ sort span, (Expr.name sort "X" span : Expr Float).IsLegible := fun sort span =>
    .word (.name sort (by decide) (by decide) (by decide) span)
  have hf : ∀ sort span, (Expr.name sort "f" span : Expr Float).IsLegible := fun sort span =>
    .word (.name sort (by decide) (by decide) (by decide) span)
  have hother : other.IsLegible := .binary .add _ (hX _ _) (hf _ _)
  have hsum : sum.IsLegible := .binary .add _ (hX _ _) (hf _ _)
  have hwhole : whole.IsLegible :=
    .binary .sub _ (.rotation _ (.word (.int (by decide) _))) (.negate _ hsum)
  have hprogram : Stmt.Throughout Stmt.IsLegible program := by
    simp [program, body, Stmt.throughout_cons_iff, Stmt.inner, Stmt.IsLegible, Stmt.exprs,
      Stmt.segment?, Segment.exprs, hwhole, X, hX]
  have hlegible : ∀ st : Stmt Float, st.IsGiven program s.canvas.env → st.IsLegible := by
    rintro st (hst | ⟨f, hbound, _⟩)
    · exact hprogram st hst
    · exact absurd (.inl hbound) (Canvas.not_knows_fresh _ f)
  have hbare : other.bare = sum.bare := rfl
  have hfails : whole.eval s.root c = .error failure := by rfl
  have hreply : (s.run program).value = .error failure := by rfl
  exact ⟨⟨hother, hsum, hwhole, hlegible⟩, ⟨(htext _ _ hother hsum).2 hbare, hbare⟩,
    ⟨hfails, heval _ _ _ _ _ hwhole hfails⟩, hreply,
    hrun .identity .standard [] program failure hlegible hreply⟩

end SelfSimilar
