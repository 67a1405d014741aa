import SelfSimilar.Proofs.Execution.Descent
import SelfSimilar.Proofs.Program.Node

/-!
# Draws in progress

While a statement inside the body of a fractal is run, the draw of that fractal is in progress, and
so is each draw that has led to it. The draws in progress are a list, the outermost first, and the
frame of a statement is derived from that of the work by one draw of the list after the other.

* `InProgress`: which draws are in progress where a statement is begun
* `Visits.inProgress`, `InProgress.visits`: a statement in the course of a run, with those draws
* `InProgress.frame_eq`: the frame in which a statement is begun
* `InProgress.exists_of_mem`: each draw in progress was begun in the course of the run
-/

namespace SelfSimilar

/-- Where a draw leads from and to, in the coordinates that it is begun in. -/
structure Link (α : Type) where
  /-- Where it starts. -/
  start : Point α
  /-- Where it ends. -/
  stop : Point α

variable {α : Type} [Scalar α]

/-- The frame in which the last of some draws runs a body, each drawn in the body of the one
before. -/
def Frame.deriveAll (F : Frame α) (links : List (Link α)) : Frame α :=
  links.foldl (fun F link => F.derive link.start link.stop) F

/-- The statement, begun on the branch `b` and the canvas `c`, draws something along the link. -/
def Stmt.Spans (s : Stmt α) (b : Branch α) (c : Canvas α) (link : Link α) : Prop :=
  ∃ segment, s.segment? = some segment ∧ s.endpoints segment b c = .ok (link.start, link.stop)

/-- `InProgress b t c links b' s c'`: in the course of the work `t` on the branch `b`, begun on the
canvas `c`, the statement `s` is begun on the branch `b'` and the canvas `c'`, while draws along the
links are in progress, the outermost first. -/
inductive InProgress : Branch α → Task α → Canvas α → List (Link α) → Branch α → Stmt α →
    Canvas α → Prop
  /-- In the work itself no draw is in progress. -/
  | meets {b t c s c'} (met : Meets b t c s c') : InProgress b t c [] b s c'
  /-- In the body of a fractal, the draw of the fractal is. -/
  | drawn {b t c s f child d e link links b' s' c'} (met : Meets b t c s e)
      (draws : Draws b e s f child d) (spans : s.Spans b e link)
      (inner : InProgress child (.all .origin f.body) d links b' s' c') :
      InProgress b t c (link :: links) b' s' c'

section

variable {b child b' : Branch α} {t : Task α} {c d c' : Canvas α} {s : Stmt α} {f : Fractal α}
  {link : Link α} {links : List (Link α)}

/-- What runs a body leads from somewhere to somewhere. -/
theorem Draws.spans (h : Draws b c s f child d) : ∃ link, s.Spans b c link := by
  cases h with
  | @named _ segment _ ends _ _ read _ _ =>
    exact ⟨⟨ends.1, ends.2⟩, segment, rfl, (Stmt.namedDraw_eq_ok.1 read).1⟩
  | @self segment _ _ ends _ read _ _ =>
    exact ⟨⟨ends.1, ends.2⟩, segment, rfl, (Stmt.selfDraw_eq_ok.1 read).2⟩

/-- The frame of a body is derived along the link of its draw. -/
theorem Draws.frame_eq (h : Draws b c s f child d) (hlink : s.Spans b c link) :
    child.frame = b.frame.derive link.start link.stop := by
  obtain ⟨segment, hsegment, hends⟩ := hlink
  cases h with
  | named read _ derived =>
    -- the ends that are read are those that the link leads between
    cases hsegment
    cases hends.symm.trans (Stmt.namedDraw_eq_ok.1 read).1
    rw [derived]
    rfl
  | self read _ derived =>
    cases hsegment
    cases hends.symm.trans (Stmt.selfDraw_eq_ok.1 read).2
    rw [derived]
    rfl

/-- Where a statement is begun, some draws are in progress. -/
theorem Visits.inProgress (h : Visits b t c b' s c') :
    ∃ links, InProgress b t c links b' s c' := by
  induction h with
  | meets met => exact ⟨[], .meets met⟩
  | drawn met draws _ ih =>
    obtain ⟨link, hlink⟩ := draws.spans
    obtain ⟨links, hinner⟩ := ih
    exact ⟨link :: links, .drawn met draws hlink hinner⟩

/-- A statement with draws in progress is begun in the course of the run. -/
theorem InProgress.visits (h : InProgress b t c links b' s c') : Visits b t c b' s c' := by
  induction h with
  | meets met => exact .meets met
  | drawn met draws _ _ ih => exact .drawn met draws ih

/-- The frame of a statement is that of the work, derived along one link after the other. -/
theorem InProgress.frame_eq (h : InProgress b t c links b' s c') :
    b'.frame = b.frame.deriveAll links := by
  induction h with
  | meets _ => rfl
  | drawn _ draws spans _ ih =>
    rw [ih, draws.frame_eq spans]
    rfl

/-- Each draw in progress was begun in the course of the run and runs a body. -/
theorem InProgress.exists_of_mem (h : InProgress b t c links b' s c') (mem : link ∈ links) :
    ∃ b₁ s₁ c₁ f child d, Visits b t c b₁ s₁ c₁ ∧ Draws b₁ c₁ s₁ f child d ∧
      s₁.Spans b₁ c₁ link := by
  induction h with
  | meets _ => cases mem
  | drawn met draws spans _ ih =>
    -- the outermost draw is begun in the work itself, the others inside of it
    rcases List.mem_cons.1 mem with rfl | mem
    · exact ⟨_, _, _, _, _, _, .meets met, draws, spans⟩
    · obtain ⟨b₁, s₁, c₁, f, child, d, hv, hdraws, hspans⟩ := ih mem
      exact ⟨b₁, s₁, c₁, f, child, d, .drawn met draws hv, hdraws, hspans⟩

end

end SelfSimilar
