import SelfSimilar.Proofs.Execution.Correspondence
import SelfSimilar.Proofs.Path.Motion

/-!
# Moved work

To do the same work in a frame that was moved by a rigid motion is to move all that the work draws.
All that a run asks of its frame is where the pen is in local coordinates, whether SELF is large
enough to be drawn as a fractal, and whether the frame has collapsed. None of it shows the motion.

* `Branch.MovedBy.seesAlike`, `Branch.MovedBy.isResolvable_eq`: what is asked of a moved frame
* `Execution.moved`: the run in the moved frame ends as the other one does
-/

namespace SelfSimilar

variable {K : Type} [Field K] [DecidableEq K] [ExactArithmetic K] {R : Frame K}
  {b b₁ b₂ : Branch K} {t : Task K} {c c₁ c₂ : Canvas K} {o₁ : Outcome K Failure (Value K)}

namespace Branch

/-- The branch `b₂` is the branch `b₁`, with its frame moved by `R`. -/
structure MovedBy (R : Frame K) (b₁ b₂ : Branch K) : Prop where
  isAffine : b₁.frame.IsAffine
  eq_moved : b₂ = { b₁ with frame := R.andThen b₁.frame }

/-- A point is placed at the image of its place. -/
theorem MovedBy.place_eq (h : b₁.MovedBy R b₂) (p : Point K) :
    b₂.place p = R.carry (b₁.place p) := by
  rw [h.eq_moved]
  exact Frame.apply_andThen R h.isAffine p

/-- The child of a moved branch is the moved child. -/
theorem MovedBy.child (h : b₁.MovedBy R b₂) (start stop : Point K) :
    (b₁.child start stop).MovedBy R (b₂.child start stop) := by
  refine ⟨h.isAffine.derive start stop, ?_⟩
  rw [h.eq_moved]
  simp only [Branch.child, Frame.derive_andThen]

/-- Moved branches correspond, and moves and lines on them keep paths moved. -/
theorem correspondence_movedBy (R : Frame K) : Correspondence (MovedBy R) (Path.MovedBy R) where
  scope_eq hb := by rw [hb.eq_moved]
  level_eq hb := by rw [hb.eq_moved]
  depthLimit_eq hb := by rw [hb.eq_moved]; rfl
  child start stop hb := hb.child start stop
  within scope hb := ⟨hb.isAffine, by rw [hb.eq_moved]; rfl⟩
  moveTo p hb h := by
    rw [hb.place_eq]
    exact h.moveTo _
  lineTo p hb h := by
    rw [hb.place_eq]
    exact h.lineTo _

/-! ## What a run asks of its frame -/

/-- A rigid motion keeps the scale, and with it what is resolvable. -/
theorem MovedBy.isResolvable_eq (h : b₁.MovedBy R b₂) (hR : R.IsRigid) :
    b₁.isResolvable = b₂.isResolvable := by
  rw [h.eq_moved]
  simp only [isResolvable, Frame.scale_andThen hR h.isAffine]

/-- In the moved frame the pen is at the same point, or at none there either. -/
theorem MovedBy.seesAlike (h : b₁.MovedBy R b₂) (hR : R.IsRigid)
    (hc : c₁.Beside (Path.MovedBy R) c₂) : b₁.SeesAlike b₂ c₁ c₂ where
  lookup_eq id := by
    rw [h.eq_moved]
    unfold lookup
    rw [hc.env_eq]
  pen_eq := by
    rw [h.eq_moved]
    simp only [pen, hc.related.pen_eq, Frame.unapply?_andThen hR h.isAffine]

/-- All work goes on alike in the moved frame, whatever it comes to. -/
theorem goesAlike_movedBy (hR : R.IsRigid) : b.GoesAlike (MovedBy R) (Path.MovedBy R) t c := by
  intro b₁ s d₁ b₂ d₂ _ hb hd
  -- after CLEAR both paths start at the origins of their frames
  refine s.goesAlike (hb.seesAlike hR hd) hd.active_eq (hb.isResolvable_eq hR) fun span _ => ?_
  rw [hb.place_eq]
  exact Path.movedBy_startingAt R _

end Branch

/-- In the moved frame a run ends with the same value or the same failure and with the same
bindings, and what it has drawn is moved along. -/
theorem Execution.moved (hR : R.IsRigid) (h : Execution b₁ t c₁ o₁) (hb : b₁.MovedBy R b₂)
    (hc : c₁.Beside (Path.MovedBy R) c₂) :
    ∃ o₂, Execution b₂ t c₂ o₂ ∧ o₁.result = o₂.result ∧
      o₁.canvas.Beside (Path.MovedBy R) o₂.canvas :=
  h.corresponding (Branch.correspondence_movedBy R) (Branch.goesAlike_movedBy hR) hb hc

/-- A piece of work in the moved frame. -/
theorem Branch.MovedBy.perform (h : b₁.MovedBy R b₂) (hR : R.IsRigid)
    (hc : c₁.Beside (Path.MovedBy R) c₂) (t : Task K) :
    (b₁.perform t c₁).result = (b₂.perform t c₂).result ∧
      (b₁.perform t c₁).canvas.Beside (Path.MovedBy R) (b₂.perform t c₂).canvas := by
  obtain ⟨o₂, hex, hres, hd⟩ := (execution_perform b₁ t c₁).moved hR h hc
  rw [hex.eq_perform]
  exact ⟨hres, hd⟩

/-- A program in the moved frame. -/
theorem Branch.MovedBy.runProgram (h : b₁.MovedBy R b₂) (hR : R.IsRigid)
    (hc : c₁.Beside (Path.MovedBy R) c₂) (program : Program K) :
    (b₁.runProgram program c₁).result = (b₂.runProgram program c₂).result ∧
      (b₁.runProgram program c₁).canvas.Beside (Path.MovedBy R)
        (b₂.runProgram program c₂).canvas := by
  obtain ⟨hres, hd⟩ := h.perform hR hc (.all .origin program)
  rw [b₁.perform_body, b₂.perform_body] at hres hd
  rw [result_runProgram, result_runProgram, canvas_runProgram, canvas_runProgram]
  exact ⟨Outcome.result_eq_of_map hres, hd⟩

end SelfSimilar
