import SelfSimilar.Proofs.Execution.Work

/-!
# Statements one after another

What a body does is what its parts do one after another, and a block does what its statements do
without it. This holds of everything but the value: a value is a sum of points, and where points are
rounded a sum depends on how it is bracketed. So values are left out (`Run.effect`), and what
remains composes, because runs form a lawful monad.

* `Branch.effect_append`: the parts of a body are run one after the other
* `Branch.effect_block`: a block is run as its statements are
-/

namespace SelfSimilar

namespace Run

variable {α ε β γ : Type}

instance : LawfulMonad (Run α ε) := by
  refine LawfulMonad.mk' (Run α ε) (fun r => ?_) (fun v f => ?_) (fun r f g => ?_)
  · funext c
    change (r >>= fun v => pure v) c = r c
    rcases h : r c with ⟨e | v, d, events⟩
    · exact bind_error h
    · rw [bind_ok h]
      simp
  · funext c
    rw [bind_ok (pure_apply v c)]
    rfl
  · funext c
    rcases h : r c with ⟨e | v, d, events⟩
    · rw [bind_error (bind_error h), bind_error h]
    · rw [bind_ok h]
      -- the second part decides whether the third one is run at all
      rcases h' : f v d with ⟨e | w, d', events'⟩
      · rw [bind_error h', bind_error ((bind_ok h).trans (by rw [h']))]
      · rw [bind_ok h', bind_ok ((bind_ok h).trans (by rw [h']))]
        simp

/-- A run without its value. -/
def effect (r : Run α ε β) : Run α ε Unit := fun c => (r c).map fun _ => ()

theorem effect_of_error {r : Run α ε β} {c d : Canvas α} {e : ε} {events : List (Event α)}
    (h : r c = ⟨.error e, d, events⟩) : r.effect c = ⟨.error e, d, events⟩ := by
  rw [effect, h]
  rfl

theorem effect_of_ok {r : Run α ε β} {c d : Canvas α} {v : β} {events : List (Event α)}
    (h : r c = ⟨.ok v, d, events⟩) : r.effect c = ⟨.ok (), d, events⟩ := by
  rw [effect, h]
  rfl

@[simp] theorem effect_pure (v : β) : (pure v : Run α ε β).effect = pure () := rfl

/-- Without values, what comes later goes on from the canvas alone. -/
theorem effect_bind {r : Run α ε β} {next : β → Run α ε γ} {later : Run α ε Unit}
    (h : ∀ v, (next v).effect = later) : (r >>= next).effect = r.effect >>= fun _ => later := by
  funext c
  -- the value of the first part chooses what comes later, which has the same effect for all values
  rcases hr : r c with ⟨e | v, d, events⟩
  · rw [bind_error (effect_of_error hr), effect_of_error (bind_error hr)]
  · rw [bind_ok (effect_of_ok hr), effect, bind_ok hr, ← h v]
    rfl

/-- A run fails in the same way without its value. -/
theorem result_effect_eq_error {r : Run α ε β} {c : Canvas α} {e : ε} :
    (r.effect c).result = .error e ↔ (r c).result = .error e := by
  rcases h : r c with ⟨e' | v, d, events⟩
  · simp [effect_of_error h]
  · simp [effect_of_ok h]

end Run

variable {α : Type} [Scalar α]

/-- Without its value, a body does the same from any sum. -/
theorem effect_execAll (deeper : Option (BodyRunner α)) (b : Branch α) (body : List (Stmt α))
    (sum sum' : Point α) :
    (execAll deeper b sum body).effect = (execAll deeper b sum' body).effect := by
  induction body generalizing sum sum' with
  | nil => rfl
  -- the sum is handed on and never looked at
  | cons s rest ih =>
    have hlater : ∀ (sum : Point α) (v : Value α),
        (execAll deeper b (v.addTo sum) rest).effect = (execAll deeper b .origin rest).effect :=
      fun _ _ => ih _ _
    rw [execAll, execAll, Run.effect_bind (hlater sum), Run.effect_bind (hlater sum')]

namespace Branch

/-- What a body does, without its value. -/
def effect (b : Branch α) (body : List (Stmt α)) : Run α Failure Unit := (b.runAll body).effect

variable (b : Branch α)

@[simp] theorem effect_nil : b.effect [] = pure () := rfl

/-- The first statement is run, and then the others. -/
theorem effect_cons (s : Stmt α) (rest : List (Stmt α)) :
    b.effect (s :: rest) = (b.run s).effect >>= fun _ => b.effect rest := by
  unfold effect runAll
  rw [execAll]
  -- the sum that the others start from makes no difference
  exact Run.effect_bind fun v => effect_execAll _ _ _ _ _

/-- After a failure nothing is run. -/
theorem effect_cons_of_error {b : Branch α} {s : Stmt α} {rest : List (Stmt α)} {c d : Canvas α}
    {e : Failure} {events : List (Event α)} (h : b.run s c = ⟨.error e, d, events⟩) :
    b.effect (s :: rest) c = ⟨.error e, d, events⟩ := by
  rw [effect_cons]
  exact Run.bind_error (Run.effect_of_error h)

/-- After the first statement, the others are run on the canvas that it leaves. -/
theorem effect_cons_of_ok {b : Branch α} {s : Stmt α} {rest : List (Stmt α)} {c d : Canvas α}
    {v : Value α} {events : List (Event α)} (h : b.run s c = ⟨.ok v, d, events⟩) :
    b.effect (s :: rest) c =
      ⟨(b.effect rest d).result, (b.effect rest d).canvas, events ++ (b.effect rest d).events⟩ := by
  rw [effect_cons]
  exact Run.bind_ok (Run.effect_of_ok h)

/-- The parts of a body are run one after the other. -/
theorem effect_append (first later : List (Stmt α)) :
    b.effect (first ++ later) = b.effect first >>= fun _ => b.effect later := by
  induction first with
  | nil => simp
  | cons s rest ih => rw [List.cons_append, effect_cons, effect_cons, ih, bind_assoc]

/-- A block is run as its statements are. -/
theorem effect_block (body : List (Stmt α)) (span : Span) :
    b.effect [.block body span] = b.effect body := by
  -- a block makes the sum of its statements a value, which is left out
  have hblock : (b.run (.block body span)).effect = b.effect body := by
    change (b.runAll body >>= fun p => pure (Value.point p)).effect = _
    rw [Run.effect_bind fun _ => Run.effect_pure _]
    simp [effect]
  rw [effect_cons, hblock]
  simp

/-- A block may be opened up wherever it stands. -/
theorem effect_append_block (before body later : List (Stmt α)) (span : Span) :
    b.effect (before ++ [.block body span] ++ later) = b.effect (before ++ body ++ later) := by
  simp only [effect_append, effect_block]

end Branch

end SelfSimilar
