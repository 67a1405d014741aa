import SelfSimilar.Proofs.Execution.Correspondence
import SelfSimilar.Proofs.Execution.Levels

/-!
# Runs under other settings

Work asks for the settings in two places only: SELF asks whether it is drawn as a fractal, and a
draw by name asks whether a level is left. So work that comes to no SELF does the same under all
settings with the same limit, and with a greater limit as well, unless a draw is refused for want of
a level.

* `Branch.under`: a branch under other settings
* `Stmt.NotSelf`: a statement that is not SELF
* `Execution.under`: work that comes to no SELF, under other settings
-/

namespace SelfSimilar

variable {α : Type} [Scalar α]

/-- The same branch under other settings. -/
def Branch.under (b : Branch α) (settings : Settings α) : Branch α := { b with settings }

/-- The statement is not a draw of SELF. -/
def Stmt.NotSelf (s : Stmt α) : Prop := ∀ segment span, s ≠ .drawSelf segment span

section

variable {b : Branch α} {t : Task α} {c : Canvas α} {o : Outcome α Failure (Value α)}
  {settings : Settings α}

/-! ## Reading under other settings -/

omit [Scalar α] in
/-- Names have the values that their scope gives them. -/
theorem Branch.lookup_under (b : Branch α) (settings : Settings α) (c : Canvas α) (id : String) :
    (b.under settings).lookup c id = b.lookup c id := rfl

/-- The place of the pen is a matter of the frame. -/
theorem Branch.pen_under (b : Branch α) (settings : Settings α) (c : Canvas α) :
    (b.under settings).pen c = b.pen c := rfl

/-- An expression does not ask for the settings. -/
theorem Expr.eval_under (e : Expr α) (b : Branch α) (settings : Settings α) (c : Canvas α) :
    e.eval (b.under settings) c = e.eval b c :=
  eval_congr (b.lookup_under settings c) e fun _ => b.pen_under settings c

/-- Nor do the ends of a segment. -/
theorem Stmt.endpoints_under (s : Stmt α) (segment : Segment α) (b : Branch α)
    (settings : Settings α) (c : Canvas α) :
    s.endpoints segment (b.under settings) c = s.endpoints segment b c :=
  endpoints_congr (b.lookup_under settings c) segment fun _ => b.pen_under settings c

/-- Nor does a draw by name while it reads. -/
theorem Stmt.namedDraw_under (s : Stmt α) (name : String) (segment : Segment α) (b : Branch α)
    (settings : Settings α) (c : Canvas α) :
    s.namedDraw name segment (b.under settings) c = s.namedDraw name segment b c := by
  simp only [namedDraw, endpoints_under, Branch.lookup_under]

/-! ## Running under other settings -/

/-- Work that comes to no SELF has the same outcome under settings with the same limit. If no draw
is refused, it has the same outcome under settings with a greater limit. -/
theorem Execution.under (h : Execution b t c o)
    (hself : ∀ b' s d, Visits b t c b' s d → s.NotSelf)
    (hle : b.depthLimit ≤ settings.depthLimit)
    (hsame : b.depthLimit = settings.depthLimit ∨
      ∀ e limit, o.result = .error e → e.fault ≠ .tooDeep limit) :
    Execution (b.under settings) t c o := by
  -- the same rule applies at each step, and a child goes on under the same settings
  induction h with
  | block _ ih => exact .block (ih (fun _ _ _ hv => hself _ _ _ hv.block) hle hsame)
  | define => exact .define
  | drawUnread read => exact .drawUnread ((Stmt.namedDraw_under ..).trans read)
  | @drawTooDeep b c name segment span ends f read limit =>
    -- under a greater limit the draw might not be refused, so then the work must not fail here
    rcases hsame with heq | hne
    · have hlimit : (b.under settings).depthLimit = b.depthLimit := heq.symm
      rw [← hlimit] at limit ⊢
      exact .drawTooDeep ((Stmt.namedDraw_under ..).trans read) limit
    · exact absurd rfl (hne _ _ rfl)
  | @draw b c name segment span ends f child o read room derived _ ih =>
    have hdraws := Draws.named read room derived
    -- a level that is left below the smaller limit is left below the greater one
    have hroom : (b.under settings).level < (b.under settings).depthLimit :=
      Nat.lt_of_lt_of_le room hle
    have hchild :
        child.under settings = ((b.under settings).child ends.1 ends.2).within f.scope := by
      rw [derived]
      rfl
    rw [← Branch.depthLimit_eq hdraws.settings_eq] at hle hsame
    have hinner := ih (fun _ _ _ hv => hself _ _ _ (.drawn .here hdraws hv)) hle hsame
    -- the level and the frame that are reported are those of the child under both settings
    have hdraw := Execution.draw ((Stmt.namedDraw_under ..).trans read) hroom hchild hinner
    exact hdraw
  -- no SELF is begun
  | selfUnread _ => exact absurd rfl (hself _ _ _ (.meets .here) _ _)
  | selfLine _ _ => exact absurd rfl (hself _ _ _ (.meets .here) _ _)
  | self _ _ _ _ _ => exact absurd rfl (hself _ _ _ (.meets .here) _ _)
  | lineUnread read => exact .lineUnread ((Stmt.endpoints_under ..).trans read)
  | line read => exact .line ((Stmt.endpoints_under ..).trans read)
  | assignUnread read => exact .assignUnread ((Expr.eval_under ..).trans read)
  | assign read => exact .assign ((Expr.eval_under ..).trans read)
  | clear => exact .clear
  | home => exact .home
  | nil => exact .nil
  | fail _ ih => exact .fail (ih (fun _ _ _ hv => hself _ _ _ hv.first) hle hsame)
  | cons first _ ihFirst ihLater =>
    exact .cons
      (ihFirst (fun _ _ _ hv => hself _ _ _ hv.first) hle (hsame.imp_right fun _ => by simp))
      (ihLater (fun _ _ _ hv => hself _ _ _ (hv.later first.eq_perform)) hle hsame)

end

end SelfSimilar
