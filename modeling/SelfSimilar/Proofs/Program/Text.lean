import SelfSimilar.Proofs.Program.Bare
import SelfSimilar.Proofs.Program.Node

/-!
# Reading the text of expressions

The text of an expression can be read in one way only, if its numbers are whole and not negative and
its names are identifiers. What tells expressions apart is their first character: a word goes on up
to the next character that no word is made of, a minus sign that stands in front belongs to the
operand that follows, and a bracket opens an operator or a rotation, which `cos` tells apart. So a
text determines not only its expression, but also where it ends inside a longer text, and that is
what the induction needs.

Without these conditions texts can be read in several ways: `-5` is a literal and the opposite of
one.

* `word_append_inj`: a word ends where the next character is not part of any word
* `Expr.IsWord`, `Expr.IsLegible`: expressions that are words, and what is made of them
* `Expr.IsLegible.text_append_inj`: the text of an expression inside a longer text
* `Expr.IsLegible.text_eq_iff`: the text of an expression
* `Expr.IsLegible.text_ne_stmt`: no statement is written like an expression
-/

namespace SelfSimilar

/-! ## Words -/

/-- The letters are those of ASCII and all characters beyond ASCII. -/
def isLetter (c : Char) : Bool := c.isAlpha || decide (128 ≤ c.toNat)

/-- Words are made of letters, digits and underscores. -/
def isWordChar (c : Char) : Bool := isLetter c || c.isDigit || c == '_'

/-- An identifier is a letter that is followed by letters, digits and underscores. -/
def isIdentifier (id : String) : Bool :=
  match id.toList with
  | [] => false
  | first :: rest => isLetter first && rest.all isWordChar

/-- Nothing follows, or something that no word goes on with. -/
def EndsWord (rest : List Char) : Prop := ∀ c ∈ rest.head?, isWordChar c = false

theorem endsWord_nil : EndsWord [] := nofun

/-- A word ends before a character that is of no word. -/
theorem endsWord_cons {c : Char} {rest : List Char} (h : isWordChar c = false) :
    EndsWord (c :: rest) := by
  intro c' hc'
  rwa [← Option.some.inj hc']

/-- A word is what is read up to the first character that is of no word. -/
theorem takeWhile_word {w rest : List Char} (hw : ∀ c ∈ w, isWordChar c = true)
    (hrest : EndsWord rest) : (w ++ rest).takeWhile isWordChar = w := by
  rw [List.takeWhile_append_of_pos hw]
  cases rest with
  | nil => simp
  | cons c rest => rw [List.takeWhile_cons, hrest c rfl, if_neg Bool.false_ne_true, List.append_nil]

/-- A word and what follows it are determined by both together. -/
theorem word_append_inj {w w' rest rest' : List Char} (hw : ∀ c ∈ w, isWordChar c = true)
    (hw' : ∀ c ∈ w', isWordChar c = true) (hrest : EndsWord rest) (hrest' : EndsWord rest')
    (h : w ++ rest = w' ++ rest') : w = w' ∧ rest = rest' := by
  obtain rfl : w = w' := by rw [← takeWhile_word hw hrest, h, takeWhile_word hw' hrest']
  exact ⟨rfl, List.append_cancel_left h⟩

/-- A digit is no letter: all digits come before all letters. -/
theorem isLetter_of_isDigit {c : Char} (h : c.isDigit = true) : isLetter c = false := by
  have hdigit : c.toNat ≤ 57 := (Char.isDigit_iff_toNat.1 h).2
  have hlow : ∀ n : UInt32, 57 < n.toNat → ¬ n ≤ c.val := fun n hn hle =>
    absurd (UInt32.le_iff_toNat_le.1 hle) (by have : c.val.toNat ≤ 57 := hdigit; omega)
  have hupper : c.isUpper = false :=
    decide_eq_false fun hrange => hlow 'A'.val (by decide) hrange.1
  have hlower : c.isLower = false :=
    Bool.and_eq_false_iff.2 (.inl (decide_eq_false (hlow 'a'.val (by decide))))
  have hascii : decide (128 ≤ c.toNat) = false := decide_eq_false (by omega)
  show ((c.isUpper || c.isLower) || decide (128 ≤ c.toNat)) = false
  rw [hupper, hlower, hascii]
  rfl

/-- All characters of an identifier are of words. -/
theorem isWordChar_of_isIdentifier {id : String} (h : isIdentifier id = true) :
    ∀ c ∈ id.toList, isWordChar c = true := by
  unfold isIdentifier at h
  cases hid : id.toList with
  | nil => nofun
  | cons first rest =>
    rw [hid, Bool.and_eq_true, List.all_eq_true] at h
    intro c hc
    rcases List.mem_cons.1 hc with rfl | hc
    · simp [isWordChar, h.1]
    · exact h.2 c hc

/-- An identifier has a first character. -/
theorem toList_ne_nil_of_isIdentifier {id : String} (h : isIdentifier id = true) :
    id.toList ≠ [] := by
  intro hnil
  rw [isIdentifier, hnil] at h
  cases h

/-- The word that stands for the pen is written like a name. -/
theorem isIdentifier_here : isIdentifier "HERE" = true := by decide

/-- The word that a rotation starts with is written like a name. -/
theorem isIdentifier_cos : isIdentifier "cos" = true := by decide

/-! ## Numbers -/

/-- A number that is not negative is written with its digits only. -/
theorem toList_toString {n : Int} (h : 0 ≤ n) : (toString n).toList = Nat.toDigits 10 n.toNat := by
  rw [Int.toString_eq_repr, Int.repr_eq_if, if_pos h, Nat.toList_repr]

/-- Numbers are told apart by their digits. -/
theorem toString_inj {m n : Int} (hm : 0 ≤ m) (hn : 0 ≤ n) (h : toString m = toString n) :
    m = n := by
  have hdigits : Nat.toDigits 10 m.toNat = Nat.toDigits 10 n.toNat := by
    rw [← toList_toString hm, h, toList_toString hn]
  -- the digits give the number back
  have hnat : m.toNat = n.toNat := by
    rw [← @Nat.ofDigitChars_ten_toDigits m.toNat, hdigits, Nat.ofDigitChars_ten_toDigits]
  rw [← Int.toNat_of_nonneg hm, hnat, Int.toNat_of_nonneg hn]

/-- All characters of a number that is not negative are digits. -/
theorem isDigit_of_mem_toString {n : Int} (h : 0 ≤ n) {c : Char} (hc : c ∈ (toString n).toList) :
    c.isDigit = true := by
  rw [toList_toString h] at hc
  exact Nat.isDigit_of_mem_toDigits (by decide) (by decide) hc

/-- A number is no identifier: it starts with a digit. -/
theorem not_isIdentifier_toString {n : Int} (h : 0 ≤ n) : isIdentifier (toString n) = false := by
  unfold isIdentifier
  cases hn : (toString n).toList with
  | nil => rfl
  | cons first rest =>
    have hdigit : first.isDigit = true := isDigit_of_mem_toString h (hn ▸ List.mem_cons_self)
    show (isLetter first && rest.all isWordChar) = false
    rw [isLetter_of_isDigit hdigit, Bool.false_and]

/-! ## Legible expressions -/

namespace Expr

/-- Expressions that are written as one word: whole numbers that are not negative, names that are
identifiers, and HERE. The words `HERE` and `cos` are no names; other words that occur in texts, as
`sin` and `mod`, may be names. -/
inductive IsWord {α : Type} : Expr α → Prop
  | int {n : Int64} (nonneg : 0 ≤ n.toInt) (span : Span) : IsWord (.literal (.int n) span)
  | name (sort : NameSort) {id : String} (identifier : isIdentifier id = true)
      (ne_here : id ≠ "HERE") (ne_cos : id ≠ "cos") (span : Span) : IsWord (.name sort id span)
  | here (span : Span) : IsWord (.here span)

/-- Expressions that are made of words by operators, opposites and rotations. -/
inductive IsLegible {α : Type} : Expr α → Prop
  | word {e : Expr α} (word : e.IsWord) : IsLegible e
  | binary (op : BinaryOp) {left right : Expr α} (span : Span) :
      IsLegible left → IsLegible right → IsLegible (.binary op left right span)
  | negate {operand : Expr α} (span : Span) : IsLegible operand → IsLegible (.negate operand span)
  | rotation {angle : Expr α} (span : Span) : IsLegible angle → IsLegible (.rotation angle span)

variable {α : Type}

/-- The operands of a legible expression are legible. -/
theorem IsLegible.of_mem_operands {operand whole : Expr α} (h : whole.IsLegible)
    (hmem : operand ∈ whole.operands) : operand.IsLegible := by
  cases h with
  -- a word has no operands
  | word word => cases word <;> cases hmem
  | binary op span hleft hright =>
    simp only [operands, List.mem_cons, List.not_mem_nil, or_false] at hmem
    rcases hmem with rfl | rfl
    · exact hleft
    · exact hright
  | negate span hoperand => exact List.mem_singleton.1 hmem ▸ hoperand
  | rotation span hangle => exact List.mem_singleton.1 hmem ▸ hangle

/-- All parts of a legible expression are legible. -/
theorem IsLegible.of_partOf {part whole : Expr α} (h : whole.IsLegible)
    (hpart : part.PartOf whole) : part.IsLegible := by
  induction hpart with
  | itself => exact h
  | inOperand mem _ ih => exact ih (h.of_mem_operands mem)

variable [Scalar α] {e e' : Expr α} {rest rest' : List Char}

/-! ### Texts as lists of characters -/

theorem text_int (n : Int64) (span : Span) :
    (literal (.int n) span : Expr α).text = toString n.toInt := rfl

theorem text_name (sort : NameSort) (id : String) (span : Span) :
    (name sort id span : Expr α).text = id := rfl

theorem text_here (span : Span) : (here span : Expr α).text = "HERE" := rfl

/-- An operator stands in brackets, between its operands. -/
theorem toList_text_binary (op : BinaryOp) (left right : Expr α) (span : Span) :
    (binary op left right span).text.toList =
      '(' :: (left.text.toList ++
        ' ' :: (op.symbol.toList ++ ' ' :: (right.text.toList ++ [')']))) := by
  simp [text, toString]

/-- An opposite has a minus sign and no brackets. -/
theorem toList_text_negate (operand : Expr α) (span : Span) :
    (negate operand span).text.toList = '-' :: operand.text.toList := by
  simp [text, toString]

/-- A rotation is written as the point that it stands for, with its angle twice. -/
theorem toList_text_rotation (angle : Expr α) (span : Span) :
    (rotation angle span).text.toList =
      '(' :: ("cos".toList ++ ' ' :: (angle.text.toList ++
        ',' :: ' ' :: ("sin".toList ++ ' ' :: (angle.text.toList ++ [')'])))) := by
  simp [text, toString]

/-! ### Words -/

/-- The text of a word is one. -/
theorem IsWord.isWordChar (h : e.IsWord) : ∀ c ∈ e.text.toList, isWordChar c = true := by
  cases h with
  | int nonneg span =>
    intro c hc
    simp [SelfSimilar.isWordChar, isDigit_of_mem_toString nonneg hc]
  | name sort identifier _ _ span => exact isWordChar_of_isIdentifier identifier
  | here span => exact isWordChar_of_isIdentifier isIdentifier_here

/-- The text of a word is not empty. -/
theorem IsWord.text_ne_nil (h : e.IsWord) : e.text.toList ≠ [] := by
  cases h with
  | int nonneg span =>
    rw [text_int, toList_toString nonneg]
    exact Nat.toDigits_ne_nil
  | name sort identifier _ _ span => exact toList_ne_nil_of_isIdentifier identifier
  | here span => exact toList_ne_nil_of_isIdentifier isIdentifier_here

/-- No text of a word starts with a character that no word is made of. -/
theorem IsWord.append_ne (h : e.IsWord) {c : Char} (hc : SelfSimilar.isWordChar c = false) :
    e.text.toList ++ rest ≠ c :: rest' := by
  intro heq
  -- the text has a first character, and that is of a word
  cases hw : e.text.toList with
  | nil => exact h.text_ne_nil hw
  | cons first w =>
    rw [hw] at heq
    have hfirst : SelfSimilar.isWordChar first = true :=
      h.isWordChar first (hw ▸ List.mem_cons_self)
    rw [(List.cons.inj heq).1, hc] at hfirst
    cases hfirst

/-- No number is written like a name. -/
theorem text_int_ne {n : Int64} (nonneg : 0 ≤ n.toInt) {id : String}
    (identifier : isIdentifier id = true) : toString n.toInt ≠ id := by
  rintro rfl
  rw [not_isIdentifier_toString nonneg] at identifier
  cases identifier

/-- No word is written `cos`, since names are not. -/
theorem IsWord.text_ne_cos (h : e.IsWord) : e.text ≠ "cos" := by
  cases h with
  | int nonneg span => exact text_int_ne nonneg isIdentifier_cos
  | name sort _ _ ne_cos span => exact ne_cos
  | here span =>
    rw [text_here]
    decide

/-- Two words of one text are the same number, or the same name, or both are HERE. -/
theorem IsWord.bare_eq (h : e.IsWord) (h' : e'.IsWord) (htext : e.text = e'.text) :
    e.bare = e'.bare := by
  cases h with
  | int nonneg span =>
    cases h' with
    | int nonneg' span' =>
      rw [bare, bare, Int64.toInt_inj.1 (toString_inj nonneg nonneg' htext)]
    -- a number starts with a digit, and names and HERE with a letter
    | name sort' identifier' _ _ span' => exact absurd htext (text_int_ne nonneg identifier')
    | here span' => exact absurd htext (text_int_ne nonneg isIdentifier_here)
  | name sort identifier ne_here _ span =>
    cases h' with
    | int nonneg' span' => exact absurd htext.symm (text_int_ne nonneg' identifier)
    | name sort' _ _ _ span' =>
      rw [text_name, text_name] at htext
      rw [bare, bare, htext]
    | here span' => exact absurd htext ne_here
  | here span =>
    cases h' with
    | int nonneg' span' => exact absurd htext.symm (text_int_ne nonneg' isIdentifier_here)
    | name sort' _ ne_here' _ span' => exact absurd htext.symm ne_here'
    | here span' => rfl

/-! ### Texts inside longer texts -/

/-- The sign of an operator ends where a space follows it. -/
theorem symbol_append_inj {op op' : BinaryOp}
    (h : op.symbol.toList ++ ' ' :: rest = op'.symbol.toList ++ ' ' :: rest') :
    op = op' ∧ rest = rest' := by
  -- the sign is one character or the word `mod`, and none of them is a space
  cases op <;> cases op' <;> simp_all [BinaryOp.symbol]

/-- No operand is written `cos`, so that an operator is not taken for a rotation. -/
theorem IsLegible.append_ne_cos (h : e.IsLegible) :
    e.text.toList ++ ' ' :: rest ≠ "cos".toList ++ ' ' :: rest' := by
  cases h with
  | word word =>
    intro heq
    -- both are words that a space follows, so they would be the same one
    have hcos := (word_append_inj word.isWordChar (isWordChar_of_isIdentifier isIdentifier_cos)
      (endsWord_cons (by decide)) (endsWord_cons (by decide)) heq).1
    exact word.text_ne_cos (String.toList_inj.1 hcos)
  -- all other expressions start with a bracket or a minus sign
  | binary op span _ _ =>
    rw [toList_text_binary]
    exact fun heq => absurd (List.cons.inj heq).1 (by decide)
  | negate span _ =>
    rw [toList_text_negate]
    exact fun heq => absurd (List.cons.inj heq).1 (by decide)
  | rotation span _ =>
    rw [toList_text_rotation]
    exact fun heq => absurd (List.cons.inj heq).1 (by decide)

/-- A bracket that an operand follows opens an operator, and one that `cos` follows a rotation. -/
theorem IsLegible.binary_ne_rotation (h : e.IsLegible) (op : BinaryOp) (right angle : Expr α)
    (span span' : Span) :
    (Expr.binary op e right span).text.toList ++ rest ≠
      (Expr.rotation angle span').text.toList ++ rest' := by
  rw [toList_text_binary, toList_text_rotation]
  intro heq
  simp only [List.cons_append, List.append_assoc, List.cons.injEq, true_and] at heq
  exact h.append_ne_cos heq

/-- The text of an expression determines it and where it ends, if no word goes on after it. -/
theorem IsLegible.text_append_inj (he : e.IsLegible) (he' : e'.IsLegible) (hrest : EndsWord rest)
    (hrest' : EndsWord rest') (h : e.text.toList ++ rest = e'.text.toList ++ rest') :
    e.bare = e'.bare ∧ rest = rest' := by
  -- on the first expression; what the second one is shows at the first character
  induction he generalizing e' rest rest' with
  | word word =>
    cases he' with
    | word word' =>
      obtain ⟨htext, hrests⟩ := word_append_inj word.isWordChar word'.isWordChar hrest hrest' h
      exact ⟨word.bare_eq word' (String.toList_inj.1 htext), hrests⟩
    | binary op' span' _ _ =>
      rw [toList_text_binary] at h
      exact absurd h (word.append_ne (by decide))
    | negate span' _ =>
      rw [toList_text_negate] at h
      exact absurd h (word.append_ne (by decide))
    | rotation span' _ =>
      rw [toList_text_rotation] at h
      exact absurd h (word.append_ne (by decide))
  | binary op span hleft _ ihLeft ihRight =>
    cases he' with
    | word word' =>
      rw [toList_text_binary] at h
      exact absurd h.symm (word'.append_ne (by decide))
    | binary op' span' hleft' hright' =>
      rw [toList_text_binary, toList_text_binary] at h
      simp only [List.cons_append, List.append_assoc, List.nil_append, List.cons.injEq,
        true_and] at h
      -- left operand, sign and right operand are read off one after another, each with what follows
      -- it
      obtain ⟨hl, hafter⟩ := ihLeft hleft' (endsWord_cons (by decide)) (endsWord_cons (by decide)) h
      obtain ⟨hop, hafter⟩ := symbol_append_inj (List.cons.inj hafter).2
      obtain ⟨hr, hafter⟩ :=
        ihRight hright' (endsWord_cons (by decide)) (endsWord_cons (by decide)) hafter
      exact ⟨by rw [bare, bare, hl, hop, hr], (List.cons.inj hafter).2⟩
    | negate span' _ =>
      rw [toList_text_binary, toList_text_negate] at h
      exact absurd (List.cons.inj h).1 (by decide)
    | rotation span' _ => exact absurd h (hleft.binary_ne_rotation op _ _ span span')
  | negate span _ ih =>
    cases he' with
    | word word' =>
      rw [toList_text_negate] at h
      exact absurd h.symm (word'.append_ne (by decide))
    | binary op' span' _ _ =>
      rw [toList_text_negate, toList_text_binary] at h
      exact absurd (List.cons.inj h).1 (by decide)
    | negate span' hoperand' =>
      rw [toList_text_negate, toList_text_negate] at h
      obtain ⟨hoperand, hrests⟩ := ih hoperand' hrest hrest' (List.cons.inj h).2
      exact ⟨by rw [bare, bare, hoperand], hrests⟩
    | rotation span' _ =>
      rw [toList_text_negate, toList_text_rotation] at h
      exact absurd (List.cons.inj h).1 (by decide)
  | @rotation angle span _ ih =>
    cases he' with
    | word word' =>
      rw [toList_text_rotation] at h
      exact absurd h.symm (word'.append_ne (by decide))
    | binary op' span' hleft' _ =>
      exact absurd h.symm (hleft'.binary_ne_rotation op' _ _ span' span)
    | negate span' _ =>
      rw [toList_text_rotation, toList_text_negate] at h
      exact absurd (List.cons.inj h).1 (by decide)
    | @rotation angle' span' hangle' =>
      rw [toList_text_rotation, toList_text_rotation] at h
      simp only [List.cons_append, List.append_assoc, List.nil_append, List.cons.injEq, true_and,
        List.append_cancel_left_eq] at h
      obtain ⟨hangle, hafter⟩ :=
        ih hangle' (endsWord_cons (by decide)) (endsWord_cons (by decide)) h
      -- the angle is written a second time, and by now it is known to be the same
      have htext : angle.text = angle'.text := by rw [← text_bare angle, hangle, text_bare]
      rw [htext] at hafter
      simp only [List.cons.injEq, true_and, List.append_cancel_left_eq] at hafter
      exact ⟨by rw [bare, bare, hangle], hafter⟩

/-- Legible expressions of one text are the same one up to places and sorts of names. -/
theorem IsLegible.text_eq_iff (he : e.IsLegible) (he' : e'.IsLegible) :
    e.text = e'.text ↔ e.bare = e'.bare := by
  constructor
  · intro h
    -- the whole text is what nothing follows
    have happend : e.text.toList ++ [] = e'.text.toList ++ [] := by rw [h]
    exact (he.text_append_inj he' endsWord_nil endsWord_nil happend).1
  · intro h
    rw [← text_bare e, h, text_bare]

example : (literal (.int (-5)) {} : Expr α).text =
    (negate (literal (.int 5) {}) {} : Expr α).text := by
  rfl

/-! ## Texts of statements -/

/-- An expression that is not a word starts with a bracket or a minus sign. -/
theorem IsLegible.isWord_or_head (h : e.IsLegible) :
    e.IsWord ∨ e.text.toList.head? = some '(' ∨ e.text.toList.head? = some '-' := by
  cases h with
  | word word => exact .inl word
  | binary op span _ _ => exact .inr (.inl (by rw [toList_text_binary, List.head?_cons]))
  | negate span _ => exact .inr (.inr (by rw [toList_text_negate, List.head?_cons]))
  | rotation span _ => exact .inr (.inl (by rw [toList_text_rotation, List.head?_cons]))

end Expr

section

variable {α : Type} [Scalar α]

/-- A statement is written with spaces or brackets, but it does not start with a bracket or a
sign. -/
theorem Stmt.text_shape (s : Stmt α) :
    (∃ c ∈ s.text.toList, isWordChar c = false) ∧
      s.text.toList.head? ≠ some '(' ∧ s.text.toList.head? ≠ some '-' := by
  have hspace : isWordChar ' ' = false := by decide
  have hbracket : isWordChar '(' = false := by decide
  -- each starts with a letter or a brace, and later there is a space or a bracket
  cases s <;> simp [text, toString, hspace, hbracket]

/-- No statement is written like an expression. -/
theorem Expr.IsLegible.text_ne_stmt {e : Expr α} (h : e.IsLegible) (s : Stmt α) :
    e.text ≠ s.text := by
  intro heq
  obtain ⟨⟨c, hc, hnot⟩, hbracket, hminus⟩ := s.text_shape
  rw [← heq] at hc hbracket hminus
  rcases h.isWord_or_head with hword | hhead | hhead
  · rw [hword.isWordChar c hc] at hnot
    cases hnot
  · exact hbracket hhead
  · exact hminus hhead

end

end SelfSimilar
