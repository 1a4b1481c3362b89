import Mathlib.Data.List.Infix
import Abacus.Proofs.Segmentation
import Abacus.Token.Reading

/-!
# Balanced Parentheses

Parentheses are balanced if none is closed before it was opened and all are
closed in the end. This is said here by counting, for any kind of list in
which something opens and something closes, so that it can be asked of a text
as well as of its tokens.

The two questions have one answer. Reading a text keeps its parentheses in
their order, since each is a lexeme of its own and no other lexeme has one in
its spelling, and the multiplications that are implied bring none.

## Main definitions

* `NeverOverclosed`: Nothing is closed before it was opened.
* `Balanced`: Nothing stays open besides.
* `Token.paren?`: The parenthesis that a token is.

## Theorems

* `balanced_filterMap`: Only what opens and what closes matters.
* `parens_of_tokenize`: The parentheses of a text are those of its tokens.
* `balanced_iff_of_tokenize`: A text is balanced if its tokens are.
-/

namespace Abacus

section Counting

variable {α β : Type} [BEq α] [BEq β]

/-- No part of the list from its start closes more than it opens. -/
def NeverOverclosed (opening closing : α) (xs : List α) : Prop :=
  ∀ before, before <+: xs → before.count closing ≤ before.count opening

/-- Whatever opens is closed behind, and nothing else is closed. -/
structure Balanced (opening closing : α) (xs : List α) : Prop where
  /-- Nothing is closed before it was opened. -/
  neverOverclosed : NeverOverclosed opening closing xs
  /-- As much is closed as was opened. -/
  total : xs.count closing = xs.count opening

instance (opening closing : α) (xs : List α) : Decidable (NeverOverclosed opening closing xs) :=
  decidable_of_iff (∀ before ∈ xs.inits, before.count closing ≤ before.count opening) <| by
    simp only [List.mem_inits, NeverOverclosed]

instance (opening closing : α) (xs : List α) : Decidable (Balanced opening closing xs) :=
  decidable_of_iff
    (NeverOverclosed opening closing xs ∧ xs.count closing = xs.count opening)
    ⟨fun h => ⟨h.1, h.2⟩, fun h => ⟨h.1, h.2⟩⟩

variable [LawfulBEq α] [LawfulBEq β] {f : α → Option β}

/-- What only one item becomes is there as often as the item was. -/
theorem count_filterMap_eq {a : α} {b : β} (h : ∀ x, f x = some b ↔ x = a) (xs : List α) :
    (xs.filterMap f).count b = xs.count a := by
  rw [List.count_filterMap, List.count_eq_countP]
  congr 1
  funext x
  rw [Bool.eq_iff_iff, beq_iff_eq, beq_iff_eq]
  exact h x

/-- A list stays balanced, or not, when other items than what opens and what
    closes are changed or left out. -/
theorem balanced_filterMap {opening closing : α} {opening' closing' : β}
    (hopen : ∀ x, f x = some opening' ↔ x = opening)
    (hclose : ∀ x, f x = some closing' ↔ x = closing) (xs : List α) :
    Balanced opening' closing' (xs.filterMap f) ↔ Balanced opening closing xs := by
  constructor
  · intro h
    refine ⟨fun before hpre => ?_, ?_⟩
    · have hle := h.neverOverclosed _ (List.prefix_filterMap_iff.mpr ⟨before, hpre, rfl⟩)
      rwa [count_filterMap_eq hopen, count_filterMap_eq hclose] at hle
    · have heq := h.total
      rwa [count_filterMap_eq hopen, count_filterMap_eq hclose] at heq
  · intro h
    refine ⟨fun before hpre => ?_, ?_⟩
    · rcases List.prefix_filterMap_iff.mp hpre with ⟨ys, hys, rfl⟩
      rw [count_filterMap_eq hopen, count_filterMap_eq hclose]
      exact h.neverOverclosed ys hys
    · rw [count_filterMap_eq hopen, count_filterMap_eq hclose]
      exact h.total

end Counting

/-- The character of the parenthesis that a token is, if it is one. -/
def Token.paren? : Token → Option Char
  | openParen => some '('
  | closeParen => some ')'
  | _ => none

/-- The parenthesis that a character is, if it is one. -/
def paren? (c : Char) : Option Char :=
  if c = '(' ∨ c = ')' then some c else none

theorem paren?_eq_none {c : Char} (hopen : c ≠ '(') (hclose : c ≠ ')') : paren? c = none := by
  rw [paren?, if_neg]
  rintro (h | h)
  · exact hopen h
  · exact hclose h

theorem paren?_eq_some_iff (c d : Char) (hd : d = '(' ∨ d = ')') : paren? c = some d ↔ c = d := by
  constructor
  · intro h
    rw [paren?] at h
    split at h
    · exact Option.some.inj h
    · exact nomatch h
  · rintro rfl
    rw [paren?, if_pos hd]

/-- A numeral has no parenthesis in it. -/
theorem parens_of_isNumeral {cs : List Char} (h : IsNumeral cs) : cs.filterMap paren? = [] := by
  rw [List.filterMap_eq_nil_iff]
  intro c hc
  have hnot (d : Char) (hdigit : d.isDigit = false) (hpoint : d ≠ '.') : c ≠ d := by
    rintro rfl
    exact not_isNumeral_of_mem hc hdigit hpoint h
  exact paren?_eq_none (hnot _ (by decide) (by decide)) (hnot _ (by decide) (by decide))

namespace Token

/-- A lexeme has a parenthesis in its spelling only if it is one. -/
theorem parens_of_spells {l : Lexeme} {cs : List Char} (h : l.Spells cs) (atSign : Bool) :
    [ofLexeme atSign l].filterMap paren? = cs.filterMap Abacus.paren? := by
  cases h with
  | number h => exact (parens_of_isNumeral h).symm
  | _ => rfl

theorem parens_ofLexemes {text : List Char} {ls : List Lexeme} (h : Segments text ls) :
    ∀ atSign : Bool,
      (ofLexemes atSign ls).filterMap paren? = text.filterMap Abacus.paren? := by
  induction h with
  | done => exact fun _ => rfl
  | @blank c rest ls hc h ih =>
    intro atSign
    have hnone : Abacus.paren? c = none := by
      refine paren?_eq_none ?_ ?_
      · rintro rfl
        exact absurd hc (by decide)
      · rintro rfl
        exact absurd hc (by decide)
    rw [ih, List.filterMap_cons_none hnone]
  | @lexeme l cs rest ls hs hmax h ih =>
    -- The sign rule only changes what a `+` or `-` becomes.
    intro atSign
    rw [List.filterMap_append, ← parens_of_spells hs atSign, ← ih (ofLexeme atSign l).opensSign,
      ← List.filterMap_append]
    rfl

theorem parens_insertMul (ts : List Token) :
    (insertMul ts).filterMap paren? = ts.filterMap paren? := by
  fun_induction insertMul ts with
  | case1 => rfl
  | case2 t => rfl
  | case3 t u rest hab ih =>
    rw [List.filterMap_cons, List.filterMap_cons_none (show times.paren? = none from rfl), ih,
      ← List.filterMap_cons]
  | case4 t u rest hab ih => rw [List.filterMap_cons, ih, ← List.filterMap_cons]

end Token

/-- The parentheses of a text are those of its tokens, in their order. -/
theorem parens_of_tokenize {text : List Char} {implicitMul : Bool} {ts : List Token}
    (h : tokenize text implicitMul = .ok ts) :
    ts.filterMap Token.paren? = text.filterMap paren? := by
  rcases tokenize_eq_ok_iff.mp h with ⟨ls, hscan, rfl⟩
  have hparens := Token.parens_ofLexemes (Lexeme.segments_of_scan hscan) true
  cases implicitMul with
  | true => exact (Token.parens_insertMul _).trans hparens
  | false => exact hparens

/-- A text is balanced if and only if its tokens are. -/
theorem balanced_iff_of_tokenize {text : List Char} {implicitMul : Bool} {ts : List Token}
    (h : tokenize text implicitMul = .ok ts) :
    Balanced '(' ')' text ↔ Balanced Token.openParen Token.closeParen ts := by
  have htext := balanced_filterMap (fun c => paren?_eq_some_iff c '(' (Or.inl rfl))
    (fun c => paren?_eq_some_iff c ')' (Or.inr rfl)) text
  have htokens : Balanced '(' ')' (ts.filterMap Token.paren?) ↔
      Balanced Token.openParen Token.closeParen ts :=
    balanced_filterMap (fun t => by cases t <;> simp [Token.paren?])
      (fun t => by cases t <;> simp [Token.paren?]) ts
  rw [← htext, ← htokens, parens_of_tokenize h]

end Abacus
