import Abacus.Lexeme

/-!
# Spellings of Lexemes

What each lexeme looks like in a text, said without reading: a numeral is
whatever has the form of one, and every other lexeme has a fixed spelling.
Two spellings, `e` and `E`, are of one lexeme, and two lexemes, `*` and `**`,
begin alike.

Because of such beginnings a text is not split by spellings alone. A split
takes at every place the longest lexeme there, and it passes over the blanks
between lexemes one at a time.

## Main definitions

* `IsNumeral`: The characters have the form of a numeral.
* `Lexeme.Spells`: The characters are a spelling of the lexeme.
* `Lexeme.Longest`: No lexeme at the front of a text is longer.
* `Segments`: A text splits into blanks and longest lexemes.

## Theorems

* `IsNumeral.ne_nil`: A numeral has at least one character.
* `Lexeme.Spells.length_eq`: A lexeme is as wide as each of its spellings.
* `Lexeme.Spells.ne_nil`: No spelling is empty.
* `Segments.length_le`: There are at most as many lexemes as characters.
-/

namespace Abacus

/-- The characters are digits with at most one point, and at least one digit
    is among them. -/
inductive IsNumeral : List Char → Prop where
  | whole {ds : List Char} (hne : ds ≠ []) (hd : ∀ d ∈ ds, d.isDigit = true) : IsNumeral ds
  | pointed {ds fs : List Char} (hne : ds ≠ [] ∨ fs ≠ []) (hd : ∀ d ∈ ds, d.isDigit = true)
    (hf : ∀ f ∈ fs, f.isDigit = true) : IsNumeral (ds ++ '.' :: fs)

theorem IsNumeral.ne_nil {cs : List Char} (h : IsNumeral cs) : cs ≠ [] := by
  rcases h with ⟨hne, _⟩ | ⟨_, _, _⟩
  · exact hne
  · exact List.append_ne_nil_of_right_ne_nil _ (List.cons_ne_nil _ _)

namespace Lexeme

/-- The characters are a spelling of the lexeme. -/
inductive Spells : Lexeme → List Char → Prop where
  | number {cs : List Char} (h : IsNumeral cs) : Spells (.number cs) cs
  | lowerE : Spells .e ['e']
  | upperE : Spells .e ['E']
  | pi : Spells .pi ['p', 'i']
  | plus : Spells .plus ['+']
  | minus : Spells .minus ['-']
  | star : Spells .star ['*']
  | starStar : Spells .starStar ['*', '*']
  | slash : Spells .slash ['/']
  | openParen : Spells .openParen ['(']
  | closeParen : Spells .closeParen [')']

/-- No lexeme that starts where the text does is longer than the given number
    of characters. -/
def Longest (length : Nat) (text : List Char) : Prop :=
  ∀ (l : Lexeme) (cs : List Char), Spells l cs → cs <+: text → cs.length ≤ length

theorem Spells.length_eq {l : Lexeme} {cs : List Char} (h : Spells l cs) :
    cs.length = l.width := by
  cases h <;> rfl

theorem Spells.ne_nil {l : Lexeme} {cs : List Char} (h : Spells l cs) : cs ≠ [] := by
  cases h with
  | number h => exact h.ne_nil
  | _ => exact List.cons_ne_nil _ _

end Lexeme

/-- The text splits from left to right into blanks and longest lexemes, and
    these are its lexemes in their order. -/
inductive Segments : List Char → List Lexeme → Prop where
  | done : Segments [] []
  | blank {c : Char} {rest : List Char} {ls : List Lexeme} (hc : isBlank c = true)
    (h : Segments rest ls) : Segments (c :: rest) ls
  | lexeme {l : Lexeme} {cs rest : List Char} {ls : List Lexeme} (hs : l.Spells cs)
    (hmax : Lexeme.Longest cs.length (cs ++ rest)) (h : Segments rest ls) :
    Segments (cs ++ rest) (l :: ls)

theorem Segments.length_le {text : List Char} {ls : List Lexeme} (h : Segments text ls) :
    ls.length ≤ text.length := by
  induction h with
  | done => exact Nat.le_refl 0
  | blank hc h ih => exact Nat.le_succ_of_le ih
  | lexeme hs hmax h ih =>
    have hpos := List.length_pos_iff.mpr hs.ne_nil
    simp only [List.length_cons, List.length_append]
    omega

end Abacus
