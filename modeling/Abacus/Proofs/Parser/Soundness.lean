import Abacus.Proofs.Placement
import Abacus.Proofs.Parser.Completeness

/-!
# Parsed Tokens Are Expressions

The other direction of the parser's specification. A parser that only counts
operands cannot tell where they stood, so a tree is no proof by itself that
the tokens were an expression. It is one where the expression goes on after
every operand: there the operands cannot add up to one unless every token is
placed, and tokens that are placed derive a tree. That tree is the parsed one,
because the parser finds every tree that is derived.

Multiplications that are implied put a list of tokens into this state, whatever
text it was read from. So with them the parser accepts the grammar and nothing
else.

## Theorems

* `derives_of_parse`: Where the expression goes on after every operand, the
  parser finds derived trees only.
* `parse_iff_derives`: The tokens of a text with its implied multiplications
  are parsed exactly into what they derive.
-/

namespace Abacus

/-- Where the expression goes on after every operand, a tree that the parser
    finds is derived. -/
theorem derives_of_parse {ts : List Token} {t : Expr} (hgo : Continued ts)
    (h : parse ts = .ok t) : Derives .sum ts t := by
  have hplaced : Placed true 0 ts :=
    placed_of_counts hgo (fun hdue => nomatch hdue) (nested_of_parse h) (surplus_of_parse h)
  rcases exists_derives_of_placed hplaced with ⟨u, hu⟩
  have htu : t = u := Except.ok.inj (h.symm.trans (parse_of_derives hu))
  rw [htu]
  exact hu

/-- What does not derive any tree is refused there. -/
theorem exists_error_of_not_derives {ts : List Token} (hgo : Continued ts)
    (h : ¬ ∃ t, Derives .sum ts t) : ∃ e, parse ts = .error e := by
  cases hparse : parse ts with
  | error e => exact ⟨e, rfl⟩
  | ok t => exact absurd ⟨t, derives_of_parse hgo hparse⟩ h

/-- The tokens of a text, with the multiplications that it implies, are parsed
    into a tree exactly if they derive it. They derive one at most, and if they
    derive none there is an error. -/
theorem parse_iff_derives {text : List Char} {ts : List Token}
    (h : tokenize text true = .ok ts) :
    (∀ t, parse ts = .ok t ↔ Derives .sum ts t) ∧
      (∀ t u, Derives .sum ts t → Derives .sum ts u → t = u) ∧
        ((¬ ∃ t, Derives .sum ts t) → ∃ e, parse ts = .error e) := by
  have hgo := continued_of_tokenize h
  refine ⟨fun t => ⟨derives_of_parse hgo, parse_of_derives⟩, ?_, ?_⟩
  · intro t u ht hu
    exact ht.unique hu
  · intro hnone
    exact exists_error_of_not_derives hgo hnone

/-- A text with a sign, an implied multiplication and parentheses. -/
theorem parse_iff_derives_neg_e_pi :
    tokenize "-e(pi)".toList true =
        .ok [.op (.unary .minus), .atom .e, .times, .openParen, .atom .pi, .closeParen] ∧
      Derives .sum [.op (.unary .minus), .atom .e, .times, .openParen, .atom .pi, .closeParen]
        (.binary .mul (.unary .minus (.leaf .e)) (.leaf .pi)) := by
  have htok : tokenize "-e(pi)".toList true =
      .ok [.op (.unary .minus), .atom .e, .times, .openParen, .atom .pi, .closeParen] := by
    cbv
  exact ⟨htok, ((parse_iff_derives htok).1 _).mp rfl⟩

end Abacus
