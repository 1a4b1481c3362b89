import Abacus.Proofs.Balance
import Abacus.Proofs.Placement
import Abacus.Proofs.Parser.Conservation
import Abacus.Proofs.Parser.Refusal

/-!
# What an Error Says About the Tokens

How the outcome of a run goes with two things that can be counted without
parsing: the parentheses, and the operands that the operators of two places
do not join.

Several errors may be due in one list of tokens, and the first one that comes
to light is reported. An operator without operands hides a parenthesis without
partner behind it, and the other way round. So most of the statements go from
the error to the tokens, and only one goes back: that there is no operand at
all is reported exactly for parentheses that are balanced, with nothing in
them.

Every part of the tokens that has been read is balanced up to the parentheses
that wait, and in the end none waits unless an error says so. The counts are
those of `Parser.Absorbs`, and the errors those of `Parser.Refusal`.

Where multiplications are implied, the operands cannot add up to more than one.
There a surplus is never reported.

## Main definitions

* `Token.isBinary`: Whether a token is an operator of two places.
* `Parenthesized`: The parentheses among the tokens are balanced.

## Theorems

* `ParseError.eq_of_message`: Messages tell errors apart.
* `Parser.neverOverclosed_of_readAll`, `Parser.parenthesized_iff_of_readAll`:
  The parentheses of what is read.
* `counts_of_parse`, `counts_of_tooManyOperands`: The counts that a tree and
  several operands go with.
* `noOperand_iff`: Only parentheses leave no operand.
* `not_neverOverclosed_of_neverOpened`, `neverOverclosed_of_neverClosed`: A
  parenthesis that is reported has no partner.
* `mem_of_notEnoughOperands`: An operator that is reported is one of the tokens.
* `error_of_not_parenthesized`, `error_of_parenthesized`: The errors that are
  left with and without balanced parentheses.
* `parse_verdict`: What a tree and each error say about the tokens.
* `no_surplus_of_implied_mul`: The errors that are left where multiplications
  are implied.
-/

namespace Abacus

namespace ParseError

theorem head?_message_tooManyOperands (n : Nat) :
    (tooManyOperands n).message.toList.head? = some 'T' := by
  have hfirst : ("Too much operands in the expression: ").toList.head? = some 'T' := by cbv
  change ("Too much operands in the expression: " ++ toString n ++
    " values are not joined by an operator").toList.head? = some 'T'
  rw [String.toList_append, String.toList_append, List.append_assoc, List.head?_append, hfirst]
  rfl

/-- The message of an error that names no operator and no number is the message
    of that error only. -/
theorem eq_of_message {e e' : ParseError} (h : e.message = e'.message)
    (he' : e' = neverClosed ∨ e' = neverOpened ∨ e' = noOperand) : e = e' := by
  cases e with
  | neverClosed =>
    rcases he' with rfl | rfl | rfl
    · rfl
    · exact absurd h (by decide +kernel)
    · exact absurd h (by decide +kernel)
  | neverOpened =>
    rcases he' with rfl | rfl | rfl
    · exact absurd h (by decide +kernel)
    · rfl
    · exact absurd h (by decide +kernel)
  | noOperand =>
    rcases he' with rfl | rfl | rfl
    · exact absurd h (by decide +kernel)
    · exact absurd h (by decide +kernel)
    · rfl
  | notEnoughOperands op =>
    -- The message is looked at for every operator.
    rcases op with (_ | _) | (_ | _ | _ | _ | _) <;> rcases he' with rfl | rfl | rfl <;>
      exact absurd h (by decide +kernel)
  | tooManyOperands n =>
    -- No other message starts with this letter, whatever the number is.
    have hfirst := head?_message_tooManyOperands n
    rw [h] at hfirst
    rcases he' with rfl | rfl | rfl <;> exact absurd hfirst (by decide +kernel)

end ParseError

/-- Whether a token is an operator of two places. -/
def Token.isBinary : Token → Bool
  | op (.binary _) => true
  | _ => false

/-- The parentheses among the tokens are balanced. -/
abbrev Parenthesized (ts : List Token) : Prop :=
  Balanced Token.openParen Token.closeParen ts

theorem surplus_eq (t : Token) :
    t.surplus =
      ((if t.isAtom then 1 else 0 : Nat) : Int) - (if t.isBinary then 1 else 0 : Nat) := by
  rcases t with a | (s | b) | _ | _ <;> rfl

/-- What tokens add up to is what there are more of atoms than of operators of
    two places. -/
theorem sum_surplus (ts : List Token) :
    (ts.map Token.surplus).sum = (ts.countP Token.isAtom : Int) - ts.countP Token.isBinary := by
  induction ts with
  | nil => rfl
  | cons t ts ih =>
    have hone := surplus_eq t
    rw [List.map_cons, List.sum_cons, ih, List.countP_cons, List.countP_cons]
    omega

namespace Parser

/-- No part of what is read closes more than it opens. -/
theorem neverOverclosed_of_readAll {ts : List Token} {s : State}
    (h : readAll ts .empty = .ok () s) :
    NeverOverclosed Token.openParen Token.closeParen ts := by
  rintro before ⟨after, rfl⟩
  rw [readAll_append] at h
  rcases Outcome.andThen_eq_ok h with ⟨_, mid, hbefore, _⟩
  -- The open parentheses make up the difference, and they are no fewer than none.
  have hopened := opened_of_readAll hbefore
  omega

/-- What is read is balanced if no parenthesis waits. -/
theorem parenthesized_iff_of_readAll {ts : List Token} {s : State}
    (h : readAll ts .empty = .ok () s) : Parenthesized ts ↔ s.opened = 0 := by
  have hopened := opened_of_readAll h
  constructor
  · intro hbal
    have htotal := hbal.total
    omega
  · intro hzero
    exact ⟨neverOverclosed_of_readAll h, by omega⟩

end Parser

/-- Tokens that are parsed are balanced and have one atom more than operators
    of two places. -/
theorem counts_of_parse {ts : List Token} {t : Expr} (h : parse ts = .ok t) :
    Parenthesized ts ∧ ts.countP Token.isAtom = ts.countP Token.isBinary + 1 := by
  have hsum := surplus_of_parse h
  rw [sum_surplus] at hsum
  rcases exists_settle_of_parse h with ⟨s, os, hread, hops, _⟩
  refine ⟨?_, by omega⟩
  exact (Parser.parenthesized_iff_of_readAll hread).mpr (Parser.opened_eq_zero hops)

section Errors

variable {ts : List Token}

theorem counts_of_tooManyOperands {n : Nat} (h : parse ts = .error (.tooManyOperands n)) :
    Parenthesized ts ∧ (n : Int) = ts.countP Token.isAtom - ts.countP Token.isBinary ∧
      2 ≤ n := by
  rcases refusal_of_parse h with ⟨_, href⟩
  cases href with
  | tooManyOperands hread hops hs hlen =>
    rw [← sum_surplus]
    exact ⟨(Parser.parenthesized_iff_of_readAll hread).mpr (Parser.opened_eq_zero hops),
      Parser.length_of_readAll hread hops hs, hlen⟩

/-- Without an operand in the end there has been no atom, and no operator
    either, since it would be in a node or wait. -/
theorem parens_of_noOperand (h : parse ts = .error .noOperand) :
    Parenthesized ts ∧ ∀ t ∈ ts, t = .openParen ∨ t = .closeParen := by
  rcases refusal_of_parse h with ⟨_, href⟩
  cases href with
  | noOperand hread hops hs =>
    have habs := (Parser.absorbs_of_readAll hread).settle
      (hops.trans (List.append_nil _).symm) hs
    have hatoms : ts.filterMap Token.atom? = [] := habs.atoms.symm
    have hoperators : ts.filterMap Token.op? = [] := habs.operators.symm.eq_nil
    refine ⟨(Parser.parenthesized_iff_of_readAll hread).mpr (Parser.opened_eq_zero hops), ?_⟩
    intro t ht
    cases t with
    | atom a => exact nomatch List.filterMap_eq_nil_iff.mp hatoms _ ht
    | op o => exact nomatch List.filterMap_eq_nil_iff.mp hoperators _ ht
    | openParen => exact Or.inl rfl
    | closeParen => exact Or.inr rfl

/-- The part of the tokens that ends with the parenthesis closes more than it
    opens. -/
theorem not_neverOverclosed_of_neverOpened (h : parse ts = .error .neverOpened) :
    ¬ NeverOverclosed Token.openParen Token.closeParen ts := by
  rcases refusal_of_parse h with ⟨_, href⟩
  cases href with
  | @neverOpened before after _ _ _ hts hread hops hs =>
    intro hnever
    -- Before the parenthesis as much was closed as opened, and now once more.
    have hopened := Parser.opened_of_readAll hread
    rw [Parser.opened_eq_zero hops] at hopened
    have hle := hnever (before ++ [.closeParen]) ⟨after, by rw [hts, List.append_assoc]; rfl⟩
    rw [List.count_append, List.count_append] at hle
    change _ + 1 ≤ _ + 0 at hle
    omega

theorem neverOverclosed_of_neverClosed (h : parse ts = .error .neverClosed) :
    NeverOverclosed Token.openParen Token.closeParen ts ∧ ¬ Parenthesized ts := by
  rcases refusal_of_parse h with ⟨_, href⟩
  cases href with
  | neverClosed hread hops hs =>
    -- All tokens were read, and what stops the end of the input is still open.
    refine ⟨Parser.neverOverclosed_of_readAll hread, ?_⟩
    rw [Parser.parenthesized_iff_of_readAll hread, Parser.State.opened, hops,
      Parser.count_openParen_append, List.count_cons_self]
    exact Nat.succ_ne_zero _

/-- The operator without operands is one of the tokens. -/
theorem mem_of_notEnoughOperands {o : Operator}
    (h : parse ts = .error (.notEnoughOperands o)) : .op o ∈ ts := by
  rcases refusal_of_parse h with ⟨_, href⟩
  cases href with
  | @starves before s os _ rest hpre hread hops =>
    -- It was waiting, so it is among the operators that have been read.
    have hmem : o ∈ s.allOperators := by
      rw [Parser.State.allOperators, hops, Parser.op?_map_op]
      exact List.mem_append_right _ (List.mem_append_right _ List.mem_cons_self)
    have hread := (Parser.absorbs_of_readAll hread).operators.mem_iff.mp hmem
    rcases List.mem_filterMap.mp hread with ⟨t, ht, hto⟩
    cases t with
    | op p =>
      rw [← Option.some.inj hto]
      exact hpre.mem ht
    | _ => cases hto

/-- That there is no operand at all is reported for parentheses only. -/
theorem noOperand_iff : parse ts = .error .noOperand ↔
    Parenthesized ts ∧ ∀ t ∈ ts, t = .openParen ∨ t = .closeParen := by
  constructor
  · exact parens_of_noOperand
  · rintro ⟨hbal, hparens⟩
    have hatoms : ts.countP Token.isAtom = 0 := by
      refine List.countP_eq_zero.mpr (fun t ht hatom => ?_)
      rcases hparens t ht with rfl | rfl <;> exact Bool.noConfusion hatom
    -- Every other outcome says something of the tokens that is not so.
    cases hparse : parse ts with
    | ok t =>
      have hcount := (counts_of_parse hparse).2
      omega
    | error e =>
      cases e with
      | neverClosed => exact absurd hbal (neverOverclosed_of_neverClosed hparse).2
      | neverOpened =>
        exact absurd hbal.neverOverclosed (not_neverOverclosed_of_neverOpened hparse)
      | notEnoughOperands o =>
        rcases hparens _ (mem_of_notEnoughOperands hparse) with ho | ho <;> exact nomatch ho
      | noOperand => rfl
      | tooManyOperands n =>
        have hcount := counts_of_tooManyOperands hparse
        omega

/-- Parentheses that are not balanced are reported, or an operator that comes
    to light before them. -/
theorem error_of_not_parenthesized (h : ¬ Parenthesized ts) :
    ∃ e, parse ts = .error e ∧
      (e = .neverOpened ∨ e = .neverClosed ∨ ∃ o, e = .notEnoughOperands o ∧ .op o ∈ ts) := by
  cases hparse : parse ts with
  | ok t => exact absurd (counts_of_parse hparse).1 h
  | error e =>
    refine ⟨e, rfl, ?_⟩
    cases e with
    | neverClosed => exact Or.inr (Or.inl rfl)
    | neverOpened => exact Or.inl rfl
    | notEnoughOperands o =>
      exact Or.inr (Or.inr ⟨o, rfl, mem_of_notEnoughOperands hparse⟩)
    | noOperand => exact absurd (parens_of_noOperand hparse).1 h
    | tooManyOperands n => exact absurd (counts_of_tooManyOperands hparse).1 h

/-- Where the expression goes on after every operand, there are never several
    operands in the end. -/
theorem ne_tooManyOperands_of_continued (h : Continued ts) (n : Nat) :
    parse ts ≠ .error (.tooManyOperands n) := by
  intro hparse
  rcases counts_of_tooManyOperands hparse with ⟨_, hcount, htwo⟩
  -- At the start one operand is due, and the tokens bring no more than that.
  have hle := surplus_le_missing h true (fun hd => nomatch hd)
  rw [sum_surplus] at hle
  change _ ≤ (1 : Int) at hle
  omega

/-- Balanced parentheses leave only errors about operands. -/
theorem error_of_parenthesized {e : ParseError} (hbal : Parenthesized ts)
    (h : parse ts = .error e) :
    e = .noOperand ∨ (∃ o, e = .notEnoughOperands o) ∨ ∃ n, e = .tooManyOperands n := by
  cases e with
  | neverClosed => exact absurd hbal (neverOverclosed_of_neverClosed h).2
  | neverOpened => exact absurd hbal.neverOverclosed (not_neverOverclosed_of_neverOpened h)
  | notEnoughOperands o => exact Or.inr (Or.inl ⟨o, rfl⟩)
  | noOperand => exact Or.inl rfl
  | tooManyOperands n => exact Or.inr (Or.inr ⟨n, rfl⟩)

end Errors

/-- What the outcome says about the parentheses of the tokens, about their
    atoms and about their operators of two places.

    A tree is there only for balanced parentheses and one atom more than
    operators. Too many operands are reported only for balanced parentheses,
    and their number is that of the atoms without the operators. That there is
    no operand is reported if and only if the parentheses are balanced and
    there is nothing else. A parenthesis without partner is reported only if
    there is one: one that closes if some part of the tokens from their start
    closes more than it opens, and one that opens if no part does. And if the
    parentheses are not balanced, either this is reported or one of the
    operators, which has too few operands. -/
theorem parse_verdict (ts : List Token) :
    (∀ t, parse ts = .ok t →
      Parenthesized ts ∧ ts.countP Token.isAtom = ts.countP Token.isBinary + 1) ∧
    (∀ n, parse ts = .error (.tooManyOperands n) →
      Parenthesized ts ∧ (n : Int) = ts.countP Token.isAtom - ts.countP Token.isBinary ∧ 2 ≤ n ∧
      (ParseError.tooManyOperands n).message = "Too much operands in the expression: " ++
        toString n ++ " values are not joined by an operator") ∧
    ((∃ e, parse ts = .error e ∧ e.message = "Not enough operands in the expression") ↔
      Parenthesized ts ∧ ∀ t ∈ ts, t = .openParen ∨ t = .closeParen) ∧
    (∀ e, parse ts = .error e → e = .neverOpened ∨ e = .neverClosed →
      ¬ Parenthesized ts ∧
      (e.message = "Mismatched parenthesis: ')' has no matching '('" →
        ¬ NeverOverclosed Token.openParen Token.closeParen ts) ∧
      (e.message = "Mismatched parenthesis: '(' is never closed" →
        NeverOverclosed Token.openParen Token.closeParen ts)) ∧
    (¬ Parenthesized ts → ∃ e, parse ts = .error e ∧
      (e = .neverOpened ∨ e = .neverClosed ∨
        ∃ o, e = .notEnoughOperands o ∧ .op o ∈ ts)) := by
  refine ⟨fun t => counts_of_parse, fun n h => ?_, ?_, fun e h hkind => ?_,
    error_of_not_parenthesized⟩
  · rcases counts_of_tooManyOperands h with ⟨hbal, hcount, htwo⟩
    exact ⟨hbal, hcount, htwo, rfl⟩
  · -- The message is not that of any other error.
    rw [← noOperand_iff]
    constructor
    · rintro ⟨e, h, hmessage⟩
      have he : e = .noOperand := ParseError.eq_of_message hmessage (Or.inr (Or.inr rfl))
      rwa [he] at h
    · exact fun h => ⟨_, h, rfl⟩
  · rcases hkind with rfl | rfl
    · have hover := not_neverOverclosed_of_neverOpened h
      refine ⟨fun hbal => hover hbal.neverOverclosed, fun _ => hover, fun hmessage => ?_⟩
      have he : ParseError.neverOpened = .neverClosed :=
        ParseError.eq_of_message hmessage (Or.inl rfl)
      exact nomatch he
    · have hnever := neverOverclosed_of_neverClosed h
      refine ⟨hnever.2, fun hmessage => ?_, fun _ => hnever.1⟩
      have he : ParseError.neverClosed = .neverOpened :=
        ParseError.eq_of_message hmessage (Or.inr (Or.inl rfl))
      exact nomatch he

/-- All of this happens: `( e )` is a tree, `( e pi )` leaves two operands and
    `( )` leaves none, `e )` and `( e` have a parenthesis without partner, and in
    `* )` the operator comes to light before the parenthesis. -/
theorem parse_verdict_each_outcome :
    (parse [.openParen, .atom .e, .closeParen] = .ok (.leaf .e) ∧
      Parenthesized [.openParen, .atom .e, .closeParen]) ∧
    (parse [.openParen, .atom .e, .atom .pi, .closeParen] = .error (.tooManyOperands 2) ∧
      Parenthesized [.openParen, .atom .e, .atom .pi, .closeParen]) ∧
    (∃ e, parse [.openParen, .closeParen] = .error e ∧
      e.message = "Not enough operands in the expression") ∧
    (parse [.atom .e, .closeParen] = .error .neverOpened ∧
      ¬ NeverOverclosed Token.openParen Token.closeParen [.atom .e, .closeParen]) ∧
    (parse [.openParen, .atom .e] = .error .neverClosed ∧
      NeverOverclosed Token.openParen Token.closeParen [.openParen, .atom .e]) ∧
    (∃ e, parse [.op (.binary .mul), .closeParen] = .error e ∧
      (e = .neverOpened ∨ e = .neverClosed ∨
        ∃ o, e = .notEnoughOperands o ∧ .op o ∈ [Token.op (.binary .mul), .closeParen])) := by
  refine ⟨⟨rfl, ?_⟩, ⟨rfl, ?_⟩, ?_, ⟨rfl, ?_⟩, ⟨rfl, ?_⟩, ?_⟩
  · exact ((parse_verdict [.openParen, .atom .e, .closeParen]).1 _ rfl).1
  · exact ((parse_verdict [.openParen, .atom .e, .atom .pi, .closeParen]).2.1 2 rfl).1
  · exact (parse_verdict [.openParen, .closeParen]).2.2.1.mpr (by decide)
  · exact ((parse_verdict [.atom .e, .closeParen]).2.2.2.1 _ rfl (Or.inl rfl)).2.1 rfl
  · exact ((parse_verdict [.openParen, .atom .e]).2.2.2.1 _ rfl (Or.inr rfl)).2.2 rfl
  · exact (parse_verdict [.op (.binary .mul), .closeParen]).2.2.2.2 (by decide)

/-- Where multiplications are implied, too many operands are never reported.
    If moreover the parentheses of the text are balanced, the error is that
    operands are missing. -/
theorem no_surplus_of_implied_mul {text : List Char} {ts : List Token}
    (h : tokenize text true = .ok ts) :
    (∀ n, parse ts ≠ .error (.tooManyOperands n)) ∧
    (Balanced '(' ')' text → ∀ e, parse ts = .error e →
      e = .noOperand ∨ ∃ o, e = .notEnoughOperands o) := by
  have hnone := ne_tooManyOperands_of_continued (continued_of_tokenize h)
  refine ⟨hnone, fun hbal e he => ?_⟩
  rcases error_of_parenthesized ((balanced_iff_of_tokenize h).mp hbal) he with
    hno | hfew | ⟨n, rfl⟩
  · exact Or.inl hno
  · exact Or.inr hfew
  · exact absurd he (hnone n)

/-- Between `e` and the parenthesis there is a multiplication, so what is
    missing is an operand of the last operator. -/
theorem no_surplus_of_e_parens_times :
    tokenize "e(pi)*".toList true = .ok [.atom .e, .times, .openParen, .atom .pi, .closeParen,
      .times] ∧
    (∀ n, parse [.atom .e, .times, .openParen, .atom .pi, .closeParen, .times] ≠
      .error (.tooManyOperands n)) ∧
    ((.notEnoughOperands (.binary .mul) : ParseError) = .noOperand ∨
      ∃ o, (.notEnoughOperands (.binary .mul) : ParseError) = .notEnoughOperands o) := by
  have htokens : tokenize "e(pi)*".toList true = .ok [.atom .e, .times, .openParen, .atom .pi,
      .closeParen, .times] := by cbv
  have hnone := no_surplus_of_implied_mul htokens
  exact ⟨htokens, hnone.1, hnone.2 (by decide) _ rfl⟩

end Abacus
