import Abacus.Parser.Call
import Abacus.Proofs.Parser.Refusal

/-!
# What a Call Leaves Behind

A call can fail in the middle of its work, with some operators settled and one
of two operands already taken. Yet what it leaves on the stacks can be told
from the error. An operator that finds too few operands has taken the last one
there was, so no operand is left. Where a parenthesis has no partner, the search
for it has gone through the stack of operators, down to the bottom or to the
open parenthesis that was not to be there. And several operands can only be
reported when nothing waits any more, so they are what is left.

The stacks may hold anything before the call. What a run over tokens of its own
can end in is known from its refusals, and the other calls come down to the same
loops.

## Main definitions

* `Parser.IsBelowOpen`: What waits below the topmost open parenthesis.

## Theorems

* `Parser.fail_of_call`: A call fails by a refusal of its tokens, by an operator
  without operands or by a parenthesis without partner.
* `Parser.Refusal.output_eq_nil`: Where operands are missing none is left.
* `Parser.remains_of_call`: What is left after each error, after a tree and
  after a parenthesis that was closed.
-/

namespace Abacus

namespace Parser

/-- The part of a stack below its topmost open parenthesis. Above that only
    operators wait. -/
def IsBelowOpen (ops below : List Pending) : Prop :=
  ∃ os : List Operator, ops = os.map .op ++ .openParen :: below

/-- How a call can fail, and what it then leaves. -/
theorem fail_of_call {tokens : List Token} {c : Call} {s left : State} {e : ParseError}
    (h : call tokens c s = .fail e left) :
    (c = .parse ∧ Refusal tokens s e left) ∨
      ((∃ o, e = .notEnoughOperands o) ∧ left.output = []) ∨
        (c = .closeParen ∧ e = .neverOpened ∧ left.operators = []) := by
  have hstarves {ops : List Pending} (hst : Starves ops e left) :
      (∃ o, e = .notEnoughOperands o) ∧ left.output = [] := by
    rcases hst with ⟨_, o, _, _, rfl, rfl⟩
    exact ⟨⟨o, rfl⟩, rfl⟩
  -- By the loop that each call comes down to; the answer to it cannot fail.
  cases c with
  | parse =>
    rcases Outcome.andThen_eq_fail h with hrun | ⟨t, mid, _, hok⟩
    · exact Or.inl ⟨rfl, refusal_of_run hrun⟩
    · cases hok
  | pushOp op =>
    rcases Outcome.andThen_eq_fail h with hpush | ⟨_, mid, _, hok⟩
    · exact Or.inr (Or.inl (hstarves (starves_of_pushOp hpush)))
    · cases hok
  | applyOp op =>
    rcases happly : applyOp op s.output with ⟨⟨e'⟩ | ⟨⟨⟩⟩, out⟩
    · rcases fail_of_applyOp happly with ⟨rfl, rfl⟩
      simp only [call, happly] at h
      cases h
      exact Or.inr (Or.inl ⟨⟨op, rfl⟩, rfl⟩)
    · simp only [call, happly] at h
      cases h
  | closeParen =>
    rcases Outcome.andThen_eq_fail h with hclose | ⟨_, mid, _, hok⟩
    · rcases fail_of_closeParen hclose with hst | ⟨os, out, _, _, rfl, rfl⟩
      · exact Or.inr (Or.inl (hstarves hst))
      · exact Or.inr (Or.inr ⟨rfl, rfl, rfl⟩)
    · cases hok
  | popOperand op =>
    -- An operand is there unless the stack is empty.
    rcases s with ⟨_ | ⟨x, out⟩, ops⟩
    · cases h
      exact Or.inr (Or.inl ⟨⟨op, rfl⟩, rfl⟩)
    · cases h
  | shouldPop top incoming => cases h
  | openParen => cases h
  | pushAtom a => cases h

theorem tree_of_call {tokens : List Token} {s left : State} {r : Reply}
    (h : call tokens .parse s = .ok r left) : ∃ t, r = .tree t ∧ left = ⟨[t], []⟩ := by
  rcases Outcome.andThen_eq_ok h with ⟨t, mid, hrun, hok⟩
  rcases exists_settle_of_run hrun with ⟨_, _, _, _, _, rfl⟩
  cases hok
  exact ⟨t, rfl, rfl⟩

/-- The parenthesis that is closed is the topmost one. -/
theorem isBelowOpen_of_call {tokens : List Token} {s left : State} {r : Reply}
    (h : call tokens .closeParen s = .ok r left) : IsBelowOpen s.operators left.operators := by
  rcases Outcome.andThen_eq_ok h with ⟨_, mid, hclose, hok⟩
  rcases exists_settle_of_closeParen hclose with ⟨os, ops, out, hops, _, rfl⟩
  cases hok
  exact ⟨os, hops⟩

namespace Refusal

variable {ts : List Token} {s left : State} {e : ParseError}

theorem output_eq_nil (h : Refusal ts s e left)
    (he : e = .noOperand ∨ ∃ o, e = .notEnoughOperands o) : left.output = [] := by
  cases h with
  | starves _ _ _ => rfl
  | noOperand _ _ _ => rfl
  | neverOpened | neverClosed | tooManyOperands => rcases he with he | ⟨o, he⟩ <;> cases he

theorem operators_eq_nil (h : Refusal ts s e left) (he : e = .neverOpened) :
    left.operators = [] := by
  cases h with
  | neverOpened _ _ _ _ => rfl
  | _ => cases he

theorem length_output {n : Nat} (h : Refusal ts s (.tooManyOperands n) left) :
    left.operators = [] ∧ left.output.length = n := by
  cases h with
  | tooManyOperands _ _ _ _ => exact ⟨rfl, rfl⟩

theorem isBelowOpen (h : Refusal ts s .neverClosed left) :
    ∃ last, readAll ts s = .ok () last ∧ IsBelowOpen last.operators left.operators := by
  cases h with
  | @neverClosed last os _ _ hread hops _ => exact ⟨last, hread, os, hops⟩

end Refusal

/-- What is left on the stacks after a call, whatever was there before.

    If operands are missing, none is left. If a parenthesis closes that was not
    opened, no operator waits any more. Only reading all tokens can end in the
    other two errors: if several operands are left no operator waits, and the
    message has their number; if a parenthesis is open at the end, what waited
    below the topmost one then still does. A tree that is found is all that is
    left. A parenthesis that is closed is the topmost one, and what waited below
    it still does. -/
theorem remains_of_call (tokens : List Token) (c : Call) (s : State) :
    (∀ e left, call tokens c s = .fail e left →
      (e = .noOperand ∨ (∃ o, e = .notEnoughOperands o) → left.output = []) ∧
      (e = .neverOpened → left.operators = []) ∧
      (∀ n, e = .tooManyOperands n →
        c = .parse ∧ left.operators = [] ∧ left.output.length = n ∧
        e.message = "Too much operands in the expression: " ++ toString left.output.length ++
          " values are not joined by an operator") ∧
      (e = .neverClosed → c = .parse ∧
        ∃ last, readAll tokens s = .ok () last ∧ IsBelowOpen last.operators left.operators)) ∧
    (∀ r left, c = .parse → call tokens c s = .ok r left →
      ∃ t, r = .tree t ∧ left = ⟨[t], []⟩) ∧
    (∀ r left, c = .closeParen → call tokens c s = .ok r left →
      IsBelowOpen s.operators left.operators) := by
  refine ⟨fun e left h => ?_, ?_, ?_⟩
  · rcases fail_of_call h with ⟨rfl, href⟩ | ⟨⟨o, rfl⟩, hout⟩ | ⟨rfl, rfl, hops⟩
    -- Only reading all tokens can end in each of the errors.
    · refine ⟨href.output_eq_nil, href.operators_eq_nil, ?_, ?_⟩
      · rintro n rfl
        rcases href.length_output with ⟨hops, rfl⟩
        exact ⟨rfl, hops, rfl, rfl⟩
      · rintro rfl
        exact ⟨rfl, href.isBelowOpen⟩
    · exact ⟨fun _ => hout, nofun, nofun, nofun⟩
    · refine ⟨?_, fun _ => hops, nofun, nofun⟩
      rintro (he | ⟨o, he⟩) <;> exact nomatch he
  · rintro r left rfl h
    exact tree_of_call h
  · rintro r left rfl h
    exact isBelowOpen_of_call h

/-- Each of these happens. With `e` alone before it a multiplication that settles
    takes the `e` and fails, also while a parenthesis is closed, and the
    parentheses of `( e * ( pi` are closed from the top. -/
theorem remains_of_call_each :
    let mul : Pending := .op (.binary .mul)
    let product : Expr := .binary .mul (.leaf .e) (.leaf .pi)
    let s : State := ⟨[.leaf .e], [mul]⟩
    let t : State := ⟨[.leaf .pi, .leaf .e], [.openParen, mul, .openParen]⟩
    (call [.closeParen] .parse s = .fail (.notEnoughOperands (.binary .mul)) .empty ∧
      State.empty.output = []) ∧
    (call [] .closeParen ⟨[product], []⟩ = .fail .neverOpened ⟨[product], []⟩ ∧
      (State.mk [product] []).operators = []) ∧
    (call [.atom .pi] .parse ⟨[product], []⟩ =
        .fail (.tooManyOperands 2) ⟨[.leaf .pi, product], []⟩ ∧
      (State.mk [.leaf .pi, product] []).output.length = 2) ∧
    (call [.closeParen] .parse t = .fail .neverClosed ⟨[product], []⟩ ∧
      ∃ last, readAll [.closeParen] t = .ok () last ∧ IsBelowOpen last.operators []) ∧
    (call [.atom .pi] .parse s = .ok (.tree product) ⟨[product], []⟩ ∧
      ∃ u, Reply.tree product = .tree u ∧ State.mk [product] [] = ⟨[u], []⟩) ∧
    (call [] .closeParen t = .ok .done ⟨[.leaf .pi, .leaf .e], [mul, .openParen]⟩ ∧
      IsBelowOpen t.operators [mul, .openParen]) := by
  intro mul product s t
  refine ⟨⟨rfl, ?_⟩, ⟨rfl, ?_⟩, ⟨rfl, ?_⟩, ⟨rfl, ?_⟩, ⟨rfl, ?_⟩, ⟨rfl, ?_⟩⟩
  · exact ((remains_of_call [.closeParen] .parse s).1 _ _ rfl).1 (Or.inr ⟨_, rfl⟩)
  · exact ((remains_of_call [] .closeParen ⟨[product], []⟩).1 _ _ rfl).2.1 rfl
  · exact (((remains_of_call [.atom .pi] .parse ⟨[product], []⟩).1 _ _ rfl).2.2.1 2 rfl).2.2.1
  · exact (((remains_of_call [.closeParen] .parse t).1 _ _ rfl).2.2.2 rfl).2
  · exact (remains_of_call [.atom .pi] .parse s).2.1 _ _ rfl rfl
  · exact (remains_of_call [] .closeParen t).2.2 _ _ rfl rfl

end Parser

end Abacus
