import Mathlib.Algebra.Ring.Int.Defs
import Abacus.Proofs.Parser.Settling

/-!
# Counting Operands and Parentheses

What a successful run says about the tokens when only two things are counted:
the operands that an operator of two places has not yet joined, and the
parentheses that are open. An atom adds an operand, an operator of two places
takes one away, whether it has been settled or still waits, and a sign changes
nothing. So both counts can be read off the tokens alone.

In the end one operand is left and no parenthesis is open. This is all that
the parser checks of the tokens, apart from the operands that are missing at
the moment an operator settles.

## Main definitions

* `Operator.surplus`, `Token.surplus`: What an occurrence adds to the operands.
* `Nested`: The parentheses close what is open and nothing else.
* `Parser.State.surplus`: The operands that would be left after settling.
* `Parser.State.opened`: The parentheses that are open.

## Theorems

* `length_of_settle`: Settling changes the number of operands by what the
  operators add.
* `surplus_of_readAll`: What is read adds up.
* `nested_of_readAll`: The parentheses of what is read are nested.
* `length_of_readAll`: The operands that are left at the end.
* `surplus_of_parse`, `nested_of_parse`: The counts of tokens that are parsed.
-/

namespace Abacus

/-- What an operator adds to the number of operands. -/
def Operator.surplus : Operator → Int
  | unary _ => 0
  | binary _ => -1

/-- What a token adds to the number of operands. -/
def Token.surplus : Token → Int
  | atom _ => 1
  | op o => o.surplus
  | openParen => 0
  | closeParen => 0

/-- With `depth` parentheses open, the tokens close those and their own. -/
def Nested (depth : Nat) : List Token → Prop
  | [] => depth = 0
  | .openParen :: ts => Nested (depth + 1) ts
  | .closeParen :: ts => 0 < depth ∧ Nested (depth - 1) ts
  | .atom _ :: ts => Nested depth ts
  | .op _ :: ts => Nested depth ts

/-- What waits adds to the number of operands once it has settled. -/
def Pending.surplus : Pending → Int
  | op o => o.surplus
  | openParen => 0

namespace Parser

/-- The operands that would be left if everything that waits had settled. -/
def State.surplus (s : State) : Int :=
  s.output.length + (s.operators.map Pending.surplus).sum

/-- The parentheses that are open. -/
def State.opened (s : State) : Nat :=
  s.operators.count .openParen

theorem length_of_applyOp {o : Operator} {out out' : List Expr}
    (h : applyOp o out = .ok () out') : (out'.length : Int) = out.length + o.surplus := by
  cases applies_of_applyOp h with
  | unary sg x rest => simp only [List.length_cons, Operator.surplus, Int.add_zero]
  | binary b r l rest =>
    simp only [List.length_cons, Operator.surplus]
    omega

theorem length_of_settle {os : List Operator} :
    ∀ {out out' : List Expr}, settle os out = .ok () out' →
      (out'.length : Int) = out.length + (os.map Operator.surplus).sum := by
  induction os with
  | nil =>
    intro out out' h
    cases h
    simp only [List.map_nil, List.sum_nil, Int.add_zero]
  | cons o os ih =>
    intro out out' h
    rcases settle_cons_ok h with ⟨mid, hmid, hrest⟩
    have hone := length_of_applyOp hmid
    have hmore := ih hrest
    simp only [List.map_cons, List.sum_cons]
    omega

theorem surplus_append (os : List Operator) (ops : List Pending) :
    ((os.map Pending.op ++ ops).map Pending.surplus).sum =
      (os.map Operator.surplus).sum + (ops.map Pending.surplus).sum := by
  rw [List.map_append, List.sum_append, List.map_map]
  rfl

theorem count_openParen_append (os : List Operator) (ops : List Pending) :
    (os.map Pending.op ++ ops).count .openParen = ops.count .openParen := by
  have hzero : (os.map Pending.op).count .openParen = 0 := by
    refine List.count_eq_zero.mpr (fun hmem => ?_)
    rcases List.mem_map.mp hmem with ⟨o, _, ho⟩
    exact nomatch ho
  rw [List.count_append, hzero, Nat.zero_add]

/-- Where only operators wait no parenthesis is open. -/
theorem opened_eq_zero {s : State} {os : List Operator} (hops : s.operators = os.map .op) :
    s.opened = 0 := by
  have hzero := count_openParen_append os []
  rw [List.append_nil, ← hops] at hzero
  exact hzero

/-- One token that is read adds what it says, and opens or closes what it
    says. -/
theorem counts_of_readToken {t : Token} {s s' : State} (h : readToken t s = .ok () s') :
    s'.surplus = s.surplus + t.surplus ∧
      (∀ ts, Nested s'.opened ts → Nested s.opened (t :: ts)) := by
  rcases s with ⟨output, operators⟩
  cases t with
  | atom a =>
    cases h
    refine ⟨?_, fun ts hts => hts⟩
    simp only [State.surplus, Token.surplus, List.length_cons]
    omega
  | openParen =>
    cases h
    refine ⟨?_, fun ts hts => ?_⟩
    · simp only [State.surplus, Token.surplus, List.map_cons, List.sum_cons, Pending.surplus]
      omega
    · rw [State.opened, List.count_cons_self] at hts
      exact hts
  | op o =>
    -- What settles was counted while it waited.
    rcases exists_settle_of_pushOp h with ⟨os, ops', out', rfl, _, _, hs, rfl⟩
    have hlen : (out'.length : Int) = output.length + _ := length_of_settle hs
    refine ⟨?_, fun ts hts => ?_⟩
    · simp only [State.surplus, Token.surplus, surplus_append, List.map_cons, List.sum_cons,
        Pending.surplus]
      omega
    · have hne : Pending.op o ≠ .openParen := fun hc => nomatch hc
      rw [State.opened, List.count_cons_of_ne hne] at hts
      rw [State.opened, count_openParen_append]
      exact hts
  | closeParen =>
    rcases exists_settle_of_closeParen h with ⟨os, ops', out', rfl, hs, rfl⟩
    have hlen : (out'.length : Int) = output.length + _ := length_of_settle hs
    refine ⟨?_, fun ts hts => ?_⟩
    · simp only [State.surplus, Token.surplus, surplus_append, List.map_cons, List.sum_cons,
        Pending.surplus]
      omega
    · rw [State.opened, count_openParen_append, List.count_cons_self]
      exact ⟨Nat.zero_lt_succ _, hts⟩

theorem surplus_of_readAll {ts : List Token} :
    ∀ {s s' : State}, readAll ts s = .ok () s' →
      s'.surplus = s.surplus + (ts.map Token.surplus).sum := by
  induction ts with
  | nil =>
    intro s s' h
    cases h
    simp only [List.map_nil, List.sum_nil, Int.add_zero]
  | cons t ts ih =>
    intro s s' h
    rcases Outcome.andThen_eq_ok h with ⟨_, mid, ht, hts⟩
    have hone := (counts_of_readToken ht).1
    have hmore := ih hts
    simp only [List.map_cons, List.sum_cons]
    omega

theorem nested_of_readAll {ts : List Token} :
    ∀ {s s' : State}, readAll ts s = .ok () s' → s'.opened = 0 → Nested s.opened ts := by
  induction ts with
  | nil =>
    intro s s' h hzero
    cases h
    exact hzero
  | cons t ts ih =>
    intro s s' h hzero
    rcases Outcome.andThen_eq_ok h with ⟨_, mid, ht, hts⟩
    exact (counts_of_readToken ht).2 ts (ih hts hzero)

/-- Settling what waits at the end leaves as many operands as the tokens add
    up to. -/
theorem length_of_readAll {ts : List Token} {s : State} {os : List Operator}
    {out : List Expr} (hread : readAll ts .empty = .ok () s) (hops : s.operators = os.map .op)
    (hs : settle os s.output = .ok () out) : (out.length : Int) = (ts.map Token.surplus).sum := by
  have hlen := length_of_settle hs
  have hsum := surplus_of_readAll hread
  have hmap := surplus_append os []
  rw [List.append_nil, ← hops] at hmap
  simp only [State.surplus, State.empty, List.length_nil, List.map_nil, List.sum_nil] at hsum hmap
  omega

end Parser

/-- Tokens that are parsed have one atom more than operators of two places. -/
theorem surplus_of_parse {ts : List Token} {t : Expr} (h : parse ts = .ok t) :
    (ts.map Token.surplus).sum = 1 := by
  rcases exists_settle_of_parse h with ⟨mid, os, hread, hops, hs⟩
  exact (Parser.length_of_readAll hread hops hs).symm

/-- Tokens that are parsed close every parenthesis that they open. -/
theorem nested_of_parse {ts : List Token} {t : Expr} (h : parse ts = .ok t) : Nested 0 ts := by
  rcases exists_settle_of_parse h with ⟨mid, os, hread, hops, _⟩
  exact Parser.nested_of_readAll hread (Parser.opened_eq_zero hops)

end Abacus
