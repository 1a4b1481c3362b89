import Mathlib.Data.List.Chain
import Abacus.Parser.Call
import Abacus.Proofs.Parser.Refusal

/-!
# What Waiting Operators Lie On

An operator that comes in is put on top of what is left when the others that
go first have gone. So what lies right below it does not reach its threshold,
and this stays true for as long as it waits: operators only ever leave from the
top. Nothing else is needed to know the order in which operators can wait.
Thresholds are low for loose operators, so from one parenthesis to the next the
operators get tighter from the bottom to the top, and of those that group to
the left there is one of a kind.

This does not depend on how the parser is used. Its steps can be called in any
order and as often as one likes, and a step that fails in the middle of its
work leaves a lower part of the stack behind, which lies as it did before.

## Main definitions

* `Pending.LiesOn`: What waits may lie right on top of something else.
* `Stacked`: All that waits lies on something it may lie on.
* `Layered`: The order of operators between two parentheses.
* `layers`: The operators in that order, from the top to the bottom.
* `Parser.Reachable`: The stacks that calls can lead to.

## Theorems

* `precedence_lt_of_stacked`: All operators down to the next parenthesis stay
  below the threshold.
* `layered_of_stacked`: Operators that are stacked are layered.
* `Parser.suffix_of_closeParen`, `Parser.suffix_of_drain`: What these loops
  leave is a lower part of the stack.
* `Parser.stacked_of_call`: Every call leaves a stack behind that is stacked,
  also when it fails.
* `Parser.reachable_of_callAll`: The outcomes of calls are reachable.
* `Parser.operators_layered`: The operators that wait are layered, whatever was
  called before.
-/

namespace Abacus

/-- What waits may lie right on top of something else if that does not go
    first. An open parenthesis lies on anything. -/
def Pending.LiesOn : Pending → Pending → Prop
  | op o, below => below.precedence < o.threshold
  | openParen, _ => True

/-- All that waits lies on something it may lie on. The top is in front. -/
def Stacked (ops : List Pending) : Prop :=
  ops.IsChain Pending.LiesOn

/-- From the bottom to the top there is at most one of `+` and `-`, then at most
    one of `*` and `/`, then any number of powers and then any number of
    signs. -/
def Layered (os : List Operator) : Prop :=
  ∃ (sum product : Option BinOp) (powers : Nat) (signs : List Sign),
    os = sum.toList.map .binary ++ product.toList.map .binary ++
      List.replicate powers (.binary .pow) ++ signs.map .unary ∧
    (∀ b ∈ sum, b = .add ∨ b = .sub) ∧ ∀ b ∈ product, b = .mul ∨ b = .div

/-- What an operator lies on has no higher threshold than the operator itself. -/
theorem Operator.threshold_le {o below : Operator} (h : below.precedence < o.threshold) :
    below.threshold ≤ o.threshold := by
  have hsucc : below.threshold ≤ below.precedence + 1 := by
    rcases below with s | b
    · exact Nat.le_refl 5
    · cases b <;> decide
  omega

/-- What holds of the operator right below holds of all of them. -/
theorem precedence_lt_of_stacked {os : List Operator} :
    ∀ {o : Operator}, Stacked ((o :: os).map .op) → ∀ p ∈ os, p.precedence < o.threshold := by
  induction os with
  | nil => exact fun _ _ hp => absurd hp List.not_mem_nil
  | cons q os ih =>
    intro o h p hp
    rcases List.isChain_cons_cons.mp h with ⟨hq, hrest⟩
    rcases List.mem_cons.mp hp with rfl | hp
    · exact hq
    · exact Nat.lt_of_lt_of_le (ih hrest p hp) (Operator.threshold_le hq)

/-- The layers of operators, the tightest one first. -/
def layers (signs : List Sign) (powers : Nat) (product sum : Option BinOp) : List Operator :=
  signs.map .unary ++ List.replicate powers (.binary .pow) ++ product.toList.map .binary ++
    sum.toList.map .binary

/-- Layers that bind as tightly as a threshold are empty where all operators
    stay below it. -/
theorem layers_empty {n powers : Nat} {signs : List Sign} {product sum : Option BinOp}
    (h : ∀ p ∈ layers signs powers product sum, p.precedence < n)
    (hproduct : ∀ b ∈ product, b = .mul ∨ b = .div) :
    (n ≤ 4 → signs = []) ∧ (n ≤ 3 → powers = 0) ∧ (n ≤ 2 → product = none) ∧
      (n ≤ 1 → sum = none) := by
  refine ⟨fun hn => ?_, fun hn => ?_, fun hn => ?_, fun hn => ?_⟩
  · cases signs with
    | nil => rfl
    | cons s signs =>
      exact absurd (h (.unary s) (by simp [layers])) (Nat.not_lt.mpr hn)
  · cases powers with
    | zero => rfl
    | succ k =>
      exact absurd (h (.binary .pow) (by simp [layers])) (Nat.not_lt.mpr hn)
  · cases product with
    | none => rfl
    | some b =>
      have htwo : (Operator.binary b).precedence = 2 := by
        rcases hproduct b rfl with rfl | rfl <;> rfl
      exact absurd (h (.binary b) (by simp [layers])) (Nat.not_lt.mpr (htwo ▸ hn))
  · cases sum with
    | none => rfl
    | some b =>
      exact absurd (h (.binary b) (by simp [layers]))
        (Nat.not_lt.mpr (hn.trans (Operator.binary b).precedence_pos))

/-- Operators that are stacked fall into layers from the top to the bottom. -/
theorem exists_layers {os : List Operator} (h : Stacked (os.map .op)) :
    ∃ signs powers product sum, os = layers signs powers product sum ∧
      (∀ b ∈ sum, b = .add ∨ b = .sub) ∧ ∀ b ∈ product, b = .mul ∨ b = .div := by
  induction os with
  | nil => exact ⟨[], 0, none, none, rfl, nofun, nofun⟩
  | cons o os ih =>
    have hbelow := precedence_lt_of_stacked h
    rcases ih h.of_cons with ⟨signs, powers, product, sum, rfl, hsum, hproduct⟩
    rcases o with s | b
    · exact ⟨s :: signs, powers, product, sum, rfl, hsum, hproduct⟩
    -- The layers above the one of the new operator are empty: they would have gone first.
    rcases layers_empty hbelow hproduct with ⟨hsigns, hpowers, hnone, hnothing⟩
    cases b with
    | pow =>
      rw [hsigns (Nat.le_refl 4)]
      exact ⟨[], powers + 1, product, sum, rfl, hsum, hproduct⟩
    | mul | div =>
      rw [hsigns (by decide), hpowers (by decide), hnone (Nat.le_refl 2)]
      refine ⟨[], 0, some _, sum, rfl, hsum, fun c hc => ?_⟩
      rw [← Option.some.inj hc]
      decide
    | add | sub =>
      rw [hsigns (by decide), hpowers (by decide), hnone (by decide), hnothing (Nat.le_refl 1)]
      refine ⟨[], 0, none, some _, rfl, fun c hc => ?_, nofun⟩
      rw [← Option.some.inj hc]
      decide

theorem layered_of_stacked {os : List Operator} (h : Stacked (os.map .op)) :
    Layered os.reverse := by
  rcases exists_layers h with ⟨signs, powers, product, sum, rfl, hsum, hproduct⟩
  have hself (o : Option BinOp) : o.toList.reverse = o.toList := by cases o <;> rfl
  refine ⟨sum, product, powers, signs.reverse, ?_, hsum, hproduct⟩
  simp only [layers, List.reverse_append, ← List.map_reverse, hself, List.reverse_replicate,
    List.append_assoc]

namespace Parser

/-- Below the operator that fails nothing has changed. -/
theorem Starves.suffix {ops : List Pending} {e : ParseError} {s : State} (h : Starves ops e s) :
    s.operators <:+ ops := by
  rcases h with ⟨os, o, rest, rfl, _, rfl⟩
  exact ⟨os.map .op ++ [.op o], List.append_assoc _ _ _⟩

theorem suffix_of_closeParen (out : List Expr) (ops : List Pending) :
    (closeParen out ops).left.operators <:+ ops := by
  rcases h : closeParen out ops with ⟨⟨e⟩ | ⟨⟨⟩⟩, left⟩
  · rcases fail_of_closeParen h with hst | ⟨os, out', rfl, _, _, rfl⟩
    · exact hst.suffix
    -- The search for a partner has emptied the stack.
    · exact List.nil_suffix
  · rcases exists_settle_of_closeParen h with ⟨os, ops', out', rfl, _, rfl⟩
    exact ⟨os.map .op ++ [.openParen], List.append_assoc _ _ _⟩

theorem suffix_of_drain (out : List Expr) (ops : List Pending) :
    (drain out ops).left.operators <:+ ops := by
  rcases h : drain out ops with ⟨⟨e⟩ | ⟨⟨⟩⟩, left⟩
  · rcases fail_of_drain h with hst | ⟨os, rest, out', rfl, _, _, rfl⟩
    · exact hst.suffix
    · exact ⟨os.map .op ++ [.openParen], List.append_assoc _ _ _⟩
  · rcases exists_settle_of_drain h with ⟨os, out', rfl, _, rfl⟩
    exact List.nil_suffix

/-- The operator that came in lies on what did not go before it. -/
theorem stacked_of_pushOp {op : Operator} {ops : List Pending} (h : Stacked ops)
    (out : List Expr) : Stacked (pushOp op out ops).left.operators := by
  rcases hpush : pushOp op out ops with ⟨⟨e⟩ | ⟨⟨⟩⟩, left⟩
  · exact h.suffix (starves_of_pushOp hpush).suffix
  · rcases exists_settle_of_pushOp hpush with ⟨os, ops', out', rfl, _, htop, _, rfl⟩
    exact List.isChain_cons.mpr ⟨htop, h.right_of_append⟩

/-- Two steps one after the other leave the operators stacked if each of them
    does. -/
theorem stacked_andThen {α β : Type} {o : Outcome State α} {next : α → State → Outcome State β}
    (h : Stacked o.left.operators)
    (hnext : ∀ a s, Stacked s.operators → Stacked (next a s).left.operators) :
    Stacked (o.andThen next).left.operators := by
  rcases o with ⟨⟨e⟩ | ⟨a⟩, left⟩
  · exact h
  · exact hnext a left h

theorem stacked_openParen {ops : List Pending} (h : Stacked ops) : Stacked (.openParen :: ops) :=
  List.isChain_cons.mpr ⟨fun _ _ => trivial, h⟩

theorem stacked_of_readToken {s : State} (h : Stacked s.operators) (t : Token) :
    Stacked (readToken t s).left.operators := by
  cases t with
  | atom a => exact h
  | openParen => exact stacked_openParen h
  | op o => exact stacked_of_pushOp h s.output
  | closeParen => exact h.suffix (suffix_of_closeParen s.output s.operators)

theorem stacked_of_readAll (ts : List Token) :
    ∀ {s : State}, Stacked s.operators → Stacked (readAll ts s).left.operators := by
  induction ts with
  | nil => exact fun h => h
  | cons t ts ih =>
    intro s h
    exact stacked_andThen (stacked_of_readToken h t) (fun _ _ => ih)

theorem stacked_of_run (ts : List Token) {s : State} (h : Stacked s.operators) :
    Stacked (run ts s).left.operators := by
  have honly (s : State) (h : Stacked s.operators) : Stacked (onlyOperand s).left.operators := by
    rw [onlyOperand]
    split <;> exact h
  refine stacked_andThen (stacked_of_readAll ts h) (fun _ s hs => ?_)
  exact stacked_andThen (hs.suffix (suffix_of_drain s.output s.operators))
    (fun _ s hs => honly s hs)

/-- Every call leaves the operators stacked, whether it succeeds or not. -/
theorem stacked_of_call (tokens : List Token) (c : Call) {s : State} (h : Stacked s.operators) :
    Stacked (call tokens c s).left.operators := by
  cases c with
  | parse =>
    rw [call_parse]
    exact stacked_of_run tokens h
  | pushOp op => exact stacked_andThen (stacked_of_pushOp h s.output) (fun _ _ hs => hs)
  | applyOp op => exact stacked_andThen h (fun _ _ hs => hs)
  | closeParen =>
    exact stacked_andThen (h.suffix (suffix_of_closeParen s.output s.operators))
      (fun _ _ hs => hs)
  | popOperand op => exact stacked_andThen h (fun _ _ hs => hs)
  | shouldPop top incoming => exact h
  | openParen => exact stacked_openParen h
  | pushAtom a => exact h

/-- The stacks that a parser with the given tokens can have between two calls,
    whatever was called before and however it ended. -/
inductive Reachable (tokens : List Token) : State → Prop where
  /-- Before the first call both stacks are empty. -/
  | fresh : Reachable tokens .empty
  | call {s : State} (h : Reachable tokens s) (c : Call) :
    Reachable tokens (Parser.call tokens c s).left

theorem reachable_of_callAll {tokens : List Token} {cs : List Call} :
    ∀ {s : State}, Reachable tokens s → ∀ o ∈ callAll tokens cs s, Reachable tokens o.left := by
  induction cs with
  | nil => exact fun _ _ ho => absurd ho List.not_mem_nil
  | cons c cs ih =>
    intro s h o ho
    rcases List.mem_cons.mp ho with rfl | ho
    · exact h.call c
    · exact ih (h.call c) o ho

theorem stacked_of_reachable {tokens : List Token} {s : State} (h : Reachable tokens s) :
    Stacked s.operators := by
  -- On the calls so far; the stack that the last one found was stacked already.
  induction h with
  | fresh => exact .nil
  | call h c ih => exact stacked_of_call tokens c ih

/-- Whatever was called before and however it ended, each stretch of waiting
    operators with no parenthesis among them is layered, the longest stretches
    included. -/
theorem operators_layered {tokens : List Token} {s : State} (h : Reachable tokens s)
    {os : List Operator} (hos : os.map .op <:+: s.operators.reverse) : Layered os := by
  -- On the stack the top is in front, so the stretch stands there turned round.
  have hlies : Stacked (os.reverse.map .op) := by
    refine List.IsChain.infix (stacked_of_reachable h) ?_
    rw [List.map_reverse, ← List.reverse_infix, List.reverse_reverse]
    exact hos
  have hlayered := layered_of_stacked hlies
  rwa [List.reverse_reverse] at hlayered

/-- A division that comes in lets the sign go, which finds no operand. Two
    calls later the lower part of the operators still waits below a
    parenthesis. -/
theorem operators_layered_after_failure :
    let calls : List Call := [.pushOp (.binary .add), .pushOp (.binary .mul),
      .pushOp (.binary .pow), .pushOp (.unary .minus), .pushOp (.binary .div), .openParen,
      .pushOp (.binary .sub)]
    let s : State := ⟨[], [.op (.binary .sub), .openParen, .op (.binary .pow),
      .op (.binary .mul), .op (.binary .add)]⟩
    let os : List Operator := [.binary .add, .binary .mul, .binary .pow]
    (callAll [] calls .empty)[4]?.map Outcome.result =
        some (.error (.notEnoughOperands (.unary .minus))) ∧
      Reachable [] s ∧ os.map .op <:+: s.operators.reverse ∧ Layered os := by
  intro calls s os
  have hlast : (callAll [] calls .empty).getLast? = some (.ok .done s) := rfl
  have hreach : Reachable [] s :=
    reachable_of_callAll .fresh _ (List.mem_of_getLast? hlast)
  have hinfix : os.map .op <:+: s.operators.reverse :=
    ⟨[], [.openParen, .op (.binary .sub)], rfl⟩
  exact ⟨rfl, hreach, hinfix, operators_layered hreach hinfix⟩

end Parser

end Abacus
