import Abacus.Expr.Grammar
import Abacus.Proofs.Parser.Settling

/-!
# Expressions Are Parsed

Every list of tokens that is an expression is parsed into the tree it derives.

The parser never holds the tree of what it has read so far. It holds operands
and, above what waited before, a run of operators that would make the tree of
them; which of them have been settled already depends on what came in. `Holds`
says just this, and it is kept by every rule of the grammar whatever the
stacks below look like, so the induction goes over derivations and not over
stacks.

Two numbers for each layer make the rules fit together. What waits below an
expression of the layer may bind no tighter than `Layer.ceiling`, or its
operators would settle it. What is left to settle of the expression binds at
least as tightly as `Layer.floor`, so that the operator of the next rule
settles all of it.

A tree is determined by the tokens, since the parser is a function.

## Main definitions

* `Layer.ceiling`: How tightly may bind what waits below the layer.
* `Layer.floor`: How tightly binds what is left to settle of the layer.
* `Layer.Joins`: An operator and the layers of its operands fit a layer.
* `Parser.Holds`: A tree is on top of given stacks, perhaps not yet settled.
* `Parser.ReadsAs`: Tokens are read into a tree on top of any stacks that fit.

## Theorems

* `Parser.readsAs_of_derives`: The parser follows every rule of the grammar.
* `parse_of_derives`: An expression is parsed into its tree.
* `Derives.unique`: Tokens derive one tree at most.
-/

namespace Abacus

/-- How tightly the operator may bind that waits below an expression of the
    layer. -/
def Layer.ceiling : Layer → Nat
  | sum => 0
  | product => 1
  | power => 3
  | signed => 4
  | operand => 4

/-- How tightly the operators bind at least that are left to settle after an
    expression of the layer. -/
def Layer.floor : Layer → Nat
  | sum => 1
  | product => 2
  | power => 3
  | signed => 4
  | operand => 5

/-- An operator with operands of the two layers makes an expression of the
    layer: it settles its left operand and nothing below it, the right one fits
    above it, and nothing looser than the layer is left to settle. -/
def Layer.Joins (layer left : Layer) (o : Operator) (right : Layer) : Prop :=
  (layer.ceiling ≤ left.ceiling ∧ layer.ceiling < o.threshold ∧ o.threshold ≤ left.floor) ∧
    o.precedence ≤ right.ceiling ∧ layer.floor ≤ right.floor ∧ layer.floor ≤ o.precedence

instance (layer left : Layer) (o : Operator) (right : Layer) :
    Decidable (layer.Joins left o right) :=
  inferInstanceAs (Decidable ((_ ∧ _ ∧ _) ∧ _ ∧ _ ∧ _))

namespace Parser

/-- The state holds the tree on top of the stacks: some operators wait above
    the given ones, they bind at least as tightly as `floor`, and settling
    them puts the tree on the given operands. -/
def Holds (floor : Nat) (out : List Expr) (ops : List Pending) (t : Expr) (s : State) : Prop :=
  ∃ os : List Operator, s.operators = os.map .op ++ ops ∧ (∀ o ∈ os, floor ≤ o.precedence) ∧
    settle os s.output = .ok () (t :: out)

theorem Holds.mono {floor floor' : Nat} {out : List Expr} {ops : List Pending} {t : Expr}
    {s : State} (h : Holds floor out ops t s) (hle : floor' ≤ floor) :
    Holds floor' out ops t s := by
  rcases h with ⟨os, hops, hall, hs⟩
  exact ⟨os, hops, fun o ho => Nat.le_trans hle (hall o ho), hs⟩

/-- An operator that comes in behind its left operand settles just that one
    if it neither stops in the middle of it nor goes on below it. -/
theorem readToken_of_holds {floor : Nat} {out : List Expr} {ops : List Pending} {l : Expr}
    {s : State} {o : Operator} (hl : Holds floor out ops l s) (hfloor : o.threshold ≤ floor)
    (htop : ∀ top ∈ ops.head?, top.precedence < o.threshold) :
    readToken (.op o) s = .ok () ⟨l :: out, .op o :: ops⟩ := by
  rcases s with ⟨output, operators⟩
  rcases hl with ⟨os, rfl, hall, hs⟩
  exact pushOp_of_settle htop (fun p hp => Nat.le_trans hfloor (hall p hp)) hs

/-- A tree above an operator that waits is the last operand of that operator,
    and the tree of both is there to settle as soon as the operator has its
    turn. -/
theorem Holds.apply {floor floor' : Nat} {out out' : List Expr} {ops : List Pending}
    {t u : Expr} {o : Operator} {s : State} (h : Holds floor out' (.op o :: ops) t s)
    (happly : applyOp o (t :: out') = .ok () (u :: out)) (hle : floor' ≤ floor)
    (ho : floor' ≤ o.precedence) : Holds floor' out ops u s := by
  rcases h with ⟨os, hops, hall, hs⟩
  have hlast : settle [o] (t :: out') = .ok () (u :: out) := settle_cons happly
  refine ⟨os ++ [o], ?_, ?_, settle_append hs hlast⟩
  · rw [hops, List.map_append, List.append_assoc]
    rfl
  · intro p hp
    rcases List.mem_append.mp hp with hp | hp
    · exact Nat.le_trans hle (hall p hp)
    · rw [List.mem_singleton.mp hp]
      exact ho

/-- Reading the tokens puts the tree on top of any stacks that fit below an
    expression of the layer. -/
def ReadsAs (layer : Layer) (ts : List Token) (t : Expr) : Prop :=
  ∀ (out : List Expr) (ops : List Pending),
    (∀ top ∈ ops.head?, top.precedence ≤ layer.ceiling) →
    ∃ s, readAll ts ⟨out, ops⟩ = .ok () s ∧ Holds layer.floor out ops t s

namespace ReadsAs

theorem leaf (a : Atom) : ReadsAs .operand [.atom a] (.leaf a) := by
  intro out ops _
  exact ⟨⟨.leaf a :: out, ops⟩, rfl, [], rfl, fun o ho => absurd ho List.not_mem_nil, rfl⟩

/-- The open parenthesis binds nothing, so a sum fits above it whatever is
    below. -/
theorem parens {ts : List Token} {t : Expr} (h : ReadsAs .sum ts t) :
    ReadsAs .operand (.openParen :: ts ++ [.closeParen]) t := by
  intro out ops _
  have htop : ∀ top ∈ (Pending.openParen :: ops).head?, top.precedence ≤ Layer.sum.ceiling := by
    intro top htop
    rw [← Option.some.inj htop]
    exact Nat.le_refl 0
  rcases h out (.openParen :: ops) htop with ⟨⟨output, operators⟩, hts, os, hops, _, hs⟩
  -- All that is left to settle of the sum is above the parenthesis.
  refine ⟨⟨t :: out, ops⟩, ?_, [], rfl, fun o ho => absurd ho List.not_mem_nil, rfl⟩
  have hopen : readToken .openParen ⟨out, ops⟩ = .ok () ⟨out, .openParen :: ops⟩ := rfl
  have hclose : readToken .closeParen ⟨output, operators⟩ = .ok () ⟨t :: out, ops⟩ := by
    rw [show operators = os.map .op ++ .openParen :: ops from hops]
    exact closeParen_of_settle hs
  rw [List.cons_append, readAll, hopen, Outcome.andThen_ok, readAll_append, hts,
    Outcome.andThen_ok, readAll, hclose, Outcome.andThen_ok, readAll]

/-- What fits into a layer fits into a looser one. -/
theorem loosen {layer layer' : Layer} {ts : List Token} {t : Expr} (h : ReadsAs layer ts t)
    (hceiling : layer'.ceiling ≤ layer.ceiling) (hfloor : layer'.floor ≤ layer.floor) :
    ReadsAs layer' ts t := by
  intro out ops htop
  rcases h out ops (fun top ht => Nat.le_trans (htop top ht) hceiling) with ⟨s, hts, hh⟩
  exact ⟨s, hts, hh.mono hfloor⟩

/-- The precedence of what waits on top is that of the operator just read. -/
theorem head_precedence_le {o : Operator} {ops : List Pending} {n : Nat} (h : o.precedence ≤ n) :
    ∀ top ∈ (Pending.op o :: ops).head?, top.precedence ≤ n := by
  intro top htop
  rw [← Option.some.inj htop]
  exact h

/-- A sign settles nothing and waits above the operand that follows. -/
theorem sign {ts : List Token} {t : Expr} (sg : Sign) (h : ReadsAs .signed ts t) :
    ReadsAs .signed (.op (.unary sg) :: ts) (.unary sg t) := by
  intro out ops _
  have hnone : ∀ top ∈ ops.head?, top.precedence < (Operator.unary sg).threshold := by
    intro top _
    cases top with
    | op o => exact Nat.lt_succ_of_le o.precedence_le
    | openParen => exact Nat.zero_lt_succ 4
  have hop : readToken (.op (.unary sg)) ⟨out, ops⟩ = .ok () ⟨out, .op (.unary sg) :: ops⟩ :=
    @pushOp_of_settle _ ops hnone [] out out (fun o ho => absurd ho List.not_mem_nil) rfl
  rcases h out (.op (.unary sg) :: ops) (head_precedence_le (Nat.le_refl 4)) with ⟨s, hts, hh⟩
  refine ⟨s, ?_, hh.apply (applyOp_unary sg t out) (Nat.le_refl 4) (Nat.le_refl 4)⟩
  rw [readAll, hop, Outcome.andThen_ok, hts]

/-- An operator settles its left operand and waits above it for the right
    one. -/
theorem binary {layer left right : Layer} {ls rs : List Token} {l r : Expr} {b : BinOp}
    (hl : ReadsAs left ls l) (hr : ReadsAs right rs r)
    (hj : layer.Joins left (.binary b) right) :
    ReadsAs layer (ls ++ .op (.binary b) :: rs) (.binary b l r) := by
  rcases hj with ⟨⟨hleft, hceiling, hfloor⟩, hwait, hright, hb⟩
  intro out ops htop
  rcases hl out ops (fun top ht => Nat.le_trans (htop top ht) hleft) with ⟨sl, hls, hhl⟩
  -- Coming in, the operator settles what is left of the left operand.
  have hop := readToken_of_holds hhl hfloor
    (fun top ht => Nat.lt_of_le_of_lt (htop top ht) hceiling)
  rcases hr (l :: out) (.op (.binary b) :: ops) (head_precedence_le hwait) with ⟨sr, hrs, hhr⟩
  refine ⟨sr, ?_, hhr.apply (applyOp_binary b r l out) hright hb⟩
  rw [readAll_append, hls, Outcome.andThen_ok, readAll, hop, Outcome.andThen_ok, hrs]

end ReadsAs

theorem readsAs_of_derives {layer : Layer} {ts : List Token} {t : Expr}
    (h : Derives layer ts t) : ReadsAs layer ts t := by
  induction h with
  | leaf a => exact .leaf a
  | parens h ih => exact ih.parens
  | unsigned h ih => exact ih.loosen (by decide) (by decide)
  | sign sg h ih => exact ih.sign sg
  | base h ih => exact ih.loosen (by decide) (by decide)
  | pow hl hr ihl ihr => exact ihl.binary ihr (by decide)
  | factor h ih => exact ih.loosen (by decide) (by decide)
  | product hb hl hr ihl ihr =>
    rcases hb with rfl | rfl
    · exact ihl.binary ihr (by decide)
    · exact ihl.binary ihr (by decide)
  | term h ih => exact ih.loosen (by decide) (by decide)
  | sum hb hl hr ihl ihr =>
    rcases hb with rfl | rfl
    · exact ihl.binary ihr (by decide)
    · exact ihl.binary ihr (by decide)

end Parser

/-- An expression is parsed into the tree that it derives. -/
theorem parse_of_derives {ts : List Token} {t : Expr} (h : Derives .sum ts t) :
    parse ts = .ok t := by
  rcases Parser.readsAs_of_derives h [] [] (fun top htop => nomatch htop) with
    ⟨s, hts, os, hops, _, hs⟩
  exact parse_eq_ok_iff.mpr
    ⟨_, Parser.run_of_settle hts (hops.trans (List.append_nil _)) hs⟩

theorem Derives.unique {ts : List Token} {t t' : Expr} (h : Derives .sum ts t)
    (h' : Derives .sum ts t') : t = t' :=
  Except.ok.inj ((parse_of_derives h).symm.trans (parse_of_derives h'))

end Abacus
