import Abacus.Expr.Grammar
import Abacus.Proofs.Parser.Counting

/-!
# Conservation of Tokens

Where the tokens are that have been read. An atom is a leaf of a tree on the
stack of operands, an operator is in a node or still waits, and an open
parenthesis waits until it is closed. Nothing else is on the stacks, so what
they hold can be told from the tokens without knowing how the operators have
moved.

The leaves keep the order of the atoms: an operator joins the two topmost
trees, and the right one is on top. The operators do not keep theirs, so of
them only the multiset is kept, as a permutation.

`Absorbs` says this of any two states with a list of tokens between them. It
is composed along the list, and each token has its own step. An operator that
settles changes nothing, since it only goes from the waiting ones into a node.

## Main definitions

* `Parser.stackAtoms`, `Parser.stackOperators`: The leaves and the operators of
  the trees on a stack.
* `Parser.State.atoms`, `Parser.State.allOperators`: What a state holds.
* `Parser.Absorbs`: The second state holds what the first one does and the
  tokens.

## Theorems

* `Parser.atoms_of_settle`, `Parser.operators_of_settle`: Operators that settle
  keep the leaves and go into nodes.
* `Parser.absorbs_of_readToken`: One token is absorbed.
* `Parser.absorbs_of_readAll`: All tokens that are read are absorbed.
* `atoms_of_parse`, `operators_of_parse`: What a parsed tree is made of.
* `tokens_conserved`: What is on the stacks after each part of the tokens that
  is read, and in the tree at the end.
-/

namespace Abacus

/-- The operator that a token is, if it is one. -/
def Token.op? : Token → Option Operator
  | op o => some o
  | _ => none

/-- The operator that waits, unless it is an open parenthesis that does. -/
def Pending.op? : Pending → Option Operator
  | op o => some o
  | openParen => none

namespace Parser

/-- The leaves of the trees on a stack from left to right, those of the top
    last. -/
def stackAtoms (out : List Expr) : List Atom :=
  out.reverse.flatMap Expr.atoms

/-- The operators in the nodes of the trees on a stack. -/
def stackOperators (out : List Expr) : List Operator :=
  out.reverse.flatMap Expr.operators

/-- The leaves of all operands. -/
def State.atoms (s : State) : List Atom :=
  stackAtoms s.output

/-- The operators in all nodes, and those that wait. -/
def State.allOperators (s : State) : List Operator :=
  stackOperators s.output ++ s.operators.filterMap Pending.op?

theorem stackAtoms_cons (x : Expr) (out : List Expr) :
    stackAtoms (x :: out) = stackAtoms out ++ x.atoms := by
  simp only [stackAtoms, List.reverse_cons, List.flatMap_append, List.flatMap_singleton]

theorem stackOperators_cons (x : Expr) (out : List Expr) :
    stackOperators (x :: out) = stackOperators out ++ x.operators := by
  simp only [stackOperators, List.reverse_cons, List.flatMap_append, List.flatMap_singleton]

theorem op?_map_op (os : List Operator) (ops : List Pending) :
    (os.map Pending.op ++ ops).filterMap Pending.op? = os ++ ops.filterMap Pending.op? := by
  induction os with
  | nil => rfl
  | cons o os ih => exact congrArg (o :: ·) ih

theorem atoms_of_applyOp {o : Operator} {out out' : List Expr}
    (h : applyOp o out = .ok () out') : stackAtoms out' = stackAtoms out := by
  cases applies_of_applyOp h with
  | unary s x rest => rw [stackAtoms_cons, stackAtoms_cons, Expr.atoms]
  | binary b r l rest =>
    rw [stackAtoms_cons, stackAtoms_cons, stackAtoms_cons, Expr.atoms, List.append_assoc]

/-- The operator is in the new node. -/
theorem operators_of_applyOp {o : Operator} {out out' : List Expr}
    (h : applyOp o out = .ok () out') : stackOperators out' = stackOperators out ++ [o] := by
  cases applies_of_applyOp h with
  | unary s x rest =>
    rw [stackOperators_cons, stackOperators_cons, Expr.operators, List.append_assoc]
  | binary b r l rest =>
    simp only [stackOperators_cons, Expr.operators, List.append_assoc]

theorem atoms_of_settle {os : List Operator} :
    ∀ {out out' : List Expr}, settle os out = .ok () out' → stackAtoms out' = stackAtoms out := by
  induction os with
  | nil =>
    intro out out' h
    cases h
    rfl
  | cons o os ih =>
    intro out out' h
    rcases settle_cons_ok h with ⟨mid, hmid, hrest⟩
    rw [ih hrest, atoms_of_applyOp hmid]

/-- Operators that settle go into nodes, in the order in which they settle. -/
theorem operators_of_settle {os : List Operator} :
    ∀ {out out' : List Expr}, settle os out = .ok () out' →
      stackOperators out' = stackOperators out ++ os := by
  induction os with
  | nil =>
    intro out out' h
    cases h
    exact (List.append_nil _).symm
  | cons o os ih =>
    intro out out' h
    rcases settle_cons_ok h with ⟨mid, hmid, hrest⟩
    rw [ih hrest, operators_of_applyOp hmid, List.append_assoc, List.singleton_append]

/-- Between the two states the tokens have been read: the second one holds
    what the first one does, and the tokens. -/
structure Absorbs (s : State) (ts : List Token) (s' : State) : Prop where
  /-- The atoms have become leaves behind those that were there. -/
  atoms : s'.atoms = s.atoms ++ ts.filterMap Token.atom?
  /-- The operators are in nodes or wait. -/
  operators : s'.allOperators.Perm (s.allOperators ++ ts.filterMap Token.op?)
  /-- A parenthesis is open once more for each that opens, and once less for
      each that closes. -/
  opened : s'.opened + ts.count .closeParen = s.opened + ts.count .openParen

namespace Absorbs

theorem refl (s : State) : Absorbs s [] s :=
  ⟨(List.append_nil _).symm, .of_eq (List.append_nil _).symm, rfl⟩

theorem append {s mid s' : State} {ts us : List Token} (h : Absorbs s ts mid)
    (h' : Absorbs mid us s') : Absorbs s (ts ++ us) s' := by
  refine ⟨?_, ?_, ?_⟩
  · rw [h'.atoms, h.atoms, List.filterMap_append, List.append_assoc]
  · rw [List.filterMap_append, ← List.append_assoc]
    exact h'.operators.trans (h.operators.append_right _)
  · have hfirst := h.opened
    have hsecond := h'.opened
    rw [List.count_append, List.count_append]
    omega

end Absorbs

/-- Settling only moves operators from the ones that wait into nodes. -/
theorem absorbs_of_settle {os : List Operator} {ops : List Pending} {out out' : List Expr}
    (hs : settle os out = .ok () out') : Absorbs ⟨out, os.map .op ++ ops⟩ [] ⟨out', ops⟩ := by
  refine ⟨?_, ?_, ?_⟩
  · simp only [State.atoms, atoms_of_settle hs, List.filterMap_nil, List.append_nil]
  · simp only [State.allOperators, operators_of_settle hs, op?_map_op, List.append_assoc,
      List.filterMap_nil, List.append_nil]
    exact .refl _
  · simp only [State.opened, count_openParen_append, List.count_nil]

theorem absorbs_atom (a : Atom) (out : List Expr) (ops : List Pending) :
    Absorbs ⟨out, ops⟩ [.atom a] ⟨.leaf a :: out, ops⟩ := by
  refine ⟨stackAtoms_cons _ _, ?_, rfl⟩
  simp only [State.allOperators, stackOperators_cons, Expr.operators, List.append_nil]
  exact .of_eq (List.append_nil _).symm

theorem absorbs_op (o : Operator) (out : List Expr) (ops : List Pending) :
    Absorbs ⟨out, ops⟩ [.op o] ⟨out, .op o :: ops⟩ := by
  refine ⟨(List.append_nil _).symm, ?_, ?_⟩
  · simp only [State.allOperators, List.append_assoc]
    exact .append_left _ (List.perm_append_singleton o _).symm
  · have hne : Pending.op o ≠ .openParen := fun hc => nomatch hc
    simp only [State.opened, List.count_cons_of_ne hne]
    rfl

theorem absorbs_openParen (out : List Expr) (ops : List Pending) :
    Absorbs ⟨out, ops⟩ [.openParen] ⟨out, .openParen :: ops⟩ := by
  refine ⟨(List.append_nil _).symm, .of_eq (List.append_nil _).symm, ?_⟩
  simp only [State.opened, List.count_cons_self]
  rfl

theorem absorbs_closeParen (out : List Expr) (ops : List Pending) :
    Absorbs ⟨out, .openParen :: ops⟩ [.closeParen] ⟨out, ops⟩ := by
  refine ⟨(List.append_nil _).symm, .of_eq (List.append_nil _).symm, ?_⟩
  simp only [State.opened, List.count_cons_self]
  rfl

theorem absorbs_of_readToken {t : Token} {s s' : State} (h : readToken t s = .ok () s') :
    Absorbs s [t] s' := by
  rcases s with ⟨output, operators⟩
  cases t with
  | atom a =>
    cases h
    exact absorbs_atom a output operators
  | openParen =>
    cases h
    exact absorbs_openParen output operators
  | op o =>
    -- First a run settles, and only then the operator is taken in.
    rcases exists_settle_of_pushOp h with ⟨os, ops', out', rfl, _, _, hs, rfl⟩
    exact (absorbs_of_settle hs).append (absorbs_op o out' ops')
  | closeParen =>
    rcases exists_settle_of_closeParen h with ⟨os, ops', out', rfl, hs, rfl⟩
    exact (absorbs_of_settle hs).append (absorbs_closeParen out' ops')

theorem absorbs_of_readAll {ts : List Token} :
    ∀ {s s' : State}, readAll ts s = .ok () s' → Absorbs s ts s' := by
  induction ts with
  | nil =>
    intro s s' h
    cases h
    exact .refl s
  | cons t ts ih =>
    intro s s' h
    rcases Outcome.andThen_eq_ok h with ⟨_, mid, ht, hts⟩
    exact (absorbs_of_readToken ht).append (ih hts)

/-- From empty stacks on, the open parentheses are those that the tokens have
    not closed. -/
theorem opened_of_readAll {ts : List Token} {s : State} (h : readAll ts .empty = .ok () s) :
    s.opened + ts.count .closeParen = ts.count .openParen := by
  have hopened := (absorbs_of_readAll h).opened
  change _ = 0 + _ at hopened
  rwa [Nat.zero_add] at hopened

/-- All tokens are absorbed too when some of what waits at the end has
    settled. -/
theorem Absorbs.settle {s₀ s : State} {ts : List Token} {os : List Operator} {ops : List Pending}
    {out : List Expr} (h : Absorbs s₀ ts s) (hops : s.operators = os.map .op ++ ops)
    (hs : Parser.settle os s.output = .ok () out) : Absorbs s₀ ts ⟨out, ops⟩ := by
  rcases s with ⟨output, operators⟩
  change operators = _ at hops
  rw [hops] at h
  have hall := h.append (absorbs_of_settle hs)
  rwa [List.append_nil] at hall

/-- What is left at the end is the tree alone. -/
theorem absorbs_of_parse {ts : List Token} {t : Expr} (h : parse ts = .ok t) :
    Absorbs .empty ts ⟨[t], []⟩ := by
  rcases exists_settle_of_parse h with ⟨mid, os, hread, hops, hs⟩
  exact (absorbs_of_readAll hread).settle (hops.trans (List.append_nil _).symm) hs

end Parser

/-- The leaves of a parsed tree are the atoms among the tokens, in their
    order. -/
theorem atoms_of_parse {ts : List Token} {t : Expr} (h : parse ts = .ok t) :
    ts.filterMap Token.atom? = t.atoms := by
  have hatoms := (Parser.absorbs_of_parse h).atoms
  simp only [Parser.State.atoms, Parser.stackAtoms_cons] at hatoms
  exact hatoms.symm

/-- A parsed tree has one node for each operator among the tokens. -/
theorem operators_of_parse {ts : List Token} {t : Expr} (h : parse ts = .ok t) :
    t.operators.Perm (ts.filterMap Token.op?) := by
  have hops := (Parser.absorbs_of_parse h).operators
  simp only [Parser.State.allOperators, Parser.stackOperators_cons, List.filterMap_nil,
    List.append_nil] at hops
  exact hops

/-- No token is lost, doubled or put in another order. Behind every part of
    the tokens that has been read without an error, the leaves on the stack are
    the atoms of that part in their order, the operators in nodes and the ones
    that wait are its operators, and as many parentheses are open as it opens
    more than it closes. The tree in the end has all atoms as its leaves, and
    one node for each operator. -/
theorem tokens_conserved (ts : List Token) :
    (∀ (before : List Token) (s : Parser.State), before <+: ts →
      Parser.readAll before .empty = .ok () s →
        s.atoms = before.filterMap Token.atom? ∧
        s.allOperators.Perm (before.filterMap Token.op?) ∧
        (s.opened : Int) = before.count .openParen - before.count .closeParen) ∧
      ∀ t, parse ts = .ok t →
        t.atoms = ts.filterMap Token.atom? ∧ t.operators.Perm (ts.filterMap Token.op?) := by
  constructor
  · intro before s _ hread
    have habs := Parser.absorbs_of_readAll hread
    have hopened := Parser.opened_of_readAll hread
    refine ⟨habs.atoms, habs.operators, ?_⟩
    omega
  · intro t h
    exact ⟨(atoms_of_parse h).symm, operators_of_parse h⟩

/-- The tokens of `e * (-pi)`, and the state in front of the last atom. -/
theorem tokens_conserved_e_times_neg_pi :
    let ts : List Token :=
      [.atom .e, .op (.binary .mul), .openParen, .op (.unary .minus), .atom .pi, .closeParen]
    let s : Parser.State :=
      ⟨[.leaf .e], [.op (.unary .minus), .openParen, .op (.binary .mul)]⟩
    let t : Expr := .binary .mul (.leaf .e) (.unary .minus (.leaf .pi))
    (ts.take 4 <+: ts ∧ Parser.readAll (ts.take 4) .empty = .ok () s ∧ parse ts = .ok t) ∧
      (s.atoms = [.e] ∧ s.allOperators.Perm [.binary .mul, .unary .minus] ∧ s.opened = 1) ∧
        t.atoms = [.e, .pi] ∧ t.operators.Perm [.binary .mul, .unary .minus] := by
  intro ts s t
  have hpre : ts.take 4 <+: ts := List.take_prefix 4 ts
  have hread : Parser.readAll (ts.take 4) .empty = .ok () s := rfl
  have hparse : parse ts = .ok t := rfl
  rcases (tokens_conserved ts).1 _ _ hpre hread with ⟨hatoms, hops, hopened⟩
  exact ⟨⟨hpre, hread, hparse⟩, ⟨hatoms, hops, Int.ofNat.inj hopened⟩,
    (tokens_conserved ts).2 t hparse⟩

end Abacus
