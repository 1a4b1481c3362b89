import Abacus.Proofs.Parser.Conservation
import Abacus.Proofs.Parser.Frame

/-!
# Parentheses in Place of an Atom

An expression in parentheses is parsed like an atom, whatever stands around
it. Two facts about the parser make this true, and neither of them needs the
tokens around to be well formed.

The first is that the tokens of the expression never reach below the open
parenthesis, since they were parsed from empty stacks. Behind the closing
parenthesis just the tree has been added.

The second is that the parser never looks into an operand. A change of the
operands that every operator passes on is passed on by whole runs, errors
included. Replacing the leaf with a given number is such a change, and as long
as the number is small enough it stays away from leaves that come later.

## Main definitions

* `Expr.replaceLeaf`: A tree in place of a leaf.
* `Parser.State.above`: A state on top of other stacks, in a parenthesis.
* `Parser.PassedOn`: A change of operands that every operator passes on.
* `Parser.replaceIn`: A tree in place of a leaf of the trees on a stack.

## Theorems

* `Parser.readAll_above`: What succeeds by itself does the same in a
  parenthesis.
* `Parser.readAll_parens`: An expression in parentheses adds its tree.
* `Parser.passedOn_replaceIn`: Operators pass a replaced leaf on.
* `Parser.readAll_replaceLeaf`, `Parser.run_replaceLeaf`: So do whole runs.
* `parse_parens_eq_replaceLeaf`: An expression in parentheses is parsed like an
  atom.
-/

namespace Abacus

/-- The tree with `new` in place of its leaf number `k`, counted from the left
    and from zero. -/
def Expr.replaceLeaf (new : Expr) : Nat → Expr → Expr
  | k, leaf a => if k = 0 then new else leaf a
  | k, unary s x => unary s (replaceLeaf new k x)
  | k, binary o l r =>
    if k < l.atoms.length then binary o (replaceLeaf new k l) r
    else binary o l (replaceLeaf new (k - l.atoms.length) r)

namespace Outcome

variable {σ τ α β : Type}

theorem mapLeft_ok (f : σ → τ) (a : α) (s : σ) : (ok a s).mapLeft f = ok a (f s) := rfl

/-- Two steps with another view of what is left, where the second one allows
    it. -/
theorem mapLeft_andThen {o : Outcome σ α} {next : α → σ → Outcome σ β}
    {next' : α → τ → Outcome τ β} (f : σ → τ)
    (h : ∀ a s, o = .ok a s → next' a (f s) = (next a s).mapLeft f) :
    (o.mapLeft f).andThen next' = (o.andThen next).mapLeft f := by
  rcases o with ⟨⟨e⟩ | ⟨a⟩, s⟩
  · rfl
  · exact h a s rfl

end Outcome

namespace Parser

section Above

variable (low : List Expr) (ops : List Pending)

/-- The state on top of other stacks, in a parenthesis that is open there. -/
def State.above (s : State) : State :=
  ⟨s.output ++ low, s.operators ++ .openParen :: ops⟩

/-- What succeeds by itself does the same in a parenthesis on top of other
    stacks. -/
theorem readAll_above {ts : List Token} {s s' : State} (h : readAll ts s = .ok () s') :
    readAll ts (s.above low ops) = .ok () (s'.above low ops) := by
  refine readAll_over low (fun top htop => ?_) h
  exact (Option.some.inj htop).symm

/-- An expression in parentheses adds its tree to the operands. -/
theorem readAll_parens {ts : List Token} {t : Expr} (h : parse ts = .ok t) :
    readAll (.openParen :: ts ++ [.closeParen]) ⟨low, ops⟩ = .ok () ⟨t :: low, ops⟩ := by
  rcases exists_settle_of_parse h with ⟨⟨output, operators⟩, os, hread, hops, hs⟩
  -- What waited at the end of the expression settles when the parenthesis closes.
  change operators = _ at hops
  rw [hops] at hread
  have hinner := readAll_above low ops hread
  have hclose : closeParen (output ++ low) (os.map .op ++ .openParen :: ops) = _ :=
    closeParen_of_settle (settle_over low hs)
  rw [List.cons_append, readAll, readToken, Outcome.andThen_ok, readAll_append]
  change readAll ts ⟨low, .openParen :: ops⟩ = _ at hinner
  rw [hinner, Outcome.andThen_ok, readAll]
  simp only [State.above, readToken, hclose]
  rfl

end Above

/-- A change of the operands that every operator passes on, also where it finds
    too few of them. -/
def PassedOn (f : List Expr → List Expr) : Prop :=
  ∀ o out, applyOp o (f out) = (applyOp o out).mapLeft f

/-- The state with its operands changed. -/
def State.mapOutput (f : List Expr → List Expr) (s : State) : State :=
  ⟨f s.output, s.operators⟩

section PassedOn

variable {f : List Expr → List Expr}

theorem pushOp_mapOutput (hf : PassedOn f) (op : Operator) (ops : List Pending) :
    ∀ out, pushOp op (f out) ops = (pushOp op out ops).mapLeft (State.mapOutput f) := by
  induction ops with
  | nil => exact fun out => rfl
  | cons top rest ih =>
    intro out
    cases top with
    | openParen => rfl
    | op o =>
      simp only [pushOp, hf o out]
      split
      · rcases applyOp o out with ⟨⟨e⟩ | ⟨⟨⟩⟩, out'⟩
        · rfl
        · exact ih out'
      · rfl

theorem closeParen_mapOutput (hf : PassedOn f) (ops : List Pending) :
    ∀ out, closeParen (f out) ops = (closeParen out ops).mapLeft (State.mapOutput f) := by
  induction ops with
  | nil => exact fun out => rfl
  | cons top rest ih =>
    intro out
    cases top with
    | openParen => rfl
    | op o =>
      simp only [closeParen, hf o out]
      rcases applyOp o out with ⟨⟨e⟩ | ⟨⟨⟩⟩, out'⟩
      · rfl
      · exact ih out'

theorem drain_mapOutput (hf : PassedOn f) (ops : List Pending) :
    ∀ out, drain (f out) ops = (drain out ops).mapLeft (State.mapOutput f) := by
  induction ops with
  | nil => exact fun out => rfl
  | cons top rest ih =>
    intro out
    cases top with
    | openParen => rfl
    | op o =>
      simp only [drain, hf o out]
      rcases applyOp o out with ⟨⟨e⟩ | ⟨⟨⟩⟩, out'⟩
      · rfl
      · exact ih out'

end PassedOn

section Replacing

variable (new : Expr) (k : Nat)

/-- The trees on a stack with `new` in place of their leaf number `k`, counted
    from the left and from the bottom. -/
def replaceIn : List Expr → List Expr
  | [] => []
  | x :: rest =>
    if k < (stackAtoms rest).length then x :: replaceIn rest
    else .replaceLeaf new (k - (stackAtoms rest).length) x :: rest

variable {new k}

theorem replaceIn_cons_of_lt {rest : List Expr} (h : k < (stackAtoms rest).length) (x : Expr) :
    replaceIn new k (x :: rest) = x :: replaceIn new k rest := by
  rw [replaceIn, if_pos h]

theorem replaceIn_cons_of_le {rest : List Expr} (h : (stackAtoms rest).length ≤ k) (x : Expr) :
    replaceIn new k (x :: rest) =
      .replaceLeaf new (k - (stackAtoms rest).length) x :: rest := by
  rw [replaceIn, if_neg (Nat.not_lt.mpr h)]

theorem passedOn_replaceIn : PassedOn (replaceIn new k) := by
  intro o out
  cases o with
  | unary s =>
    rcases out with _ | ⟨x, rest⟩
    · rfl
    · rw [applyOp_unary, Outcome.mapLeft_ok]
      rcases Nat.lt_or_ge k (stackAtoms rest).length with hk | hk
      · rw [replaceIn_cons_of_lt hk, replaceIn_cons_of_lt hk, applyOp_unary]
      · rw [replaceIn_cons_of_le hk, replaceIn_cons_of_le hk, applyOp_unary, Expr.replaceLeaf]
  | binary b =>
    rcases out with _ | ⟨r, _ | ⟨l, rest⟩⟩
    · rfl
    · rfl
    · rw [applyOp_binary, Outcome.mapLeft_ok]
      have hlen : (stackAtoms (l :: rest)).length = (stackAtoms rest).length + l.atoms.length := by
        rw [stackAtoms_cons, List.length_append]
      -- The leaf is below both operands, in the left one or in the right one.
      rcases Nat.lt_or_ge k (stackAtoms rest).length with hk | hk
      · have hk' : k < (stackAtoms (l :: rest)).length := by omega
        rw [replaceIn_cons_of_lt hk', replaceIn_cons_of_lt hk, replaceIn_cons_of_lt hk,
          applyOp_binary]
      · rw [replaceIn_cons_of_le hk, Expr.replaceLeaf]
        rcases Nat.lt_or_ge k (stackAtoms (l :: rest)).length with hk' | hk'
        · have hleft : k - (stackAtoms rest).length < l.atoms.length := by omega
          rw [replaceIn_cons_of_lt hk', replaceIn_cons_of_le hk, applyOp_binary, if_pos hleft]
        · have hright : ¬ k - (stackAtoms rest).length < l.atoms.length := by omega
          rw [replaceIn_cons_of_le hk', applyOp_binary, if_neg hright, hlen, Nat.sub_sub]

/-- A leaf that is read comes behind the replaced one. -/
theorem readToken_replaceLeaf {t : Token} {s : State} (h : k < s.atoms.length) :
    readToken t (s.mapOutput (replaceIn new k)) =
      (readToken t s).mapLeft (State.mapOutput (replaceIn new k)) := by
  cases t with
  | atom a =>
    have hcons : replaceIn new k (.leaf a :: s.output) = _ := replaceIn_cons_of_lt h (.leaf a)
    simp only [readToken, Outcome.mapLeft_ok, State.mapOutput, hcons]
  | op o => exact pushOp_mapOutput passedOn_replaceIn o s.operators s.output
  | openParen => rfl
  | closeParen => exact closeParen_mapOutput passedOn_replaceIn s.operators s.output

theorem readAll_replaceLeaf {ts : List Token} :
    ∀ {s : State}, k < s.atoms.length → readAll ts (s.mapOutput (replaceIn new k)) =
      (readAll ts s).mapLeft (State.mapOutput (replaceIn new k)) := by
  induction ts with
  | nil => exact fun _ => rfl
  | cons t ts ih =>
    intro s h
    rw [readAll, readAll, readToken_replaceLeaf h]
    refine Outcome.mapLeft_andThen _ (fun _ mid hmid => ih ?_)
    -- No leaf has been lost, so the number is still small enough.
    rw [(absorbs_of_readToken hmid).atoms, List.length_append]
    exact Nat.lt_add_right _ h

theorem length_replaceIn (out : List Expr) : (replaceIn new k out).length = out.length := by
  induction out with
  | nil => rfl
  | cons x rest ih =>
    rw [replaceIn]
    split
    · rw [List.length_cons, List.length_cons, ih]
    · rfl

theorem onlyOperand_replaceLeaf (s : State) :
    (onlyOperand (s.mapOutput (replaceIn new k))).result =
      (onlyOperand s).result.map (.replaceLeaf new k) := by
  rcases s with ⟨out, ops⟩
  rcases out with _ | ⟨x, _ | ⟨y, rest⟩⟩
  · rfl
  · have hone : replaceIn new k [x] = [.replaceLeaf new k x] := replaceIn_cons_of_le k.zero_le x
    simp only [State.mapOutput, hone, onlyOperand]
    rfl
  · have hlen : (replaceIn new k (x :: y :: rest)).length = rest.length + 2 :=
      length_replaceIn _
    have hmany : onlyOperand ⟨replaceIn new k (x :: y :: rest), ops⟩ = _ :=
      onlyOperand_of_length (hlen ▸ Nat.le_add_left 2 _)
    rw [State.mapOutput, hmany, hlen]
    rfl

/-- The parser never looks into an operand: with another tree in place of a
    leaf it finds the same tree with that leaf replaced, or the same error. -/
theorem run_replaceLeaf {ts : List Token} {s : State} (h : k < s.atoms.length) :
    (run ts (s.mapOutput (replaceIn new k))).result =
      (run ts s).result.map (.replaceLeaf new k) := by
  rw [run, run, readAll_replaceLeaf h]
  rcases readAll ts s with ⟨⟨e⟩ | ⟨⟨⟩⟩, mid⟩
  · rfl
  · simp only [Outcome.mapLeft, Outcome.andThen, finish]
    have hpassed : PassedOn (replaceIn new k) := passedOn_replaceIn
    have hdrain := drain_mapOutput hpassed mid.operators mid.output
    simp only [State.mapOutput, hdrain]
    rcases drain mid.output mid.operators with ⟨⟨e⟩ | ⟨⟨⟩⟩, last⟩
    · rfl
    · exact onlyOperand_replaceLeaf last

/-- An expression in parentheses and an atom leave states that differ in the
    one leaf. -/
theorem run_parens_eq_replaceLeaf {ts : List Token} {t : Expr} (h : parse ts = .ok t)
    (after : List Token) (a : Atom) (s : State) :
    (run (.openParen :: ts ++ [.closeParen] ++ after) s).result =
      (run ([.atom a] ++ after) s).result.map (.replaceLeaf t s.atoms.length) := by
  rcases s with ⟨out, ops⟩
  have hleaf : State.mapOutput (replaceIn t (stackAtoms out).length) ⟨.leaf a :: out, ops⟩ =
      ⟨t :: out, ops⟩ := by
    rw [State.mapOutput, replaceIn_cons_of_le (Nat.le_refl _), Nat.sub_self, Expr.replaceLeaf,
      if_pos rfl]
  have hlt : (stackAtoms out).length < (stackAtoms (.leaf a :: out)).length := by
    rw [stackAtoms_cons, List.length_append]
    exact Nat.lt_succ_self _
  rw [run_append, run_append, readAll_parens out ops h, Outcome.andThen_ok, ← hleaf]
  exact run_replaceLeaf hlt

end Replacing

end Parser

/-- The atoms among the tokens are counted by what they are. -/
theorem length_atoms (ts : List Token) :
    (ts.filterMap Token.atom?).length = ts.countP Token.isAtom := by
  rw [List.length_filterMap_eq_countP]
  congr 1
  funext t
  cases t <;> rfl

/-- An expression in parentheses is parsed like an atom, whatever tokens stand
    before and behind it: with the same error, or into the same tree with the
    leaf of that atom replaced by the tree of the expression. The leaf has the
    number of atoms before it. -/
theorem parse_parens_eq_replaceLeaf {ts : List Token} {t : Expr} (h : parse ts = .ok t)
    (before after : List Token) (a : Atom) :
    parse (before ++ [.openParen] ++ ts ++ [.closeParen] ++ after) =
        (parse (before ++ [.atom a] ++ after)).map
          (.replaceLeaf t (before.countP Token.isAtom)) ∧
      ∀ u, parse (before ++ [.atom a] ++ after) = .ok u →
        u.atoms[before.countP Token.isAtom]? = some a := by
  rw [← length_atoms]
  constructor
  · have hparens : before ++ [.openParen] ++ ts ++ [.closeParen] ++ after =
        before ++ (.openParen :: ts ++ [.closeParen] ++ after) := by
      simp only [List.append_assoc, List.cons_append, List.nil_append]
    rw [hparens, List.append_assoc before, parse, parse, Parser.run_append, Parser.run_append]
    -- Up to the parenthesis the two runs are the same, errors included.
    rcases hread : Parser.readAll before .empty with ⟨⟨e⟩ | ⟨⟨⟩⟩, s⟩
    · rfl
    · have hatoms : s.atoms = before.filterMap Token.atom? :=
        (Parser.absorbs_of_readAll hread).atoms
      rw [← hatoms]
      exact Parser.run_parens_eq_replaceLeaf h after a s
  · intro u hu
    rw [← atoms_of_parse hu, List.append_assoc, List.filterMap_append,
      List.getElem?_append_right (Nat.le_refl _), Nat.sub_self]
    rfl

/-- The exponent in `pi ** e * e` against the one in `pi ** (e + pi) * e`. -/
theorem parse_parens_exponent :
    let ts : List Token := [.atom .e, .op (.binary .add), .atom .pi]
    let t : Expr := .binary .add (.leaf .e) (.leaf .pi)
    let before : List Token := [.atom .pi, .op (.binary .pow)]
    let after : List Token := [.op (.binary .mul), .atom .e]
    parse ts = .ok t ∧
      parse (before ++ [.atom .e] ++ after) =
        .ok (.binary .mul (.binary .pow (.leaf .pi) (.leaf .e)) (.leaf .e)) ∧
      parse (before ++ [.openParen] ++ ts ++ [.closeParen] ++ after) =
        .ok (.binary .mul (.binary .pow (.leaf .pi) t) (.leaf .e)) := by
  intro ts t before after
  have hts : parse ts = .ok t := rfl
  have hatom : parse (before ++ [.atom .e] ++ after) =
      .ok (.binary .mul (.binary .pow (.leaf .pi) (.leaf .e)) (.leaf .e)) := rfl
  refine ⟨hts, hatom, ?_⟩
  rw [(parse_parens_eq_replaceLeaf hts before after .e).1, hatom]
  rfl

end Abacus
