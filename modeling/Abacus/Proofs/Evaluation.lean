import Abacus.Proofs.Calculation

/-!
# Turns of an Evaluation

An evaluation works off a list of work over a stack of numbers, one item a
turn. The list gets longer while it does so: a node that is visited puts its
operands and its operator on it. So neither that the work ever ends nor that an
operator finds its numbers can be seen from a single turn.

What a turn does not touch settles both. A visit to a tree only ever works on
what it has itself put on the list, and on numbers that it has itself put on the
stack. Whatever else is on the two of them, after a number of turns that depends
on the tree alone the list is back where it was and the stack has the meaning of
the tree on it. On the way there the numbers on top are meanings of parts of the
tree, so nothing else is ever computed, and in particular nothing outside of the
arithmetic.

`Expr.compute` runs the same turns without counting them. There every turn makes
the list lighter, which is how it is known to end for any list.

## Main definitions

* `Expr.turn`: One turn of an evaluation.
* `Expr.turns`: A number of turns, if there are as many.
* `Expr.turnCount`: How many turns a tree takes.
* `Expr.parts`: The trees that a tree is made of.
* `Expr.MidVisit`: A visit goes on, on top of other work and other numbers.

## Theorems

* `Expr.compute_eq_some_iff`: A list of work comes to what its turns lead to.
* `Expr.weight_of_turn`: Every turn makes the list of work lighter.
* `Expr.turns_visit`: A visit leaves the meaning of the tree on the stack and
  all else as it was.
* `Expr.turns_within_visit`: During a visit the numbers on top are meanings of
  parts of the tree.
* `Expr.evaluation_by_turns`: An evaluation of a tree ends with its meaning, and
  no operator finds too few numbers.
-/

namespace Abacus

namespace Expr

variable {α : Type} (A : Arithmetic α)

/-- One turn of an evaluation on its work and its stack. There is none if no
    work is left, and none if an operator finds too few numbers. -/
def turn : List Work × List α → Option (List Work × List α)
  | (.visit (leaf a) :: rest, stack) => some (rest, A.literal a.value :: stack)
  | (.visit (unary s x) :: rest, stack) => some (.visit x :: .applySign s :: rest, stack)
  | (.visit (binary o l r) :: rest, stack) =>
    some (.visit l :: .visit r :: .applyOp o :: rest, stack)
  | (.applySign s :: rest, x :: stack) => some (rest, A.unary s x :: stack)
  | (.applyOp o :: rest, right :: left :: stack) => some (rest, A.binary o left right :: stack)
  | _ => none

/-- Where a number of turns leads, if there are as many. -/
def turns : Nat → List Work × List α → Option (List Work × List α)
  | 0, c => some c
  | n + 1, c => (turn A c).bind (turns n)

/-- How many turns a tree takes: each leaf and each node is visited once, and
    each operator is applied once. -/
def turnCount (t : Expr) : Nat :=
  t.size + t.operators.length

/-- The trees that a tree is made of, itself included. -/
def parts : Expr → List Expr
  | leaf a => [leaf a]
  | unary s x => unary s x :: x.parts
  | binary o l r => binary o l r :: (l.parts ++ r.parts)

theorem mem_parts_self (t : Expr) : t ∈ t.parts := by
  cases t <;> simp only [parts, List.mem_cons, true_or]

theorem turnCount_leaf (a : Atom) : (leaf a).turnCount = 1 := rfl

theorem turnCount_unary (s : Sign) (x : Expr) : (unary s x).turnCount = x.turnCount + 2 := by
  simp only [turnCount, size, operators, List.length_append, List.length_singleton]
  omega

theorem turnCount_binary (o : BinOp) (l r : Expr) :
    (binary o l r).turnCount = l.turnCount + r.turnCount + 2 := by
  simp only [turnCount, size, operators, List.length_append, List.length_singleton]
  omega

theorem turns_succ {c c' : List Work × List α} (h : turn A c = some c') (n : Nat) :
    turns A (n + 1) c = turns A n c' := by
  simp only [turns, h, Option.bind_some]

theorem turns_add {m n : Nat} {c c' : List Work × List α} (h : turns A m c = some c') :
    turns A (m + n) c = turns A n c' := by
  induction m generalizing c with
  | zero =>
    simp only [turns, Option.some.injEq] at h
    rw [h, Nat.zero_add]
  | succ m ih =>
    rcases hturn : turn A c with _ | mid
    · simp only [turns, hturn, Option.bind_none, reduceCtorEq] at h
    · rw [turns_succ A hturn] at h
      rw [Nat.succ_add, turns_succ A hturn, ih h]

/-- The loop goes on from where a turn leads. Where there is no turn it ends,
    and has no result if work is left. -/
theorem compute_eq (work : List Work) (stack : List α) :
    compute A work stack = match turn A (work, stack) with
      | some (work', stack') => compute A work' stack'
      | none => if work = [] then some stack else none := by
  -- By what is first on the list; an operator has a turn only if its numbers are there.
  rcases work with _ | ⟨w, rest⟩
  · rw [compute]
    rfl
  rcases w with (a | ⟨s, x⟩ | ⟨o, l, r⟩) | s | o
  · rw [compute]
    rfl
  · rw [compute]
    rfl
  · rw [compute]
    rfl
  · rcases stack with _ | ⟨x, stack⟩ <;> simp [compute, turn]
  · rcases stack with _ | ⟨right, _ | ⟨left, stack⟩⟩ <;> simp [compute, turn]

/-- A turn makes the list of work lighter, also where it makes it longer. -/
theorem weight_of_turn {work work' : List Work} {stack stack' : List α}
    (h : turn A (work, stack) = some (work', stack')) :
    Work.weight work' < Work.weight work := by
  unfold turn at h
  split at h <;> simp only [Option.some.injEq, Prod.mk.injEq, reduceCtorEq] at h
  all_goals
    rename_i heq
    simp only [Prod.mk.injEq] at heq
    rw [heq.1, ← h.1]
    simp only [Work.weight, size]
    omega

theorem compute_of_turns {n : Nat} {work : List Work} {stack out : List α}
    (h : turns A n (work, stack) = some ([], out)) : compute A work stack = some out := by
  induction n generalizing work stack with
  | zero =>
    simp only [turns, Option.some.injEq, Prod.mk.injEq] at h
    rw [h.1, h.2, compute]
  | succ n ih =>
    rcases hturn : turn A (work, stack) with _ | ⟨mid, numbers⟩
    · simp only [turns, hturn, Option.bind_none, reduceCtorEq] at h
    · rw [turns_succ A hturn] at h
      simp only [compute_eq A work stack, hturn]
      exact ih h

/-- A list of work comes to what its turns lead to, and to nothing if they stop
    before. -/
theorem compute_eq_some_iff {work : List Work} {stack out : List α} :
    compute A work stack = some out ↔ ∃ n, turns A n (work, stack) = some ([], out) := by
  constructor
  · -- The weight bounds the turns that are left.
    induction hw : Work.weight work using Nat.strong_induction_on generalizing work stack with
    | _ w ih =>
      intro h
      rcases hturn : turn A (work, stack) with _ | ⟨mid, numbers⟩
      · simp only [compute_eq A work stack, hturn] at h
        split at h
        · next hnil =>
          simp only [Option.some.injEq] at h
          exact ⟨0, by rw [hnil, h, turns]⟩
        · simp only [reduceCtorEq] at h
      · simp only [compute_eq A work stack, hturn] at h
        have hlt := weight_of_turn A hturn
        rcases ih _ (by omega) rfl h with ⟨n, hn⟩
        exact ⟨n + 1, by rw [turns_succ A hturn, hn]⟩
  · rintro ⟨n, hn⟩
    exact compute_of_turns A hn

/-- A visit puts the meaning of the tree on the stack and leaves all else as it
    was, on the list and on the stack. -/
theorem turns_visit (t : Expr) (rest : List Work) (stack : List α) :
    turns A t.turnCount (.visit t :: rest, stack) = some (rest, t.meaning A :: stack) := by
  induction t generalizing rest stack with
  | leaf a => rfl
  | unary s x ih =>
    have hopen : turns A 1 (.visit (unary s x) :: rest, stack) =
        some (.visit x :: .applySign s :: rest, stack) := rfl
    rw [turnCount_unary, show x.turnCount + 2 = 1 + (x.turnCount + 1) by omega,
      turns_add A hopen, turns_add A (ih _ _)]
    rfl
  | binary o l r ihl ihr =>
    have hopen : turns A 1 (.visit (binary o l r) :: rest, stack) =
        some (.visit l :: .visit r :: .applyOp o :: rest, stack) := rfl
    -- The right operand is visited with the left value below it.
    rw [turnCount_binary,
      show l.turnCount + r.turnCount + 2 = 1 + (l.turnCount + (r.turnCount + 1)) by omega,
      turns_add A hopen, turns_add A (ihl _ _), turns_add A (ihr _ _)]
    rfl

/-- In the middle of a visit: there is work of its own on the list and there may
    be numbers of its own on the stack, which are meanings of the given trees.
    Both lie on top of what was there before. -/
def MidVisit (trees : List Expr) (rest : List Work) (stack : List α)
    (c : List Work × List α) : Prop :=
  ∃ work numbers, c = (work ++ rest, numbers ++ stack) ∧ work ≠ [] ∧
    numbers ⊆ trees.map (meaning A)

theorem midVisit_start (t : Expr) (trees : List Expr) (rest : List Work) (stack : List α) :
    MidVisit A trees rest stack (.visit t :: rest, stack) :=
  ⟨[.visit t], [], rfl, List.cons_ne_nil _ _, List.nil_subset _⟩

variable {A} in
/-- A visit to an operand is part of the visit to its node. What the node has
    put below the operand counts as its own. -/
theorem MidVisit.widen {trees trees' : List Expr} {rest : List Work} {stack : List α}
    {c : List Work × List α} (more : List Work) (below : List α)
    (h : MidVisit A trees (more ++ rest) (below ++ stack) c) (hsub : trees ⊆ trees')
    (hbelow : below ⊆ trees'.map (meaning A)) : MidVisit A trees' rest stack c := by
  rcases h with ⟨work, numbers, rfl, hwork, hnumbers⟩
  refine ⟨work ++ more, numbers ++ below, ?_, List.append_ne_nil_of_left_ne_nil hwork _, ?_⟩
  · rw [List.append_assoc, List.append_assoc]
  · exact List.append_subset.mpr ⟨List.Subset.trans hnumbers (List.map_subset _ hsub), hbelow⟩

theorem singleton_subset_meanings {t : Expr} {trees : List Expr} (h : t.parts ⊆ trees) :
    [t.meaning A] ⊆ trees.map (meaning A) :=
  List.cons_subset.mpr ⟨List.mem_map_of_mem (h t.mem_parts_self), List.nil_subset _⟩

/-- As long as a visit goes on it works on nothing but its own, and its numbers
    are meanings of parts of the tree. -/
theorem turns_within_visit (t : Expr) {n : Nat} (hn : n < t.turnCount) (rest : List Work)
    (stack : List α) :
    ∃ c, turns A n (.visit t :: rest, stack) = some c ∧ MidVisit A t.parts rest stack c := by
  induction t generalizing n rest stack with
  | leaf a =>
    have hzero : n = 0 := by
      rw [turnCount_leaf] at hn
      omega
    rw [hzero]
    exact ⟨_, rfl, midVisit_start A _ _ rest stack⟩
  | unary s x ih =>
    rw [turnCount_unary] at hn
    rcases n with _ | m
    · exact ⟨_, rfl, midVisit_start A _ _ rest stack⟩
    have hsub : x.parts ⊆ (unary s x).parts := List.subset_cons_self _ _
    have hopen : turn A (.visit (unary s x) :: rest, stack) =
        some (.visit x :: .applySign s :: rest, stack) := rfl
    rw [turns_succ A hopen]
    by_cases hm : m < x.turnCount
    · rcases ih hm (.applySign s :: rest) stack with ⟨c, hc, hmid⟩
      exact ⟨c, hc, .widen [.applySign s] [] hmid hsub (List.nil_subset _)⟩
    · -- Only the sign is left, with the value of the operand on top.
      rw [show m = x.turnCount by omega, turns_visit]
      exact ⟨_, rfl, [.applySign s], [x.meaning A], rfl, List.cons_ne_nil _ _,
        singleton_subset_meanings A hsub⟩
  | binary o l r ihl ihr =>
    rw [turnCount_binary] at hn
    rcases n with _ | m
    · exact ⟨_, rfl, midVisit_start A _ _ rest stack⟩
    have hleft : l.parts ⊆ (binary o l r).parts :=
      List.subset_cons_of_subset _ (List.subset_append_left _ _)
    have hright : r.parts ⊆ (binary o l r).parts :=
      List.subset_cons_of_subset _ (List.subset_append_right _ _)
    have hopen : turn A (.visit (binary o l r) :: rest, stack) =
        some (.visit l :: .visit r :: .applyOp o :: rest, stack) := rfl
    rw [turns_succ A hopen]
    by_cases hm : m < l.turnCount
    · rcases ihl hm (.visit r :: .applyOp o :: rest) stack with ⟨c, hc, hmid⟩
      exact ⟨c, hc, .widen [.visit r, .applyOp o] [] hmid hleft (List.nil_subset _)⟩
    -- The left operand is done, and its value stays below what the right one needs.
    rw [show m = l.turnCount + (m - l.turnCount) by omega, turns_add A (turns_visit A l _ _)]
    by_cases hk : m - l.turnCount < r.turnCount
    · rcases ihr hk (.applyOp o :: rest) (l.meaning A :: stack) with ⟨c, hc, hmid⟩
      exact ⟨c, hc, .widen [.applyOp o] [l.meaning A] hmid hright
        (singleton_subset_meanings A hleft)⟩
    · rw [show m - l.turnCount = r.turnCount by omega, turns_visit]
      exact ⟨_, rfl, [.applyOp o], [r.meaning A, l.meaning A], rfl, List.cons_ne_nil _ _,
        List.append_subset.mpr
          ⟨singleton_subset_meanings A hright, singleton_subset_meanings A hleft⟩⟩

/-- A visit to a tree takes as many turns as the tree has, over any list of work
    and any stack, and leaves the meaning of the tree on the stack. So an
    evaluation is over after these turns and not before: until then there is work
    left and a turn to take, no operator finds too few numbers, and every number
    on the stack is the meaning of a part of the tree. In the end the stack holds
    one number. The loop runs these turns, so this is what it comes to, in any
    arithmetic and in each precision. -/
theorem evaluation_by_turns (t : Expr) :
    (∀ out, compute A [.visit t] [] = some out ↔
      ∃ n, turns A n ([.visit t], []) = some ([], out)) ∧
    (∀ rest stack,
      turns A t.turnCount (.visit t :: rest, stack) = some (rest, t.meaning A :: stack)) ∧
    (∀ n c, turns A n ([.visit t], []) = some c → n ≤ t.turnCount) ∧
    (∀ n < t.turnCount, ∃ work stack, turns A n ([.visit t], []) = some (work, stack) ∧
      work ≠ [] ∧ stack ⊆ t.parts.map (meaning A)) ∧
    compute A [.visit t] [] = some [t.meaning A] ∧ t.value A = t.meaning A ∧
    t.evaluate .f64 = t.meaning Arithmetic.double ∧
    t.evaluate .f32 = (t.meaning Arithmetic.single).toFloat := by
  have hvisit := turns_visit A t [] []
  refine ⟨fun out => compute_eq_some_iff A, turns_visit A t, fun n c h => ?_, fun n hn => ?_,
    compute_of_turns A hvisit, t.value_eq_meaning A, t.value_eq_meaning _, ?_⟩
  · by_contra hlong
    -- A turn more would need work that is no longer there.
    rw [show n = t.turnCount + (n - t.turnCount - 1 + 1) by omega, turns_add A hvisit] at h
    cases h
  · rcases turns_within_visit A t hn [] [] with ⟨_, hturns, work, numbers, rfl, hwork, hparts⟩
    rw [List.append_nil, List.append_nil] at hturns
    exact ⟨work, numbers, hturns, hwork, hparts⟩
  · exact congrArg Float32.toFloat (t.value_eq_meaning _)

/-- The six turns of `e - (-pi)` in the arithmetic of trees, where nothing is
    ever worked out. After four of them the stack holds `pi` on top of `e`. -/
theorem evaluation_by_turns_e_minus_neg_pi :
    let A : Arithmetic Expr := ⟨fun v => .leaf (.number v), .unary, .binary⟩
    let e : Expr := .leaf (.number Atom.e.value)
    let pi : Expr := .leaf (.number Atom.pi.value)
    let t : Expr := .binary .sub (.leaf .e) (.unary .minus (.leaf .pi))
    t.turnCount = 6 ∧
    turns A 4 ([.visit t], []) = some ([.applySign .minus, .applyOp .sub], [pi, e]) ∧ 4 ≤ 6 ∧
    (∃ work stack, turns A 4 ([.visit t], []) = some (work, stack) ∧
      work ≠ [] ∧ stack ⊆ t.parts.map (meaning A)) ∧
    compute A [.visit t] [] = some [.binary .sub e (.unary .minus pi)] := by
  intro A e pi t
  have hcount : t.turnCount = 6 := rfl
  have hfour : turns A 4 ([.visit t], []) = some ([.applySign .minus, .applyOp .sub], [pi, e]) :=
    rfl
  rcases evaluation_by_turns A t with ⟨_, _, hmost, hwithin, hresult, _⟩
  exact ⟨hcount, hfour, hcount ▸ hmost 4 _ hfour, hwithin 4 (by rw [hcount]; omega), hresult⟩

end Expr

end Abacus
