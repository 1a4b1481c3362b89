import Abacus.Proofs.Printing

/-!
# Turns of a Printing

A printing works off a list of work, one item a turn. A piece of text or a leaf
is written, and a node is put back on the list in its parts. So a turn may make
the list longer, and only what is left to do on it becomes less: the pieces that
are still to be written, and the nodes that are still to be taken apart. A turn
does one of the two, so their number is the number of turns.

What a list of work comes to is not changed by a turn. The items on it are
printed one after the other, each of them as if it were alone, behind whatever
is written already. A tree that is alone is printed as the recursion over its
nodes says.

## Main definitions

* `Expr.pieces`: The pieces that the text of a tree is put together from.
* `Printing.turn`: One turn of a printing.
* `Printing.turns`: A number of turns, if there are as many.
* `Printing.turnCount`: How many turns an item takes.

## Theorems

* `Printing.printAll_of_turn`: A turn does not change what comes out.
* `Printing.turnCount_of_turn`: A turn leaves one turn less to take.
* `Printing.turns_eq_printAll`: The loop is over after these turns.
* `Printing.printAll_eq`: The pieces of all items are written in their order.
* `Printing.printing_by_turns`: A printing ends with what the recursion says.
-/

namespace Abacus

namespace Expr

/-- The pieces that the text of a tree is put together from. -/
def pieces : Expr → List (List Char)
  | leaf a => [a.text]
  | unary s x => ('(' :: s.symbol.toList) :: x.pieces ++ [[')']]
  | binary o l r => ['('] :: l.pieces ++ (' ' :: o.symbol.toList ++ [' ']) :: r.pieces ++ [[')']]

theorem flatten_pieces (t : Expr) : t.pieces.flatten = t.text := by
  induction t with
  | leaf a => simp only [pieces, text, List.flatten_cons, List.flatten_nil, List.append_nil]
  | unary s x ih =>
    simp only [pieces, text, List.flatten_append, List.flatten_cons, List.flatten_nil, ih,
      List.append_nil, List.cons_append, List.append_assoc]
  | binary o l r ihl ihr =>
    simp only [pieces, text, List.flatten_append, List.flatten_cons, List.flatten_nil, ihl, ihr,
      List.append_nil, List.cons_append, List.nil_append, List.append_assoc]

end Expr

namespace Printing

/-- The pieces that an item of the list comes to. -/
def pieces : Printing → List (List Char)
  | piece text => [text]
  | tree t => t.pieces

/-- One turn of a printing on what is written and on its work. There is none if
    no work is left. -/
def turn : List (List Char) × List Printing → Option (List (List Char) × List Printing)
  | (_, []) => none
  | (written, piece text :: rest) => some (text :: written, rest)
  | (written, tree (.leaf a) :: rest) => some (a.text :: written, rest)
  | (written, tree (.unary s x) :: rest) =>
    some (written, piece ('(' :: s.symbol.toList) :: tree x :: piece [')'] :: rest)
  | (written, tree (.binary o l r) :: rest) =>
    some (written, piece ['('] :: tree l :: piece (' ' :: o.symbol.toList ++ [' ']) :: tree r ::
      piece [')'] :: rest)

/-- Where a number of turns leads, if there are as many. -/
def turns : Nat → List (List Char) × List Printing → Option (List (List Char) × List Printing)
  | 0, c => some c
  | n + 1, c => (turn c).bind (turns n)

/-- How many turns an item takes: each of its pieces is written, and each of its
    nodes is taken apart. -/
def turnCount : Printing → Nat
  | piece _ => 1
  | tree t => t.pieces.length + t.operators.length

/-- How many turns a list of work takes. -/
def turnsLeft (work : List Printing) : Nat :=
  (work.map turnCount).sum

theorem turnCount_unary (s : Sign) (x : Expr) :
    turnCount (tree (.unary s x)) = turnCount (tree x) + 3 := by
  simp only [turnCount, Expr.pieces, Expr.operators, List.length_append, List.length_cons,
    List.length_nil]
  omega

theorem turnCount_binary (o : BinOp) (l r : Expr) :
    turnCount (tree (.binary o l r)) = turnCount (tree l) + turnCount (tree r) + 4 := by
  simp only [turnCount, Expr.pieces, Expr.operators, List.length_append, List.length_cons,
    List.length_nil]
  omega

theorem turnCount_pos (x : Printing) : 0 < x.turnCount := by
  cases x with
  | piece text => exact Nat.one_pos
  | tree t =>
    cases t with
    | leaf a => exact Nat.one_pos
    | unary s x =>
      rw [turnCount_unary]
      exact Nat.succ_pos _
    | binary o l r =>
      rw [turnCount_binary]
      exact Nat.succ_pos _

theorem turnsLeft_cons (x : Printing) (rest : List Printing) :
    turnsLeft (x :: rest) = x.turnCount + turnsLeft rest := by
  simp only [turnsLeft, List.map_cons, List.sum_cons]

variable {written written' : List (List Char)} {work work' : List Printing}

/-- Only an empty list of work has no turn. -/
theorem exists_turn (written : List (List Char)) (h : work ≠ []) :
    ∃ c, turn (written, work) = some c := by
  rcases work with _ | ⟨_ | (a | ⟨s, x⟩ | ⟨o, l, r⟩), rest⟩
  · exact absurd rfl h
  all_goals exact ⟨_, rfl⟩

/-- A turn does not change what comes out. -/
theorem printAll_of_turn (h : turn (written, work) = some (written', work')) :
    Expr.printAll written work = Expr.printAll written' work' := by
  rcases work with _ | ⟨_ | (a | ⟨s, x⟩ | ⟨o, l, r⟩), rest⟩
  · cases h
  all_goals
    cases h
    conv_lhs => rw [Expr.printAll]

/-- A turn leaves one turn less to take. -/
theorem turnCount_of_turn (h : turn (written, work) = some (written', work')) :
    turnsLeft work = turnsLeft work' + 1 := by
  rcases work with _ | ⟨_ | (a | ⟨s, x⟩ | ⟨o, l, r⟩), rest⟩
  · cases h
  · cases h
    rw [turnsLeft_cons, turnCount, Nat.add_comm]
  · cases h
    rw [turnsLeft_cons, Nat.add_comm]
    rfl
  · cases h
    simp only [turnsLeft_cons, turnCount_unary]
    simp only [turnCount]
    omega
  · cases h
    simp only [turnsLeft_cons, turnCount_binary]
    simp only [turnCount]
    omega

/-- After as many turns as are left the list of work is empty, and what comes out
    is written. -/
theorem turns_eq_printAll :
    turns (turnsLeft work) (written, work) = some (Expr.printAll written work, []) := by
  induction hn : turnsLeft work generalizing written work with
  | zero =>
    cases work with
    | nil =>
      rw [Expr.printAll]
      rfl
    | cons x rest =>
      have hpos := x.turnCount_pos
      rw [turnsLeft_cons] at hn
      omega
  | succ n ih =>
    have hne : work ≠ [] := by
      rintro rfl
      exact Nat.succ_ne_zero n hn.symm
    rcases exists_turn written hne with ⟨⟨written', work'⟩, hturn⟩
    have hleft := turnCount_of_turn hturn
    rw [turns, hturn, Option.bind_some, ih (by omega), printAll_of_turn hturn]

/-- There are no other turns than those. -/
theorem exists_turns_iff {n : Nat} :
    (∃ c, turns n (written, work) = some c) ↔ n ≤ turnsLeft work := by
  induction n generalizing written work with
  | zero => exact iff_of_true ⟨_, rfl⟩ (Nat.zero_le _)
  | succ n ih =>
    by_cases hne : work = []
    · subst hne
      refine iff_of_false ?_ (Nat.not_succ_le_zero n)
      rintro ⟨c, hc⟩
      cases hc
    · rcases exists_turn written hne with ⟨⟨written', work'⟩, hturn⟩
      rw [turns, hturn, Option.bind_some, ih, turnCount_of_turn hturn, Nat.add_le_add_iff_right]

/-- The pieces of all items are written in their order, in front of what is
    written already. -/
theorem printAll_eq (written : List (List Char)) (work : List Printing) :
    Expr.printAll written work = (work.flatMap pieces).reverse ++ written := by
  fun_induction Expr.printAll written work with
  | case1 written => rfl
  | case2 written text rest ih =>
    rw [ih, List.flatMap_cons, pieces, List.reverse_append, List.append_assoc]
    rfl
  | case3 written a rest ih =>
    rw [ih, List.flatMap_cons, pieces, List.reverse_append, List.append_assoc]
    rfl
  | case4 written s x rest ih =>
    -- The parts of a node have the pieces of the node.
    rw [ih]
    simp only [List.flatMap_cons, pieces, Expr.pieces, List.cons_append, List.nil_append,
      List.append_assoc]
  | case5 written o l r rest ih =>
    rw [ih]
    simp only [List.flatMap_cons, pieces, Expr.pieces, List.cons_append, List.nil_append,
      List.append_assoc]

/-- A printing takes as many turns as there are pieces to write and nodes to take
    apart, whatever is written already and whatever else is on the list of work.
    Then the list is empty, and behind what was written before are the pieces of
    all items, from the top of the list to its end. In the text that is what was
    written before and then the texts of the items, those of trees by the
    recursion over their nodes. -/
theorem printing_by_turns (written : List (List Char)) (work : List Printing) :
    (∀ n, (∃ c, turns n (written, work) = some c) ↔ n ≤ turnsLeft work) ∧
    turns (turnsLeft work) (written, work) = some (Expr.printAll written work, []) ∧
    Expr.printAll written work = (work.flatMap pieces).reverse ++ written ∧
    (Expr.printAll written work).reverse.flatten =
      written.reverse.flatten ++ (work.map Printing.text).flatten ∧
    (∀ t : Expr, t.pieces.flatten = t.text ∧ t.render = t.text) ∧
    (∀ a, (Expr.leaf a).render = a.text) ∧
    (∀ s x, (Expr.unary s x).render = '(' :: s.symbol.toList ++ x.render ++ [')']) ∧
    (∀ o l r, (Expr.binary o l r).render =
      '(' :: l.render ++ ' ' :: o.symbol.toList ++ ' ' :: r.render ++ [')']) := by
  refine ⟨fun n => exists_turns_iff, turns_eq_printAll, printAll_eq written work,
    Expr.flatten_printAll work written, fun t => ⟨t.flatten_pieces, t.render_eq_text⟩, fun a => ?_,
    fun s x => ?_, fun o l r => ?_⟩
  · exact Expr.render_eq_text _
  · rw [Expr.render_eq_text, Expr.render_eq_text, Expr.text]
  · rw [Expr.render_eq_text, Expr.render_eq_text, Expr.render_eq_text, Expr.text]

end Printing

end Abacus
