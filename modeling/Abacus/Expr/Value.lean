import Abacus.Arithmetic
import Abacus.Expr

/-!
# Values of Trees

The value of a tree in an arithmetic. `Expr.meaning` says what it is: an atom
becomes a number, and a sign or an operator is applied to the values of its
operands, the left one first.

Trees can be deep, so the value is found with a list of work and a stack of
numbers. A tree is visited, and a node that is visited puts its operator back
on the list behind its operands, so that the operator meets their values on
the stack. The stack could only run empty if an operator came before its
operands; `Expr.compute_visit` shows that it never does.

## Main definitions

* `Expr.meaning`: The value of a tree by recursion.
* `Work`: A tree to visit, or an operator to apply.
* `Expr.compute`: The stack that a list of work comes to.
* `Expr.value`: The value of a tree by the list of work.
* `Expr.evaluate`: The value in one of the two precisions, as a double.

## Theorems

* `Expr.compute_visit`: Visiting a tree leaves its meaning on the stack.
* `Expr.compute_tree`: A tree alone leaves nothing else there.
* `Expr.value_eq_meaning`: The list of work finds the value of the recursion.
-/

namespace Abacus

/-- What is still to be done: a tree to visit, or an operator to apply to
    numbers on the stack. -/
inductive Work where
  | visit (t : Expr)
  | applySign (sign : Sign)
  | applyOp (op : BinOp)
  deriving Inhabited

/-- How many steps a list of work takes at most. -/
def Work.weight : List Work → Nat
  | [] => 0
  | visit t :: rest => weight rest + 2 * t.size
  | applySign _ :: rest => weight rest + 1
  | applyOp _ :: rest => weight rest + 1

namespace Expr

variable {α : Type}

/-- The value of a tree by recursion. -/
def meaning (A : Arithmetic α) : Expr → α
  | leaf a => A.literal a.value
  | unary s x => A.unary s (x.meaning A)
  | binary o l r => A.binary o (l.meaning A) (r.meaning A)

/-- Works a list off over a stack of numbers, the top in front. There is no
    result if an operator finds too few numbers. -/
def compute (A : Arithmetic α) : List Work → List α → Option (List α)
  | [], stack => some stack
  | .visit (leaf a) :: rest, stack => compute A rest (A.literal a.value :: stack)
  | .visit (unary s x) :: rest, stack => compute A (.visit x :: .applySign s :: rest) stack
  -- The left operand is visited first, so the right one ends up on top.
  | .visit (binary o l r) :: rest, stack =>
    compute A (.visit l :: .visit r :: .applyOp o :: rest) stack
  | .applySign s :: rest, x :: stack => compute A rest (A.unary s x :: stack)
  | .applyOp o :: rest, right :: left :: stack => compute A rest (A.binary o left right :: stack)
  | _, _ => none
termination_by work => Work.weight work
decreasing_by all_goals simp only [Work.weight, size]; omega

theorem compute_visit (A : Arithmetic α) (t : Expr) :
    ∀ (rest : List Work) (stack : List α),
      compute A (.visit t :: rest) stack = compute A rest (t.meaning A :: stack) := by
  induction t with
  | leaf a =>
    intro rest stack
    rw [compute, meaning]
  | unary s x ih =>
    intro rest stack
    rw [compute, ih, compute, meaning]
  | binary o l r ihl ihr =>
    intro rest stack
    rw [compute, ihl, ihr, compute, meaning]

theorem compute_tree (A : Arithmetic α) (t : Expr) :
    compute A [.visit t] [] = some [t.meaning A] := by
  rw [compute_visit, compute]

/-- The value of a tree. The stack holds one number in the end, which is both
    its first and its last. -/
def value (A : Arithmetic α) (t : Expr) : α :=
  ((compute A [.visit t] []).bind List.getLast?).get (by rw [compute_tree]; rfl)

theorem value_eq_meaning (A : Arithmetic α) (t : Expr) : t.value A = t.meaning A := by
  simp only [value, compute_tree, Option.bind_some, List.getLast?_singleton, Option.get_some]

/-- The value of a tree in a precision, as a double. -/
def evaluate (p : Precision) (t : Expr) : Float :=
  match p with
  | .f64 => t.value Arithmetic.double
  | .f32 => (t.value Arithmetic.single).toFloat

end Expr

end Abacus
