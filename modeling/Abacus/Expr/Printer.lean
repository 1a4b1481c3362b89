import Abacus.Expr

/-!
# Printing Trees

The text of a tree, with a pair of parentheses around every node: `(l op r)`
for an operator of two places and `(-x)` for a sign. Nothing is left to
precedence, so the text reads back as the same tree whatever its shape.

Trees can be deep, so the text is put together with a list of work: pieces of
text and trees that are still to be printed, the next one in front. A node
puts its pieces and its operands back on the list. `Expr.text` says by plain
recursion what comes out.

## Main definitions

* `Atom.text`: The text of a leaf.
* `Expr.text`: The text of a tree by recursion.
* `Printing`: A piece of text or a tree that is still to be printed.
* `Expr.printAll`: The pieces that a list of work comes to.
* `Expr.render`: The text of a tree by the list of work.

## Theorems

* `Expr.flatten_printAll`: A list of work comes to the texts of its items, in
  their order and after what was written before.
-/

namespace Abacus

/-- The text of an atom inside an expression. -/
def Atom.text : Atom → List Char
  | number v => plainNumber v
  | e => ['e']
  | pi => ['p', 'i']

/-- A piece of text or a tree that is still to be printed. -/
inductive Printing where
  | piece (text : List Char)
  | tree (t : Expr)
  deriving Inhabited

namespace Expr

/-- The text of a tree by recursion. -/
def text : Expr → List Char
  | leaf a => a.text
  | unary s x => '(' :: s.symbol.toList ++ x.text ++ [')']
  | binary o l r => '(' :: l.text ++ ' ' :: o.symbol.toList ++ ' ' :: r.text ++ [')']

end Expr

namespace Printing

/-- How many steps a list of work takes at most. -/
def weight : List Printing → Nat
  | [] => 0
  | piece _ :: rest => weight rest + 1
  | tree t :: rest => weight rest + 4 * t.size

/-- The text that an item of the list comes to. -/
def text : Printing → List Char
  | piece text => text
  | tree t => t.text

end Printing

namespace Expr

/-- Works a list off and adds the pieces of text to those already written, the
    latest in front. -/
def printAll (written : List (List Char)) : List Printing → List (List Char)
  | [] => written
  | .piece text :: rest => printAll (text :: written) rest
  | .tree (leaf a) :: rest => printAll (a.text :: written) rest
  -- A node goes back on the list in its parts, the operands among the pieces.
  | .tree (unary s x) :: rest =>
    printAll written (.piece ('(' :: s.symbol.toList) :: .tree x :: .piece [')'] :: rest)
  | .tree (binary o l r) :: rest =>
    printAll written
      (.piece ['('] :: .tree l :: .piece (' ' :: o.symbol.toList ++ [' ']) :: .tree r ::
        .piece [')'] :: rest)
termination_by work => Printing.weight work
decreasing_by all_goals simp only [Printing.weight, size]; omega

/-- The text of a tree. -/
def render (t : Expr) : List Char :=
  (printAll [] [.tree t]).reverse.flatten

theorem flatten_printAll (work : List Printing) (written : List (List Char)) :
    (printAll written work).reverse.flatten =
      written.reverse.flatten ++ (work.map Printing.text).flatten := by
  fun_induction printAll written work with
  | case1 written => simp only [List.map_nil, List.flatten_nil, List.append_nil]
  | case2 written text rest ih =>
    rw [ih]
    simp only [List.reverse_cons, List.flatten_append, List.flatten_cons, List.flatten_nil,
      List.append_nil, List.map_cons, Printing.text, List.append_assoc]
  | case3 written a rest ih =>
    rw [ih]
    simp only [List.reverse_cons, List.flatten_append, List.flatten_cons, List.flatten_nil,
      List.append_nil, List.map_cons, Printing.text, text, List.append_assoc]
  | case4 written s x rest ih =>
    rw [ih]
    simp only [List.map_cons, Printing.text, text, List.flatten_cons, List.append_assoc,
      List.cons_append, List.nil_append]
  | case5 written o l r rest ih =>
    rw [ih]
    simp only [List.map_cons, Printing.text, text, List.flatten_cons, List.append_assoc,
      List.cons_append, List.nil_append]

end Expr

end Abacus
