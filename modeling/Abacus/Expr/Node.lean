import Abacus.Expr.Printer
import Abacus.Expr.Value
import Abacus.Numeral.Free

/-!
# Values in Place of Trees

A caller who builds trees by hand may hand over something that is no tree: no
value at all, a number, a text. `Node` is what can be handed over, and the
functions here say what becomes of it.

Nothing but a tree can become an operand, so a value that is no tree can only
ever be a root. The two walks take a root as it is and put it on their list of
work, where each item is looked at when its turn comes: a node is taken apart, a
leaf is done, and any other value is refused.

The lists of the two walks differ. The printer keeps pieces of text on its list,
next to nodes, and looks for them first; so a text that is handed over as a root
is taken for such a piece. The evaluation marks the nodes whose operands are done
and keeps nothing else on its list.

As long as only trees are on the lists, both walks take the steps of the loops
over trees. So what those come to is what these come to, up to the first item
that is something else.

## Main definitions

* `Foreign`: A value that is no tree.
* `Node`: What can be handed over in place of a tree.
* `NodeError`: Why a value cannot stand where it is.
* `Node.unary`, `Node.binary`: A node over given operands.
* `Node.printAll`, `Node.compute`: The two walks over a list of work.
* `Node.render`, `Node.evaluate`: The two walks from a root.
* `Node.ofPostfix`: The value that a postfix list builds.

## Theorems

* `Node.printAll_ofPrinting`, `Node.compute_ofItem`: On trees the walks take the
  steps of the loops over trees.
* `Node.evaluate_tree`, `Node.evaluate_foreign`: The evaluation by its root.
-/

namespace Abacus

/-- A value that is no tree. -/
inductive Foreign where
  | nothing
  | int (n : Int)
  | float (v : Float)
  | text (cs : List Char)
  deriving DecidableEq, Inhabited

/-- The name of the kind of a value. -/
def Foreign.kindName : Foreign → String
  | nothing => "NoneType"
  | int _ => "int"
  | float _ => "float"
  | text _ => "str"

/-- A value as a message shows it. A whole number with too many digits cannot be
    shown. -/
def Foreign.shown? : Foreign → Option String
  | nothing => some "None"
  | int n => shownInt? n
  | float v => some (numberLabel v)
  | text cs => some (String.ofList (quoted cs))

/-- The place of an operand in its node. -/
inductive Place where
  | operand
  | left
  | right
  deriving DecidableEq, Repr, Inhabited

/-- The word for a place. -/
def Place.name : Place → String
  | operand => "operand"
  | left => "left"
  | right => "right"

/-- Why a value cannot stand where it is. -/
inductive NodeError where
  /-- A value that is no tree was to become an operand. -/
  | notAnOperand (place : Place) (value : Foreign)
  /-- A value that is no tree was to be walked. -/
  | notATree (shown : String)
  /-- The same, but the value cannot even be shown. -/
  | tooLong
  deriving DecidableEq, Inhabited

/-- The error of a walk that meets a value that is no tree. -/
def Foreign.refusal (value : Foreign) : NodeError :=
  match value.shown? with
  | some shown => .notATree shown
  | none => .tooLong

/-- What an error about a value says. -/
def NodeError.message : NodeError → String
  | notAnOperand place value =>
    place.name ++ " must be an expression node, got " ++ value.kindName
  | notATree shown => "Invalid AST node: " ++ shown
  | tooLong =>
    "Exceeds the limit (" ++ toString digitLimit ++ " digits) for integer string conversion; " ++
      "use sys.set_int_max_str_digits() to increase the limit"

/-- What can be handed over in place of a tree. -/
inductive Node where
  | tree (t : Expr)
  | foreign (value : Foreign)
  deriving DecidableEq, Inhabited

namespace Node

/-- The tree that is handed over for a place of a node. -/
def asOperand (place : Place) : Node → Except NodeError Expr
  | tree t => .ok t
  | foreign value => .error (.notAnOperand place value)

/-- A sign over an operand. -/
def unary (s : Sign) (x : Node) : Except NodeError Node := do
  let x ← x.asOperand .operand
  return tree (.unary s x)

/-- An operator over two operands, the left one checked first. -/
def binary (o : BinOp) (l r : Node) : Except NodeError Node := do
  let l ← l.asOperand .left
  let r ← r.asOperand .right
  return tree (.binary o l r)

/-- The number of leaves and nodes, where a value that is no tree counts as a
    leaf. -/
def size : Node → Nat
  | tree t => t.size
  | foreign _ => 1

/-- How many steps the printer takes at most for a list of work. -/
def printWeight : List Node → Nat
  | [] => 0
  | tree t :: rest => printWeight rest + 4 * t.size
  | foreign _ :: rest => printWeight rest + 1

/-- Works a list off, on which pieces of text stand next to what was handed over,
    and adds to the pieces already written, the latest in front. -/
def printAll (written : List (List Char)) : List Node → Except NodeError (List (List Char))
  | [] => .ok written
  -- A text is a piece, wherever it comes from.
  | foreign (.text cs) :: rest => printAll (cs :: written) rest
  | tree (.unary s x) :: rest =>
    printAll written
      (foreign (.text ('(' :: s.symbol.toList)) :: tree x :: foreign (.text [')']) :: rest)
  | tree (.binary o l r) :: rest =>
    printAll written
      (foreign (.text ['(']) :: tree l :: foreign (.text (' ' :: o.symbol.toList ++ [' '])) ::
        tree r :: foreign (.text [')']) :: rest)
  | tree (.leaf a) :: rest => printAll (a.text :: written) rest
  | foreign value :: _ => .error value.refusal
termination_by work => printWeight work
decreasing_by all_goals simp only [printWeight, Expr.size]; omega

/-- What the items of a printing are on the list where anything can stand. -/
def ofPrinting : Printing → Node
  | .piece text => foreign (.text text)
  | .tree t => tree t

/-- On trees and pieces of text, the printer takes the steps of the loop over
    trees. -/
theorem printAll_ofPrinting (written : List (List Char)) (work : List Printing)
    (rest : List Node) : printAll written (work.map ofPrinting ++ rest) =
      printAll (Expr.printAll written work) rest := by
  fun_induction Expr.printAll written work with
  | case1 written => rfl
  | case2 written text more ih => rw [← ih, List.map_cons, List.cons_append, ofPrinting, printAll]
  | case3 written a more ih => rw [← ih, List.map_cons, List.cons_append, ofPrinting, printAll]
  | case4 written s x more ih =>
    rw [← ih, List.map_cons, List.cons_append, ofPrinting, printAll]
    rfl
  | case5 written o l r more ih =>
    rw [← ih, List.map_cons, List.cons_append, ofPrinting, printAll]
    rfl

/-- The text of what is handed over. -/
def render (x : Node) : Except NodeError (List Char) :=
  (printAll [] [x]).map fun written => written.reverse.flatten

section Evaluation

variable {α : Type} (A : Arithmetic α)

/-- How many steps an evaluation takes at most for a list of work. -/
def computeWeight : List (Node × Bool) → Nat
  | [] => 0
  | (x, done) :: rest => computeWeight rest + if done then 1 else 2 * x.size

/-- Works a list off over a stack of numbers, the top in front. Each item says
    whether its operands are done. There is no result if a node finds too few
    numbers. -/
def compute : List (Node × Bool) → List α → Option (Except NodeError (List α))
  | [], stack => some (.ok stack)
  | (tree (.binary o _ _), true) :: rest, right :: left :: stack =>
    compute rest (A.binary o left right :: stack)
  | (tree (.binary _ _ _), true) :: _, _ => none
  | (tree (.binary o l r), false) :: rest, stack =>
    compute ((tree l, false) :: (tree r, false) :: (tree (.binary o l r), true) :: rest) stack
  | (tree (.unary s _), true) :: rest, x :: stack => compute rest (A.unary s x :: stack)
  | (tree (.unary _ _), true) :: _, [] => none
  | (tree (.unary s x), false) :: rest, stack =>
    compute ((tree x, false) :: (tree (.unary s x), true) :: rest) stack
  | (tree (.leaf a), _) :: rest, stack => compute rest (A.literal a.value :: stack)
  | (foreign value, _) :: _, _ => some (.error value.refusal)
termination_by work => computeWeight work
decreasing_by
  all_goals simp only [computeWeight, size, Expr.size, if_true, Bool.false_eq_true, if_false]
  all_goals grind

/-- A tree on the list, with what is said of its operands. -/
def ofItem (item : Expr × Bool) : Node × Bool :=
  (tree item.1, item.2)

/-- What such an item is in the loop over trees. A node whose operands are done
    stands for its operator. -/
def toWork : Expr × Bool → Work
  | (t, false) => .visit t
  | (.leaf a, true) => .visit (.leaf a)
  | (.unary s _, true) => .applySign s
  | (.binary o _ _, true) => .applyOp o

/-- On trees, the evaluation takes the steps of the loop over trees. -/
theorem compute_ofItem (items : List (Expr × Bool)) (rest : List (Node × Bool)) (stack : List α) :
    compute A (items.map ofItem ++ rest) stack =
      (Expr.compute A (items.map toWork) stack).bind (compute A rest) := by
  -- A node that is visited makes the list longer, but every step makes it lighter.
  induction hw : Work.weight (items.map toWork) using Nat.strongRecOn
    generalizing items stack with
  | _ w ih =>
    subst hw
    rcases items with _ | ⟨⟨a | ⟨s, x⟩ | ⟨o, l, r⟩, done⟩, items⟩
    · rw [List.map_nil, List.map_nil, Expr.compute]
      rfl
    all_goals
      cases done
      all_goals
        simp only [List.map_cons, List.cons_append, ofItem, toWork, Work.weight, Expr.size] at ih ⊢
    · rw [compute, Expr.compute]
      exact ih _ (by omega) items _ rfl
    · rw [compute, Expr.compute]
      exact ih _ (by omega) items _ rfl
    · rw [compute, Expr.compute]
      exact ih _ (by simp only [List.map_cons, toWork, Work.weight]; omega)
        ((x, false) :: (.unary s x, true) :: items) stack rfl
    · cases stack with
      | nil => simp [compute, Expr.compute]
      | cons top stack =>
        rw [compute, Expr.compute]
        exact ih _ (by omega) items _ rfl
    · rw [compute, Expr.compute]
      exact ih _ (by simp only [List.map_cons, toWork, Work.weight]; omega)
        ((l, false) :: (r, false) :: (.binary o l r, true) :: items) stack rfl
    · rcases stack with _ | ⟨right, _ | ⟨left, stack⟩⟩
      · simp [compute, Expr.compute]
      · simp [compute, Expr.compute]
      · rw [compute, Expr.compute]
        exact ih _ (by omega) items _ rfl

theorem compute_visit (t : Expr) (rest : List (Node × Bool)) (stack : List α) :
    compute A ((tree t, false) :: rest) stack = compute A rest (t.meaning A :: stack) := by
  have h := compute_ofItem A [(t, false)] rest stack
  rwa [List.map_singleton, List.map_singleton, toWork, Expr.compute_visit, Expr.compute,
    Option.bind_some] at h

theorem compute_tree (t : Expr) : compute A [(tree t, false)] [] = some (.ok [t.meaning A]) := by
  rw [compute_visit, compute]

theorem compute_foreign (value : Foreign) (rest : List (Node × Bool)) (stack : List α) :
    compute A ((foreign value, false) :: rest) stack = some (.error value.refusal) := by
  rw [compute]

/-- What an evaluation from a root ends with: the number at the bottom of the
    stack, unless the root is refused. -/
def outcome (x : Node) : Option (Except NodeError α) :=
  match compute A [(x, false)] [] with
  | some (.ok stack) => stack.getLast?.map .ok
  | some (.error e) => some (.error e)
  | none => none

theorem outcome_tree (t : Expr) : outcome A (tree t) = some (.ok (t.meaning A)) := by
  rw [outcome, compute_tree]
  rfl

theorem outcome_foreign (value : Foreign) :
    outcome A (foreign value) = some (.error value.refusal) := by
  rw [outcome, compute_foreign]

theorem isSome_outcome (x : Node) : (outcome A x).isSome = true := by
  cases x with
  | tree t => rw [outcome_tree, Option.isSome_some]
  | foreign value => rw [outcome_foreign, Option.isSome_some]

/-- The value of what is handed over. -/
def value (x : Node) : Except NodeError α :=
  (outcome A x).get (isSome_outcome A x)

theorem value_tree (t : Expr) : value A (tree t) = .ok (t.meaning A) := by
  simp only [value, outcome_tree, Option.get_some]

theorem value_foreign (v : Foreign) : value A (foreign v) = .error v.refusal := by
  simp only [value, outcome_foreign, Option.get_some]

end Evaluation

/-- The value of what is handed over in a precision, as a double. -/
def evaluate (p : Precision) (x : Node) : Except NodeError Float :=
  match p with
  | .f64 => x.value Arithmetic.double
  | .f32 => (x.value Arithmetic.single).map Float32.toFloat

/-- An item of a postfix list. -/
inductive Item where
  | token (t : Token)
  | foreign (value : Foreign)
  deriving Inhabited

/-- One item of a postfix list: an atom or a foreign value goes on the stack,
    an operator takes its operands off it. There is no result if they are
    missing or if the item is a parenthesis. -/
def step (stack : List Node) (item : Item) : Option (Except NodeError (List Node)) :=
  match item, stack with
  | .foreign value, _ => some (.ok (foreign value :: stack))
  | .token (.atom a), _ => some (.ok (tree (.leaf a) :: stack))
  | .token (.op (.unary s)), x :: rest => some ((unary s x).map (· :: rest))
  | .token (.op (.binary o)), r :: l :: rest => some ((binary o l r).map (· :: rest))
  | _, _ => none

/-- Works the items of a postfix list off over a stack of finished values. -/
def build : List Node → List Item → Option (Except NodeError (List Node))
  | stack, [] => some (.ok stack)
  | stack, item :: rest =>
    match step stack item with
    | some (.ok stack) => build stack rest
    | some (.error e) => some (.error e)
    | none => none

/-- The value that a postfix list builds, if it is one. -/
def ofPostfix (items : List Item) : Option (Except NodeError Node) :=
  match build [] items with
  | some (.ok [x]) => some (.ok x)
  | some (.error e) => some (.error e)
  | _ => none

theorem evaluate_tree (p : Precision) (t : Expr) : (tree t).evaluate p = .ok (t.evaluate p) := by
  cases p with
  | f64 => rw [evaluate, value_tree, Expr.evaluate, Expr.value_eq_meaning]
  | f32 =>
    rw [evaluate, value_tree, Expr.evaluate, Expr.value_eq_meaning]
    rfl

theorem evaluate_foreign (p : Precision) (v : Foreign) :
    (foreign v).evaluate p = .error v.refusal := by
  cases p with
  | f64 => rw [evaluate, value_foreign]
  | f32 =>
    rw [evaluate, value_foreign]
    rfl

end Node

end Abacus
