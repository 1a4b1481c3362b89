import Abacus.Parser
import Abacus.Expr.Printer

/-!
# Calls on a Parser

A parser can be driven step by step: it holds tokens of its own and two
stacks, and its steps can be called in any order, also after one has failed.
Each call answers, or fails, and leaves stacks behind for the next call.

Reading the parser's own tokens is one of the calls. It starts from the stacks
as they are, so calling it twice reads the tokens twice on top of what the
first time left.

## Main definitions

* `Parser.Call`: A step that can be called.
* `Parser.Reply`: The answer to a call.
* `Parser.call`: Carries out one call.
* `Parser.callAll`: Carries out calls one after the other.

## Theorems

* `Parser.call_parse`: Reading the own tokens is a run over the stacks.
-/

namespace Abacus

namespace Parser

/-- A step of a parser that can be called. -/
inductive Call where
  /-- Reads the parser's own tokens and ends the input. -/
  | parse
  | pushOp (op : Operator)
  | applyOp (op : Operator)
  | closeParen
  | popOperand (op : Operator)
  /-- Asks whether `top`, waiting on top, goes before `incoming`. -/
  | shouldPop (top : Pending) (incoming : Operator)
  | openParen
  | pushAtom (a : Atom)
  deriving Inhabited

/-- The answer to a call. -/
inductive Reply where
  | done
  | tree (t : Expr)
  | flag (b : Bool)
  deriving Inhabited

/-- Carries out one call on a parser with its own tokens. -/
def call (tokens : List Token) (c : Call) (s : State) : Outcome State Reply :=
  match c with
  | .parse => (run tokens s).andThen fun t s => .ok (.tree t) s
  | .pushOp op => (Parser.pushOp op s.output s.operators).andThen fun () s => .ok .done s
  | .applyOp op =>
    ((Parser.applyOp op s.output).mapLeft fun output => ⟨output, s.operators⟩).andThen
      fun () s => .ok .done s
  | .closeParen => (Parser.closeParen s.output s.operators).andThen fun () s => .ok .done s
  | .popOperand op =>
    ((Parser.popOperand op s.output).mapLeft fun output => ⟨output, s.operators⟩).andThen
      fun t s => .ok (.tree t) s
  | .shouldPop top incoming => .ok (.flag (Parser.shouldPop incoming top)) s
  | .openParen => .ok .done ⟨s.output, .openParen :: s.operators⟩
  | .pushAtom a => .ok .done ⟨.leaf a :: s.output, s.operators⟩

/-- Carries out calls one after the other, each on the stacks that the one
    before has left. -/
def callAll (tokens : List Token) : List Call → State → List (Outcome State Reply)
  | [], _ => []
  | c :: cs, s =>
    let outcome := call tokens c s
    outcome :: callAll tokens cs outcome.left

theorem call_parse (tokens : List Token) (s : State) :
    (call tokens .parse s).left = (run tokens s).left := by
  simp only [call, Outcome.andThen]
  split <;> rfl

end Parser

end Abacus
