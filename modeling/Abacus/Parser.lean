import Abacus.Expr

/-!
# The Two-Stack Parser

Tokens become a tree with two stacks: finished operands, and operators and
open parentheses that still wait. An operator waits until what comes after it
shows that its right operand is finished; then it takes its operands off the
one stack and leaves its node there.

The parser keeps no note of whether an operand or an operator is due. What is
wrong with the tokens comes to light only by operands that are missing or
left over and by parentheses without partner, so a step can fail in the
middle of its work. Every step therefore says both how it ended and what it
left behind: operands that were taken before a failure are gone, and so is
the operator that asked for them.

Both stacks are lists with the top in front.

## Main definitions

* `ParseError`: Why the tokens are no expression.
* `Pending`: An operator or an open parenthesis that waits.
* `Parser.State`: The two stacks.
* `Outcome`: How a step ended and what it left behind.
* `Parser.applyOp`: An operator takes its operands and leaves its node.
* `Parser.shouldPop`: Whether a waiting operator goes before another.
* `Parser.pushOp`, `Parser.closeParen`, `Parser.drain`: The loops that work on
  waiting operators.
* `Parser.run`: All tokens, then the end of the input, from given stacks.
* `parse`: The tree of a list of tokens.

## Theorems

* `Parser.applyOp_unary`, `Parser.applyOp_binary`: With enough operands an
  operator succeeds.
* `Outcome.andThen_ok`: After a success the next step runs on what was left.
-/

namespace Abacus

/-- Why a list of tokens is no expression. -/
inductive ParseError where
  /-- A parenthesis is open at the end. -/
  | neverClosed
  /-- A parenthesis closes that was not opened. -/
  | neverOpened
  /-- An operator finds fewer operands than it needs. -/
  | notEnoughOperands (op : Operator)
  /-- There is no operand at all at the end. -/
  | noOperand
  /-- Several operands are left at the end. -/
  | tooManyOperands (count : Nat)
  deriving DecidableEq, Repr, Inhabited

/-- What an error of the parser says. -/
def ParseError.message : ParseError → String
  | neverClosed => "Mismatched parenthesis: '(' is never closed"
  | neverOpened => "Mismatched parenthesis: ')' has no matching '('"
  | notEnoughOperands op => "Not enough operands for operator '" ++ op.symbol ++ "'"
  | noOperand => "Not enough operands in the expression"
  | tooManyOperands count =>
    "Too much operands in the expression: " ++ toString count ++
      " values are not joined by an operator"

/-- What waits on the stack of operators. -/
inductive Pending where
  | op (o : Operator)
  | openParen
  deriving DecidableEq, Repr, Inhabited

/-- The spelling of what waits. -/
def Pending.label : Pending → String
  | op o => o.label
  | openParen => "("

/-- How a step ended, and what it left behind in either case. -/
structure Outcome (σ α : Type) where
  result : Except ParseError α
  left : σ
  deriving Inhabited

namespace Outcome

variable {σ τ α β : Type}

/-- Ends well. -/
def ok (a : α) (s : σ) : Outcome σ α :=
  ⟨.ok a, s⟩

/-- Ends with an error. -/
def fail (e : ParseError) (s : σ) : Outcome σ α :=
  ⟨.error e, s⟩

/-- Goes on with the next step after a success, and stops at an error. -/
def andThen (o : Outcome σ α) (next : α → σ → Outcome σ β) : Outcome σ β :=
  match o.result with
  | .ok a => next a o.left
  | .error e => fail e o.left

/-- The same ending with another view of what is left. -/
def mapLeft (f : σ → τ) (o : Outcome σ α) : Outcome τ α :=
  ⟨o.result, f o.left⟩

theorem andThen_ok (a : α) (s : σ) (next : α → σ → Outcome σ β) :
    (ok a s).andThen next = next a s := rfl

end Outcome

namespace Parser

/-- The two stacks, each with its top in front. -/
structure State where
  output : List Expr
  operators : List Pending
  deriving DecidableEq, Inhabited

/-- No operand is finished and nothing waits. -/
def State.empty : State :=
  ⟨[], []⟩

/-- Takes an operand for an operator off the stack. -/
def popOperand (op : Operator) : List Expr → Outcome (List Expr) Expr
  | [] => .fail (.notEnoughOperands op) []
  | x :: rest => .ok x rest

/-- Lets an operator take its operands and leave its node. The right operand
    is on top. -/
def applyOp (op : Operator) (output : List Expr) : Outcome (List Expr) Unit :=
  match op with
  | .unary sign =>
    (popOperand op output).andThen fun x rest =>
    .ok () (.unary sign x :: rest)
  | .binary kind =>
    -- The right operand is gone even where the left one turns out to be missing.
    (popOperand op output).andThen fun right rest =>
    (popOperand op rest).andThen fun left rest =>
    .ok () (.binary kind left right :: rest)

/-- Whether what waits on top goes before an operator that comes in. An open
    parenthesis shields what is below it. A sign that comes in has no left
    operand yet, so nothing can be finished before it. Otherwise the tighter
    operator goes first, and of equals the first one if chains group to the
    left. -/
def shouldPop (incoming : Operator) : Pending → Bool
  | .openParen => false
  | .op top =>
    !incoming.isUnary &&
      (incoming.precedence < top.precedence ||
        (top.precedence == incoming.precedence && incoming.isLeftAssoc))

/-- Lets the operators that go before `op` take their operands, then lets `op`
    wait. -/
def pushOp (op : Operator) (output : List Expr) : List Pending → Outcome State Unit
  | [] => .ok () ⟨output, [.op op]⟩
  | .openParen :: rest => .ok () ⟨output, .op op :: .openParen :: rest⟩
  | .op top :: rest =>
    if shouldPop op (.op top) then
      match applyOp top output with
      | ⟨.ok (), output⟩ => pushOp op output rest
      -- Neither the operator that failed nor the one that came in waits now.
      | ⟨.error e, output⟩ => .fail e ⟨output, rest⟩
    else .ok () ⟨output, .op op :: .op top :: rest⟩

/-- Lets all operators above the topmost open parenthesis take their operands,
    then drops the parenthesis. -/
def closeParen (output : List Expr) : List Pending → Outcome State Unit
  | [] => .fail .neverOpened ⟨output, []⟩
  | .openParen :: rest => .ok () ⟨output, rest⟩
  | .op top :: rest =>
    match applyOp top output with
    | ⟨.ok (), output⟩ => closeParen output rest
    | ⟨.error e, output⟩ => .fail e ⟨output, rest⟩

/-- Lets all waiting operators take their operands at the end of the input,
    where no parenthesis may wait. -/
def drain (output : List Expr) : List Pending → Outcome State Unit
  | [] => .ok () ⟨output, []⟩
  | .openParen :: rest => .fail .neverClosed ⟨output, rest⟩
  | .op top :: rest =>
    match applyOp top output with
    | ⟨.ok (), output⟩ => drain output rest
    | ⟨.error e, output⟩ => .fail e ⟨output, rest⟩

/-- One token. -/
def readToken (t : Token) (s : State) : Outcome State Unit :=
  match t with
  | .atom a => .ok () ⟨.leaf a :: s.output, s.operators⟩
  | .op o => pushOp o s.output s.operators
  | .openParen => .ok () ⟨s.output, .openParen :: s.operators⟩
  | .closeParen => closeParen s.output s.operators

/-- Tokens from left to right, up to the first error. -/
def readAll : List Token → State → Outcome State Unit
  | [], s => .ok () s
  | t :: ts, s => (readToken t s).andThen fun () s => readAll ts s

/-- The one operand that has to be left when nothing waits any more. -/
def onlyOperand (s : State) : Outcome State Expr :=
  match s.output with
  | [] => .fail .noOperand s
  | [t] => .ok t s
  | ts => .fail (.tooManyOperands ts.length) s

/-- The end of the input. -/
def finish (s : State) : Outcome State Expr :=
  (drain s.output s.operators).andThen fun () s => onlyOperand s

/-- All tokens and then the end of the input, from given stacks. -/
def run (tokens : List Token) (s : State) : Outcome State Expr :=
  (readAll tokens s).andThen fun () s => finish s

theorem applyOp_unary (s : Sign) (x : Expr) (output : List Expr) :
    applyOp (.unary s) (x :: output) = .ok () (.unary s x :: output) := rfl

theorem applyOp_binary (b : BinOp) (r l : Expr) (output : List Expr) :
    applyOp (.binary b) (r :: l :: output) = .ok () (.binary b l r :: output) := rfl

end Parser

/-- The tree of a list of tokens. -/
def parse (tokens : List Token) : Except ParseError Expr :=
  (Parser.run tokens Parser.State.empty).result

end Abacus
