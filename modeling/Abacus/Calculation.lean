import Abacus.Config
import Abacus.Expr.Value
import Abacus.Parser.Call
import Abacus.Token.Reading

/-!
# Calculations

From the text of an expression to its value: tokens, tree, value, in this
order, each stage on what the one before has made. The first stage that fails
ends the calculation, and a value cannot fail, so there are two kinds of
failure only.

Every stage leaves a note when it is done, which is how the progress of a
calculation can be followed. The notes are part of the result and have no
influence on it.

## Main definitions

* `Failure`: Why a text has no value.
* `Note`: What a stage says when it is done.
* `Report`: All that a calculation finds out.
* `calculateWithNotes`: The stages in order, with their notes.
* `run`: The report of a calculation.
* `calculate`: Its value alone.

## Theorems

* `calculate_eq_map_run`: The value alone is the value of the report.
-/

namespace Abacus

/-- Why a text has no value. -/
inductive Failure where
  | lex (e : LexError)
  | parse (e : ParseError)
  deriving DecidableEq, Inhabited

/-- What a failure says. -/
def Failure.message : Failure → String
  | lex e => e.message
  | parse e => e.message

/-- What a stage says when it is done. -/
inductive Note where
  | tokenized (count : Nat) (text : List Char)
  | parsed (tree : Expr)
  | evaluated (precision : Precision) (value : Float)
  deriving Inhabited

/-- The wording of a note. -/
def Note.message : Note → String
  | tokenized count text =>
    s!"tokenize tokens={count} expr=" ++ String.ofList (quoted text)
  | parsed tree => "parse tree=" ++ String.ofList tree.render
  | evaluated precision value =>
    "evaluate precision=" ++ precision.name ++ " value=" ++ numberLabel value

/-- All that a calculation finds out about a text. -/
structure Report where
  text : List Char
  tokens : List Token
  tree : Expr
  value : Float
  precision : Precision
  deriving Inhabited

/-- The stages of a calculation in order, with the notes of those that are
    done. -/
def calculateWithNotes (text : List Char) (config : Config) :
    List Note × Except Failure Report :=
  match tokenize text config.implicitMul with
  | .error e => ([], .error (.lex e))
  | .ok tokens =>
    let first := Note.tokenized tokens.length text
    match parse tokens with
    | .error e => ([first], .error (.parse e))
    | .ok tree =>
      let value := tree.evaluate config.precision
      ([first, .parsed tree, .evaluated config.precision value],
        .ok ⟨text, tokens, tree, value, config.precision⟩)

/-- The report of a calculation. -/
def run (text : List Char) (config : Config) : Except Failure Report :=
  (calculateWithNotes text config).2

/-- The value of a text. -/
def calculate (text : List Char) (config : Config) : Except Failure Float :=
  match tokenize text config.implicitMul with
  | .error e => .error (.lex e)
  | .ok tokens =>
    match parse tokens with
    | .error e => .error (.parse e)
    | .ok tree => .ok (tree.evaluate config.precision)

/-- A report as data: the expression, the labels of the tokens, the text of
    the tree, the value and the precision. -/
def Report.toDatum (r : Report) : Datum :=
  .map
    [(.text "expression", .text (String.ofList r.text)),
     (.text "tokens", .list (r.tokens.map fun t => .text t.label)),
     (.text "tree", .text (String.ofList r.tree.render)),
     (.text "value", .scalar (.float r.value)),
     (.text "precision", .text r.precision.name)]

theorem calculate_eq_map_run (text : List Char) (config : Config) :
    calculate text config = (run text config).map (·.value) := by
  simp only [calculate, run, calculateWithNotes]
  cases tokenize text config.implicitMul with
  | error e => rfl
  | ok tokens =>
    dsimp only
    cases parse tokens with
    | error e => rfl
    | ok tree => rfl

end Abacus
