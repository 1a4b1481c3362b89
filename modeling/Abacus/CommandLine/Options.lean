import Abacus.Arithmetic

/-!
# Options

The words of a command line, sorted into options and the text of the
expression.

Expressions often begin with a minus, so a word that looks like an option and
is none is text. Options may stand anywhere before a lone `--`, after which
everything is text. A word with one hyphen is a cluster of letters, of which
those that are options take effect and the others are text behind a hyphen of
their own. Of an option that is given twice the last value counts, and only
that value is checked.

An option with a value takes the next word whatever it looks like, or what
stands after an equals sign in its own word.

## Main definitions

* `Flag`, `ValueOption`: The options without and with a value.
* `Options`: What the options ask for, with the words that are text.
* `UsageError`: Why the words make no sense.
* `Options.read`: The options of a command line.
* `Options.check`: What remains to be checked when all words are read.
-/

namespace Abacus

namespace CommandLine

/-- The options without a value. -/
inductive Flag where
  | implicitMul (on : Bool)
  | showTokens
  | showAst
  | json
  | verbose
  | help
  deriving DecidableEq, Repr, Inhabited

/-- The options with a value. -/
inductive ValueOption where
  | config
  | precision
  deriving DecidableEq, Repr, Inhabited

/-- The option without a value that a long word names. -/
def Flag.ofWord? (word : String) : Option Flag :=
  [("--implicit-mul", Flag.implicitMul true), ("--no-implicit-mul", .implicitMul false),
   ("--show-tokens", .showTokens), ("--show-ast", .showAst), ("--json", .json),
   ("--verbose", .verbose), ("--help", .help)].lookup word

/-- The option without a value that a letter names. -/
def Flag.ofLetter? (c : Char) : Option Flag :=
  if c = 'v' then some .verbose else none

/-- The option with a value that a long word names. -/
def ValueOption.ofWord? (word : String) : Option ValueOption :=
  [("--config", ValueOption.config), ("--precision", .precision)].lookup word

/-- What the options ask for. The words that are text are held with the latest
    in front. -/
structure Options where
  config : String := ""
  precision : Option String := none
  implicitMul : Option Bool := none
  showTokens : Bool := false
  showAst : Bool := false
  json : Bool := false
  verbose : Bool := false
  help : Bool := false
  words : List String := []
  deriving Repr, Inhabited

/-- Why the words of a command line make no sense. -/
inductive UsageError where
  | missingValue (word : String)
  | unexpectedValue (word : String)
  | badPrecision (value : String)
  | noExpression
  deriving DecidableEq, Repr, Inhabited

namespace Options

/-- Takes in an option without a value. -/
def addFlag (o : Options) : Flag → Options
  | .implicitMul on => { o with implicitMul := some on }
  | .showTokens => { o with showTokens := true }
  | .showAst => { o with showAst := true }
  | .json => { o with json := true }
  | .verbose => { o with verbose := true }
  | .help => { o with help := true }

/-- Takes in an option with its value. -/
def addValue (o : Options) (value : String) : ValueOption → Options
  | .config => { o with config := value }
  | .precision => { o with precision := some value }

/-- Takes in a word that is text. -/
def addWord (o : Options) (word : String) : Options :=
  { o with words := word :: o.words }

/-- Takes in a word with one hyphen: its letters that are options, and the
    others as text behind a hyphen. -/
def addCluster (o : Options) (letters : List Char) : Options :=
  let o := (letters.filterMap Flag.ofLetter?).foldl addFlag o
  let others := letters.filter fun c => (Flag.ofLetter? c).isNone
  if others.isEmpty then o else o.addWord (String.ofList ('-' :: others))

/-- A word up to its first equals sign, and what stands after it. -/
def splitValue (word : String) : String × Option String :=
  let cs := word.toList
  match cs.dropWhile (· != '=') with
  | _ :: value => (String.ofList (cs.takeWhile (· != '=')), some (String.ofList value))
  | [] => (word, none)

/-- Reads the words of a command line from left to right. -/
def read (o : Options) : List String → Except UsageError Options
  | [] => .ok o
  | word :: rest =>
    match word.toList with
    | ['-', '-'] => .ok (rest.foldl addWord o)
    | '-' :: c :: letters =>
      -- Both kinds of option are looked up by the part before the equals sign.
      let (long, value?) := splitValue word
      match ValueOption.ofWord? long, Flag.ofWord? long, value?, rest with
      | some opt, _, some value, rest => read (o.addValue value opt) rest
      | some opt, _, none, value :: rest => read (o.addValue value opt) rest
      | some _, _, none, [] => .error (.missingValue long)
      | none, some _, some _, _ => .error (.unexpectedValue long)
      | none, some flag, none, rest => read (o.addFlag flag) rest
      | none, none, _, rest =>
        if c = '-' then read (o.addWord word) rest
        else read (o.addCluster (c :: letters)) rest
    | _ => read (o.addWord word) rest

/-- What remains to be checked when all words are read: the precision has to
    be one of the two names, and there has to be an expression, which may be
    empty. -/
def check (o : Options) : Option UsageError :=
  match o.precision.bind fun p => if (Precision.ofName? p).isSome then none else some p with
  | some p => some (.badPrecision p)
  | none => if o.words.isEmpty then some .noExpression else none

/-- The text of the expression: all words that are text, without anything
    between them. -/
def text (o : Options) : List Char :=
  o.words.reverse.flatMap String.toList

end Options

end CommandLine

end Abacus
