import Abacus.Calculation
import Abacus.CommandLine.Options
import Abacus.Config.Load

/-!
# The Command Line

What a command line comes to: the configuration of the file and the options
that lie over it, then the calculation, then its output. The first thing that
goes wrong decides the ending, and output is written only when all went well.

A settings file that has no value as a document mostly is not an error that is
reported; it ends the program as it is. The other ways to end are the result,
a message, and the notice that the words make no sense.

The options about the output choose what is shown and have no influence on
what is calculated. The line for other programs replaces all other output.

## Main definitions

* `CommandLine.Ending`: How a command line ends.
* `CommandLine.Ending.exitCode`: The code for the caller.
* `CommandLine.output`: What is shown of a report.
* `CommandLine.perform`: Carries a command line out.
-/

namespace Abacus

namespace CommandLine

/-- How a command line ends. -/
inductive Ending where
  /-- The output of a calculation. -/
  | result (output : String)
  /-- The description of the options. -/
  | help
  /-- The first line of a message. -/
  | failure (message : String)
  /-- The settings file has no value as a document, for a reason that is not
      told to the user. -/
  | unreadableSettings (fault : Yaml.Fault)
  /-- The words make no sense. -/
  | usage (e : UsageError)
  deriving DecidableEq, Inhabited

/-- The code for the caller. -/
def Ending.exitCode : Ending → Nat
  | result _ => 0
  | help => 0
  | failure _ => 1
  | unreadableSettings _ => 1
  | usage _ => 2

/-- What is written as output. -/
def Ending.output : Ending → String
  | result output => output
  | _ => ""

/-- The first line of a text. -/
def firstLine (s : String) : String :=
  String.ofList (s.toList.takeWhile (· != '\n'))

/-- The settings that options give directly. -/
def Options.overrides (o : Options) : Mapping :=
  [(precisionKey, o.precision.elim Datum.null .text),
   (implicitMulKey, o.implicitMul.elim Datum.null .bool)]

/-- What is shown of a report: one line for other programs, or the parts that
    are asked for and the value, each on a line of its own. -/
def output (o : Options) (r : Report) : String :=
  if o.json then r.toDatum.json ++ "\n"
  else
    (if o.showTokens then String.intercalate " " (r.tokens.map Token.label) ++ "\n" else "") ++
      (if o.showAst then String.ofList r.tree.render ++ "\n" else "") ++
      numberLabel r.value ++ "\n"

/-- The ending for an error of the configuration. -/
def Ending.ofLoadError (e : LoadError) : Ending :=
  match e, e.headline? with
  | _, some message => .failure (firstLine message)
  | .noDocument fault, none => .unreadableSettings fault
  | _, none => .failure ""

/-- Carries out what the options ask for. -/
def performOptions (reader : Yaml.Reader) (files : String → FileEntry) (o : Options) : Ending :=
  match loadConfig reader files (some o.config) o.overrides with
  | .error e => .ofLoadError e
  | .ok config =>
    match run o.text config with
    | .error e => .failure (firstLine e.message)
    | .ok r => .result (output o r)

/-- Carries a command line out. -/
def perform (reader : Yaml.Reader) (files : String → FileEntry) (args : List String) : Ending :=
  match Options.read {} args with
  | .error e => .usage e
  | .ok o =>
    if o.help then .help
    -- Help is asked for before anything is checked.
    else match o.check with
      | some e => .usage e
      | none => performOptions reader files o

/-- The path of the settings file that a command line names, if it names
    one. -/
def settingsPath? (args : List String) : Option String :=
  match Options.read {} args with
  | .ok o => if o.config.isEmpty then none else some o.config
  | .error _ => none

end CommandLine

end Abacus
