import Abacus.CommandLine
import Abacus.Yaml.Standard

/-!
# The Program

The outer layer: it reads the settings file that the command line names,
writes the output and the messages, and returns the code for the caller.

## Main definitions

* `Abacus.fileAt`: What stands at a path.
* `main`: The program.
-/

namespace Abacus

/-- What stands at a path. -/
def fileAt (path : String) : IO FileEntry := do
  try
    return .ok (← IO.FS.readFile path).toList
  catch _ =>
    return .error .missing

/-- What is written besides the output. -/
def CommandLine.Ending.notice? : CommandLine.Ending → Option String
  | .result _ => none
  | .help => some "Usage: abacus [OPTIONS] EXPRESSION..."
  | .failure message => some message
  | .unreadableSettings _ => some "unreadable settings file"
  | .usage _ => some "Usage: abacus [OPTIONS] EXPRESSION..."

end Abacus

open Abacus in
/-- The program. -/
def main (args : List String) : IO UInt32 := do
  let path? := CommandLine.settingsPath? args
  let entry ←
    match path? with
    | some path => fileAt path
    | none => pure (.error .missing)
  let files (path : String) : FileEntry := if some path = path? then entry else .error .missing
  let ending := CommandLine.perform Yaml.reader files args
  IO.print ending.output
  if let some notice := ending.notice? then IO.eprintln notice
  return ending.exitCode.toUInt32
