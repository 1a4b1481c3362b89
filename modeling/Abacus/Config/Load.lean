import Abacus.Config
import Abacus.Yaml.Reader

/-!
# Loading a Configuration

A configuration comes from three layers: the defaults, a settings file, and
settings that are given directly and lie over the file. A file that holds
nothing, or a value that counts as empty, is a file without settings; a file
that holds anything else than a mapping is refused, whatever is given
directly. Only the merged settings are checked, so a value that could not be
accepted does no harm under one that can.

What is read where is left to the caller, who says what stands at a path and
brings a reader of documents.

## Main definitions

* `PathError`: Why nothing can be read at a path.
* `FileEntry`: What stands at a path.
* `LoadError`: Why there is no configuration.
* `readSettings`: The settings of a file.
* `loadConfig`: The configuration of all layers.

## Theorems

* `settingsOf_eq_error`: There is one way for a value to be refused.
* `readSettings_file`: A file that can be read gives a mapping or is refused.
* `baseSettings_some`: A path that is not empty is read.
-/

namespace Abacus

/-- Why nothing can be read at a path. -/
inductive PathError where
  | missing
  /-- Something on the way is a file. -/
  | notADirectory
  | isDirectory
  | nameTooLong
  /-- The path has a character that no path can have. -/
  | badName
  deriving DecidableEq, Repr, Inhabited

/-- What an error of a path says. -/
def PathError.message (path : String) (e : PathError) : String :=
  let numbered (number reason : String) : String :=
    "[Errno " ++ number ++ "] " ++ reason ++ ": " ++ String.ofList (quoted path.toList)
  match e with
  | missing => numbered "2" "No such file or directory"
  | notADirectory => numbered "20" "Not a directory"
  | isDirectory => numbered "21" "Is a directory"
  | nameTooLong => numbered "36" "File name too long"
  | badName => "embedded null byte"

/-- What stands at a path. -/
abbrev FileEntry := Except PathError (List Char)

/-- Why there is no configuration. -/
inductive LoadError where
  /-- There is no file to read. -/
  | noFile (path : String) (reason : PathError)
  /-- The file has no value as a document. -/
  | noDocument (fault : Yaml.Fault)
  /-- The file holds something else than settings. -/
  | notAMapping (path kind : String)
  /-- The settings are at fault. -/
  | invalid (issues : List Issue)
  deriving DecidableEq, Inhabited

/-- The first line of what an error says, if it is told to the user. -/
def LoadError.headline? : LoadError → Option String
  | noFile path reason => some (reason.message path)
  | noDocument fault => fault.message?
  | notAMapping path kind => some ("config " ++ path ++ " must be a mapping, got " ++ kind)
  | invalid issues =>
    some (toString issues.length ++ " validation error" ++
      (if issues.length = 1 then "" else "s") ++ " for CalcConfig")

/-- The settings of a value that was read from a file. -/
def settingsOf (path : String) (d : Datum) : Except LoadError Mapping :=
  if d.isEmpty then .ok []
  else match d with
    | .map entries => .ok entries
    | d => .error (.notAMapping path d.kindName)

/-- The settings of what stands at a path. -/
def readSettings (reader : Yaml.Reader) (path : String) : FileEntry → Except LoadError Mapping
  | .error reason => .error (.noFile path reason)
  | .ok text =>
    match reader.read text with
    | .ok d => settingsOf path d
    | .error fault => .error (.noDocument fault)

/-- The settings below those that are given directly. No path, and the empty
    path, mean that there is no file. -/
def baseSettings (reader : Yaml.Reader) (files : String → FileEntry) :
    Option String → Except LoadError Mapping
  | none => .ok []
  | some path => if path.isEmpty then .ok [] else readSettings reader path (files path)

/-- The configuration of all layers, or the first error. -/
def loadConfig (reader : Yaml.Reader) (files : String → FileEntry) (path : Option String)
    (overrides : Mapping) : Except LoadError Config :=
  match baseSettings reader files path with
  | .ok base => (base.merge overrides).validate.mapError .invalid
  | .error e => .error e

variable {reader : Yaml.Reader}

theorem settingsOf_eq_error {path : String} {d : Datum} {e : LoadError}
    (h : settingsOf path d = .error e) : e = .notAMapping path d.kindName := by
  unfold settingsOf at h
  split at h
  · cases h
  · split at h <;> simp_all

theorem readSettings_file {path : String} {text : List Char} {d : Datum}
    (h : reader.read text = .ok d) : readSettings reader path (.ok text) = settingsOf path d := by
  simp only [readSettings, h]

theorem baseSettings_some {files : String → FileEntry} {path : String} (h : path ≠ "") :
    baseSettings reader files (some path) = readSettings reader path (files path) := by
  have hempty : ¬ path.isEmpty = true := by rwa [String.isEmpty_iff]
  simp only [baseSettings, if_neg hempty]

end Abacus
