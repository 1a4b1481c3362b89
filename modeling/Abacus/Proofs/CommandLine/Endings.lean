import Abacus.CommandLine
import Abacus.Proofs.CommandLine.Output
import Abacus.Proofs.Config.Layers

/-!
# How a Command Line Ends

A command line that asks for a calculation first needs a configuration and then
a value. It ends with the result, or with the first line of what the first of
the two that is missing has to say; and then nothing is written as output.

There is one more way to end. A settings file that cannot be read mostly has
nothing to say, and the program ends without a message. Every other fault of a
settings file is told: that there is no file, that it holds no settings or bad
ones, and that a value in it is none.

A file can be unreadable in two ways. It is malformed if it is no document at
all. But it can also be a document of which something has no value, such as a
list in the place of a key. So it is not enough that a file is well-formed.

What is shown makes no difference to how a command line ends. Command lines that
ask for the same calculation end with the same message, or with the same report
shown in different ways.

## Main definitions

* `Asks`: The options of a command line that asks for a calculation.
* `Unreadable`: A settings file whose fault has nothing to say.
* `Malformed`, `Misread`: The two ways to be unreadable.
* `onlyFile`: A directory with one file.
* `Told`: The endings that the user is told about.
* `Reports`: An ending that reports what a calculation finds out.

## Theorems

* `loadConfig_untold_iff`: The configurations that are missing without a message.
* `told_or_unreadable`: There are no other endings.
* `told_iff_not_unreadable`: The user is told unless the file is unreadable.
* `reports_iff_told`: What is reported is what the user is told.
* `reports_iff_not_misread`: With a file that is not malformed, a command line
  reports the calculation unless a value of the file is missing.
-/

namespace Abacus

namespace CommandLine

variable {reader : Yaml.Reader} {files : String → FileEntry} {args : List String} {o : Options}

/-- A command line asks for a calculation: its words make sense, some of them are
    an expression, and it does not ask for help. -/
structure Asks (args : List String) (o : Options) : Prop where
  read : Options.read {} args = .ok o
  help : o.help = false
  check : o.check = none

/-- The settings file at a path cannot be read, and its fault has nothing to
    say. -/
def Unreadable (reader : Yaml.Reader) (files : String → FileEntry) (path : String)
    (fault : Yaml.Fault) : Prop :=
  path ≠ "" ∧ fault.message? = none ∧
    ∃ text, files path = .ok text ∧ reader.read text = .error fault

/-- The settings file at a path is no document. -/
def Malformed (reader : Yaml.Reader) (files : String → FileEntry) (path : String) : Prop :=
  path ≠ "" ∧ ∃ text, files path = .ok text ∧ reader.Malformed text

/-- The settings file at a path is a document that has no value, and its fault has
    nothing to say. -/
def Misread (reader : Yaml.Reader) (files : String → FileEntry) (path : String)
    (fault : Yaml.Fault) : Prop :=
  path ≠ "" ∧ fault.message? = none ∧
    ∃ text d, files path = .ok text ∧ reader.compose text = .ok d ∧ reader.value d = .error fault

/-- A directory with one file. -/
def onlyFile (path content : String) : String → FileEntry :=
  fun p => if p = path then .ok content.toList else .error .missing

/-- An ending that the user is told about: the result, or the first line of a
    message about the configuration or else about the expression. -/
inductive Told (reader : Yaml.Reader) (files : String → FileEntry) (o : Options) :
    Ending → Prop where
  | result {c : Config} {r : Report}
    (hc : loadConfig reader files (some o.config) o.overrides = .ok c)
    (hr : run o.text c = .ok r) : Told reader files o (.result (written (shownLines o r)))
  | noConfig {e : LoadError} {message : String}
    (he : loadConfig reader files (some o.config) o.overrides = .error e)
    (hm : e.headline? = some message) : Told reader files o (.failure (firstLine message))
  | noValue {c : Config} {e : Failure}
    (hc : loadConfig reader files (some o.config) o.overrides = .ok c)
    (hr : run o.text c = .error e) : Told reader files o (.failure (firstLine e.message))

theorem perform_of_asks (h : Asks args o) :
    perform reader files args = performOptions reader files o := by
  rw [perform, h.read]
  dsimp only
  rw [h.help, h.check, if_neg Bool.false_ne_true]

/-- All words of the expression stand next to each other. -/
theorem text_eq_join (o : Options) : o.text = (String.join o.words.reverse).toList := by
  rw [Options.text, String.toList_join]

/-! ### Settings without a message -/

theorem headline?_eq_none_iff {e : LoadError} :
    e.headline? = none ↔ ∃ fault, e = .noDocument fault ∧ fault.message? = none := by
  cases e <;> simp [LoadError.headline?]

theorem readSettings_noDocument_iff {path : String} {entry : FileEntry} {fault : Yaml.Fault} :
    readSettings reader path entry = .error (.noDocument fault) ↔
      ∃ text, entry = .ok text ∧ reader.read text = .error fault := by
  constructor
  · intro h
    unfold readSettings at h
    split at h
    · exact nomatch h
    · next text =>
      split at h
      · exact nomatch settingsOf_eq_error h
      · next hread =>
        cases h
        exact ⟨text, rfl, hread⟩
  · rintro ⟨text, rfl, hread⟩
    simp only [readSettings, hread]

theorem loadConfig_noDocument_iff {path : String} {overrides : Mapping} {fault : Yaml.Fault} :
    loadConfig reader files (some path) overrides = .error (.noDocument fault) ↔
      path ≠ "" ∧ ∃ text, files path = .ok text ∧ reader.read text = .error fault := by
  constructor
  · intro h
    unfold loadConfig at h
    split at h
    · next base hb =>
      -- The check has other words for its own faults.
      cases hv : (base.merge overrides).validate <;> rw [hv] at h <;> exact nomatch h
    · next hb =>
      cases h
      by_cases hp : path = ""
      · rw [hp] at hb
        exact nomatch hb
      · rw [baseSettings_some hp] at hb
        exact ⟨hp, readSettings_noDocument_iff.mp hb⟩
  · rintro ⟨hp, hfile⟩
    have hbase : baseSettings reader files (some path) = .error (.noDocument fault) :=
      (baseSettings_some hp).trans (readSettings_noDocument_iff.mpr hfile)
    rw [loadConfig, hbase]

/-- Only an unreadable file leaves no configuration and no message. -/
theorem loadConfig_untold_iff {path : String} {overrides : Mapping} {fault : Yaml.Fault} :
    loadConfig reader files (some path) overrides = .error (.noDocument fault) ∧
      fault.message? = none ↔ Unreadable reader files path fault := by
  rw [loadConfig_noDocument_iff, Unreadable]
  tauto

/-! ### Endings -/

theorem ofLoadError_told {e : LoadError} {message : String} (h : e.headline? = some message) :
    Ending.ofLoadError e = .failure (firstLine message) := by
  simp only [Ending.ofLoadError, h]

theorem ofLoadError_untold {fault : Yaml.Fault} (h : fault.message? = none) :
    Ending.ofLoadError (.noDocument fault) = .unreadableSettings fault := by
  simp only [Ending.ofLoadError, LoadError.headline?, h]

/-- There is one ending at most that the user can be told about. -/
theorem performOptions_of_told {x : Ending} (h : Told reader files o x) :
    performOptions reader files o = x := by
  cases h with
  | result hc hr =>
    simp only [performOptions, hc, hr]
    rw [output_eq_written]
  | noConfig he hm =>
    simp only [performOptions, he]
    exact ofLoadError_told hm
  | noValue hc hr => simp only [performOptions, hc, hr]

theorem performOptions_of_unreadable {fault : Yaml.Fault}
    (h : Unreadable reader files o.config fault) :
    performOptions reader files o = .unreadableSettings fault := by
  have hload : loadConfig reader files (some o.config) o.overrides = .error (.noDocument fault) ∧
      fault.message? = none := loadConfig_untold_iff.mpr h
  rcases hload with ⟨he, hm⟩
  simp only [performOptions, he]
  exact ofLoadError_untold hm

/-- A command line ends as the user is told, unless the file is unreadable. -/
theorem told_or_unreadable (reader : Yaml.Reader) (files : String → FileEntry) (o : Options) :
    (∃ x, Told reader files o x) ∨ ∃ fault, Unreadable reader files o.config fault := by
  cases hc : loadConfig reader files (some o.config) o.overrides with
  | error e =>
    cases hm : e.headline? with
    | some message => exact .inl ⟨_, .noConfig hc hm⟩
    | none =>
      rcases headline?_eq_none_iff.mp hm with ⟨fault, rfl, hfault⟩
      exact .inr ⟨fault, loadConfig_untold_iff.mp ⟨hc, hfault⟩⟩
  | ok c =>
    left
    cases hr : run o.text c with
    | error e => exact ⟨_, .noValue hc hr⟩
    | ok r => exact ⟨_, .result hc hr⟩

theorem not_unreadable_of_read {path : String} {text : List Char} {d : Datum}
    (hfile : files path = .ok text) (hread : reader.read text = .ok d) (fault : Yaml.Fault) :
    ¬ Unreadable reader files path fault := by
  rintro ⟨-, -, other, hother, hfault⟩
  cases hfile.symm.trans hother
  cases hread.symm.trans hfault

theorem not_told_of_unreadable {x : Ending} {fault : Yaml.Fault}
    (h : Unreadable reader files o.config fault) : ¬ Told reader files o x := by
  intro ht
  have hx := (performOptions_of_told ht).symm.trans (performOptions_of_unreadable h)
  cases ht <;> exact nomatch hx

/-- A command line that asks for a calculation ends as its user is told, unless
    its settings file is unreadable; then it ends with the fault of the file. The
    endings that the user is told about are the result as the output, and a
    message with no output. -/
theorem told_iff_not_unreadable (h : Asks args o) :
    (Told reader files o (perform reader files args) ↔
      ∀ fault, ¬ Unreadable reader files o.config fault) ∧
    (∀ fault, perform reader files args = .unreadableSettings fault ↔
      Unreadable reader files o.config fault) ∧
    (∀ x, Told reader files o x →
      (x.exitCode = 0 ∧ ∃ c r, loadConfig reader files (some o.config) o.overrides = .ok c ∧
        run o.text c = .ok r ∧ x.output = written (shownLines o r)) ∨
      (x.exitCode = 1 ∧ x.output = "" ∧ ∃ message, x = .failure message)) := by
  rw [perform_of_asks h]
  refine ⟨⟨fun ht fault hf => not_told_of_unreadable hf ht, fun hno => ?_⟩, fun fault =>
    ⟨fun hx => ?_, performOptions_of_unreadable⟩, fun x hx => ?_⟩
  · rcases told_or_unreadable reader files o with ⟨x, hx⟩ | ⟨fault, hf⟩
    · rwa [performOptions_of_told hx]
    · exact absurd hf (hno fault)
  · -- The fault that it ends with is that of the file, and no other.
    rcases told_or_unreadable reader files o with ⟨x, ht⟩ | ⟨other, hf⟩
    · rw [performOptions_of_told ht] at hx
      cases ht <;> exact nomatch hx
    · rw [performOptions_of_unreadable hf] at hx
      cases hx
      exact hf
  · cases hx with
    | result hc hr => exact .inl ⟨rfl, _, _, hc, hr, rfl⟩
    | noConfig he hm => exact .inr ⟨rfl, rfl, _, rfl⟩
    | noValue hc hr => exact .inr ⟨rfl, rfl, _, rfl⟩

/-- A settings file with a value that no setting has is told about. -/
theorem told_bad_precision :
    let files := onlyFile "calc.yaml" "precision: f16\n"
    let args := ["--config", "calc.yaml", "1+1"]
    ∃ o, Asks args o ∧ Told Yaml.reader files o (perform Yaml.reader files args) ∧
      perform Yaml.reader files args = .failure "1 validation error for CalcConfig" := by
  intro files args
  have h : Asks args ({ config := "calc.yaml", words := ["1+1"] } : Options) := ⟨rfl, rfl, rfl⟩
  have hfile : IsFile Yaml.reader files (some "calc.yaml") [(precisionKey, .text "f16")] :=
    .settings (by decide) rfl Yaml.read_precision
  refine ⟨_, h, (told_iff_not_unreadable h).1.mpr ?_, ?_⟩
  · exact not_unreadable_of_read rfl Yaml.read_precision
  · rw [perform_of_asks h, performOptions, loadConfig_eq hfile]
    rfl

/-- A list that is opened and not closed is a settings file that the user is not
    told about. -/
theorem not_told_open_list :
    let files := onlyFile "calc.yaml" "["
    let args := ["--config", "calc.yaml", "1+1"]
    ∃ o, Asks args o ∧ perform Yaml.reader files args = .unreadableSettings .malformed ∧
      ¬ Told Yaml.reader files o (perform Yaml.reader files args) := by
  have h : Asks ["--config", "calc.yaml", "1+1"]
      ({ config := "calc.yaml", words := ["1+1"] } : Options) := ⟨rfl, rfl, rfl⟩
  have hends : perform Yaml.reader (onlyFile "calc.yaml" "[") ["--config", "calc.yaml", "1+1"] =
      .unreadableSettings .malformed := by cbv
  refine ⟨_, h, hends, ?_⟩
  rw [hends]
  intro ht
  cases ht

/-! ### Reports -/

/-- An ending that reports what the calculation of a text finds out under the
    configuration that was loaded: the report as the lines that are asked for, or
    the first line of the message about what is missing. -/
structure Reports (o : Options) (loaded : Except LoadError Config) (text : List Char)
    (x : Ending) : Prop where
  exitCode : x.exitCode = 0 ↔ ∃ c r, loaded = .ok c ∧ run text c = .ok r
  result : ∀ c r, loaded = .ok c → run text c = .ok r → calculate text c = .ok r.value ∧
    x = .result (written (shownLines o r)) ∧ ∀ line ∈ shownLines o r, '\n' ∉ line.toList
  noConfig : ∀ e, loaded = .error e → x.exitCode = 1 ∧ x.output = "" ∧
    ∃ message, e.headline? = some message ∧ x = .failure (firstLine message)
  noValue : ∀ c e, loaded = .ok c → run text c = .error e → x.exitCode = 1 ∧ x.output = "" ∧
    x = .failure (firstLine e.message)

/-- Of a file that is not malformed, a value can be missing nevertheless. -/
theorem unreadable_iff_misread {path : String} (h : ¬ Malformed reader files path)
    {fault : Yaml.Fault} :
    Unreadable reader files path fault ↔ Misread reader files path fault := by
  constructor
  · rintro ⟨hp, hm, text, htext, hread⟩
    unfold Yaml.Reader.read at hread
    split at hread
    · next d hd => exact ⟨hp, hm, text, d, htext, hd, hread⟩
    · next e he => exact absurd ⟨hp, text, htext, e, he⟩ h
  · rintro ⟨hp, hm, text, d, htext, hd, hvalue⟩
    exact ⟨hp, hm, text, htext, by rw [Yaml.Reader.read, hd]; exact hvalue⟩

theorem exitCode_eq_zero_iff_run (h : Asks args o) :
    (perform reader files args).exitCode = 0 ↔ ∃ c r,
      loadConfig reader files (some o.config) o.overrides = .ok c ∧ run o.text c = .ok r := by
  rw [perform_of_asks h]
  constructor
  · intro hz
    rcases told_or_unreadable reader files o with ⟨x, ht⟩ | ⟨fault, hf⟩
    · rw [performOptions_of_told ht] at hz
      cases ht with
      | result hc hr => exact ⟨_, _, hc, hr⟩
      | noConfig he hm => exact nomatch hz
      | noValue hc hr => exact nomatch hz
    · rw [performOptions_of_unreadable hf] at hz
      exact nomatch hz
  · rintro ⟨c, r, hc, hr⟩
    rw [performOptions_of_told (.result hc hr)]
    rfl

/-- What is written of a report holds the value of the calculation, on lines of
    its own. -/
theorem perform_result (h : Asks args o) {c : Config} {r : Report}
    (hc : loadConfig reader files (some o.config) o.overrides = .ok c)
    (hr : run o.text c = .ok r) : calculate o.text c = .ok r.value ∧
      perform reader files args = .result (written (shownLines o r)) ∧
      ∀ line ∈ shownLines o r, '\n' ∉ line.toList := by
  refine ⟨?_, ?_, fun line hline => ?_⟩
  · rw [calculate_eq_map_run, hr]
    rfl
  · rw [perform_of_asks h, performOptions_of_told (.result hc hr)]
  · exact newline_notMem_of_oneLine (oneLine_of_mem_shownLines hline)

theorem perform_noValue (h : Asks args o) {c : Config} {e : Failure}
    (hc : loadConfig reader files (some o.config) o.overrides = .ok c)
    (hr : run o.text c = .error e) : (perform reader files args).exitCode = 1 ∧
      (perform reader files args).output = "" ∧
      perform reader files args = .failure (firstLine e.message) := by
  rw [perform_of_asks h, performOptions_of_told (.noValue hc hr)]
  exact ⟨rfl, rfl, rfl⟩

/-- What is reported is what the user is told. -/
theorem reports_iff_told (h : Asks args o) :
    Reports o (loadConfig reader files (some o.config) o.overrides) o.text
      (perform reader files args) ↔ Told reader files o (perform reader files args) := by
  constructor
  · intro hr
    cases hc : loadConfig reader files (some o.config) o.overrides with
    | error e =>
      rcases hr.noConfig e hc with ⟨-, -, message, hm, hx⟩
      rw [hx]
      exact .noConfig hc hm
    | ok c =>
      cases hrun : run o.text c with
      | error e =>
        rw [(hr.noValue c e hc hrun).2.2]
        exact .noValue hc hrun
      | ok r =>
        rw [(hr.result c r hc hrun).2.1]
        exact .result hc hrun
  · intro ht
    refine ⟨exitCode_eq_zero_iff_run h, fun c r => perform_result h, fun e he => ?_,
      fun c e => perform_noValue h⟩
    cases hm : e.headline? with
    | some message =>
      rw [perform_of_asks h, performOptions_of_told (.noConfig he hm)]
      exact ⟨rfl, rfl, message, rfl, rfl⟩
    | none =>
      -- Without a message the file is unreadable, and the user is not told.
      rcases headline?_eq_none_iff.mp hm with ⟨fault, rfl, hfault⟩
      exact absurd ht (not_told_of_unreadable (loadConfig_untold_iff.mp ⟨he, hfault⟩))

/-- Command lines that ask for the same calculation end with the same report, each
    as it shows it, or in the same way. -/
theorem perform_of_same {args' : List String} {o' : Options} (h : Asks args o) (h' : Asks args' o')
    (hconfig : o'.config = o.config) (hoverrides : o'.overrides = o.overrides)
    (htext : o'.text = o.text) :
    (∃ r, perform reader files args = .result (written (shownLines o r)) ∧
      perform reader files args' = .result (written (shownLines o' r))) ∨
    ((perform reader files args).exitCode = 1 ∧
      perform reader files args' = perform reader files args) := by
  rw [perform_of_asks h, perform_of_asks h']
  rcases told_or_unreadable reader files o with ⟨x, ht⟩ | ⟨fault, hf⟩
  · rw [performOptions_of_told ht]
    cases ht with
    | @result c r hc hr =>
      refine .inl ⟨r, rfl, ?_⟩
      rw [← hconfig, ← hoverrides] at hc
      rw [← htext] at hr
      exact performOptions_of_told (.result hc hr)
    | noConfig he hm =>
      rw [← hconfig, ← hoverrides] at he
      exact .inr ⟨rfl, performOptions_of_told (.noConfig he hm)⟩
    | noValue hc hr =>
      rw [← hconfig, ← hoverrides] at hc
      rw [← htext] at hr
      exact .inr ⟨rfl, performOptions_of_told (.noValue hc hr)⟩
  · have hf' := hf
    rw [← hconfig] at hf'
    rw [performOptions_of_unreadable hf, performOptions_of_unreadable hf']
    exact .inr ⟨rfl, rfl⟩

/-- With a settings file that is absent or not malformed, a command line that asks
    for a calculation reports what the calculation of its words, put together, finds
    out under the configuration of its file and its options, exactly if no value of
    the file is missing with nothing to say.

    Whatever the file is, the code is zero exactly if there is a configuration and a
    report, which is shown as the lines that are asked for; and otherwise nothing is
    written as output, and the message of the calculation is reported. How the words
    are split, and what is asked to be shown, makes no difference to the code, the
    report and the message. -/
theorem reports_iff_not_misread (h : Asks args o) :
    let loaded := loadConfig reader files (some o.config) o.overrides
    let text := (String.join o.words.reverse).toList
    let ending := perform reader files args
    (¬ Malformed reader files o.config →
      (Reports o loaded text ending ↔ ∀ fault, ¬ Misread reader files o.config fault)) ∧
    (ending.exitCode = 0 ↔ ∃ c r, loaded = .ok c ∧ run text c = .ok r) ∧
    (∀ c r, loaded = .ok c → run text c = .ok r → calculate text c = .ok r.value ∧
      ending = .result (written (shownLines o r)) ∧
      ∀ line ∈ shownLines o r, '\n' ∉ line.toList) ∧
    (∀ e, loaded = .error e → ending.exitCode = 1 ∧ ending.output = "" ∧
      ∀ message, e.headline? = some message → ending = .failure (firstLine message)) ∧
    (∀ c e, loaded = .ok c → run text c = .error e →
      ending.exitCode = 1 ∧ ending.output = "" ∧ ending = .failure (firstLine e.message)) ∧
    (∀ args' o', Asks args' o' → o'.config = o.config → o'.precision = o.precision →
      o'.implicitMul = o.implicitMul →
      String.join o'.words.reverse = String.join o.words.reverse →
      (∃ r, ending = .result (written (shownLines o r)) ∧
        perform reader files args' = .result (written (shownLines o' r))) ∨
      (ending.exitCode = 1 ∧ perform reader files args' = ending)) := by
  intro loaded text ending
  have htext : o.text = text := text_eq_join o
  have hending : ending = performOptions reader files o := perform_of_asks h
  rw [← htext]
  refine ⟨fun hformed => ?_, exitCode_eq_zero_iff_run h, fun c r => perform_result h,
    fun e he => ?_, fun c e => perform_noValue h, ?_⟩
  · calc Reports o loaded o.text ending
      _ ↔ Told reader files o ending := reports_iff_told h
      _ ↔ ∀ fault, ¬ Unreadable reader files o.config fault := (told_iff_not_unreadable h).1
      _ ↔ ∀ fault, ¬ Misread reader files o.config fault :=
        forall_congr' fun fault => not_congr (unreadable_iff_misread hformed)
  · -- A configuration that is missing without a message comes from an unreadable file.
    cases hm : e.headline? with
    | some message =>
      have hx := hending.trans (performOptions_of_told (.noConfig he hm))
      rw [hx]
      exact ⟨rfl, rfl, fun _ hmessage => by rw [Option.some.inj hmessage]⟩
    | none =>
      rcases headline?_eq_none_iff.mp hm with ⟨fault, rfl, hfault⟩
      rw [hending, performOptions_of_unreadable (loadConfig_untold_iff.mp ⟨he, hfault⟩)]
      exact ⟨rfl, rfl, nofun⟩
  · -- Only four of the fields are read on the way to a configuration and a report.
    intro args' o' h' hconfig hprecision hswitch hwords
    refine perform_of_same h h' hconfig ?_ ?_
    · rw [Options.overrides, Options.overrides, hprecision, hswitch]
    · rw [text_eq_join, text_eq_join, hwords]

/-- Two words of an expression with an implied multiplication between them, and
    both of its forms asked for. -/
theorem reports_e_pi :
    let files := onlyFile "calc.yaml" "precision: f16\n"
    let args := ["--config", "calc.yaml", "--precision", "f32", "--show-tokens", "e", "--show-ast",
      "pi"]
    ∃ o, ∃ r : Report, Asks args o ∧ ¬ Malformed Yaml.reader files o.config ∧
      run "epi".toList ⟨.f32, true⟩ = .ok r ∧
      Reports o (.ok ⟨.f32, true⟩) "epi".toList (perform Yaml.reader files args) ∧
      perform Yaml.reader files args =
        .result (written ["e * pi", "(e * pi)", numberLabel r.value]) := by
  intro files args
  have h : Asks args
      ({ config := "calc.yaml", precision := some "f32", showTokens := true, showAst := true,
         words := ["pi", "e"] } : Options) := ⟨rfl, rfl, rfl⟩
  have hfile : IsFile Yaml.reader files (some "calc.yaml") [(precisionKey, .text "f16")] :=
    .settings (by decide) rfl Yaml.read_precision
  -- The option lies over the setting of the file, which could not be accepted.
  have hc : loadConfig Yaml.reader files (some "calc.yaml")
      [(precisionKey, .text "f32"), (implicitMulKey, .null)] = .ok ⟨.f32, true⟩ := by
    rw [loadConfig_eq hfile]
    rfl
  have htokens : tokenize "epi".toList true =
      .ok [.atom .e, .op (.binary .mul), .atom .pi] := by cbv
  have htree : parse [.atom .e, .op (.binary .mul), .atom .pi] =
      .ok (.binary .mul (.leaf .e) (.leaf .pi)) := by cbv
  have hr : run "epi".toList ⟨.f32, true⟩ = .ok ⟨"epi".toList,
      [.atom .e, .op (.binary .mul), .atom .pi], .binary .mul (.leaf .e) (.leaf .pi),
      (Expr.binary .mul (.leaf .e) (.leaf .pi)).evaluate .f32, .f32⟩ := by
    simp only [run, calculateWithNotes, htokens, htree]
  have hformed : ¬ Malformed Yaml.reader files "calc.yaml" := by
    rintro ⟨-, text, htext, hmalformed⟩
    cases htext
    exact Yaml.Reader.not_malformed_of_read Yaml.read_precision hmalformed
  rcases @reports_iff_not_misread Yaml.reader files args _ h with
    ⟨hreports, -, hresult, -⟩
  have hread : ∀ fault, ¬ Misread Yaml.reader files "calc.yaml" fault := by
    intro fault hmisread
    exact not_unreadable_of_read rfl Yaml.read_precision fault
      ((unreadable_iff_misread hformed).mpr hmisread)
  have hall : Reports _ (loadConfig Yaml.reader files (some "calc.yaml")
      [(precisionKey, .text "f32"), (implicitMulKey, .null)]) "epi".toList _ :=
    (hreports hformed).mpr hread
  rw [hc] at hall
  exact ⟨_, _, h, hformed, hr, hall, (hresult _ _ hc hr).2.1⟩

/-- A list in the place of a key is in the form of a document. It makes a settings
    file that is not malformed and about which nothing is reported. -/
theorem not_reports_list_key :
    let files := onlyFile "calc.yaml" "[a]: 1\n"
    let args := ["--config", "calc.yaml", "1+1"]
    ∃ o, Asks args o ∧ ¬ Malformed Yaml.reader files o.config ∧
      perform Yaml.reader files args = .unreadableSettings .misfit ∧
      ¬ Reports o (loadConfig Yaml.reader files (some o.config) o.overrides)
        (String.join o.words.reverse).toList (perform Yaml.reader files args) := by
  intro files args
  have h : Asks args ({ config := "calc.yaml", words := ["1+1"] } : Options) := ⟨rfl, rfl, rfl⟩
  -- The document is composed: its one entry has a list of one text as its key.
  have hcompose : Yaml.reader.compose "[a]: 1\n".toList = .ok
      ⟨#[⟨.mapping, .mapping [(1, 3)]⟩, ⟨.sequence, .sequence [2]⟩, ⟨.text, .scalar [.char 'a']⟩,
        ⟨.int, .scalar [.char '1']⟩], some 0⟩ := Yaml.compose_of_toOption (by decide +kernel)
  have hformed : ¬ Malformed Yaml.reader files "calc.yaml" := by
    rintro ⟨-, text, htext, fault, hfault⟩
    cases htext
    cases hcompose.symm.trans hfault
  have hmisread : Misread Yaml.reader files "calc.yaml" .misfit :=
    ⟨by decide, rfl, _, _, rfl, hcompose, rfl⟩
  have hunreadable : Unreadable Yaml.reader files "calc.yaml" .misfit :=
    (unreadable_iff_misread hformed).mpr hmisread
  refine ⟨_, h, hformed, (perform_of_asks h).trans (performOptions_of_unreadable hunreadable),
    fun hreports => ?_⟩
  rcases hreports.noConfig _ (loadConfig_untold_iff.mpr hunreadable).1 with ⟨-, -, message, hm, -⟩
  cases hm

end CommandLine

end Abacus
