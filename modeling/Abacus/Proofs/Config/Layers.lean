import Abacus.Config.Load
import Abacus.Proofs.Config.Checking
import Abacus.Yaml.Standard

/-!
# Layers of a Configuration

A configuration comes from what is given directly, what a file holds, and the
defaults. A default counts only if neither of the other two has a value for its
setting. What no layer hides has to be accepted, whatever layer it is from: so a
value that could not be accepted does no harm in the file under one that is given
directly, but a key that is no setting always does.

A file that holds nothing, or a value that counts as empty, has no settings. Any
other value that is no mapping is refused before the layers are put together.

## Main definitions

* `IsFile`: The settings that a path stands for.

## Theorems

* `isFile_iff`: The settings of a path are those that are read.
* `differentKeys_of_isFile`: Their keys are different.
* `loadConfig_of_acceptable`: The configuration of layers that are accepted.
* `loadConfig_of_not_acceptable`: The issues of layers that are not.
* `loadConfig_layers`: The configuration of the three layers.
-/

namespace Abacus

/-! ### Files -/

/-- The settings that a path stands for. Without a path there is no file, and a
    file with a value that counts as empty has no settings. -/
inductive IsFile (reader : Yaml.Reader) (files : String → FileEntry) :
    Option String → Mapping → Prop where
  | noPath : IsFile reader files none []
  | emptyPath : IsFile reader files (some "") []
  | emptyValue {path : String} {text : List Char} {d : Datum} (hpath : path ≠ "")
    (hfile : files path = .ok text) (hread : reader.read text = .ok d) (hempty : d.isEmpty = true) :
    IsFile reader files (some path) []
  | settings {path : String} {text : List Char} {m : Mapping} (hpath : path ≠ "")
    (hfile : files path = .ok text) (hread : reader.read text = .ok (.map m)) :
    IsFile reader files (some path) m

variable {reader : Yaml.Reader} {files : String → FileEntry}

theorem baseSettings_eq_settingsOf {path : String} {text : List Char} {d : Datum}
    (hpath : path ≠ "") (hfile : files path = .ok text) (hread : reader.read text = .ok d) :
    baseSettings reader files (some path) = settingsOf path d := by
  rw [baseSettings_some hpath, hfile, readSettings_file hread]

theorem settingsOf_map (path : String) (m : Mapping) : settingsOf path (.map m) = .ok m := by
  -- A mapping without entries counts as empty, and so it has no settings either way.
  cases m with
  | nil => rfl
  | cons entry rest => rfl

/-- The settings of a path are those that are read. -/
theorem isFile_iff {path : Option String} {m : Mapping} :
    IsFile reader files path m ↔ baseSettings reader files path = .ok m := by
  constructor
  · intro h
    cases h with
    | noPath => rfl
    | emptyPath => rfl
    | emptyValue hpath hfile hread hempty =>
      rw [baseSettings_eq_settingsOf hpath hfile hread]
      exact if_pos hempty
    | settings hpath hfile hread =>
      rw [baseSettings_eq_settingsOf hpath hfile hread, settingsOf_map]
  · intro h
    cases path with
    | none => cases h; exact .noPath
    | some path =>
      by_cases hpath : path = ""
      · subst hpath
        cases h
        exact .emptyPath
      · rw [baseSettings_some hpath] at h
        cases hfile : files path with
        | error reason => rw [hfile] at h; cases h
        | ok text =>
          rw [hfile, readSettings] at h
          split at h
          · next d hread =>
            unfold settingsOf at h
            split at h
            · next hempty =>
              cases h
              exact .emptyValue hpath hfile hread hempty
            · split at h
              · cases h
                exact .settings hpath hfile hread
              · cases h
          · cases h

theorem differentKeys_of_isFile {path : Option String} {m : Mapping}
    (h : IsFile reader files path m) : Scalar.DifferentKeys (m.map (·.1)) := by
  cases h with
  | noPath => exact List.Pairwise.nil
  | emptyPath => exact List.Pairwise.nil
  | emptyValue => exact List.Pairwise.nil
  | settings _ _ hread => exact reader.differentKeys_of_read hread

/-! ### The layers together -/

variable {path : Option String} {file given : Mapping}

theorem loadConfig_eq (h : IsFile reader files path file) :
    loadConfig reader files path given = (file.merge given).validate.mapError .invalid := by
  rw [loadConfig, isFile_iff.mp h]

theorem loadConfig_of_acceptable (h : IsFile reader files path file) (hgiven : given.Distinct)
    (hall : file.Acceptable given) : ∃ c, loadConfig reader files path given = .ok c ∧
      ComesTo readPrecision .f64 (file.inForce? given precisionKey) c.precision ∧
      ComesTo readSwitch true (file.inForce? given implicitMulKey) c.implicitMul := by
  rcases (Mapping.validate_eq_ok_iff _).mpr ((Mapping.issues_eq_nil_iff hgiven).mpr hall) with
    ⟨c, hc⟩
  rcases Mapping.settings_of_validate hc with ⟨hp, hb⟩
  refine ⟨c, ?_, ?_, ?_⟩
  · rw [loadConfig_eq h, hc]
    rfl
  · rw [Mapping.inForce?_eq file hgiven]
    exact comesTo_of_setting hp
  · rw [Mapping.inForce?_eq file hgiven]
    exact comesTo_of_setting hb

theorem loadConfig_of_not_acceptable (h : IsFile reader files path file) (hgiven : given.Distinct)
    (hnot : ¬file.Acceptable given) : loadConfig reader files path given =
      .error (.invalid ((file.checkedKeys given).filterMap (file.issueAt? given))) := by
  rw [← Mapping.issues_eq_nil_iff hgiven] at hnot
  rw [loadConfig_eq h, Mapping.validate_of_issues hnot, Mapping.issues_merge hgiven]
  rfl

theorem loadConfig_ok_iff (h : IsFile reader files path file) (hgiven : given.Distinct) :
    (∃ c, loadConfig reader files path given = .ok c) ↔ file.Acceptable given := by
  constructor
  · rintro ⟨c, hc⟩
    refine Classical.byContradiction fun hnot => ?_
    rw [loadConfig_of_not_acceptable h hgiven hnot] at hc
    cases hc
  · intro hall
    rcases loadConfig_of_acceptable h hgiven hall with ⟨c, hc, _⟩
    exact ⟨c, hc⟩

theorem comesTo_of_loadConfig (h : IsFile reader files path file) (hgiven : given.Distinct)
    {c : Config} (hc : loadConfig reader files path given = .ok c) :
    ComesTo readPrecision .f64 (file.inForce? given precisionKey) c.precision ∧
    ComesTo readSwitch true (file.inForce? given implicitMulKey) c.implicitMul := by
  rcases loadConfig_of_acceptable h hgiven ((loadConfig_ok_iff h hgiven).mp ⟨c, hc⟩) with
    ⟨c', hc', hsettings⟩
  rw [hc] at hc'
  cases hc'
  exact hsettings

/-- Values of the file that something hides make no difference. -/
theorem loadConfig_congr {files' : String → FileEntry} {path' : Option String} {file' : Mapping}
    (h : IsFile reader files path file) (h' : IsFile reader files' path' file')
    (hgiven : given.Distinct) (hkeys : file'.map (·.1) = file.map (·.1))
    (hget : ∀ key, (∀ d, given.get? key = some d → d.isNull = true) →
      file'.get? key = file.get? key) :
    loadConfig reader files' path' given = loadConfig reader files path given := by
  have hforce : ∀ key, file'.inForce? given key = file.inForce? given key := by
    intro key
    -- A value that is given directly hides the key in both files, and a null in neither.
    by_cases hhidden : ∃ d, given.get? key = some d ∧ d.isNull = false
    · rcases hhidden with ⟨d, hd, hvalue⟩
      rw [Mapping.inForce?_of_given hd hvalue, Mapping.inForce?_of_given hd hvalue]
    · have hshown : ∀ d, given.get? key = some d → d.isNull = true :=
        fun d hd => Bool.of_not_eq_false fun hvalue => hhidden ⟨d, hd, hvalue⟩
      rw [Mapping.inForce?, Mapping.inForce?, hget key hshown]
  have hchecked : file'.checkedKeys given = file.checkedKeys given := by
    rw [Mapping.checkedKeys, Mapping.checkedKeys, hkeys]
  have hissue : file'.issueAt? given = file.issueAt? given := by
    funext key
    rw [Mapping.issueAt?, Mapping.issueAt?, hforce]
  rw [loadConfig_eq h, loadConfig_eq h']
  congr 1
  refine Mapping.validate_congr (fun key => ?_) ?_
  · rw [← Mapping.inForce?_eq _ hgiven, ← Mapping.inForce?_eq _ hgiven, hforce]
  · rw [Mapping.issues_merge hgiven, Mapping.issues_merge hgiven, hchecked, hissue]

/-- A value that is neither empty nor a mapping is refused, whatever is given
    directly. -/
theorem loadConfig_notAMapping {path : String} {text : List Char} {d : Datum} (hpath : path ≠ "")
    (hfile : files path = .ok text) (hread : reader.read text = .ok d) (hempty : d.isEmpty = false)
    (hmap : ∀ m, d ≠ .map m) (given : Mapping) :
    loadConfig reader files (some path) given = .error (.notAMapping path d.kindName) := by
  have hbase : baseSettings reader files (some path) = .error (.notAMapping path d.kindName) := by
    rw [baseSettings_eq_settingsOf hpath hfile hread]
    unfold settingsOf
    rw [if_neg (Bool.not_eq_true _ ▸ hempty)]
    split
    · next m => exact absurd rfl (hmap m)
    · rfl
  rw [loadConfig, hbase]

/-- What the layers come to, for any settings that are given directly.

    There is a configuration exactly if every value in force is accepted, and then
    each setting is its value in force as it is read, or the default. Otherwise
    there is one issue for every key whose value in force is not accepted: the keys
    that are checked are all different, and each issue is about its key.

    So what is hidden in the file makes no difference. A key of the file that is no
    setting is never hidden, and a null in the file is hidden only by a value. A
    file with another value than a mapping is refused, unless it counts as
    empty. -/
theorem loadConfig_layers (reader : Yaml.Reader) (files : String → FileEntry) {given : Mapping}
    (h : given.IsGiven) :
    (∀ path file, IsFile reader files path file →
      ((∃ c, loadConfig reader files path given = .ok c) ↔ file.Acceptable given) ∧
      (∀ c, loadConfig reader files path given = .ok c →
        ComesTo readPrecision .f64 (file.inForce? given precisionKey) c.precision ∧
        ComesTo readSwitch true (file.inForce? given implicitMulKey) c.implicitMul) ∧
      (¬file.Acceptable given → loadConfig reader files path given =
        .error (.invalid ((file.checkedKeys given).filterMap (file.issueAt? given)))) ∧
      Scalar.DifferentKeys (file.checkedKeys given) ∧
      (∀ key, (∃ i, key ∈ file.checkedKeys given ∧ file.issueAt? given key = some i) ↔
        ∃ d, file.inForce? given key = some d ∧ ¬Accepted key d) ∧
      (∀ key i, file.issueAt? given key = some i → i.place = some key.place) ∧
      (∀ files' path' file', IsFile reader files' path' file' → file'.map (·.1) = file.map (·.1) →
        (∀ key, (∀ d, given.get? key = some d → d.isNull = true) →
          file'.get? key = file.get? key) →
        loadConfig reader files' path' given = loadConfig reader files path given) ∧
      (∀ key ∈ file.map (·.1), key ≠ precisionKey → key ≠ implicitMulKey →
        file.issueAt? given key = Mapping.keyIssue? key ∧ ¬file.Acceptable given) ∧
      ∀ key, file.get? key = some .null → (∀ d, given.get? key = some d → d.isNull = true) →
        (∃ i, file.issueAt? given key = some i) ∧ ¬file.Acceptable given) ∧
    ∀ path text d, path ≠ "" → files path = .ok text → reader.read text = .ok d →
      d.isEmpty = false → (∀ m, d ≠ .map m) →
      loadConfig reader files (some path) given = .error (.notAMapping path d.kindName) := by
  refine ⟨fun path file hfile => ⟨loadConfig_ok_iff hfile h.distinct,
    fun c => comesTo_of_loadConfig hfile h.distinct, loadConfig_of_not_acceptable hfile h.distinct,
    Mapping.differentKeys_checkedKeys (differentKeys_of_isFile hfile) h, fun key => ?_,
    fun key i => Mapping.place_of_issueAt?,
    fun files' path' file' hfile' => loadConfig_congr hfile hfile' h.distinct, ?_, ?_⟩,
    fun path text d hpath hfile hread hempty hmap =>
      loadConfig_notAMapping hpath hfile hread hempty hmap given⟩
  · rw [← Mapping.exists_issueAt?_iff]
    constructor
    · rintro ⟨i, _, hi⟩
      exact ⟨i, hi⟩
    · rintro ⟨i, hi⟩
      rcases Option.bind_eq_some_iff.mp hi with ⟨d, hd, _⟩
      exact ⟨i, Mapping.mem_checkedKeys hd, hi⟩
  · intro key hkey hp hb
    rcases Mapping.issueAt?_of_other given hkey hp hb with ⟨hissue, hsome⟩
    exact ⟨hissue, Mapping.not_acceptable_of_issueAt? (hissue ▸ hsome)⟩
  · intro key hnull hgiven
    have hsome := Mapping.exists_issueAt?_of_null hnull hgiven
    exact ⟨hsome, Mapping.not_acceptable_of_issueAt? hsome⟩

/-- A precision of the file that there is not does no harm under one that is
    given directly. -/
theorem loadConfig_hidden_precision :
    let files : String → FileEntry := fun _ => .ok "precision: f16\n".toList
    let given : Mapping := [(precisionKey, .text "f32"), (implicitMulKey, .null)]
    given.IsGiven ∧ IsFile Yaml.reader files (some "calc.yaml") [(precisionKey, .text "f16")] ∧
      ∃ c, loadConfig Yaml.reader files (some "calc.yaml") given = .ok c ∧ c = ⟨.f32, true⟩ := by
  intro files given
  have hgiven : given.IsGiven := by
    refine ⟨by decide, fun key hkey => ?_⟩
    rcases List.mem_cons.mp hkey with rfl | hkey
    · exact ⟨_, rfl⟩
    · exact ⟨_, List.mem_singleton.mp hkey⟩
  have hfile : IsFile Yaml.reader files (some "calc.yaml") [(precisionKey, .text "f16")] :=
    .settings (by decide) rfl Yaml.read_precision
  have hall : Mapping.Acceptable [(precisionKey, .text "f16")] given :=
    (Mapping.issues_eq_nil_iff hgiven.distinct).mp (by cbv)
  have hlayers := (loadConfig_layers Yaml.reader files hgiven).1 _ _ hfile
  rcases hlayers.1.mpr hall with ⟨c, hc⟩
  rcases hlayers.2.1 c hc with ⟨hp, hb⟩
  have hprecision : Except.ok Precision.f32 = Except.ok c.precision := hp.1 (.text "f32") rfl
  have hswitch : c.implicitMul = true := hb.2 rfl
  refine ⟨hgiven, hfile, c, hc, ?_⟩
  rcases c with ⟨p, b⟩
  cases hprecision
  cases hswitch
  rfl

end Abacus
