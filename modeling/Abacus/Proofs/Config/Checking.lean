import Abacus.Datum.Key
import Abacus.Proofs.Config.History
import Mathlib.Data.List.Basic

/-!
# Checking Two Layers

What the check says of two mappings of settings that are put together, the one
from a file and the one that is given directly. Each key is looked up on its own:
a value that is given directly hides the value of the file. A null that is given
directly is no value, so it hides nothing; a null in the file is a value, and no
setting accepts it.

The check is made once, on what is in force after the layers are put together. It
accepts exactly the layers in which every key in force is that of a setting which
accepts its value. Otherwise each key at fault makes one issue, and what is
hidden makes none.

`Mapping.merge` puts the layers together entry by entry. What comes out is
described here without it, by the keys of both layers and by what is in force
under each.

## Main definitions

* `Mapping.IsGiven`: Settings as they are given directly, each under a name.
* `Mapping.inForce?`: The raw value that counts for a key.
* `Accepted`: A value can become the setting of a key.
* `Mapping.otherKeys`: The keys of a list that are no settings.
* `Mapping.checkedKeys`: The keys that are checked, in their order.
* `entryIssue?`, `Mapping.issueAt?`: The issue of a value under a key, and of what
  is in force there.
* `Mapping.Acceptable`: All values in force are accepted.
* `ComesTo`: What a setting is, by its raw value.

## Theorems

* `Mapping.inForce?_eq`: What is in force is found where the layers are merged.
* `entryIssue?_eq_none_iff`: A value makes no issue exactly if it is accepted.
* `place_of_entryIssue?`: An issue is about its key.
* `Mapping.issues_merge`: The issues are those of the checked keys.
* `Mapping.differentKeys_checkedKeys`: No key is checked twice.
* `Mapping.issues_eq_nil_iff`: There is none exactly if all is accepted.
* `Mapping.exists_issueAt?_iff`: Which keys have an issue.
-/

namespace Abacus

namespace Mapping

/-- Settings as they are given directly: each key is a text, with one entry. -/
structure IsGiven (m : Mapping) : Prop where
  distinct : m.Distinct
  isText : ∀ key ∈ m.map (·.1), ∃ name, key = .text name

/-- The raw value that counts for a key: what is given directly if that is a
    value, or else what the file has. -/
def inForce? (file given : Mapping) (key : Scalar) : Option Datum :=
  ((given.get? key).filter fun d => !d.isNull).or (file.get? key)

theorem inForce?_eq (file : Mapping) {given : Mapping} (h : given.Distinct) (key : Scalar) :
    inForce? file given key = (file.merge given).get? key := by
  rw [inForce?, get?_merge, given?_of_distinct key h]

end Mapping

/-! ### Issues of a key -/

/-- A value can become the setting of a key. -/
inductive Accepted : Scalar → Datum → Prop where
  | precision {d : Datum} {p : Precision} (h : readPrecision d = .ok p) : Accepted precisionKey d
  | implicitMul {d : Datum} {b : Bool} (h : readSwitch d = .ok b) : Accepted implicitMulKey d

/-- The issue of a reading, if it fails. -/
def issue? {α : Type} : Except Issue α → Option Issue
  | .ok _ => none
  | .error i => some i

/-- The issue of a value under a key, if there is one. -/
def entryIssue? (key : Scalar) (d : Datum) : Option Issue :=
  if key = precisionKey then issue? (readPrecision d)
  else if key = implicitMulKey then issue? (readSwitch d)
  else Mapping.keyIssue? key

theorem issue?_eq_none_iff {α : Type} {r : Except Issue α} :
    issue? r = none ↔ ∃ a, r = .ok a := by
  cases r with
  | ok a => exact iff_of_true rfl ⟨a, rfl⟩
  | error i =>
    refine iff_of_false (Option.some_ne_none i) ?_
    rintro ⟨a, ha⟩
    cases ha

theorem issueOf_eq_toList {α : Type} (r : Except Issue α) :
    Mapping.issueOf r = (issue? r).toList := by
  cases r <;> rfl

theorem implicitMulKey_ne_precisionKey : implicitMulKey ≠ precisionKey := by decide

theorem entryIssue?_precisionKey (d : Datum) :
    entryIssue? precisionKey d = issue? (readPrecision d) :=
  if_pos rfl

theorem entryIssue?_implicitMulKey (d : Datum) :
    entryIssue? implicitMulKey d = issue? (readSwitch d) := by
  rw [entryIssue?, if_neg implicitMulKey_ne_precisionKey, if_pos rfl]

theorem entryIssue?_of_ne {key : Scalar} (hp : key ≠ precisionKey) (hb : key ≠ implicitMulKey)
    (d : Datum) : entryIssue? key d = Mapping.keyIssue? key := by
  rw [entryIssue?, if_neg hp, if_neg hb]

/-- A value makes no issue exactly if it is accepted. -/
theorem entryIssue?_eq_none_iff {key : Scalar} {d : Datum} :
    entryIssue? key d = none ↔ Accepted key d := by
  constructor
  · intro h
    by_cases hp : key = precisionKey
    · subst hp
      rw [entryIssue?_precisionKey, issue?_eq_none_iff] at h
      rcases h with ⟨p, h⟩
      exact .precision h
    · by_cases hb : key = implicitMulKey
      · subst hb
        rw [entryIssue?_implicitMulKey, issue?_eq_none_iff] at h
        rcases h with ⟨b, h⟩
        exact .implicitMul h
      · rw [entryIssue?_of_ne hp hb, Mapping.keyIssue?_eq_none_iff] at h
        exact absurd h (not_or.mpr ⟨hp, hb⟩)
  · intro h
    cases h with
    | precision h => rw [entryIssue?_precisionKey, issue?_eq_none_iff]; exact ⟨_, h⟩
    | implicitMul h => rw [entryIssue?_implicitMulKey, issue?_eq_none_iff]; exact ⟨_, h⟩

theorem place_of_readPrecision {d : Datum} {i : Issue} (h : readPrecision d = .error i) :
    i.place = some precisionKey := by
  unfold readPrecision at h
  split at h
  · split at h <;> cases h
    rfl
  · cases h
    rfl
  · cases h
    rfl

theorem place_of_readSwitchNumber {n : Int} {i : Issue} (h : readSwitchNumber n = .error i) :
    i.place = some implicitMulKey := by
  unfold readSwitchNumber at h
  split at h
  · cases h
  · split at h <;> cases h
    rfl

theorem place_of_readSwitchWord {s : String} {i : Issue} (h : readSwitchWord s = .error i) :
    i.place = some implicitMulKey := by
  unfold readSwitchWord at h
  dsimp only at h
  split at h
  · cases h
  · split at h <;> cases h
    rfl

theorem place_of_readSwitch {d : Datum} {i : Issue} (h : readSwitch d = .error i) :
    i.place = some implicitMulKey := by
  unfold readSwitch at h
  split at h
  · cases h
  · split at h
    · exact place_of_readSwitchNumber h
    · cases h
      rfl
  · split at h
    · exact place_of_readSwitchNumber h
    · cases h
      rfl
  · exact place_of_readSwitchWord h
  · cases h
    rfl
  · exact place_of_readSwitchWord h
  · cases h
    rfl

theorem place_of_keyIssue? {key : Scalar} {i : Issue} (h : Mapping.keyIssue? key = some i) :
    i.place = some key.place := by
  unfold Mapping.keyIssue? at h
  split at h
  · cases h
  · split at h <;> cases h <;> rfl

theorem eq_error_of_issue? {α : Type} {r : Except Issue α} {i : Issue} (h : issue? r = some i) :
    r = .error i := by
  cases r with
  | ok a => cases h
  | error j => cases h; rfl

/-- An issue is about the key that it is made for. -/
theorem place_of_entryIssue? {key : Scalar} {d : Datum} {i : Issue}
    (h : entryIssue? key d = some i) : i.place = some key.place := by
  unfold entryIssue? at h
  split at h
  · next hkey =>
    rw [hkey, place_of_readPrecision (eq_error_of_issue? h)]
    rfl
  · split at h
    · next hkey =>
      rw [hkey, place_of_readSwitch (eq_error_of_issue? h)]
      rfl
    · exact place_of_keyIssue? h

namespace Mapping

/-- The keys that are no settings. -/
def otherKeys (keys : List Scalar) : List Scalar :=
  keys.filter fun key => key ≠ precisionKey ∧ key ≠ implicitMulKey

/-- The keys that are checked: the two settings, and then all other keys of the
    file and of what is given directly. -/
def checkedKeys (file given : Mapping) : List Scalar :=
  precisionKey :: implicitMulKey ::
    otherKeys (file.map (·.1) ++ (given.map (·.1)).filter (· ∉ file.map (·.1)))

/-- The issue of a key, if what is in force under it makes one. -/
def issueAt? (file given : Mapping) (key : Scalar) : Option Issue :=
  (inForce? file given key).bind (entryIssue? key)

/-- All values in force are accepted. -/
def Acceptable (file given : Mapping) : Prop :=
  ∀ key d, inForce? file given key = some d → Accepted key d

theorem issueAt?_eq_none_iff {file given : Mapping} {key : Scalar} :
    issueAt? file given key = none ↔ ∀ d, inForce? file given key = some d → Accepted key d := by
  rw [issueAt?]
  cases inForce? file given key with
  | none => exact iff_of_true rfl nofun
  | some d =>
    rw [Option.bind_some, entryIssue?_eq_none_iff]
    exact ⟨fun h _ hd => Option.some.inj hd ▸ h, fun h => h d rfl⟩

theorem issueAt?_precisionKey (file given : Mapping) : issueAt? file given precisionKey =
    (inForce? file given precisionKey).bind fun d => issue? (readPrecision d) := by
  rw [issueAt?, funext entryIssue?_precisionKey]

theorem issueAt?_implicitMulKey (file given : Mapping) : issueAt? file given implicitMulKey =
    (inForce? file given implicitMulKey).bind fun d => issue? (readSwitch d) := by
  rw [issueAt?, funext entryIssue?_implicitMulKey]

theorem issueOf_setting {α : Type} (m : Mapping) (key : Scalar) (fallback : α)
    (read : Datum → Except Issue α) :
    issueOf (m.setting key fallback read) =
      ((m.get? key).bind fun d => issue? (read d)).toList := by
  rw [setting]
  cases m.get? key with
  | none => rfl
  | some d => exact issueOf_eq_toList _

variable {file given : Mapping}

/-- Of a key in force that is none of the two settings there is always an issue,
    whatever its value, and of the settings there is none here. -/
theorem ite_issueAt? {key : Scalar} (h : (inForce? file given key).isSome = true) :
    (if key ≠ precisionKey ∧ key ≠ implicitMulKey then issueAt? file given key else none) =
      keyIssue? key := by
  rcases Option.isSome_iff_exists.mp h with ⟨d, hd⟩
  by_cases hkey : key ≠ precisionKey ∧ key ≠ implicitMulKey
  · rw [if_pos hkey, issueAt?, hd, Option.bind_some, entryIssue?_of_ne hkey.1 hkey.2]
  · rw [if_neg hkey, eq_comm, keyIssue?_eq_none_iff]
    exact Decidable.byContradiction fun hno => hkey (not_or.mp hno)

theorem filterMap_cons_eq {α β : Type} (f : α → Option β) (a : α) (l : List α) :
    (a :: l).filterMap f = (f a).toList ++ l.filterMap f := by
  rw [List.filterMap_eq_flatMap_toList, List.filterMap_eq_flatMap_toList, List.flatMap_cons]

/-- A key that is given directly without a value makes no issue. -/
theorem issueAt?_of_null {key : Scalar} (hfile : key ∉ file.map (·.1)) {d : Datum}
    (hget : given.get? key = some d) (hd : d.isNull = true) : issueAt? file given key = none := by
  rw [issueAt?, inForce?, hget, get?_of_notMem hfile, Option.filter_some, hd]
  rfl

theorem isSome_inForce?_of_mem (given : Mapping) {key : Scalar} (h : key ∈ file.map (·.1)) :
    (inForce? file given key).isSome = true := by
  rw [inForce?, Option.isSome_or, isSome_get?_iff.mpr h, Bool.or_true]

theorem inForce?_of_given {key : Scalar} {d : Datum} (hget : given.get? key = some d)
    (hd : d.isNull = false) : inForce? file given key = some d := by
  rw [inForce?, hget, Option.filter_some, hd]
  rfl

/-- The issues of the other keys of a file. -/
theorem filterMap_file (file given : Mapping) : (file.map (·.1)).filterMap keyIssue? =
    (otherKeys (file.map (·.1))).filterMap (issueAt? file given) := by
  rw [otherKeys, List.filterMap_filter]
  refine List.filterMap_congr fun key hkey => ?_
  simp only [decide_eq_true_eq]
  exact (ite_issueAt? (isSome_inForce?_of_mem given hkey)).symm

/-- The issues of the other keys that are given directly and are not in the
    file. -/
theorem filterMap_given (h : given.Distinct) :
    ((given.filter fun entry => !entry.2.isNull && entry.1 ∉ file.map (·.1)).map (·.1)).filterMap
        keyIssue? =
      (otherKeys ((given.map (·.1)).filter (· ∉ file.map (·.1)))).filterMap
        (issueAt? file given) := by
  rw [otherKeys, List.filterMap_filter, List.filterMap_filter, List.filterMap_map,
    List.filterMap_map, List.filterMap_filter]
  refine List.filterMap_congr fun entry hentry => ?_
  have hget := get?_of_mem h hentry
  simp only [Function.comp_apply, decide_eq_true_eq, Bool.and_eq_true, Bool.not_eq_true']
  by_cases hfile : entry.1 ∈ file.map (·.1)
  · simp only [hfile, not_true_eq_false, and_false, if_false]
  · -- An entry without a value is skipped by the merge and has nothing in force.
    cases hd : entry.2.isNull with
    | true =>
      simp only [Bool.true_eq_false, false_and, if_false, issueAt?_of_null hfile hget hd, ite_self]
    | false =>
      have hforce : (inForce? file given entry.1).isSome = true := by
        rw [inForce?_of_given hget hd, Option.isSome_some]
      simp only [hfile, not_false_eq_true, and_self, if_true]
      exact (ite_issueAt? hforce).symm

/-- The issues of the layers together are those of the keys that are checked. -/
theorem issues_merge (h : given.Distinct) :
    (file.merge given).issues = (checkedKeys file given).filterMap (issueAt? file given) := by
  have hothers : (file.merge given).filterMap (fun entry => keyIssue? entry.1) =
      (otherKeys (file.map (·.1) ++ (given.map (·.1)).filter (· ∉ file.map (·.1)))).filterMap
        (issueAt? file given) := by
    calc (file.merge given).filterMap (fun entry => keyIssue? entry.1)
      _ = ((file.merge given).map (·.1)).filterMap keyIssue? := by
        rw [List.filterMap_map]
        rfl
      _ = _ := by
        rw [keys_merge h, List.filterMap_append, filterMap_file file given, filterMap_given h,
          otherKeys, otherKeys, otherKeys, List.filter_append, List.filterMap_append]
  rw [issues, precision, implicitMul, issueOf_setting, issueOf_setting, ← inForce?_eq file h,
    ← inForce?_eq file h, hothers, checkedKeys, filterMap_cons_eq, filterMap_cons_eq,
    issueAt?_precisionKey, issueAt?_implicitMulKey, List.append_assoc]

/-- A key with an issue is checked. -/
theorem mem_checkedKeys {key : Scalar} {d : Datum} (h : inForce? file given key = some d) :
    key ∈ checkedKeys file given := by
  by_cases hp : key = precisionKey
  · exact hp ▸ List.mem_cons_self
  · by_cases hb : key = implicitMulKey
    · exact hb ▸ List.mem_cons_of_mem _ List.mem_cons_self
    · refine List.mem_cons_of_mem _ (List.mem_cons_of_mem _ (List.mem_filter.mpr
        ⟨?_, decide_eq_true ⟨hp, hb⟩⟩))
      by_cases hfile : key ∈ file.map (·.1)
      · exact List.mem_append_left _ hfile
      · -- What is not in the file is in force only if it is given directly.
        refine List.mem_append_right _ (List.mem_filter.mpr ⟨?_, decide_eq_true hfile⟩)
        rw [inForce?, get?_of_notMem hfile, Option.or_none, Option.filter_eq_some_iff] at h
        rw [← isSome_get?_iff, h.1, Option.isSome_some]

/-- All checked keys are different. -/
theorem differentKeys_checkedKeys (hfile : Scalar.DifferentKeys (file.map (·.1)))
    (h : given.IsGiven) : Scalar.DifferentKeys (checkedKeys file given) := by
  have hgiven : Scalar.DifferentKeys (given.map (·.1)) := by
    refine h.distinct.imp_of_mem fun ha _ hne => ?_
    rcases h.isText _ ha with ⟨name, rfl⟩
    exact Scalar.sameKey_text_left hne
  have hothers : Scalar.DifferentKeys
      (file.map (·.1) ++ (given.map (·.1)).filter (· ∉ file.map (·.1))) := by
    refine List.pairwise_append.mpr ⟨hfile, hgiven.filter _, fun a ha b hb => ?_⟩
    -- The key from the file can be any scalar, but it is not the text that is given.
    rcases List.mem_filter.mp hb with ⟨hb, hnotin⟩
    rcases h.isText b hb with ⟨name, rfl⟩
    exact Scalar.sameKey_text_right fun he => of_decide_eq_true hnotin (he ▸ ha)
  refine List.pairwise_cons.mpr ⟨fun k hk => Scalar.sameKey_text_left ?_, List.pairwise_cons.mpr
    ⟨fun k hk => Scalar.sameKey_text_left ?_, hothers.filter _⟩⟩
  · rcases List.mem_cons.mp hk with rfl | hk
    · exact implicitMulKey_ne_precisionKey.symm
    · exact (of_decide_eq_true (List.mem_filter.mp hk).2).1.symm
  · exact (of_decide_eq_true (List.mem_filter.mp hk).2).2.symm

theorem issues_eq_nil_iff (h : given.Distinct) :
    (file.merge given).issues = [] ↔ Acceptable file given := by
  rw [issues_merge h, List.filterMap_eq_nil_iff]
  constructor
  · intro hnone key d hd
    exact issueAt?_eq_none_iff.mp (hnone key (mem_checkedKeys hd)) d hd
  · intro hall key _
    exact issueAt?_eq_none_iff.mpr (hall key)

/-- The keys with an issue are those with a value in force that is not accepted. -/
theorem exists_issueAt?_iff {key : Scalar} :
    (∃ i, issueAt? file given key = some i) ↔
      ∃ d, inForce? file given key = some d ∧ ¬Accepted key d := by
  rw [← Option.isSome_iff_exists, ← Option.ne_none_iff_isSome, ne_eq, issueAt?_eq_none_iff]
  simp only [Classical.not_forall, exists_prop]

theorem not_acceptable_of_issueAt? {key : Scalar} (h : ∃ i, issueAt? file given key = some i) :
    ¬Acceptable file given := by
  rcases exists_issueAt?_iff.mp h with ⟨d, hd, hnot⟩
  exact fun hall => hnot (hall key d hd)

theorem place_of_issueAt? {key : Scalar} {i : Issue} (h : issueAt? file given key = some i) :
    i.place = some key.place := by
  rcases Option.bind_eq_some_iff.mp h with ⟨d, _, hi⟩
  exact place_of_entryIssue? hi

/-- A key of the file that is no setting has an issue, whatever is given
    directly. -/
theorem issueAt?_of_other (given : Mapping) {key : Scalar} (hfile : key ∈ file.map (·.1))
    (hp : key ≠ precisionKey) (hb : key ≠ implicitMulKey) :
    issueAt? file given key = keyIssue? key ∧ ∃ i, keyIssue? key = some i := by
  have hissue := ite_issueAt? (isSome_inForce?_of_mem given hfile)
  rw [if_pos ⟨hp, hb⟩] at hissue
  refine ⟨hissue, Option.ne_none_iff_exists'.mp fun hnone => ?_⟩
  exact not_or.mpr ⟨hp, hb⟩ (keyIssue?_eq_none_iff.mp hnone)

theorem not_accepted_null (key : Scalar) : ¬Accepted key .null := by
  rintro (h | h)
  · cases h
  · cases h

/-- A null in the file has an issue if nothing hides it. -/
theorem exists_issueAt?_of_null {key : Scalar} (hfile : file.get? key = some .null)
    (hgiven : ∀ d, given.get? key = some d → d.isNull = true) :
    ∃ i, issueAt? file given key = some i := by
  refine exists_issueAt?_iff.mpr ⟨.null, ?_, not_accepted_null key⟩
  rw [inForce?, hfile]
  cases hget : given.get? key with
  | none => rfl
  | some d =>
    rw [Option.filter_some, hgiven d hget]
    rfl

/-! ### The check of the layers -/

theorem validate_of_issues {m : Mapping} (h : m.issues ≠ []) : m.validate = .error m.issues := by
  unfold validate
  split
  · next hnil => exact absurd hnil h
  · rfl

theorem settings_of_validate {m : Mapping} {c : Config} (h : m.validate = .ok c) :
    m.precision = .ok c.precision ∧ m.implicitMul = .ok c.implicitMul := by
  unfold validate at h
  split at h
  · next hp hb _ =>
    cases h
    exact ⟨hp, hb⟩
  · cases h

theorem validate_congr {m n : Mapping} (hget : ∀ key, m.get? key = n.get? key)
    (hissues : m.issues = n.issues) : m.validate = n.validate := by
  simp only [validate, precision, implicitMul, setting, hget, hissues]

end Mapping

/-- What a setting comes to: the raw value as it is read, or the default if there
    is none. -/
def ComesTo {α : Type} (read : Datum → Except Issue α) (fallback : α) (raw : Option Datum)
    (a : α) : Prop :=
  (∀ d, raw = some d → read d = .ok a) ∧ (raw = none → a = fallback)

theorem comesTo_of_setting {α : Type} {m : Mapping} {key : Scalar} {fallback : α}
    {read : Datum → Except Issue α} {a : α} (h : m.setting key fallback read = .ok a) :
    ComesTo read fallback (m.get? key) a := by
  unfold Mapping.setting at h
  split at h
  · next d hd =>
    rw [hd]
    exact ⟨fun _ he => Option.some.inj he ▸ h, nofun⟩
  · next hnone =>
    rw [hnone]
    exact ⟨nofun, fun _ => (Except.ok.inj h).symm⟩

end Abacus
