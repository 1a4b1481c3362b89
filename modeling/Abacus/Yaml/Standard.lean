import Abacus.Yaml.Document
import Abacus.Yaml.Reader

/-!
# The Reader

The reader of documents in the format of the settings file. That it is a reader
is what is shown here: the keys of a mapping are all different. They are put into
the mapping one after the other, and a key that is there already gets another
value instead of a second entry.

Keys are the same if they are equal as numbers or as moments, or if they are one
mention. So keys may differ that are written in one way: a number that is not
equal to itself can be there more than once. For a text this cannot happen.

## Main definitions

* `Differ`: The keys of entries are different, each with its mention.
* `reader`: The reader.

## Theorems

* `putEntry_differ`: Putting a value under a key keeps the keys different.
* `Outline.foldlM_keeps`: What every step of a loop keeps holds of its result.
* `Outline.differ_of_visitEntries`: The keys of a mapping that is looked into differ.
* `Document.differentKeys_of_value`: The keys of the mapping that a document is
  differ.
* `read_precision`: A document with one setting.
-/

namespace Abacus

namespace Yaml

/-- The keys of entries are different, each with its mention. -/
def Differ (entries : List (Key × Datum)) : Prop :=
  (entries.map (·.1)).Pairwise fun a b => a.same b = false

theorem differ_nil : Differ [] :=
  List.Pairwise.nil

theorem keys_putEntry (key : Key) (value : Datum) (entries : List (Key × Datum)) :
    (putEntry key value entries).map (·.1) =
      if entries.any fun e => e.1.same key then entries.map (·.1)
      else entries.map (·.1) ++ [key] := by
  induction entries with
  | nil => rfl
  | cons entry rest ih =>
    rcases entry with ⟨k, d⟩
    rw [putEntry, List.any_cons]
    cases hk : k.same key with
    | true => rfl
    | false =>
      simp only [Bool.false_eq_true, if_false, Bool.false_or, List.map_cons, ih]
      split <;> rfl

theorem putEntry_differ {entries : List (Key × Datum)} (h : Differ entries) (key : Key)
    (value : Datum) : Differ (putEntry key value entries) := by
  rw [Differ, keys_putEntry]
  split
  · exact h
  · next hnew =>
    rw [Bool.not_eq_true, List.any_eq_false] at hnew
    refine List.pairwise_append.mpr ⟨h, List.pairwise_singleton _ _, fun a ha b hb => ?_⟩
    rcases List.mem_map.mp ha with ⟨entry, hentry, rfl⟩
    rw [List.mem_singleton.mp hb]
    exact Bool.eq_false_iff.mpr (hnew entry hentry)

namespace Outline

/-- A result of two steps comes from a result of the first one. -/
theorem bind_eq_ok {α β : Type} {x : Step α} {f : α → Step β} {s s' : Outline} {b : β}
    (h : (x >>= f).run s = .ok (b, s')) :
    ∃ a s₁, x.run s = .ok (a, s₁) ∧ (f a).run s₁ = .ok (b, s') := by
  rw [StateT.run_bind] at h
  cases hx : x.run s with
  | error e => rw [hx] at h; cases h
  | ok r => rw [hx] at h; exact ⟨r.1, r.2, rfl, h⟩

theorem pure_eq_ok {α : Type} {a b : α} {s s' : Outline}
    (h : (pure a : Step α).run s = .ok (b, s')) : a = b := by
  cases h
  rfl

/-- What every step of a loop keeps holds of its result. -/
theorem foldlM_keeps {α β : Type} {f : β → α → Step β} (P : β → Prop)
    (hstep : ∀ b a s b' s', P b → (f b a).run s = .ok (b', s') → P b') (xs : List α) :
    ∀ {b b' : β} {s s' : Outline}, P b → (xs.foldlM f b).run s = .ok (b', s') → P b' := by
  induction xs with
  | nil =>
    intro b b' s s' hb h
    rw [List.foldlM_nil] at h
    rwa [← pure_eq_ok h]
  | cons x xs ih =>
    intro b b' s s' hb h
    rw [List.foldlM_cons] at h
    rcases bind_eq_ok h with ⟨c, s₁, hc, hrest⟩
    exact ih (hstep b x s c s₁ hb hc) hrest

theorem differ_of_visitEntries {place : Nat} {s s' : Outline} {entries : List (Key × Datum)}
    (h : (visitEntries place).run s = .ok (entries, s')) : Differ entries := by
  rw [visitEntries] at h
  rcases bind_eq_ok h with ⟨_, s₁, _, h⟩
  rcases bind_eq_ok h with ⟨_, s₂, _, h⟩
  rcases bind_eq_ok h with ⟨_, s₃, _, h⟩
  rcases bind_eq_ok h with ⟨own, s₄, _, h⟩
  -- Whatever the merge keys brought in, the entries are put under their keys one by one.
  refine foldlM_keeps Differ ?_ own differ_nil h
  intro found entry s found' s' hfound hstep
  rcases bind_eq_ok hstep with ⟨key, _, _, hstep⟩
  rcases bind_eq_ok hstep with ⟨value, _, _, hstep⟩
  rw [← pure_eq_ok hstep]
  exact putEntry_differ hfound key value

/-- Until it is looked into, a mapping has no entries. -/
theorem eq_nil_of_visit {place : Nat} {s s' : Outline} {m : Mapping}
    (h : (visit place).run s = .ok (.map m, s')) : m = [] := by
  rw [visit] at h
  rcases bind_eq_ok h with ⟨node, s₁, _, h⟩
  dsimp only at h
  -- Every kind of node ends with a value of its own, and one of them with a mapping.
  split at h
  all_goals
    rcases bind_eq_ok h with ⟨_, _, _, h⟩
    have hd := pure_eq_ok h
    cases hd
  rfl

theorem differentKeys_of_lookInto {place : Nat} {s s' : Outline} {m : Mapping}
    (h : (lookInto place).run s = .ok (.map m, s')) : Scalar.DifferentKeys (m.map (·.1)) := by
  rw [lookInto] at h
  rcases bind_eq_ok h with ⟨node, s₁, _, h⟩
  split at h
  · rcases bind_eq_ok h with ⟨_, _, _, h⟩
    exact nomatch pure_eq_ok h
  · rcases bind_eq_ok h with ⟨_, _, _, h⟩
    exact nomatch pure_eq_ok h
  · rcases bind_eq_ok h with ⟨entries, s₂, hentries, h⟩
    cases pure_eq_ok h
    have hdiffer := differ_of_visitEntries hentries
    rw [Differ, List.pairwise_map] at hdiffer
    rw [Scalar.DifferentKeys, List.map_map, List.pairwise_map]
    refine hdiffer.imp fun hsame => ?_
    rw [Key.same, Bool.or_eq_false_iff] at hsame
    exact hsame.2
  · rcases bind_eq_ok h with ⟨_, _, _, h⟩
    exact nomatch pure_eq_ok h
  · cases h

theorem differentKeys_of_ofRoot {place : Nat} {s s' : Outline} {m : Mapping}
    (h : (ofRoot place).run s = .ok (.map m, s')) : Scalar.DifferentKeys (m.map (·.1)) := by
  rw [ofRoot] at h
  rcases bind_eq_ok h with ⟨d, s₁, hd, h⟩
  rcases bind_eq_ok h with ⟨_, s₂, _, h⟩
  split at h
  · rw [pure_eq_ok h] at hd
    rw [eq_nil_of_visit hd]
    exact List.Pairwise.nil
  · -- What is looked into behind the root can fail, but it does not change the value.
    rcases bind_eq_ok h with ⟨d', s₃, hd', h⟩
    rcases bind_eq_ok h with ⟨_, s₄, _, h⟩
    rcases bind_eq_ok h with ⟨_, s₅, _, h⟩
    rw [pure_eq_ok h] at hd'
    exact differentKeys_of_lookInto hd'

end Outline

/-- The keys of the mapping that a document is differ. -/
theorem Document.differentKeys_of_value (d : Document) (m : Mapping) (h : d.value = .ok (.map m)) :
    Scalar.DifferentKeys (m.map (·.1)) := by
  rw [Document.value] at h
  split at h
  · cases h
  · next place _ =>
    rw [StateT.run'_eq] at h
    cases hrun : (Outline.ofRoot place).run (Outline.start d.graph) with
    | error e => rw [hrun] at h; cases h
    | ok r =>
      rw [hrun] at h
      have hfst : r.1 = .map m := Except.ok.inj h
      apply Outline.differentKeys_of_ofRoot
      rw [hrun, ← hfst]

/-- The reader. -/
def reader : Reader where
  Document := Document
  compose := Document.ofText
  value := Document.value
  differentKeys := Document.differentKeys_of_value

theorem compose_of_toOption {text : List Char} {d : Document}
    (h : (Document.ofText text).toOption = some d) : reader.compose text = .ok d := by
  unfold Except.toOption at h
  split at h
  · next found hfound => rw [← Option.some.inj h]; exact hfound
  · cases h

/-- A document with one setting. -/
theorem read_precision : reader.read "precision: f16\n".toList =
    .ok (.map [(.text "precision", .text "f16")]) := by
  have hcompose : (Document.ofText "precision: f16\n".toList).toOption = some
      ⟨#[⟨.mapping, .mapping [(1, 2)]⟩, ⟨.text, .scalar ("precision".toList.map .char)⟩,
        ⟨.text, .scalar ("f16".toList.map .char)⟩], some 0⟩ := by decide +kernel
  rw [Reader.read, compose_of_toOption hcompose]
  rfl

end Yaml

end Abacus
