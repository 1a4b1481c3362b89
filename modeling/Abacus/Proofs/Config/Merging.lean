import Abacus.Datum

/-!
# Mappings Laid Over Others

What is found under a key after mappings were laid over one another. Only the
entries that give the key a value count, and of these the last one, wherever
the others stand; if there is none, the lowest mapping decides.

An entry without a value is not the same as no entry. In a mapping that is laid
over it has no effect, but in the lowest one it stays and hides nothing. So when
several mappings are laid over a lower one, it makes no difference whether they
are first joined into one. The values that one of them gives are replaced in
place then, and this needs that no key has a second entry further on, where the
old value would be found after all.

## Main definitions

* `Mapping.given?`: The last value that the entries give to a key.
* `Mapping.Distinct`: No key has two entries.

## Theorems

* `Mapping.given?_append`: Of two lists of entries the second one counts first.
* `Mapping.get?_merge`: What is found where one mapping lies over another.
* `Mapping.distinct_merge`: Laying over does not make second entries.
* `Mapping.keys_merge`: Which keys there are where one mapping lies over another.
* `Mapping.get?_merge_merge`: Mappings can be joined before they are laid over.
-/

namespace Abacus

namespace Mapping

/-- The last value that the entries of a mapping give to a key. An entry
    without a value gives none. -/
def given? (key : Scalar) (m : Mapping) : Option Datum :=
  (m.filter fun entry => decide (entry.1 = key) && !entry.2.isNull).getLast?.map (·.2)

/-- No key has two entries. -/
def Distinct (m : Mapping) : Prop :=
  (m.map (·.1)).Nodup

instance (m : Mapping) : Decidable m.Distinct :=
  inferInstanceAs (Decidable (m.map (·.1)).Nodup)

theorem given?_append (key : Scalar) (m n : Mapping) :
    given? key (m ++ n) = (given? key n).or (given? key m) := by
  simp only [given?, List.filter_append, List.getLast?_append, Option.map_or]

theorem given?_singleton (key k : Scalar) (d : Datum) :
    given? key [(k, d)] = if k = key ∧ d.isNull = false then some d else none := by
  simp only [given?, List.filter_cons, List.filter_nil, Bool.and_eq_true, decide_eq_true_eq,
    Bool.not_eq_true']
  split <;> rfl

theorem given?_cons (key k : Scalar) (d : Datum) (rest : Mapping) :
    given? key ((k, d) :: rest) =
      (given? key rest).or (if k = key ∧ d.isNull = false then some d else none) := by
  rw [← List.singleton_append, given?_append, given?_singleton]

/-- What is given is a value. -/
theorem isNull_of_given? {key : Scalar} {m : Mapping} {d : Datum} (h : given? key m = some d) :
    d.isNull = false := by
  rcases Option.map_eq_some_iff.mp h with ⟨entry, hlast, rfl⟩
  have hkept := (List.mem_filter.mp (List.mem_of_getLast? hlast)).2
  simp only [Bool.and_eq_true, Bool.not_eq_true'] at hkept
  exact hkept.2

theorem get?_merge (key : Scalar) (m : Mapping) :
    ∀ base : Mapping, get? key (merge base m) = (given? key m).or (get? key base) := by
  induction m with
  | nil => exact fun base => rfl
  | cons entry rest ih =>
    intro base
    rcases entry with ⟨k, d⟩
    rw [merge, ih, given?_cons, Option.or_assoc]
    congr 1
    -- Whether the first entry counts for the key is decided by its key and its value.
    by_cases hd : d.isNull = true
    · simp only [hd, if_true, Bool.true_eq_false, and_false, if_false, Option.none_or]
    · rw [if_neg hd, get?_insert]
      by_cases hk : k = key
      · simp only [hk, hd, if_true, and_self, Option.some_or]
      · simp only [hk, if_false, false_and, Option.none_or]

theorem keys_insert (key : Scalar) (value : Datum) (m : Mapping) :
    (insert key value m).map (·.1) =
      if key ∈ m.map (·.1) then m.map (·.1) else m.map (·.1) ++ [key] := by
  induction m with
  | nil => rfl
  | cons entry rest ih =>
    rcases entry with ⟨k, d⟩
    rw [insert]
    by_cases hk : k = key
    · simp only [hk, if_true, List.map_cons, List.mem_cons, true_or]
    · simp only [hk, Ne.symm hk, if_false, List.map_cons, List.mem_cons, false_or, ih]
      split <;> rfl

theorem distinct_insert {m : Mapping} (h : m.Distinct) (key : Scalar) (value : Datum) :
    (insert key value m).Distinct := by
  rw [Distinct, keys_insert]
  split
  · exact h
  · next hkey =>
    rw [(List.perm_append_singleton key _).nodup_iff]
    exact List.nodup_cons.mpr ⟨hkey, h⟩

theorem distinct_merge (m : Mapping) :
    ∀ {base : Mapping}, base.Distinct → (merge base m).Distinct := by
  induction m with
  | nil => exact fun h => h
  | cons entry rest ih =>
    intro base h
    rw [merge]
    apply ih
    split
    · exact h
    · exact distinct_insert h _ _

theorem get?_of_notMem {key : Scalar} {m : Mapping} (h : key ∉ m.map (·.1)) :
    get? key m = none := by
  induction m with
  | nil => rfl
  | cons entry rest ih =>
    rw [List.map_cons, List.mem_cons, not_or] at h
    rw [get?, if_neg (Ne.symm h.1), ih h.2]

/-- Without second entries the value that is given is the one that is found. -/
theorem given?_of_distinct (key : Scalar) {m : Mapping} (h : m.Distinct) :
    given? key m = (get? key m).filter fun d => !d.isNull := by
  induction m with
  | nil => rfl
  | cons entry rest ih =>
    rcases entry with ⟨k, d⟩
    rcases List.nodup_cons.mp h with ⟨hnotin, hrest⟩
    rw [given?_cons, ih hrest, get?]
    by_cases hk : k = key
    · -- The key has no entry further on.
      rw [get?_of_notMem (hk ▸ hnotin), if_pos hk, Option.filter_none, Option.none_or,
        Option.filter_some]
      simp only [hk, true_and, Bool.not_eq_true']
    · simp only [hk, false_and, if_false, Option.or_none]

theorem isSome_get?_iff {key : Scalar} {m : Mapping} :
    (get? key m).isSome = true ↔ key ∈ m.map (·.1) := by
  induction m with
  | nil => exact iff_of_false Bool.false_ne_true List.not_mem_nil
  | cons entry rest ih =>
    rcases entry with ⟨k, d⟩
    rw [get?, List.map_cons, List.mem_cons]
    by_cases hk : k = key
    · rw [if_pos hk]
      exact iff_of_true rfl (.inl hk.symm)
    · rw [if_neg hk, ih]
      exact ⟨.inr, fun h => h.resolve_left (Ne.symm hk)⟩

theorem get?_of_mem {m : Mapping} (h : m.Distinct) {entry : Scalar × Datum} (hmem : entry ∈ m) :
    get? entry.1 m = some entry.2 := by
  induction m with
  | nil => exact absurd hmem List.not_mem_nil
  | cons first rest ih =>
    rcases List.nodup_cons.mp h with ⟨hnotin, hrest⟩
    rw [get?]
    rcases List.mem_cons.mp hmem with rfl | hmem
    · rw [if_pos rfl]
    · have hne : first.1 ≠ entry.1 := fun he =>
        hnotin (List.mem_map.mpr ⟨entry, hmem, he.symm⟩)
      rw [if_neg hne, ih hrest hmem]

/-- A value that is laid over stands at the end unless the key is there already. -/
theorem keys_merge {given : Mapping} (h : given.Distinct) : ∀ file : Mapping,
    (file.merge given).map (·.1) = file.map (·.1) ++
      (given.filter fun entry => !entry.2.isNull && entry.1 ∉ file.map (·.1)).map (·.1) := by
  induction given with
  | nil => exact fun file => (List.append_nil _).symm
  | cons entry rest ih =>
    intro file
    rcases entry with ⟨k, d⟩
    rcases List.nodup_cons.mp h with ⟨hnotin, hrest⟩
    rw [merge, ih hrest, List.filter_cons]
    cases hd : d.isNull with
    | true => simp only [if_true, Bool.not_true, Bool.false_and, Bool.false_eq_true, if_false]
    | false =>
      by_cases hk : k ∈ file.map (·.1)
      · simp only [Bool.false_eq_true, if_false, keys_insert, hk, if_true, not_true_eq_false,
          decide_false, Bool.and_false]
      · -- The key has no entry further on, so it hides nothing there.
        have hsame : (rest.filter fun entry => !entry.2.isNull && entry.1 ∉ file.map (·.1) ++ [k]) =
            rest.filter fun entry => !entry.2.isNull && entry.1 ∉ file.map (·.1) := by
          refine List.filter_congr fun entry hentry => ?_
          have hne : entry.1 ≠ k := fun he =>
            hnotin (List.mem_map.mpr ⟨entry, hentry, he⟩)
          simp only [List.mem_append, List.mem_singleton, hne, or_false]
        simp only [Bool.false_eq_true, if_false, keys_insert, hk, hsame, not_false_eq_true,
          decide_true, Bool.not_false, Bool.and_self, if_true, List.map_cons, List.append_assoc,
          List.singleton_append]

/-- Mappings can be joined before they are laid over another one. -/
theorem get?_merge_merge (key : Scalar) (base : Mapping) {m : Mapping} (h : m.Distinct)
    (n : Mapping) :
    get? key (merge (merge base m) n) = get? key (merge base (merge m n)) := by
  have hjoined : given? key (merge m n) = (given? key n).or (given? key m) := by
    rw [given?_of_distinct key (distinct_merge n h), get?_merge, given?_of_distinct key h]
    cases hn : given? key n with
    | none => rfl
    | some d =>
      rw [Option.some_or, Option.some_or, Option.filter_some, isNull_of_given? hn]
      rfl
  rw [get?_merge, get?_merge, get?_merge, hjoined, Option.or_assoc]

end Mapping

end Abacus
