import Abacus.Lexeme.Spelling

/-!
# Longest Numerals

Reading a numeral and the form of a numeral, brought together: what is read
has the form, and whatever at the front of a text has the form is no longer
than what is read. The first half alone would be true of a reader that stops
too early, the second of one that takes too much.

A text that starts with a numeral can always be read, however it goes on. How
it goes on matters only for where the numeral ends: a digit or a point right
behind it may belong to it as well, and any other character ends it.

## Theorems

* `Numeral.isNumeral_of_split`: What is read is a numeral.
* `Numeral.exists_split_append`: A numeral at the front is read, perhaps with
  more behind it.
* `Numeral.length_le_of_split`: No numeral at the front is longer.
* `Numeral.split_append_of_stop`: A numeral before another character is read as
  it is.
-/

namespace Abacus

theorem IsNumeral.mem {cs : List Char} (h : IsNumeral cs) {c : Char} (hc : c ∈ cs) :
    c.isDigit = true ∨ c = '.' := by
  rcases h with ⟨_, hd⟩ | ⟨_, hd, hf⟩
  · exact Or.inl (hd c hc)
  · rcases List.mem_append.mp hc with hl | hr
    · exact Or.inl (hd c hl)
    · rcases List.mem_cons.mp hr with rfl | hr
      · exact Or.inr rfl
      · exact Or.inl (hf c hr)

namespace Numeral

theorem isDigit_of_mem_takeWhile {cs : List Char} {c : Char}
    (h : c ∈ cs.takeWhile Char.isDigit) : c.isDigit = true :=
  List.all_eq_true.mp List.all_takeWhile c h

theorem isNumeral_of_split {cs s rest : List Char} (h : split cs = some (s, rest)) :
    IsNumeral s := by
  simp only [split] at h
  split at h
  · next tail _ =>
    split at h
    · exact absurd h (by simp only [reduceCtorEq, not_false_eq_true])
    · next hne =>
      simp only [Option.some.injEq, Prod.mk.injEq] at h
      rw [← h.1]
      refine IsNumeral.pointed ?_ (fun _ => isDigit_of_mem_takeWhile)
        (fun _ => isDigit_of_mem_takeWhile)
      rcases Decidable.not_and_iff_not_or_not.mp hne with hw | hf
      · exact Or.inl hw
      · exact Or.inr hf
  · split at h
    · exact absurd h (by simp only [reduceCtorEq, not_false_eq_true])
    · next hne =>
      simp only [Option.some.injEq, Prod.mk.injEq] at h
      rw [← h.1]
      exact IsNumeral.whole hne (fun _ => isDigit_of_mem_takeWhile)

/-- A numeral at the front of a text is read, and what is read is at least as
    long. -/
theorem exists_split_append {p : List Char} (h : IsNumeral p) (rest : List Char) :
    ∃ s after, split (p ++ rest) = some (s, after) ∧ p.length ≤ s.length := by
  have hdot : ¬ Char.isDigit '.' = true := by decide
  rcases h with ⟨hne, hd⟩ | @⟨ds, fs, hne, hd, hf⟩
  · -- Digits alone: the text may go on with more digits, or with a point.
    have hw : p ++ rest.takeWhile Char.isDigit ≠ [] := List.append_ne_nil_of_left_ne_nil hne _
    simp only [split, List.takeWhile_append_of_pos hd, List.dropWhile_append_of_pos hd]
    split
    · next tail _ =>
      rw [if_neg (fun hc => hw hc.1)]
      refine ⟨_, _, rfl, ?_⟩
      simp only [List.length_append]
      omega
    · rw [if_neg hw]
      refine ⟨_, _, rfl, ?_⟩
      simp only [List.length_append]
      omega
  · -- The point stops the first run of digits, so only the second can grow.
    have hw : ((ds ++ '.' :: fs) ++ rest).takeWhile Char.isDigit = ds := by
      rw [List.append_assoc, List.takeWhile_append_of_pos hd, List.cons_append,
        List.takeWhile_cons_of_neg hdot, List.append_nil]
    have ht : ((ds ++ '.' :: fs) ++ rest).dropWhile Char.isDigit = '.' :: (fs ++ rest) := by
      rw [List.append_assoc, List.dropWhile_append_of_pos hd, List.cons_append,
        List.dropWhile_cons_of_neg hdot]
    have hnot : ¬ (ds = [] ∧ fs ++ rest.takeWhile Char.isDigit = []) := by
      rintro ⟨hds, hfs⟩
      rcases hne with h | h
      · exact h hds
      · exact h (List.append_eq_nil_iff.mp hfs).1
    simp only [split, hw, ht, List.takeWhile_append_of_pos hf, if_neg hnot]
    refine ⟨_, _, rfl, ?_⟩
    simp only [List.length_append, List.length_cons]
    omega

theorem length_le_of_split {cs s rest p : List Char} (h : split cs = some (s, rest))
    (hp : IsNumeral p) (hpre : p <+: cs) : p.length ≤ s.length := by
  rcases hpre with ⟨tail, rfl⟩
  rcases exists_split_append hp tail with ⟨s', after, hs, hle⟩
  rw [h] at hs
  simp only [Option.some.injEq, Prod.mk.injEq] at hs
  rw [hs.1]
  exact hle

/-- A numeral is read as it is where neither a digit nor a point follows. -/
theorem split_append_of_stop {p rest : List Char} (hp : IsNumeral p)
    (hstop : ∀ c ∈ rest.head?, c.isDigit = false ∧ c ≠ '.') :
    split (p ++ rest) = some (p, rest) := by
  rcases exists_split_append hp rest with ⟨s, after, hs, hle⟩
  have happ := split_append hs
  -- What is read goes on from the numeral, and cannot take the next character.
  rcases List.append_eq_append_iff.mp happ with ⟨more, hpeq, hrest⟩ | ⟨more, hseq, hrest⟩
  · have hlen := congrArg List.length hpeq
    simp only [List.length_append] at hlen
    have hnil : more = [] := List.length_eq_zero_iff.mp (by omega)
    rw [hnil, List.append_nil] at hpeq
    rw [hnil, List.nil_append] at hrest
    rw [hs, hpeq, hrest]
  · cases more with
    | nil =>
      rw [List.append_nil] at hseq
      rw [List.nil_append] at hrest
      rw [hs, hseq, hrest]
    | cons c more =>
      rcases hstop c (by rw [hrest]; rfl) with ⟨hdigit, hpoint⟩
      have hmem : c ∈ s := by
        rw [hseq]
        exact List.mem_append_right _ (List.mem_cons_self)
      rcases (isNumeral_of_split hs).mem hmem with h | h
      · exact absurd h (by rw [hdigit]; exact Bool.false_ne_true)
      · exact absurd h hpoint

end Numeral

end Abacus
