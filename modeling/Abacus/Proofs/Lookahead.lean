import Abacus.Proofs.Segmentation

/-!
# One Character Ahead

A lexeme is the longest one at its place, and that seems to depend on all of the
text behind it. It does not. A spelling that can be made longer at all can be
made longer by a single character already, so the next character decides, and
there is nothing to decide at the end of a text.

So a text can be cut anywhere between two lexemes, and something else can be put
behind the cut: as long as it begins with the same character as what was there,
or is nothing, the lexemes in front are what they were. `SegmentsBefore` is a
split with an eye on what comes next, and scanning goes through it as it is.

## Main definitions

* `SegmentsBefore`: A text splits into lexemes that are longest also with another
  text behind it.

## Theorems

* `IsNumeral.goes_on`: A numeral that goes on does so by one character.
* `Lexeme.Spells.goes_on`: A spelling that goes on does so by one character.
* `Lexeme.longest_iff`: The next character decides whether a lexeme ends.
* `Lexeme.longest_before_blank`: In front of a blank every spelling ends.
* `SegmentsBefore.of_head?`: A split does not depend on more than the first
  character behind it.
* `segmentsBefore_of_segments`: Only the last lexeme has to end.
* `Lexeme.scan_of_segmentsBefore`: Scanning goes on behind a split.
-/

namespace Abacus

theorem IsNumeral.count_point_le {cs : List Char} (h : IsNumeral cs) : cs.count '.' ≤ 1 := by
  have hzero {ds : List Char} (hd : ∀ d ∈ ds, d.isDigit = true) : ds.count '.' = 0 :=
    List.count_eq_zero.mpr fun hmem => absurd (hd _ hmem) (by decide)
  rcases h with ⟨_, hd⟩ | ⟨_, hd, hf⟩
  · have hleft := hzero hd
    omega
  · have hleft := hzero hd
    have hright := hzero hf
    simp only [List.count_append, List.count_cons_self]
    omega

/-- A numeral that is part of a longer one is made longer by the next character
    alone. -/
theorem IsNumeral.goes_on {c : Char} {cs more : List Char} (h : IsNumeral cs)
    (hlong : IsNumeral (cs ++ c :: more)) : IsNumeral (cs ++ [c]) := by
  have hcount := hlong.count_point_le
  have hc := hlong.mem (List.mem_append_right cs List.mem_cons_self)
  have hall {ds : List Char} (hd : ∀ d ∈ ds, d.isDigit = true) (hdigit : c.isDigit = true) :
      ∀ d ∈ ds ++ [c], d.isDigit = true := by
    intro d hmem
    simp only [List.mem_append, List.mem_singleton] at hmem
    rcases hmem with hmem | rfl
    · exact hd d hmem
    · exact hdigit
  rcases h with ⟨hne, hd⟩ | @⟨ds, fs, hne, hd, hf⟩
  · rcases hc with hdigit | rfl
    · exact .whole (List.append_ne_nil_of_left_ne_nil hne _) (hall hd hdigit)
    · exact .pointed (.inl hne) hd (fun f hf => nomatch hf)
  · rcases hc with hdigit | rfl
    · rw [List.append_assoc, List.cons_append]
      exact .pointed (.inr (List.concat_ne_nil c fs)) hd (hall hf hdigit)
    · -- The longer one would have two points.
      simp only [List.count_append, List.count_cons_self] at hcount
      omega

namespace Lexeme

/-- A spelling that goes on in a longer one goes on by the next character
    alone. -/
theorem Spells.goes_on {l l' : Lexeme} {c : Char} {cs more : List Char} (h : Spells l cs)
    (hlong : Spells l' (cs ++ c :: more)) : ∃ l'', Spells l'' (cs ++ [c]) := by
  have hpos := List.length_pos_iff.mpr h.ne_nil
  -- All but the numerals are so short that there is nothing behind the character.
  have hshort (hlen : (cs ++ c :: more).length ≤ 2) : ∃ l'', Spells l'' (cs ++ [c]) := by
    simp only [List.length_append, List.length_cons] at hlen
    have hnil : more = [] := List.length_eq_zero_iff.mp (by omega)
    rw [hnil] at hlong
    exact ⟨l', hlong⟩
  rcases hlong.form with hn | hone | hpi | hstars
  · rcases h with hcs | _
    · exact ⟨_, .number (hcs.goes_on hn)⟩
    all_goals exact absurd hn (not_isNumeral_of_mem List.mem_cons_self (by decide) (by decide))
  · exact hshort (by omega)
  · exact hshort (by rw [hpi]; exact Nat.le_refl 2)
  · exact hshort (by rw [hstars]; exact Nat.le_refl 2)

/-- A lexeme ends where the next character does not make a longer one of it. -/
theorem longest_iff {l : Lexeme} {cs rest : List Char} (hs : Spells l cs) :
    Longest cs.length (cs ++ rest) ↔ ∀ c ∈ rest.head?, ∀ l', ¬ Spells l' (cs ++ [c]) := by
  constructor
  · intro h c hc l' hl'
    rcases List.head?_eq_some_iff.mp hc with ⟨tail, rfl⟩
    have hle := h l' (cs ++ [c]) hl' (by simp only [List.prefix_append_right_inj,
      List.cons_prefix_cons, List.nil_prefix, and_self])
    simp only [List.length_append, List.length_singleton] at hle
    omega
  · intro h l' cs' hs' hpre
    refine Nat.le_of_not_lt fun hlt => ?_
    -- A longer spelling goes on from this one, with the first character of the rest.
    rcases List.prefix_of_prefix_length_le (List.prefix_append cs rest) hpre (by omega) with
      ⟨more, rfl⟩
    rcases more with _ | ⟨c, more⟩
    · simp only [List.append_nil, Nat.lt_irrefl] at hlt
    · rw [List.prefix_append_right_inj] at hpre
      rcases hpre with ⟨tail, rfl⟩
      rcases hs.goes_on hs' with ⟨l'', hl''⟩
      exact h c rfl l'' hl''

/-- Every spelling ends in front of a blank. -/
theorem longest_before_blank {l : Lexeme} {c : Char} {cs : List Char} (hs : Spells l cs)
    (hc : isBlank c = true) (rest : List Char) : Longest cs.length (cs ++ c :: rest) := by
  refine (longest_iff hs).mpr fun d hd l' hs' => ?_
  have hblank := hs'.not_blank (List.mem_append_right cs List.mem_cons_self)
  rw [← Option.some.inj hd, hc] at hblank
  exact Bool.noConfusion hblank

end Lexeme

/-- The text splits from left to right into blanks and lexemes that are longest
    also with the other text behind. -/
inductive SegmentsBefore (after : List Char) : List Char → List Lexeme → Prop where
  | done : SegmentsBefore after [] []
  | blank {c : Char} {rest : List Char} {ls : List Lexeme} (hc : isBlank c = true)
    (h : SegmentsBefore after rest ls) : SegmentsBefore after (c :: rest) ls
  | lexeme {l : Lexeme} {cs rest : List Char} {ls : List Lexeme} (hs : l.Spells cs)
    (hmax : Lexeme.Longest cs.length (cs ++ (rest ++ after)))
    (h : SegmentsBefore after rest ls) : SegmentsBefore after (cs ++ rest) (l :: ls)

namespace SegmentsBefore

variable {before after after' : List Char} {ls ms : List Lexeme}

/-- Of what stands behind a split only the first character matters, and nothing
    can stand there as well. -/
theorem of_head? (h : SegmentsBefore after before ls)
    (hhead : ∀ c ∈ after'.head?, c ∈ after.head?) : SegmentsBefore after' before ls := by
  induction h with
  | done => exact .done
  | blank hc h ih => exact .blank hc ih
  | @lexeme l cs rest ls hs hmax h ih =>
    refine .lexeme hs ((Lexeme.longest_iff hs).mpr fun c hc => ?_) ih
    refine (Lexeme.longest_iff hs).mp hmax c ?_
    -- Behind the last lexeme stands what is behind the split.
    rcases rest with _ | ⟨d, rest⟩
    · exact hhead c hc
    · exact hc

theorem append (h : SegmentsBefore after before ls) (hafter : Segments after ms) :
    Segments (before ++ after) (ls ++ ms) := by
  induction h with
  | done => exact hafter
  | blank hc h ih => exact .blank hc ih
  | lexeme hs hmax h ih =>
    rw [List.append_assoc]
    exact .lexeme hs hmax ih

end SegmentsBefore

/-- What splits by itself does so in front of anything that cannot make its last
    lexeme longer. -/
theorem segmentsBefore_of_segments {text after : List Char} {ls : List Lexeme}
    (h : Segments text ls)
    (hlast : ∀ l ∈ ls.getLast?, ∀ cs, l.Spells cs → Lexeme.Longest cs.length (cs ++ after)) :
    SegmentsBefore after text ls := by
  induction h with
  | done => exact .done
  | blank hc h ih => exact .blank hc (ih hlast)
  | @lexeme l cs rest ls hs hmax h ih =>
    have hrest : SegmentsBefore after rest ls := by
      refine ih fun m hm => hlast m ?_
      rw [List.getLast?_cons, Option.mem_def.mp hm]
      rfl
    refine .lexeme hs ?_ hrest
    rcases rest with _ | ⟨d, rest⟩
    · -- Nothing stands behind the lexeme, so it is the last one.
      rw [List.length_eq_zero_iff.mp (Nat.le_zero.mp h.length_le)] at hlast
      exact hlast l rfl cs hs
    · exact (Lexeme.longest_iff hs).mpr fun c hc => (Lexeme.longest_iff hs).mp hmax c hc

namespace Lexeme

/-- Scanning goes through a split and on with what stands behind it. -/
theorem scan_of_segmentsBefore {before after : List Char} {ls : List Lexeme}
    (h : SegmentsBefore after before ls) (position : Nat) :
    scan position (before ++ after) = (scan (position + before.length) after).map (ls ++ ·) := by
  induction h generalizing position with
  | done =>
    rw [List.nil_append, List.length_nil, Nat.add_zero]
    cases scan position after <;> rfl
  | @blank c rest ls hc h ih =>
    rw [List.cons_append, scan_blank hc, ih, List.length_cons, Nat.add_right_comm, Nat.add_assoc]
  | @lexeme l cs rest ls hs hmax h ih =>
    rcases cs with _ | ⟨c, cs⟩
    · exact absurd rfl hs.ne_nil
    have hread : read c (cs ++ (rest ++ after)) = .ok (l, rest ++ after) :=
      read_eq_ok_iff.mpr ⟨c :: cs, rfl, hs, hmax⟩
    have hposition : position + l.width + rest.length = position + (c :: cs ++ rest).length := by
      rw [← hs.length_eq, List.length_append, Nat.add_assoc]
    rw [List.append_assoc, List.cons_append,
      scan_lexeme (hs.not_blank List.mem_cons_self) hread, ih, hposition]
    cases scan (position + (c :: cs ++ rest).length) after <;> rfl

end Lexeme

end Abacus
