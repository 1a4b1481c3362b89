import Abacus.Proofs.Numeral

/-!
# Segmentations of Texts

A text falls into segments: blanks, and lexemes with their spellings. Which
segments is said by `IsSplit` without reading: each lexeme is the longest one
where it stands. Reading from the left finds exactly these, so there is at
most one way to split a text, and where there is none reading stops at a
fault.

The longest lexeme at a place is found by looking at two characters unless it
is a numeral. `Spells.form` is what the arguments need of the lexemes: a
spelling is a numeral, a single character, or one of the two pairs.

A split remembers more than its lexemes, since one lexeme has two spellings.
`segments_iff` forgets the spellings.

## Main definitions

* `Segment`: A blank or a spelled lexeme.
* `IsSplit`: The segments make up the text and every lexeme is longest.
* `Segment.lexemes`: The lexemes among the segments.

## Theorems

* `Lexeme.read_eq_ok_iff`: What is read is the longest spelling at the front.
* `IsSplit.text_eq`: The segments make up the text.
* `IsSplit.unique`: A text splits in one way at most.
* `segments_iff`: The lexemes of a text are those of its split.
* `Lexeme.scan_eq_ok_iff`: Scanning finds the lexemes of the split.
-/

namespace Abacus

theorem not_isNumeral_of_mem {cs : List Char} {c : Char} (hc : c ∈ cs)
    (hd : c.isDigit = false) (hp : c ≠ '.') : ¬ IsNumeral cs := by
  intro h
  rcases h.mem hc with h | h
  · exact absurd h (by rw [hd]; exact Bool.false_ne_true)
  · exact hp h

namespace Lexeme

/-- A spelling is a numeral, a single character, or one of the two pairs. -/
theorem Spells.form {l : Lexeme} {cs : List Char} (h : Spells l cs) :
    IsNumeral cs ∨ cs.length = 1 ∨ cs = ['p', 'i'] ∨ cs = ['*', '*'] := by
  cases h with
  | number h => exact Or.inl h
  | pi => exact Or.inr (Or.inr (Or.inl rfl))
  | starStar => exact Or.inr (Or.inr (Or.inr rfl))
  | _ => exact Or.inr (Or.inl rfl)

theorem Spells.lexeme_unique {l l' : Lexeme} {cs : List Char} (h : Spells l cs)
    (h' : Spells l' cs) : l = l' := by
  cases h with
  | number hn =>
    cases h' with
    | number _ => rfl
    | _ => exact absurd hn (not_isNumeral_of_mem List.mem_cons_self (by decide) (by decide))
  | _ =>
    cases h' with
    | number hn =>
      exact absurd hn (not_isNumeral_of_mem List.mem_cons_self (by decide) (by decide))
    | _ => rfl

/-- No character of a spelling is a blank. -/
theorem Spells.not_blank {l : Lexeme} {c : Char} {cs : List Char} (h : Spells l cs)
    (hc : c ∈ cs) : isBlank c = false := by
  cases h with
  | number hn =>
    rcases hn.mem hc with hd | rfl
    · exact isBlank_eq_false_of_digit hd
    · decide
  | _ => exact Bool.eq_false_iff.mpr (List.any_eq_false.mp (by decide) c hc)

theorem starts_numeral {cs after rest : List Char} {c : Char} (hn : IsNumeral cs)
    (happ : cs ++ after = c :: rest) : (c.isDigit || c == '.') = true := by
  cases cs with
  | nil => exact absurd rfl hn.ne_nil
  | cons d ds =>
    have hc : c ∈ d :: ds := by
      rw [List.cons_append, List.cons.injEq] at happ
      rw [happ.1]
      exact List.mem_cons_self
    simpa only [Bool.or_eq_true, beq_iff_eq] using hn.mem hc

theorem spells_of_read {c : Char} {rest after : List Char} {l : Lexeme}
    (h : read c rest = .ok (l, after)) : ∃ cs, cs ++ after = c :: rest ∧ Spells l cs := by
  unfold read at h
  split at h
  · split at h
    · next spelling tail hsplit =>
      simp only [Except.ok.injEq, Prod.mk.injEq] at h
      rw [← h.1, ← h.2]
      exact ⟨spelling, Numeral.split_append hsplit,
        .number (Numeral.isNumeral_of_split hsplit)⟩
    · simp only [reduceCtorEq] at h
  · -- In the order of the table that `read` goes through.
    split at h <;> cases h
    · exact ⟨['+'], rfl, .plus⟩
    · exact ⟨['-'], rfl, .minus⟩
    · exact ⟨['*', '*'], rfl, .starStar⟩
    · exact ⟨['*'], rfl, .star⟩
    · exact ⟨['/'], rfl, .slash⟩
    · exact ⟨['('], rfl, .openParen⟩
    · exact ⟨[')'], rfl, .closeParen⟩
    · exact ⟨['e'], rfl, .lowerE⟩
    · exact ⟨['E'], rfl, .upperE⟩
    · exact ⟨['p', 'i'], rfl, .pi⟩

/-- Nothing longer than what is read starts where it does. -/
theorem longest_of_read {c : Char} {rest after : List Char} {l : Lexeme}
    (h : read c rest = .ok (l, after)) : Longest l.width (c :: rest) := by
  rintro l' cs hs ⟨tail, htail⟩
  have hpos := width_pos_of_read h
  rcases hs.form with hn | hone | rfl | rfl
  · -- Where a numeral starts, `read` takes a numeral and nothing else.
    unfold read at h
    rw [if_pos (starts_numeral hn htail)] at h
    split at h
    · next spelling rest' hsplit =>
      simp only [Except.ok.injEq, Prod.mk.injEq] at h
      rw [← h.1]
      exact Numeral.length_le_of_split hsplit hn ⟨tail, htail⟩
    · simp only [reduceCtorEq] at h
  · omega
  · -- Two characters decide here, and `read` takes both of them.
    rw [List.cons_append, List.singleton_append, List.cons.injEq] at htail
    have hread : read 'p' ('i' :: tail) = .ok (pi, tail) := rfl
    rw [← htail.1, ← htail.2, hread] at h
    cases h
    exact Nat.le_refl 2
  · rw [List.cons_append, List.singleton_append, List.cons.injEq] at htail
    have hread : read '*' ('*' :: tail) = .ok (starStar, tail) := rfl
    rw [← htail.1, ← htail.2, hread] at h
    cases h
    exact Nat.le_refl 2

theorem exists_read_of_spells {c : Char} {cs rest after : List Char} {l : Lexeme}
    (hs : Spells l cs) (happ : cs ++ after = c :: rest) : ∃ r, read c rest = .ok r := by
  cases hs with
  | number hn =>
    rcases Numeral.exists_split_append hn after with ⟨s, tail, hsplit, _⟩
    rw [happ] at hsplit
    unfold read
    rw [if_pos (starts_numeral hn happ), hsplit]
    exact ⟨_, rfl⟩
  | star =>
    rw [List.singleton_append, List.cons.injEq] at happ
    rcases happ with ⟨rfl, rfl⟩
    -- The star may be read together with the next one, but it is read.
    cases hread : read '*' after with
    | ok r => exact ⟨r, rfl⟩
    | error fault =>
      unfold read at hread
      rw [if_neg (by decide)] at hread
      split at hread <;> contradiction
  | _ =>
    cases happ
    exact ⟨_, rfl⟩

/-- The longest spelling at a place is that of one lexeme only. -/
theorem longest_unique {text cs cs' : List Char} {l l' : Lexeme} (hs : Spells l cs)
    (hpre : cs <+: text) (hmax : Longest cs.length text) (hs' : Spells l' cs')
    (hpre' : cs' <+: text) (hmax' : Longest cs'.length text) : l = l' ∧ cs = cs' := by
  have hle := hmax' l cs hs hpre
  have hge := hmax l' cs' hs' hpre'
  have hcs : cs = cs' := (List.prefix_of_prefix_length_le hpre hpre' hle).eq_of_length
    (Nat.le_antisymm hle hge)
  rw [← hcs] at hs'
  exact ⟨hs.lexeme_unique hs', hcs⟩

theorem read_eq_ok_iff {c : Char} {rest after : List Char} {l : Lexeme} :
    read c rest = .ok (l, after) ↔
      ∃ cs, cs ++ after = c :: rest ∧ Spells l cs ∧ Longest cs.length (c :: rest) := by
  constructor
  · intro h
    rcases spells_of_read h with ⟨cs, happ, hs⟩
    refine ⟨cs, happ, hs, ?_⟩
    rw [hs.length_eq]
    exact longest_of_read h
  · rintro ⟨cs, happ, hs, hmax⟩
    rcases exists_read_of_spells hs happ with ⟨⟨l', after'⟩, hread⟩
    rcases spells_of_read hread with ⟨cs', happ', hs'⟩
    have hmax' := longest_of_read hread
    rw [← hs'.length_eq] at hmax'
    -- Something is read, and being longest itself it can only be this.
    rcases longest_unique hs ⟨after, happ⟩ hmax hs' ⟨after', happ'⟩ hmax' with ⟨hl, hcs⟩
    have hafter : after = after' := by
      rw [hcs] at happ
      exact List.append_cancel_left (happ.trans happ'.symm)
    rw [hread, hl, hafter]

end Lexeme

/-- A piece of a text: a blank, or a lexeme as it is spelled there. -/
inductive Segment where
  | blank (c : Char)
  | lexeme (l : Lexeme) (spelling : List Char)
  deriving DecidableEq, Repr, Inhabited

namespace Segment

/-- The characters of a segment. -/
def text : Segment → List Char
  | blank c => [c]
  | lexeme _ spelling => spelling

/-- The lexeme that a segment is, if it is no blank. -/
def lexeme? : Segment → Option Lexeme
  | blank _ => none
  | lexeme l _ => some l

/-- The lexemes among the segments of a text. -/
def lexemes (ss : List Segment) : List Lexeme :=
  ss.filterMap lexeme?

end Segment

/-- The text splits into the segments from left to right: each is a blank or
    the longest lexeme at its place, spelled as it stands there. -/
inductive IsSplit : List Segment → List Char → Prop where
  | done : IsSplit [] []
  | blank {c : Char} {rest : List Char} {ss : List Segment} (hc : isBlank c = true)
    (h : IsSplit ss rest) : IsSplit (.blank c :: ss) (c :: rest)
  | lexeme {l : Lexeme} {cs rest : List Char} {ss : List Segment} (hs : l.Spells cs)
    (hmax : Lexeme.Longest cs.length (cs ++ rest)) (h : IsSplit ss rest) :
    IsSplit (.lexeme l cs :: ss) (cs ++ rest)

namespace IsSplit

theorem text_eq {ss : List Segment} {text : List Char} (h : IsSplit ss text) :
    ss.flatMap Segment.text = text := by
  induction h with
  | done => rfl
  | blank hc h ih => rw [List.flatMap_cons, ih, Segment.text, List.singleton_append]
  | lexeme hs hmax h ih => rw [List.flatMap_cons, ih, Segment.text]

/-- A blank and a lexeme cannot start at the same place. -/
theorem not_blank_append {l : Lexeme} {c : Char} {cs rest tail : List Char}
    (hs : l.Spells cs) (hc : isBlank c = true) : cs ++ rest ≠ c :: tail := by
  intro happ
  cases cs with
  | nil => exact hs.ne_nil rfl
  | cons d ds =>
    rw [List.cons_append, List.cons.injEq] at happ
    have hd := hs.not_blank List.mem_cons_self
    rw [happ.1, hc] at hd
    exact Bool.noConfusion hd

theorem unique {ss : List Segment} {text : List Char} (h : IsSplit ss text) :
    ∀ {ss' : List Segment}, IsSplit ss' text → ss = ss' := by
  induction h with
  | done =>
    intro ss' h'
    generalize htext : [] = text at h'
    cases h' with
    | done => rfl
    | blank _ _ => exact absurd htext (List.cons_ne_nil _ _).symm
    | lexeme hs _ _ => exact absurd htext.symm (List.append_ne_nil_of_left_ne_nil hs.ne_nil _)
  | @blank c rest ss hc h ih =>
    intro ss' h'
    generalize htext : c :: rest = text at h'
    cases h' with
    | done => exact absurd htext (List.cons_ne_nil _ _)
    | blank hc' h' =>
      cases htext
      rw [ih h']
    | lexeme hs _ _ => exact absurd htext.symm (not_blank_append hs hc)
  | @lexeme l cs rest ss hs hmax h ih =>
    intro ss' h'
    generalize htext : cs ++ rest = text at h'
    cases h' with
    | done => exact absurd htext (List.append_ne_nil_of_left_ne_nil hs.ne_nil _)
    | blank hc' _ => exact absurd htext (not_blank_append hs hc')
    | @lexeme l' cs' rest' ss' hs' hmax' h' =>
      -- Both lexemes are longest at the same place.
      rw [htext] at hmax
      rcases Lexeme.longest_unique hs ⟨rest, htext⟩ hmax hs' (List.prefix_append _ _) hmax'
        with ⟨hl, hcs⟩
      rw [hcs] at htext
      rw [List.append_cancel_left htext] at ih
      rw [hl, hcs, ih h']

end IsSplit

theorem segments_iff {text : List Char} {ls : List Lexeme} :
    Segments text ls ↔ ∃ ss, IsSplit ss text ∧ Segment.lexemes ss = ls := by
  constructor
  · intro h
    induction h with
    | done => exact ⟨[], .done, rfl⟩
    | blank hc h ih =>
      rcases ih with ⟨ss, hss, hls⟩
      exact ⟨.blank _ :: ss, .blank hc hss, hls⟩
    | @lexeme l cs rest ls hs hmax h ih =>
      rcases ih with ⟨ss, hss, hls⟩
      exact ⟨.lexeme l cs :: ss, .lexeme hs hmax hss, congrArg (l :: ·) hls⟩
  · rintro ⟨ss, h, rfl⟩
    induction h with
    | done => exact .done
    | blank hc h ih => exact .blank hc ih
    | lexeme hs hmax h ih => exact .lexeme hs hmax ih

namespace Lexeme

theorem segments_of_scan {text : List Char} {position : Nat} :
    ∀ {ls : List Lexeme}, scan position text = .ok ls → Segments text ls := by
  fun_induction scan position text with
  | case1 position =>
    intro ls h
    cases h
    exact .done
  | case2 position c rest hc ih =>
    intro ls h
    exact .blank hc (ih h)
  | case3 => exact fun h => nomatch h
  | case4 => exact fun h => nomatch h
  | case5 position c rest hc l after hread hlt ls' hscan ih =>
    intro ls h
    cases h
    rcases read_eq_ok_iff.mp hread with ⟨cs, happ, hs, hmax⟩
    rw [← happ] at hmax ⊢
    exact .lexeme hs hmax (ih hscan)

theorem scan_of_segments {text : List Char} {ls : List Lexeme} (h : Segments text ls) :
    ∀ position : Nat, scan position text = .ok ls := by
  induction h with
  | done => exact scan_nil
  | blank hc h ih =>
    intro position
    rw [scan_blank hc]
    exact ih _
  | @lexeme l cs rest ls hs hmax h ih =>
    intro position
    cases cs with
    | nil => exact absurd rfl hs.ne_nil
    | cons c cs =>
      have hread : read c (cs ++ rest) = .ok (l, rest) :=
        read_eq_ok_iff.mpr ⟨c :: cs, rfl, hs, hmax⟩
      rw [List.cons_append, scan_lexeme (hs.not_blank List.mem_cons_self) hread, ih]
      rfl

/-- Scanning finds the lexemes of the split of a text, wherever the text is
    said to start. -/
theorem scan_eq_ok_iff {text : List Char} {position : Nat} {ls : List Lexeme} :
    scan position text = .ok ls ↔ ∃ ss, IsSplit ss text ∧ Segment.lexemes ss = ls := by
  rw [← segments_iff]
  exact ⟨segments_of_scan, fun h => scan_of_segments h position⟩

end Lexeme

end Abacus
