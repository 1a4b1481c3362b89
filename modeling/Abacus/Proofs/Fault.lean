import Abacus.Proofs.Lookahead
import Abacus.Token.Reading

/-!
# Where Reading Stops

A text without tokens is read up to a place where no lexeme starts, and the error
names that place. There are three ways for it to be none: a point with no digit
behind it, a `p` with no `i` behind it, and a character that starts nothing.
Each is seen from the character there and the next one.

The text in front of the place has been read by then, and cutting off the rest
does not change how: what ends a lexeme is the character behind it, and at the
end of a text every spelling ends. So it has tokens of its own. With another
text behind the two characters it would have been read in the same way, so
nothing further on has a say in the error either.

## Main definitions

* `Faulty`: No lexeme starts with the character in front of the text.

## Theorems

* `Lexeme.read_eq_error_iff`: Nothing is read where no lexeme starts.
* `Faulty.fragment`: A fault shows what stands at its place.
* `Faulty.of_take`: The next character is all that counts.
* `Lexeme.scan_eq_error_iff`: Scanning stops behind a split, at the first place
  where no lexeme starts.
* `tokenize_error_located`: An error is at its place, behind tokens, whatever
  comes later.
-/

namespace Abacus

/-- No lexeme starts with the character in front of the text, for the reason
    given. -/
inductive Faulty : Char → List Char → LexFault → Prop where
  | loneDot {rest : List Char} (h : ∀ d ∈ rest.head?, d.isDigit = false) :
    Faulty '.' rest .loneDot
  | brokenPi {rest : List Char} (h : rest.head? ≠ some 'i') :
    Faulty 'p' rest (.brokenPi ('p' :: rest.take 1))
  | unexpected {c : Char} {rest : List Char} (hd : c.isDigit = false)
    (hc : c ∉ ['.', '+', '-', '*', '/', '(', ')', 'e', 'E', 'p']) :
    Faulty c rest (.unexpected c)

namespace Faulty

variable {c : Char} {rest rest' : List Char} {fault : LexFault}

/-- A fault shows what stands at its place, which is not nothing. -/
theorem fragment (h : Faulty c rest fault) :
    fault.fragment ≠ [] ∧ fault.fragment <+: c :: rest := by
  rcases h with _ | _ | _
  · exact ⟨List.cons_ne_nil _ _, ⟨rest, rfl⟩⟩
  · exact ⟨List.cons_ne_nil _ _, ⟨rest.drop 1, by
      rw [LexFault.fragment, List.cons_append, List.take_append_drop]⟩⟩
  · exact ⟨List.cons_ne_nil _ _, ⟨rest, rfl⟩⟩

/-- The character behind the place is all that counts. -/
theorem of_take (h : Faulty c rest fault) (htake : rest'.take 1 = rest.take 1) :
    Faulty c rest' fault := by
  have hhead : rest'.head? = rest.head? := by
    have hone := congrArg List.head? htake
    rwa [List.head?_take, List.head?_take, if_neg Nat.one_ne_zero, if_neg Nat.one_ne_zero] at hone
  rcases h with h | h | ⟨hd, hc⟩
  · exact .loneDot (hhead ▸ h)
  · rw [← htake]
    exact .brokenPi (hhead ▸ h)
  · exact .unexpected hd hc

end Faulty

/-- A text that agrees with another one up to the character behind a place has
    the same first part and goes on with the same two characters. -/
theorem eq_append_of_take {before rest other : List Char} {c : Char}
    (h : other.take (before.length + 2) = (before ++ c :: rest).take (before.length + 2)) :
    ∃ rest', other = before ++ c :: rest' ∧ rest'.take 1 = rest.take 1 := by
  -- All but the last of these characters, and the last one by itself.
  have hfront := congrArg (List.take (before.length + 1)) h
  have hnext := congrArg (List.drop (before.length + 1)) h
  have hle : before.length + 1 ≤ before.length + 2 := by omega
  have hone : before.length + 2 - (before.length + 1) = 1 := by omega
  rw [List.take_take, List.take_take, Nat.min_eq_left hle, List.take_length_add_append,
    List.take_succ_cons, List.take_zero] at hfront
  rw [List.drop_take, List.drop_take, hone, List.drop_length_add_append, List.drop_succ_cons,
    List.drop_zero] at hnext
  refine ⟨other.drop (before.length + 1), ?_, hnext⟩
  rw [← List.singleton_append, ← List.append_assoc, ← hfront, List.take_append_drop]

namespace Numeral

theorem of_split_eq_none {c : Char} {rest : List Char} (h : split (c :: rest) = none) :
    c.isDigit = false ∧ (c = '.' → ∀ d ∈ rest.head?, d.isDigit = false) := by
  have hnone {p tail : List Char} (hp : IsNumeral p) (happ : p ++ tail = c :: rest) : False := by
    rcases exists_split_append hp tail with ⟨s, after, hs, _⟩
    rw [happ, h] at hs
    cases hs
  constructor
  · -- A digit would be a numeral by itself.
    refine Bool.eq_false_iff.mpr fun hc => ?_
    exact hnone (.whole (List.cons_ne_nil c []) (by simp [hc])) rfl
  · rintro rfl d hd
    rcases List.head?_eq_some_iff.mp hd with ⟨tail, rfl⟩
    refine Bool.eq_false_iff.mpr fun hdigit => ?_
    have hpointed : IsNumeral ([] ++ '.' :: [d]) :=
      .pointed (.inr (List.cons_ne_nil d [])) (by simp) (by simp [hdigit])
    exact hnone hpointed rfl

theorem split_loneDot {rest : List Char} (h : ∀ d ∈ rest.head?, d.isDigit = false) :
    split ('.' :: rest) = none := by
  have hfraction : rest.takeWhile Char.isDigit = [] := by
    rcases rest with _ | ⟨d, rest⟩
    · rfl
    · exact List.takeWhile_cons_of_neg (by simp [h d rfl])
  have hdot : ¬ Char.isDigit '.' = true := by decide
  simp only [split, List.takeWhile_cons_of_neg hdot, List.dropWhile_cons_of_neg hdot, hfraction,
    and_self, if_true]

end Numeral

namespace Lexeme

theorem read_eq_error_iff {c : Char} {rest : List Char} {fault : LexFault} :
    read c rest = .error fault ↔ Faulty c rest fault := by
  constructor
  · intro h
    unfold read at h
    split at h
    · next hc =>
      split at h
      · simp only [reduceCtorEq] at h
      · next hsplit =>
        cases h
        rcases Numeral.of_split_eq_none hsplit with ⟨hdigit, hdot⟩
        simp only [hdigit, Bool.false_or, beq_iff_eq] at hc
        rw [hc]
        exact .loneDot (hdot hc)
    · next hc =>
      simp only [Bool.or_eq_true, beq_iff_eq, not_or, Bool.not_eq_true] at hc
      -- Only the last two lines of the table refuse.
      split at h <;> cases h
      · next hi =>
        refine .brokenPi fun hhead => ?_
        rcases List.head?_eq_some_iff.mp hhead with ⟨after, hrest⟩
        exact hi after hrest
      · exact .unexpected hc.1 (by simp_all)
  · intro h
    unfold read
    rcases h with h | h | ⟨hd, hc⟩
    · rw [if_pos (by decide), Numeral.split_loneDot h]
    · rw [if_neg (by decide)]
      split <;> simp_all
    · rw [if_neg (by simp_all)]
      split <;> simp_all

theorem scan_error {c : Char} {rest : List Char} {fault : LexFault} (hc : isBlank c = false)
    (hread : read c rest = .error fault) (position : Nat) :
    scan position (c :: rest) = .error ⟨fault, position⟩ := by
  rw [scan, if_neg (by rw [hc]; exact Bool.false_ne_true)]
  split
  · next heq =>
    rw [hread] at heq
    cases heq
    rfl
  · next heq => rw [hread] at heq; cases heq

/-- Scanning stops where no lexeme starts, and all in front of that place is
    split as it would be by itself. -/
theorem scan_eq_error_iff {text : List Char} {position : Nat} {e : LexError} :
    scan position text = .error e ↔
      ∃ before c rest ls, text = before ++ c :: rest ∧ e.position = position + before.length ∧
        SegmentsBefore (c :: rest) before ls ∧ isBlank c = false ∧ Faulty c rest e.fault := by
  constructor
  · fun_induction scan position text with
    | case1 position =>
      intro h
      cases h
    | case2 position c rest hc ih =>
      intro h
      rcases ih h with ⟨before, d, after, ls, rfl, hposition, hsplit, hd, hfault⟩
      refine ⟨c :: before, d, after, ls, rfl, ?_, .blank hc hsplit, hd, hfault⟩
      rw [hposition, List.length_cons]
      omega
    | case3 position c rest hc fault hread =>
      intro h
      cases h
      exact ⟨[], c, rest, [], rfl, rfl, .done, Bool.eq_false_iff.mpr hc,
        read_eq_error_iff.mp hread⟩
    | case4 position c rest hc l after hread hlt fault hscan ih =>
      intro h
      cases h
      rcases ih hscan with ⟨before, d, more, ls, rfl, hposition, hsplit, hd, hfault⟩
      rcases read_eq_ok_iff.mp hread with ⟨cs, happ, hs, hmax⟩
      rw [← happ] at hmax
      refine ⟨cs ++ before, d, more, l :: ls, ?_, ?_, .lexeme hs hmax hsplit, hd, hfault⟩
      · rw [← happ, List.append_assoc]
      · rw [hposition, List.length_append, hs.length_eq]
        omega
    | case5 =>
      intro h
      cases h
  · rintro ⟨before, c, rest, ls, rfl, hposition, hsplit, hc, hfault⟩
    rw [scan_of_segmentsBefore hsplit, scan_error hc (read_eq_error_iff.mpr hfault), ← hposition]
    rfl

end Lexeme

/-- An error of a text is at a place in it and shows what stands there. The text
    in front of the place has tokens, and neither the multiplications that may
    be implied nor what stands behind the next character make another error of
    it. -/
theorem tokenize_error_located {text : List Char} {implicitMul : Bool} {e : LexError}
    (h : tokenize text implicitMul = .error e) :
    e.position < text.length ∧
    e.fault.fragment ≠ [] ∧
    (text.drop e.position).take e.fault.fragment.length = e.fault.fragment ∧
    (∀ b, ∃ ts, tokenize (text.take e.position) b = .ok ts) ∧
    (∀ b, tokenize text b = .error e) ∧
    (∀ other b, other.take (e.position + 2) = text.take (e.position + 2) →
      tokenize other b = .error e) := by
  have hscan := tokenize_eq_error_iff.mp h
  rcases Lexeme.scan_eq_error_iff.mp hscan with
    ⟨before, c, rest, ls, rfl, hposition, hsplit, hc, hfault⟩
  rw [Nat.zero_add] at hposition
  rcases hfault.fragment with ⟨hne, hfragment⟩
  refine ⟨?_, hne, ?_, fun b => ?_, fun b => tokenize_eq_error_iff.mpr hscan, ?_⟩
  · rw [hposition, List.length_append, List.length_cons]
    omega
  · rw [hposition, List.drop_left]
    exact (List.prefix_iff_eq_take.mp hfragment).symm
  · -- Behind the last lexeme there is nothing to make it longer.
    have hend : SegmentsBefore [] before ls := hsplit.of_head? (fun _ hd => nomatch hd)
    have hsegments := hend.append .done
    rw [List.append_nil] at hsegments
    rw [hposition, List.take_left]
    exact ⟨_, tokenize_eq_ok_iff.mpr ⟨_, Lexeme.scan_of_segments hsegments 0, rfl⟩⟩
  · intro other b htake
    -- The other text has the same characters up to the one behind the place.
    rcases eq_append_of_take (hposition ▸ htake) with ⟨rest', rfl, hrest⟩
    refine tokenize_eq_error_iff.mpr (Lexeme.scan_eq_error_iff.mpr
      ⟨before, c, rest', ls, rfl, by rw [hposition, Nat.zero_add], ?_, hc, hfault.of_take hrest⟩)
    exact hsplit.of_head? (fun _ hd => hd)

/-- In `e**pe` the fault is at the `p`, behind a power that misses its second
    operand, and it stays there whatever follows the last `e`. -/
theorem tokenize_error_located_power :
    tokenize "e**pe".toList true = .error ⟨.brokenPi ['p', 'e'], 3⟩ ∧
    (∃ ts, tokenize "e**".toList true = .ok ts) ∧
    tokenize "e**pe)(".toList false = .error ⟨.brokenPi ['p', 'e'], 3⟩ := by
  have h : tokenize "e**pe".toList true = .error ⟨.brokenPi ['p', 'e'], 3⟩ := by cbv
  rcases tokenize_error_located h with ⟨_, _, _, hbefore, _, hother⟩
  exact ⟨h, hbefore true, hother _ false rfl⟩

end Abacus
