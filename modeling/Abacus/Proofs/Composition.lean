import Abacus.Proofs.Fault
import Abacus.Proofs.Neighbours

/-!
# Texts Joined by Blanks

A text can be cut at a blank. No lexeme has a blank in its spelling, so every
lexeme ends in front of one, and reading the first part comes out the same as if
there were no second one. Then the second part is read as if it began the text,
only that its positions count from further on.

What the first part does to the second one is a matter of one sign. A `+` or
`-` at the start of a text is a sign, and behind an operand it is the operator
of two places. Whatever it is, no operand ends with it, so the tokens behind it
are not changed.

## Main definitions

* `Token.asOperator`: A sign read as the operator of two places.
* `Token.behind`: The tokens of a text when it stands behind others.

## Theorems

* `Lexeme.scan_append_blank`: Reading goes on behind a blank.
* `Lexeme.scan_shift`: A fault moves with the text that it is in.
* `Token.ofLexemes_append`: The token before decides about the first sign of
  what follows.
* `tokenize_append_blanks`: The tokens and errors of two texts with blanks
  between them.
-/

namespace Abacus

namespace Lexeme

/-- A text that was read up to a blank is read on from there. -/
theorem scan_append_blank {position : Nat} {text : List Char} {c : Char} {ls : List Lexeme}
    (hc : isBlank c = true) (rest : List Char) (h : scan position text = .ok ls) :
    scan position (text ++ c :: rest) =
      (scan (position + text.length) (c :: rest)).map (ls ++ ·) := by
  have hbefore : SegmentsBefore (c :: rest) text ls :=
    segmentsBefore_of_segments (segments_of_scan h)
      fun _ _ _ hs => longest_before_blank hs hc rest
  exact scan_of_segmentsBefore hbefore position

theorem scan_blanks {w : List Char} (rest : List Char) :
    ∀ position : Nat, (∀ c ∈ w, isBlank c = true) →
      scan position (w ++ rest) = scan (position + w.length) rest := by
  induction w with
  | nil => exact fun _ _ => rfl
  | cons c w ih =>
    intro position hw
    rw [List.cons_append, scan_blank (hw c List.mem_cons_self),
      ih _ (fun d hd => hw d (List.mem_cons_of_mem c hd)), List.length_cons, Nat.add_assoc,
      Nat.add_comm 1]

/-- A fault moves with the text that it is in. -/
theorem scan_shift (n : Nat) {position : Nat} {text : List Char} {e : LexError}
    (h : scan position text = .error e) :
    scan (n + position) text = .error ⟨e.fault, n + e.position⟩ := by
  rcases scan_eq_error_iff.mp h with ⟨before, c, rest, ls, htext, hposition, hrest⟩
  refine scan_eq_error_iff.mpr ⟨before, c, rest, ls, htext, ?_, hrest⟩
  rw [hposition, Nat.add_assoc]

/-- Reading goes on behind blanks as if the text began there. -/
theorem scan_append_blanks {a w : List Char} {ls : List Lexeme} (hw : w ≠ [])
    (hblank : ∀ c ∈ w, isBlank c = true) (ha : scan 0 a = .ok ls) (b : List Char) :
    scan 0 (a ++ w ++ b) = (scan (a.length + w.length) b).map (ls ++ ·) := by
  cases w with
  | nil => exact absurd rfl hw
  | cons c w =>
    rw [List.append_assoc, List.cons_append, scan_append_blank (hblank c List.mem_cons_self) _ ha,
      ← List.cons_append, scan_blanks _ _ hblank, Nat.zero_add]

end Lexeme

namespace Token

/-- A sign read as the operator of two places that looks like it. -/
def asOperator : Token → Token
  | op (.unary .plus) => op (.binary .add)
  | op (.unary .minus) => op (.binary .sub)
  | t => t

/-- The tokens of a text when it stands behind others. If an operand ends before
    it, a sign at its start is the operator of two places. -/
def behind (before ts : List Token) : List Token :=
  if before.getLast?.any endsOperand then ts.modifyHead asOperator else ts

theorem getLast?_cons_or (t : Token) (ts : List Token) (previous : Option Token) :
    (t :: ts).getLast?.or previous = ts.getLast?.or (some t) := by
  rw [List.getLast?_cons]
  cases ts.getLast? <;> rfl

/-- The token before decides whether a sign stands at the start of what
    follows. -/
theorem ofLexemes_append (ls ms : List Lexeme) :
    ∀ previous : Option Token,
      ofLexemes (previous.all opensSign) (ls ++ ms) =
        ofLexemes (previous.all opensSign) ls ++ ofLexemes
          (((ofLexemes (previous.all opensSign) ls).getLast?.or previous).all opensSign) ms := by
  -- The first token is the one before for all that follows it.
  induction ls with
  | nil => exact fun _ => rfl
  | cons l ls ih =>
    intro previous
    have hrest := ih (some (ofLexeme (previous.all opensSign) l))
    rw [List.cons_append, ofLexemes, ofLexemes, getLast?_cons_or, List.cons_append]
    exact congrArg (_ :: ·) hrest

theorem ofLexeme_false (l : Lexeme) : ofLexeme false l = (ofLexeme true l).asOperator := by
  cases l <;> rfl

theorem opensSign_asOperator (t : Token) : t.asOperator.opensSign = t.opensSign := by
  rcases t with a | (s | b) | _ | _
  · rfl
  · cases s <;> rfl
  · rfl
  · rfl
  · rfl

/-- Where no sign stands at the start, only the first token can be another
    one. -/
theorem ofLexemes_false (ls : List Lexeme) :
    ofLexemes false ls = (ofLexemes true ls).modifyHead asOperator := by
  cases ls with
  | nil => rfl
  | cons l ls =>
    rw [ofLexemes, ofLexemes, List.modifyHead_cons, ofLexeme_false, opensSign_asOperator]

theorem ofLexemes_append_behind (ls ms : List Lexeme) :
    ofLexemes true (ls ++ ms) =
      ofLexemes true ls ++ behind (ofLexemes true ls) (ofLexemes true ms) := by
  have happ := ofLexemes_append ls ms none
  rw [Option.all_none, Option.or_none] at happ
  rw [happ, behind, all_opensSign_eq_not]
  cases (ofLexemes true ls).getLast?.any endsOperand with
  | true => exact congrArg (_ ++ ·) (ofLexemes_false ms)
  | false => rfl

end Token

/-- Two texts with blanks between them have the tokens of the one and then of
    the other, where only a sign at the start of the second one can become an
    operator of two places. If the second text has an error this is the error,
    further on by the length of what stands before. Multiplications are implied
    as in any other tokens, and make no difference to errors. -/
theorem tokenize_append_blanks {a w b : List Char} {as : List Token} (hw : w ≠ [])
    (hblank : ∀ c ∈ w, isBlank c = true) (ha : tokenize a false = .ok as) :
    (∀ bs, tokenize b false = .ok bs →
      tokenize (a ++ w ++ b) false = .ok (as ++ Token.behind as bs) ∧
      tokenize (a ++ w ++ b) true = .ok (Token.insertMul (as ++ Token.behind as bs))) ∧
    (∀ e, tokenize b false = .error e → ∀ implicitMul,
      tokenize (a ++ w ++ b) implicitMul =
        .error ⟨e.fault, a.length + w.length + e.position⟩) := by
  rcases tokenize_strict_eq_ok_iff.mp ha with ⟨ls, hscan, rfl⟩
  have hboth := Lexeme.scan_append_blanks hw hblank hscan b
  constructor
  · intro bs hb
    rcases tokenize_strict_eq_ok_iff.mp hb with ⟨ms, hscan', rfl⟩
    -- Where a text begins makes no difference to its lexemes.
    rw [Lexeme.scan_of_segments (Lexeme.segments_of_scan hscan')] at hboth
    have hstrict := tokenize_strict_eq_ok_iff.mpr ⟨_, hboth, Token.ofLexemes_append_behind ls ms⟩
    exact ⟨hstrict, tokenize_true_eq_ok_iff.mpr ⟨_, hstrict, rfl⟩⟩
  · intro e hb implicitMul
    have hfault := Lexeme.scan_shift (a.length + w.length) (tokenize_eq_error_iff.mp hb)
    rw [Nat.add_zero] at hfault
    rw [hfault] at hboth
    exact tokenize_eq_error_iff.mpr hboth

/-- Behind `e -` the first minus of `- - e` stays a sign, and behind `pi` it is
    the operator of two places. The error of `+ q` moves by three. -/
theorem tokenize_append_blanks_signs :
    tokenize "e-".toList false = .ok [.atom .e, .op (.binary .sub)] ∧
    tokenize "pi".toList false = .ok [.atom .pi] ∧
    tokenize "--e".toList false = .ok [.op (.unary .minus), .op (.unary .minus), .atom .e] ∧
    tokenize "+q".toList false = .error ⟨.unexpected 'q', 1⟩ ∧
    tokenize ("e-".toList ++ [' '] ++ "--e".toList) false =
      .ok [.atom .e, .op (.binary .sub), .op (.unary .minus), .op (.unary .minus), .atom .e] ∧
    tokenize ("pi".toList ++ [' '] ++ "--e".toList) true =
      .ok [.atom .pi, .op (.binary .sub), .op (.unary .minus), .atom .e] ∧
    tokenize ("pi".toList ++ [' '] ++ "+q".toList) true = .error ⟨.unexpected 'q', 4⟩ := by
  have hminus : tokenize "e-".toList false = .ok [.atom .e, .op (.binary .sub)] := by cbv
  have hpi : tokenize "pi".toList false = .ok [.atom .pi] := by cbv
  have hsigns : tokenize "--e".toList false =
      .ok [.op (.unary .minus), .op (.unary .minus), .atom .e] := by cbv
  have hfault : tokenize "+q".toList false = .error ⟨.unexpected 'q', 1⟩ := by cbv
  have hne : [' '] ≠ [] := List.cons_ne_nil _ _
  have hblank : ∀ c ∈ [' '], isBlank c = true := List.all_eq_true.mp (by decide)
  refine ⟨hminus, hpi, hsigns, hfault, ?_, ?_, ?_⟩
  · exact ((tokenize_append_blanks hne hblank hminus).1 _ hsigns).1
  · exact ((tokenize_append_blanks hne hblank hpi).1 _ hsigns).2
  · exact (tokenize_append_blanks hne hblank hpi).2 _ hfault true

end Abacus
