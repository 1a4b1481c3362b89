import Abacus.Proofs.Composition
import Abacus.Proofs.Decimal.Layout
import Abacus.Proofs.Tokenization

/-!
# Tokens That Texts Have

Not every list of tokens is read from a text. A text has no negative numbers
and no NaN, and which of the two a `+` or `-` is was not free to choose: the
token before decides. These are the only limits. A list of tokens within them
is read from the text that has a spelling of each token with a blank behind it,
so that no two of them run together.

The limits are said position by position in `Readable`. For the induction over
the tokens `FitsAll` says the same with the token before at hand, as reading
has it.

Implied multiplications keep to the limits. They stand between two tokens of
which the second one starts an operand, and such a token fits anywhere. So
what they add to the limits is that nothing abuts.

## Main definitions

* `Readable`: The limits on the tokens of a text.
* `Token.Fits`: A token can be read behind the token before.
* `FitsAll`: Every token can be read where it stands.

## Theorems

* `readable_iff`: The limits hold if every token fits.
* `fits_ofLexeme`, `exists_lexeme_of_fits`: The tokens that fit are those of
  the lexemes.
* `fitsAll_ofLexemes`, `exists_segments_of_fitsAll`: The lists of tokens that
  fit are those of the texts.
* `fitsAll_insertMul`: Implied multiplications fit.
* `exists_text_iff`: The lists of tokens that texts have.
-/

namespace Abacus

/-- The limits on the tokens of a text. -/
structure Readable (ts : List Token) : Prop where
  /-- No number is NaN or has the sign bit set. Infinity is a number like the
      others. -/
  numbers : ∀ v, Token.atom (.number v) ∈ ts → v.isNaN = false ∧ hasSignBit v = false
  /-- A sign comes first, or right behind an operator or an open parenthesis. -/
  signs : ∀ before s after, ts = before ++ .op (.unary s) :: after → SignPlace before.getLast?
  /-- An addition or subtraction comes right behind the end of an operand. -/
  sums : ∀ before b after, b = .add ∨ b = .sub → ts = before ++ .op (.binary b) :: after →
    before.getLast?.any Token.endsOperand = true

namespace Token

/-- A token can be read behind the token before, if there is one. -/
def Fits (previous : Option Token) : Token → Prop
  | atom (.number v) => v.isNaN = false ∧ hasSignBit v = false
  | op (.unary _) => SignPlace previous
  | op (.binary .add) => previous.any endsOperand = true
  | op (.binary .sub) => previous.any endsOperand = true
  | _ => True

end Token

/-- Every token can be read where it stands. -/
def FitsAll (previous : Option Token) : List Token → Prop
  | [] => True
  | t :: ts => t.Fits previous ∧ FitsAll (some t) ts

/-- Every token fits behind the one that stands before it. -/
theorem fitsAll_iff {ts : List Token} : ∀ {previous : Option Token}, FitsAll previous ts ↔
    ∀ before t after, ts = before ++ t :: after → t.Fits (before.getLast?.or previous) := by
  induction ts with
  | nil =>
    intro previous
    refine ⟨fun _ before t after h => ?_, fun _ => trivial⟩
    exact absurd h.symm (List.append_ne_nil_of_right_ne_nil before (List.cons_ne_nil t after))
  | cons t ts ih =>
    intro previous
    rw [FitsAll, ih]
    constructor
    · rintro ⟨hfirst, hrest⟩ before u after h
      cases before with
      | nil =>
        cases h
        exact hfirst
      | cons v before =>
        cases h
        rw [Token.getLast?_cons_or]
        exact hrest before u after rfl
    · intro h
      refine ⟨h [] t ts rfl, fun before u after hts => ?_⟩
      rw [← Token.getLast?_cons_or t before previous]
      exact h (t :: before) u after (congrArg (t :: ·) hts)

theorem readable_iff {ts : List Token} : Readable ts ↔ FitsAll none ts := by
  simp only [fitsAll_iff, Option.or_none]
  constructor
  · intro h before t after hts
    rcases t with (v | _ | _) | (s | b) | _ | _
    case atom.number => exact h.numbers v (hts ▸ List.mem_append_right _ List.mem_cons_self)
    case op.unary => exact h.signs before s after hts
    case op.binary =>
      cases b with
      | add => exact h.sums before .add after (.inl rfl) hts
      | sub => exact h.sums before .sub after (.inr rfl) hts
      | _ => trivial
    all_goals trivial
  · intro h
    refine ⟨fun v hv => ?_, fun before s after => h before _ after, ?_⟩
    · rcases List.append_of_mem hv with ⟨before, after, hts⟩
      exact h before _ after hts
    · rintro before b after (rfl | rfl)
      · exact h before _ after
      · exact h before _ after

namespace Token

/-- A token that starts an operand can be read behind any other one. -/
theorem Fits.of_startsOperand {t : Token} (hstart : t.startsOperand = true)
    {previous : Option Token} (h : t.Fits previous) (other : Option Token) : t.Fits other := by
  rcases t with (_ | _ | _) | _ | _ | _
  case op => exact Bool.noConfusion hstart
  all_goals exact h

theorem fits_ofLexeme (previous : Option Token) (l : Lexeme) :
    (ofLexeme (previous.all opensSign) l).Fits previous := by
  -- A `+` or `-` becomes whichever of the two fits.
  have hsign (s : Sign) (b : BinOp) (hb : b = .add ∨ b = .sub) :
      (op (if previous.all opensSign then .unary s else .binary b)).Fits previous := by
    split
    · next h => exact (signPlace_iff previous).mpr h
    · next h =>
      rw [all_opensSign_eq_not, Bool.not_eq_true, Bool.not_eq_false'] at h
      rcases hb with rfl | rfl <;> exact h
  cases l with
  | number s => exact ⟨Decimal.isNaN_toFloat _, Decimal.hasSignBit_toFloat _⟩
  | plus => exact hsign .plus .add (.inl rfl)
  | minus => exact hsign .minus .sub (.inr rfl)
  | _ => trivial

/-- Every token that fits is read from some spelling. -/
theorem exists_lexeme_of_fits {previous : Option Token} {t : Token} (h : t.Fits previous) :
    ∃ l cs, Lexeme.Spells l cs ∧ ofLexeme (previous.all opensSign) l = t := by
  rcases t with (v | _ | _) | (s | b) | _ | _
  case atom.number =>
    rcases exists_numeral h.1 h.2 with ⟨cs, hnumeral, rfl⟩
    exact ⟨_, cs, .number hnumeral, rfl⟩
  case atom.e => exact ⟨_, _, .lowerE, rfl⟩
  case atom.pi => exact ⟨_, _, .pi, rfl⟩
  case op.unary =>
    rw [(signPlace_iff previous).mp h]
    cases s with
    | plus => exact ⟨_, _, .plus, rfl⟩
    | minus => exact ⟨_, _, .minus, rfl⟩
  case op.binary =>
    cases b with
    | add =>
      rw [all_opensSign_eq_not, show previous.any endsOperand = true from h]
      exact ⟨_, _, .plus, rfl⟩
    | sub =>
      rw [all_opensSign_eq_not, show previous.any endsOperand = true from h]
      exact ⟨_, _, .minus, rfl⟩
    | mul => exact ⟨_, _, .star, rfl⟩
    | div => exact ⟨_, _, .slash, rfl⟩
    | pow => exact ⟨_, _, .starStar, rfl⟩
  case openParen => exact ⟨_, _, .openParen, rfl⟩
  case closeParen => exact ⟨_, _, .closeParen, rfl⟩

theorem fitsAll_ofLexemes (ls : List Lexeme) :
    ∀ previous : Option Token, FitsAll previous (ofLexemes (previous.all opensSign) ls) := by
  induction ls with
  | nil => exact fun _ => trivial
  | cons l ls ih => exact fun previous => ⟨fits_ofLexeme previous l, ih (some _)⟩

/-- Spellings with a blank behind each of them are the lexemes of a text. -/
theorem exists_segments_of_fitsAll {ts : List Token} :
    ∀ {previous : Option Token}, FitsAll previous ts →
      ∃ text ls, Segments text ls ∧ ofLexemes (previous.all opensSign) ls = ts := by
  induction ts with
  | nil => exact fun _ => ⟨[], [], .done, rfl⟩
  | cons t ts ih =>
    rintro previous ⟨hfirst, hrest⟩
    rcases exists_lexeme_of_fits hfirst with ⟨l, cs, hs, rfl⟩
    rcases ih hrest with ⟨text, ls, hsegments, hls⟩
    refine ⟨cs ++ ' ' :: text, l :: ls, ?_, congrArg (_ :: ·) hls⟩
    exact .lexeme hs (Lexeme.longest_before_blank hs rfl text) (.blank rfl hsegments)

/-- Implied multiplications fit, and what follows them fits as before. -/
theorem fitsAll_insertMul {ts : List Token} :
    ∀ {previous : Option Token}, FitsAll previous ts → FitsAll previous (insertMul ts) := by
  fun_induction insertMul ts with
  | case1 => exact id
  | case2 t => exact id
  | case3 t u rest hab ih =>
    rintro previous ⟨hfirst, hnext, hrest⟩
    -- The second token gets another one before it, which it does not look at.
    have hstart := (Bool.and_eq_true_iff.mp hab).2
    exact ⟨hfirst, trivial, ih ⟨hnext.of_startsOperand hstart _, hrest⟩⟩
  | case4 t u rest hab ih =>
    rintro previous ⟨hfirst, hrest⟩
    exact ⟨hfirst, ih hrest⟩

end Token

theorem exists_text_strict_iff {ts : List Token} :
    (∃ text, tokenize text false = .ok ts) ↔ Readable ts := by
  rw [readable_iff]
  constructor
  · rintro ⟨text, h⟩
    rcases tokenize_strict_eq_ok_iff.mp h with ⟨ls, _, rfl⟩
    exact Token.fitsAll_ofLexemes ls none
  · intro h
    rcases Token.exists_segments_of_fitsAll h with ⟨text, ls, hsegments, rfl⟩
    exact ⟨text, tokenize_strict_eq_ok_iff.mpr ⟨ls, Lexeme.scan_of_segments hsegments 0, rfl⟩⟩

/-- The lists of tokens that texts have: without implied multiplications those
    that keep to the limits, and with them those of these in which nothing
    abuts. -/
theorem exists_text_iff (ts : List Token) :
    ((∃ text, tokenize text false = .ok ts) ↔ Readable ts) ∧
    ((∃ text, tokenize text true = .ok ts) ↔ Readable ts ∧ Separated ts) := by
  refine ⟨exists_text_strict_iff, ?_, ?_⟩
  · rintro ⟨text, h⟩
    rcases tokenize_true_eq_ok_iff.mp h with ⟨us, hus, rfl⟩
    have hlimits := readable_iff.mp (exists_text_strict_iff.mp ⟨text, hus⟩)
    exact ⟨readable_iff.mpr (Token.fitsAll_insertMul hlimits), Token.separated_insertMul us⟩
  · rintro ⟨hlimits, hsep⟩
    rcases exists_text_strict_iff.mpr hlimits with ⟨text, h⟩
    exact ⟨text, tokenize_true_eq_ok_iff.mpr
      ⟨ts, h, (Token.insertMul_of_separated hsep).symm⟩⟩

end Abacus
