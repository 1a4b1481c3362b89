import Abacus.Proofs.Segmentation
import Abacus.Token.Reading

/-!
# Tokens of a Split

Which tokens the segments of a text become, said one segment at a time. A
blank becomes nothing and a lexeme becomes one token. Only `+` and `-` leave a
choice, and the token before decides it: they are signs at the start, behind
an operator and behind an open parenthesis.

`Token.ofLexemes` carries that choice along as a flag. The relation here looks
at the token before instead, so that the two sides are not the same words.

## Main definitions

* `SignPlace`: Behind the token before, a `+` or `-` is a sign.
* `Lexeme.Becomes`: A spelled lexeme becomes a token.
* `BecomeAll`: The segments become the tokens, in their order.

## Theorems

* `becomes_iff`: A lexeme becomes the token that its reading gives.
* `becomeAll_iff`: The segments of a split become one list of tokens.
* `tokenize_strict_iff_split`: A text has tokens if it splits, and they are
  those that its only split becomes.
-/

namespace Abacus

/-- Behind the token before, if there is one, a `+` or `-` is a sign. -/
def SignPlace (previous : Option Token) : Prop :=
  previous = none ∨ (∃ o, previous = some (.op o)) ∨ previous = some .openParen

/-- What a lexeme becomes behind the token before. A number has the value of
    its own spelling. -/
inductive Lexeme.Becomes (previous : Option Token) : Lexeme → List Char → Token → Prop where
  | number {s cs : List Char} :
    Becomes previous (.number s) cs (.atom (.number (Numeral.value cs)))
  | e {cs : List Char} : Becomes previous .e cs (.atom .e)
  | pi {cs : List Char} : Becomes previous .pi cs (.atom .pi)
  | signPlus {cs : List Char} (h : SignPlace previous) :
    Becomes previous .plus cs (.op (.unary .plus))
  | add {cs : List Char} (h : ¬ SignPlace previous) :
    Becomes previous .plus cs (.op (.binary .add))
  | signMinus {cs : List Char} (h : SignPlace previous) :
    Becomes previous .minus cs (.op (.unary .minus))
  | sub {cs : List Char} (h : ¬ SignPlace previous) :
    Becomes previous .minus cs (.op (.binary .sub))
  | mul {cs : List Char} : Becomes previous .star cs (.op (.binary .mul))
  | pow {cs : List Char} : Becomes previous .starStar cs (.op (.binary .pow))
  | div {cs : List Char} : Becomes previous .slash cs (.op (.binary .div))
  | openParen {cs : List Char} : Becomes previous .openParen cs .openParen
  | closeParen {cs : List Char} : Becomes previous .closeParen cs .closeParen

/-- The segments become the tokens, each lexeme one of them. -/
inductive BecomeAll : Option Token → List Segment → List Token → Prop where
  | done {previous : Option Token} : BecomeAll previous [] []
  | blank {previous : Option Token} {c : Char} {ss : List Segment} {ts : List Token}
    (h : BecomeAll previous ss ts) : BecomeAll previous (.blank c :: ss) ts
  | lexeme {previous : Option Token} {l : Lexeme} {cs : List Char} {t : Token}
    {ss : List Segment} {ts : List Token} (ht : l.Becomes previous cs t)
    (h : BecomeAll (some t) ss ts) : BecomeAll previous (.lexeme l cs :: ss) (t :: ts)

theorem signPlace_iff (previous : Option Token) :
    SignPlace previous ↔ previous.all Token.opensSign = true := by
  cases previous with
  | none => simp only [SignPlace, true_or, Option.all_none]
  | some t => cases t <;> simp [SignPlace, Token.opensSign]

theorem becomes_iff {previous : Option Token} {l : Lexeme} {cs : List Char} {t : Token}
    (hs : l.Spells cs) :
    l.Becomes previous cs t ↔ t = Token.ofLexeme (previous.all Token.opensSign) l := by
  constructor
  · intro h
    cases h with
    | number => cases hs; rfl
    | signPlus h => rw [Token.ofLexeme, if_pos ((signPlace_iff previous).mp h)]
    | add h => rw [Token.ofLexeme, if_neg (fun hc => h ((signPlace_iff previous).mpr hc))]
    | signMinus h => rw [Token.ofLexeme, if_pos ((signPlace_iff previous).mp h)]
    | sub h => rw [Token.ofLexeme, if_neg (fun hc => h ((signPlace_iff previous).mpr hc))]
    | _ => rfl
  · rintro rfl
    by_cases h : SignPlace previous
    · have hall := (signPlace_iff previous).mp h
      rw [hall]
      cases hs with
      | plus => exact .signPlus h
      | minus => exact .signMinus h
      | _ => constructor
    · have hall : previous.all Token.opensSign = false :=
        Bool.eq_false_iff.mpr (fun hc => h ((signPlace_iff previous).mpr hc))
      rw [hall]
      cases hs with
      | plus => exact .add h
      | minus => exact .sub h
      | _ => constructor

theorem becomeAll_iff {ss : List Segment} {text : List Char} (h : IsSplit ss text) :
    ∀ {previous : Option Token} {ts : List Token}, BecomeAll previous ss ts ↔
      ts = Token.ofLexemes (previous.all Token.opensSign) (Segment.lexemes ss) := by
  induction h with
  | done =>
    intro previous ts
    constructor
    · rintro ⟨⟩
      rfl
    · rintro rfl
      exact .done
  | blank hc h ih =>
    intro previous ts
    constructor
    · rintro ⟨⟩
      exact ih.mp ‹_›
    · intro hts
      exact .blank (ih.mpr hts)
  | @lexeme l cs rest ss hs hmax h ih =>
    intro previous ts
    -- The token that the lexeme becomes decides about the next one.
    have hstep (t : Token) : (some t).all Token.opensSign = t.opensSign := rfl
    constructor
    · intro hall
      cases hall with
      | @lexeme _ _ _ t _ ts ht hall =>
        have htail := ih.mp hall
        rw [hstep, (becomes_iff hs).mp ht] at htail
        rw [htail, (becomes_iff hs).mp ht]
        rfl
    · rintro rfl
      refine .lexeme ((becomes_iff hs).mpr rfl) (ih.mpr ?_)
      rw [hstep]
      rfl

/-- A text has tokens if and only if it splits into blanks and longest
    lexemes. It splits in one way then, and its tokens are what the segments
    of that split become, one for each lexeme. -/
theorem tokenize_strict_iff_split (text : List Char) :
    ((∃ tokens, tokenize text false = .ok tokens) ↔ ∃ ss, IsSplit ss text) ∧
    ∀ tokens : List Token, tokenize text false = .ok tokens ↔
      ∃ ss, (IsSplit ss text ∧ ∀ ss', IsSplit ss' text → ss' = ss) ∧
        ss.flatMap Segment.text = text ∧
        tokens.length = (Segment.lexemes ss).length ∧ BecomeAll none ss tokens := by
  have hok : ∀ tokens : List Token, tokenize text false = .ok tokens ↔
      ∃ ss, IsSplit ss text ∧ BecomeAll none ss tokens := by
    intro tokens
    rw [tokenize_strict]
    constructor
    · intro h
      cases hscan : Lexeme.scan 0 text with
      | error e =>
        rw [hscan] at h
        exact nomatch h
      | ok ls =>
        rw [hscan] at h
        rcases Lexeme.scan_eq_ok_iff.mp hscan with ⟨ss, hss, rfl⟩
        exact ⟨ss, hss, (becomeAll_iff hss).mpr (Except.ok.inj h).symm⟩
    · rintro ⟨ss, hss, hall⟩
      rw [Lexeme.scan_eq_ok_iff.mpr ⟨ss, hss, rfl⟩, (becomeAll_iff hss).mp hall]
      rfl
  refine ⟨⟨?_, ?_⟩, fun tokens => ⟨?_, ?_⟩⟩
  · rintro ⟨tokens, h⟩
    rcases (hok tokens).mp h with ⟨ss, hss, _⟩
    exact ⟨ss, hss⟩
  · rintro ⟨ss, hss⟩
    exact ⟨_, (hok _).mpr ⟨ss, hss, (becomeAll_iff hss).mpr rfl⟩⟩
  · intro h
    rcases (hok tokens).mp h with ⟨ss, hss, hall⟩
    refine ⟨ss, ⟨hss, fun ss' hss' => hss'.unique hss⟩, hss.text_eq, ?_, hall⟩
    rw [(becomeAll_iff hss).mp hall, Token.length_ofLexemes]
  · rintro ⟨ss, ⟨hss, _⟩, _, _, hall⟩
    exact (hok tokens).mpr ⟨ss, hss, hall⟩

end Abacus
