import Mathlib.Data.List.Chain
import Abacus.Token.Reading

/-!
# Neighbouring Tokens

What can be said of a list of tokens by looking at two neighbours at a time.

Two tokens abut if an operand ends with the first and another one starts with
the second. Reading a text never leaves a sign where an operand has just
ended, since a `+` or `-` there is taken for the operator of two places; and
the implied multiplications part all tokens that abut. Where neither happens,
an operand is followed by something that goes on with the expression: an
operator of two places or a closing parenthesis.

## Main definitions

* `Token.Abut`: An operand ends where another one starts.
* `Token.continues`: An expression can go on with the token after an operand.
* `Separated`: No two neighbours abut.
* `Continued`: After every operand the expression goes on.

## Theorems

* `continued_iff`: An expression goes on where nothing abuts and no sign
  follows an operand.
* `continued_of_separated`: Tokens of a text go on where nothing abuts.
* `separated_insertMul`, `insertMul_of_separated`: The implied multiplications
  leave nothing that abuts, and there are none where nothing does.
* `continued_of_tokenize`: With implied multiplications the tokens of a text go
  on.
-/

namespace Abacus

namespace Token

/-- An operand ends with the first token and another one starts with the
    second. -/
def Abut (a b : Token) : Prop :=
  a.endsOperand = true ∧ b.startsOperand = true

instance (a b : Token) : Decidable (a.Abut b) :=
  inferInstanceAs (Decidable (_ ∧ _))

/-- Whether an expression can go on with the token right after an operand. -/
def continues : Token → Bool
  | op (.binary _) => true
  | closeParen => true
  | _ => false

theorem continues_iff (t : Token) :
    t.continues = true ↔ t.startsOperand = false ∧ t.isUnary = false := by
  rcases t with a | (s | b) | _ | _ <;>
    simp only [continues, startsOperand, isUnary, Operator.isUnary, Bool.false_eq_true,
      Bool.true_eq_false, and_self, and_false, and_true]

end Token

/-- No two neighbours abut. -/
def Separated (ts : List Token) : Prop :=
  ts.IsChain fun a b => ¬ a.Abut b

instance (ts : List Token) : Decidable (Separated ts) :=
  inferInstanceAs (Decidable (ts.IsChain _))

/-- No sign stands where an operand has just ended. -/
def SignsFit (ts : List Token) : Prop :=
  ts.IsChain fun a b => b.isUnary = true → a.endsOperand = false

/-- After every operand the expression goes on. -/
def Continued (ts : List Token) : Prop :=
  ts.IsChain fun a b => a.endsOperand = true → b.continues = true

theorem not_separated_iff {ts : List Token} :
    ¬ Separated ts ↔ ∃ before a b after, ts = before ++ a :: b :: after ∧ a.Abut b := by
  rw [Separated, List.isChain_iff_forall_rel_of_append_cons_cons]
  constructor
  · intro h
    by_contra hc
    exact h (fun a b before after hts hab => hc ⟨before, a, b, after, hts, hab⟩)
  · rintro ⟨before, a, b, after, hts, hab⟩ h
    exact h hts hab

theorem continued_iff {ts : List Token} : Continued ts ↔ Separated ts ∧ SignsFit ts := by
  induction ts with
  | nil => exact ⟨fun _ => ⟨.nil, .nil⟩, fun _ => .nil⟩
  | cons t ts ih =>
    simp only [Continued, Separated, SignsFit, List.isChain_cons] at ih ⊢
    rw [ih]
    constructor
    · rintro ⟨hhead, hsep, hfit⟩
      refine ⟨⟨fun u hu hab => ?_, hsep⟩, fun u hu hun => ?_, hfit⟩
      · have hstart := ((Token.continues_iff u).mp (hhead u hu hab.1)).1
        rw [hab.2] at hstart
        exact Bool.noConfusion hstart
      · by_contra hend
        have hno := ((Token.continues_iff u).mp
          (hhead u hu (eq_true_of_ne_false hend))).2
        rw [hun] at hno
        exact Bool.noConfusion hno
    · rintro ⟨⟨hhead, hsep⟩, hsign, hfit⟩
      refine ⟨fun u hu hend => (Token.continues_iff u).mpr ⟨?_, ?_⟩, hsep, hfit⟩
      · exact Bool.eq_false_iff.mpr fun hstart => hhead u hu ⟨hend, hstart⟩
      · refine Bool.eq_false_iff.mpr fun hun => ?_
        have hno := hsign u hu hun
        rw [hend] at hno
        exact Bool.noConfusion hno

namespace Token

theorem isUnary_ofLexeme (l : Lexeme) : (ofLexeme false l).isUnary = false := by
  cases l <;> rfl

/-- The flag that decides about signs is lowered wherever an operand ends. -/
theorem signsFit_ofLexemes (ls : List Lexeme) :
    ∀ atSign : Bool, SignsFit (ofLexemes atSign ls) := by
  induction ls with
  | nil => exact fun _ => .nil
  | cons l ls ih =>
    intro atSign
    rw [ofLexemes, SignsFit, List.isChain_cons]
    refine ⟨fun u hu hun => ?_, ih _⟩
    -- A sign in second place was read where signs are, so no operand ends first.
    cases ls with
    | nil => cases hu
    | cons l' ls =>
      rw [← Option.some.inj hu] at hun
      by_contra hend
      have hopens : (ofLexeme atSign l).opensSign = false := by
        rw [opensSign_eq_not_endsOperand, eq_true_of_ne_false hend]
        rfl
      rw [hopens, isUnary_ofLexeme] at hun
      exact Bool.noConfusion hun

theorem head?_insertMul (ts : List Token) : (insertMul ts).head? = ts.head? := by
  rcases ts with _ | ⟨t, _ | ⟨u, rest⟩⟩
  · rfl
  · rfl
  · rw [insertMul]
    split <;> rfl

theorem separated_insertMul (ts : List Token) : Separated (insertMul ts) := by
  fun_induction insertMul ts with
  | case1 => exact .nil
  | case2 t => exact .singleton t
  | case3 t u rest hab ih =>
    -- A multiplication abuts nothing on either side.
    refine .cons_cons (fun h => Bool.noConfusion h.2) ?_
    rw [List.isChain_cons]
    exact ⟨fun v _ h => Bool.noConfusion h.1, ih⟩
  | case4 t u rest hab ih =>
    rw [Separated, List.isChain_cons, head?_insertMul]
    -- The second token is still there, and it does not abut the first.
    refine ⟨fun v hv h => hab ?_, ih⟩
    rw [← Option.some.inj hv] at h
    rw [h.1, h.2]
    rfl

/-- Nothing is implied where nothing abuts. -/
theorem insertMul_of_separated {ts : List Token} (h : Separated ts) : insertMul ts = ts := by
  fun_induction insertMul ts with
  | case1 => rfl
  | case2 t => rfl
  | case3 t u rest hab ih =>
    rw [Bool.and_eq_true] at hab
    exact absurd hab ((List.isChain_cons.mp h).1 u rfl)
  | case4 t u rest hab ih => rw [ih (List.isChain_cons.mp h).2]

theorem signsFit_insertMul {ts : List Token} (h : SignsFit ts) : SignsFit (insertMul ts) := by
  fun_induction insertMul ts with
  | case1 => exact .nil
  | case2 t => exact .singleton t
  | case3 t u rest hab ih =>
    refine .cons_cons (fun h => Bool.noConfusion h) ?_
    rw [List.isChain_cons]
    exact ⟨fun v _ _ => rfl, ih h.of_cons⟩
  | case4 t u rest hab ih =>
    rw [SignsFit, List.isChain_cons, head?_insertMul]
    exact ⟨fun v hv => h.rel_head? hv, ih h.of_cons⟩

end Token

theorem signsFit_of_tokenize {text : List Char} {ts : List Token}
    (h : tokenize text false = .ok ts) : SignsFit ts := by
  rcases tokenize_strict_eq_ok_iff.mp h with ⟨ls, _, rfl⟩
  exact Token.signsFit_ofLexemes ls true

/-- The tokens of a text go on after operands where nothing abuts. -/
theorem continued_of_separated {text : List Char} {ts : List Token}
    (h : tokenize text false = .ok ts) (hsep : Separated ts) : Continued ts :=
  continued_iff.mpr ⟨hsep, signsFit_of_tokenize h⟩

theorem tokenize_true_eq_ok_iff {text : List Char} {ts : List Token} :
    tokenize text true = .ok ts ↔
      ∃ us, tokenize text false = .ok us ∧ ts = Token.insertMul us := by
  constructor
  · intro h
    rcases tokenize_eq_ok_iff.mp h with ⟨ls, hscan, rfl⟩
    exact ⟨_, tokenize_strict_eq_ok_iff.mpr ⟨ls, hscan, rfl⟩, rfl⟩
  · rintro ⟨us, hus, rfl⟩
    rcases tokenize_strict_eq_ok_iff.mp hus with ⟨ls, hscan, rfl⟩
    exact tokenize_eq_ok_iff.mpr ⟨ls, hscan, rfl⟩

/-- With implied multiplications the tokens of a text go on after every
    operand. -/
theorem continued_of_tokenize {text : List Char} {ts : List Token}
    (h : tokenize text true = .ok ts) : Continued ts := by
  rcases tokenize_true_eq_ok_iff.mp h with ⟨us, hus, rfl⟩
  exact continued_iff.mpr ⟨Token.separated_insertMul us,
    Token.signsFit_insertMul (signsFit_of_tokenize hus)⟩

end Abacus
