import Abacus.Token
import Abacus.Lexeme

/-!
# Reading Tokens

From the text of an expression to its tokens, in three passes over lists: the
text is split into lexemes, each lexeme becomes a token, and where two
operands stand side by side a multiplication is put between them if that is
wanted.

Only the second pass looks back, and only one token: a `+` or `-` is a sign at
the start and after a token that no operand ends with. Only the first pass
can fail, so the other two cannot change which error a text has.

## Main definitions

* `Token.ofLexeme`: The token of one lexeme at a place where signs stand or
  not.
* `Token.ofLexemes`: The tokens of a list of lexemes.
* `Token.insertMul`: The multiplications that neighbouring operands imply.
* `tokenize`: The tokens of a text.

## Theorems

* `Token.length_ofLexemes`: There is one token per lexeme.
* `tokenize_strict`: Without implied multiplications the tokens are those of
  the lexemes.
* `tokenize_eq_ok_iff`, `tokenize_eq_error_iff`: A text has tokens if it has
  lexemes, and otherwise its error is the fault of these.
-/

namespace Abacus

namespace Token

/-- The token for multiplication. -/
def times : Token :=
  op (.binary .mul)

/-- The token of a lexeme. Where `atSign` holds, a `+` or `-` is a sign. -/
def ofLexeme (atSign : Bool) : Lexeme → Token
  | .number spelling => atom (.number (Numeral.value spelling))
  | .e => atom .e
  | .pi => atom .pi
  | .plus => op (if atSign then .unary .plus else .binary .add)
  | .minus => op (if atSign then .unary .minus else .binary .sub)
  | .star => times
  | .starStar => op (.binary .pow)
  | .slash => op (.binary .div)
  | .openParen => openParen
  | .closeParen => closeParen

/-- The tokens of a list of lexemes, each deciding whether a sign stands after
    it. -/
def ofLexemes (atSign : Bool) : List Lexeme → List Token
  | [] => []
  | l :: ls =>
    let t := ofLexeme atSign l
    t :: ofLexemes t.opensSign ls

/-- Puts a multiplication between every two neighbours of which the left one
    ends an operand and the right one starts one. -/
def insertMul : List Token → List Token
  | [] => []
  | [t] => [t]
  | t :: u :: rest =>
    if t.endsOperand && u.startsOperand then t :: times :: insertMul (u :: rest)
    else t :: insertMul (u :: rest)

theorem length_ofLexemes (ls : List Lexeme) :
    ∀ atSign : Bool, (ofLexemes atSign ls).length = ls.length := by
  induction ls with
  | nil => intro atSign; rfl
  | cons l ls ih =>
    intro atSign
    simp only [ofLexemes, List.length_cons, ih]

end Token

/-- The tokens of a text, with the multiplications that neighbouring operands
    imply if `implicitMul` holds. -/
def tokenize (text : List Char) (implicitMul : Bool) : Except LexError (List Token) :=
  match Lexeme.scan 0 text with
  | .error e => .error e
  | .ok lexemes =>
    let tokens := Token.ofLexemes true lexemes
    .ok (if implicitMul then Token.insertMul tokens else tokens)

theorem tokenize_strict (text : List Char) :
    tokenize text false = (Lexeme.scan 0 text).map (Token.ofLexemes true) := by
  simp only [tokenize]
  cases Lexeme.scan 0 text <;> rfl

theorem tokenize_eq_ok_iff {text : List Char} {implicitMul : Bool} {ts : List Token} :
    tokenize text implicitMul = .ok ts ↔ ∃ ls, Lexeme.scan 0 text = .ok ls ∧
      (if implicitMul then Token.insertMul (Token.ofLexemes true ls)
        else Token.ofLexemes true ls) = ts := by
  rw [tokenize]
  cases Lexeme.scan 0 text with
  | error e =>
    constructor
    · intro h
      cases h
    · rintro ⟨_, h, _⟩
      cases h
  | ok ls =>
    constructor
    · intro h
      exact ⟨ls, rfl, Except.ok.inj h⟩
    · rintro ⟨_, h, rfl⟩
      cases h
      rfl

theorem tokenize_strict_eq_ok_iff {text : List Char} {ts : List Token} :
    tokenize text false = .ok ts ↔
      ∃ ls, Lexeme.scan 0 text = .ok ls ∧ Token.ofLexemes true ls = ts :=
  tokenize_eq_ok_iff

theorem tokenize_eq_error_iff {text : List Char} {implicitMul : Bool} {e : LexError} :
    tokenize text implicitMul = .error e ↔ Lexeme.scan 0 text = .error e := by
  simp only [tokenize]
  cases Lexeme.scan 0 text <;> simp

end Abacus
