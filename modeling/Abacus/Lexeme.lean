import Abacus.Numeral
import Abacus.Text.Blank
import Abacus.Text.Quoted

/-!
# Lexemes

The smallest pieces of an expression's text, before it is decided which of
the `+` and `-` among them are signs.

Reading a text into lexemes needs no memory of what came before: at every
position that is not blank the longest lexeme there is taken, and the next
one is looked for right after it. What a position cannot start is a fault at
that position, and the first fault ends the reading.

A lexeme knows how wide it is, so the position is carried along by adding
widths.

## Main definitions

* `Lexeme`: A piece of text that becomes one token.
* `Lexeme.width`: How many characters a lexeme takes.
* `LexFault`: Why no lexeme starts at a position.
* `LexError`: A fault and its position.
* `Lexeme.read`: The lexeme at the front of a text.
* `Lexeme.scan`: All lexemes of a text.

## Theorems

* `Lexeme.width_pos_of_read`: A lexeme that is read is not empty.
* `Lexeme.length_of_read`: A lexeme and what follows it have the length of the
  text.
* `Lexeme.scan_nil`, `Lexeme.scan_blank`, `Lexeme.scan_lexeme`: What scanning
  does with the front of a text.
-/

namespace Abacus

/-- A piece of text that becomes one token. A number keeps its spelling; the
    two letters that spell the constant `e` make the same lexeme. -/
inductive Lexeme where
  | number (spelling : List Char)
  | e
  | pi
  | plus
  | minus
  | star
  | starStar
  | slash
  | openParen
  | closeParen
  deriving DecidableEq, Repr, Inhabited

/-- Why no lexeme starts at a position. -/
inductive LexFault where
  /-- A point has no digit next to it. -/
  | loneDot
  /-- The letter `p` begins something else than `pi`; `seen` is that letter
      and the one after it, if there is one. -/
  | brokenPi (seen : List Char)
  /-- No lexeme starts with the character. -/
  | unexpected (c : Char)
  deriving DecidableEq, Repr, Inhabited

/-- The part of the text that a fault is about. -/
def LexFault.fragment : LexFault → List Char
  | loneDot => ['.']
  | brokenPi seen => seen
  | unexpected c => [c]

/-- What a fault says, without its position. -/
def LexFault.reason : LexFault → String
  | loneDot => "a single dot is not a valid number"
  | brokenPi _ => "expected 'pi'"
  | unexpected c => "unexpected character " ++ String.ofList (quoted [c])

/-- A fault and its position, counted in characters from the start of the
    text. -/
structure LexError where
  fault : LexFault
  position : Nat
  deriving DecidableEq, Repr, Inhabited

/-- What an error of the lexer says. -/
def LexError.message (e : LexError) : String :=
  e.fault.reason ++ " at position " ++ toString e.position

namespace Lexeme

/-- How many characters a lexeme takes. -/
def width : Lexeme → Nat
  | number spelling => spelling.length
  | pi => 2
  | starStar => 2
  | _ => 1

/-- The longest lexeme that starts with the character `c` before the text
    `rest`, and the text after it. -/
def read (c : Char) (rest : List Char) : Except LexFault (Lexeme × List Char) :=
  if c.isDigit || c == '.' then
    match Numeral.split (c :: rest) with
    | some (spelling, after) => .ok (number spelling, after)
    | none => .error .loneDot
  else match c, rest with
    | '+', _ => .ok (plus, rest)
    | '-', _ => .ok (minus, rest)
    -- Two stars are one lexeme, so the pair comes before the single star.
    | '*', '*' :: after => .ok (starStar, after)
    | '*', _ => .ok (star, rest)
    | '/', _ => .ok (slash, rest)
    | '(', _ => .ok (openParen, rest)
    | ')', _ => .ok (closeParen, rest)
    | 'e', _ => .ok (e, rest)
    | 'E', _ => .ok (e, rest)
    | 'p', 'i' :: after => .ok (pi, after)
    | 'p', _ => .error (.brokenPi ('p' :: rest.take 1))
    | _, _ => .error (.unexpected c)

theorem length_of_read {c : Char} {rest after : List Char} {l : Lexeme}
    (h : read c rest = .ok (l, after)) : l.width + after.length = rest.length + 1 := by
  unfold read at h
  split at h
  · split at h
    · next spelling tail hsplit =>
      have happ := congrArg List.length (Numeral.split_append hsplit)
      simp only [List.length_append, List.length_cons] at happ
      simp only [Except.ok.injEq, Prod.mk.injEq] at h
      rw [← h.1, ← h.2]
      exact happ
    · simp only [reduceCtorEq] at h
  · split at h <;> simp only [Except.ok.injEq, Prod.mk.injEq, reduceCtorEq] at h
    all_goals
      rw [← h.1, ← h.2]
      simp only [width, List.length_cons]
      omega

theorem width_pos_of_read {c : Char} {rest after : List Char} {l : Lexeme}
    (h : read c rest = .ok (l, after)) : 0 < l.width := by
  unfold read at h
  split at h
  · split at h
    · next spelling tail hsplit =>
      simp only [Except.ok.injEq, Prod.mk.injEq] at h
      rw [← h.1]
      exact List.length_pos_iff.mpr (Numeral.split_ne_nil hsplit)
    · simp only [reduceCtorEq] at h
  · split at h <;> simp only [Except.ok.injEq, Prod.mk.injEq, reduceCtorEq] at h
    all_goals
      rw [← h.1]
      simp only [width, Nat.zero_lt_succ]

/-- All lexemes of a text whose first character stands at `position`, or the
    first fault. -/
def scan (position : Nat) : List Char → Except LexError (List Lexeme)
  | [] => .ok []
  | c :: rest =>
    if isBlank c then scan (position + 1) rest
    else
      match h : read c rest with
      | .error fault => .error ⟨fault, position⟩
      | .ok (lexeme, after) =>
        have : after.length < rest.length + 1 := by
          have hlen := length_of_read h
          have hpos := width_pos_of_read h
          omega
        match scan (position + lexeme.width) after with
        | .error fault => .error fault
        | .ok lexemes => .ok (lexeme :: lexemes)
termination_by cs => cs.length

theorem scan_nil (position : Nat) : scan position [] = .ok [] := by
  rw [scan]

theorem scan_blank {c : Char} (hc : isBlank c = true) (position : Nat) (rest : List Char) :
    scan position (c :: rest) = scan (position + 1) rest := by
  rw [scan, if_pos hc]

theorem scan_lexeme {c : Char} {rest after : List Char} {l : Lexeme} (hc : isBlank c = false)
    (hread : read c rest = .ok (l, after)) (position : Nat) :
    scan position (c :: rest) = (scan (position + l.width) after).map (l :: ·) := by
  rw [scan, if_neg (by rw [hc]; exact Bool.false_ne_true)]
  split
  · next heq => rw [hread] at heq; cases heq
  · next heq =>
    rw [hread] at heq
    cases heq
    cases scan (position + l.width) after <;> rfl

end Lexeme

end Abacus
