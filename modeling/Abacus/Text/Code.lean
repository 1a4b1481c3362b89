/-!
# Codes

The units of a text that numbers can give. Most numbers of codes are those of
characters. The others are those of halves: two of them stand for one character
where characters are written in sixteen bits, and none of them is a character
by itself. A text that is built from numbers can hold halves, also two that
would fit together, and then it is no text of characters.

## Main definitions

* `Code`: A character or half of one.
* `Code.ofNat`: The code of a number.
* `chars?`: The characters of codes without halves.
* `BrokenText`: Codes that are no text of characters.
* `Code.shown`: A code in a text that has to consist of characters.
-/

namespace Abacus

/-- A character, or half of one, which is counted from the first of all
    halves. -/
inductive Code where
  | char (c : Char)
  | half (n : Fin 0x800)
  deriving DecidableEq, Repr, Inhabited

namespace Code

/-- The number of the first half. -/
def firstHalf : Nat := 0xd800

/-- The code of a number below that of the last code. -/
def ofNat (n : Nat) : Code :=
  if h : firstHalf ≤ n ∧ n - firstHalf < 0x800 then half ⟨n - firstHalf, h.2⟩
  else char (Char.ofNat n)

/-- The character that a code is, if it is one. -/
def char? : Code → Option Char
  | char c => some c
  | half _ => none

/-- A code in a text that has to consist of characters. A half leaves a mark for
    each of the three bytes that it would take. -/
def shown : Code → List Char
  | char c => [c]
  | half _ => List.replicate 3 '\uFFFD'

end Code

/-- The characters of codes, if there are no halves among them. -/
def chars? : List Code → Option (List Char)
  | [] => some []
  | .char c :: rest => (chars? rest).map (c :: ·)
  | .half _ :: _ => none

/-- The characters in front of the first half. -/
def leadingChars : List Code → List Char
  | .char c :: rest => c :: leadingChars rest
  | _ => []

/-- Codes that are no text of characters. -/
structure BrokenText where
  codes : List Code
  isBroken : chars? codes = none
  deriving DecidableEq

/-- A broken text with a mark for each byte of its halves. -/
def BrokenText.shown (t : BrokenText) : String :=
  String.ofList (t.codes.flatMap Code.shown)

end Abacus
