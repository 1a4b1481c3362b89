/-!
# Bytes in Base 64

Bytes written as text, four characters for three bytes. Characters outside
the alphabet count for nothing. An equals sign after two or three characters
of a group fills the group up, and what follows a full group of this kind is
not looked at.

## Main definitions

* `base64Value?`: The value of a character of the alphabet.
* `base64Bytes`: The bytes of a text.
-/

namespace Abacus

namespace Yaml

/-- The value of a character of the alphabet. -/
def base64Value? (c : Char) : Option Nat :=
  if 'A' ≤ c ∧ c ≤ 'Z' then some (c.toNat - 65)
  else if 'a' ≤ c ∧ c ≤ 'z' then some (c.toNat - 71)
  else if '0' ≤ c ∧ c ≤ '9' then some (c.toNat + 4)
  else if c = '+' then some 62
  else if c = '/' then some 63
  else none

/-- The bytes of a text, where `group` holds the characters of a group that is
    not full, the latest in front, and `fill` counts the equals signs after
    them. There is no result if the last group is not full. -/
def base64Bytes (group : List Nat) (fill : Nat) : List Char → Option (List UInt8)
  | [] => if group.isEmpty then some [] else none
  | '=' :: rest =>
    match group with
    | [b, a] =>
      if fill = 0 then base64Bytes group 1 rest else some [(4 * a + b / 16).toUInt8]
    | [c, b, a] => some [(4 * a + b / 16).toUInt8, (16 * b + c / 4).toUInt8]
    | group => base64Bytes group fill rest
  | x :: rest =>
    match base64Value? x, group with
    | none, group => base64Bytes group fill rest
    | some d, [c, b, a] =>
      (base64Bytes [] 0 rest).map fun bytes =>
        (4 * a + b / 16).toUInt8 :: (16 * b + c / 4).toUInt8 :: (64 * c + d).toUInt8 :: bytes
    | some d, group => base64Bytes (d :: group) 0 rest

end Yaml

end Abacus
