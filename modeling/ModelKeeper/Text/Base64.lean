/-!
# Base 64

Bytes as text, three bytes to four characters of a fixed alphabet of sixty-four.  A last group of
one or two bytes is filled up with padding.

`Base64.decode?` is strict: it takes exactly the texts that `Base64.encode` writes.  Padding has to
be there, nothing may follow it, and the bits of the last character that no byte uses have to be
zero.
-/

namespace ModelKeeper.Base64

/-- The characters in the order of their values. -/
def alphabet : List Char :=
  "ABCDEFGHIJKLMNOPQRSTUVWXYZabcdefghijklmnopqrstuvwxyz0123456789+/".toList

/-- The character with a value below 64. -/
def digit (n : Nat) : Char := alphabet.getD n 'A'

/-- The value of a character of the alphabet. -/
def value? (c : Char) : Option Nat := alphabet.findIdx? (· == c)

/-- The characters of some bytes. -/
def encode : List UInt8 → List Char
  | [] => []
  | [a] =>
    let a := a.toNat
    [digit (a / 4), digit (a % 4 * 16), '=', '=']
  | [a, b] =>
    let (a, b) := (a.toNat, b.toNat)
    [digit (a / 4), digit (a % 4 * 16 + b / 16), digit (b % 16 * 4), '=']
  | a :: b :: c :: rest =>
    let (a, b, c) := (a.toNat, b.toNat, c.toNat)
    digit (a / 4) :: digit (a % 4 * 16 + b / 16) :: digit (b % 16 * 4 + c / 64) ::
      digit (c % 64) :: encode rest

/-- The byte of a group of two characters, whose spare bits must be zero. -/
def decodeOne? (p q : Char) : Option (List UInt8) := do
  let p ← value? p
  let q ← value? q
  if q % 16 = 0 then some [(p * 4 + q / 16).toUInt8] else none

/-- The bytes of a group of three characters, whose spare bits must be zero. -/
def decodeTwo? (p q r : Char) : Option (List UInt8) := do
  let p ← value? p
  let q ← value? q
  let r ← value? r
  if r % 4 = 0 then some [(p * 4 + q / 16).toUInt8, (q % 16 * 16 + r / 4).toUInt8] else none

/-- The bytes of a group of four characters. -/
def decodeThree? (p q r s : Char) : Option (List UInt8) := do
  let p ← value? p
  let q ← value? q
  let r ← value? r
  let s ← value? s
  some [(p * 4 + q / 16).toUInt8, (q % 16 * 16 + r / 4).toUInt8, (r % 4 * 64 + s).toUInt8]

/-- The bytes that the characters spell, if they are in the one form that is written. -/
def decode? : List Char → Option (List UInt8)
  | [] => some []
  | [p, q, '=', '='] => decodeOne? p q
  | [p, q, r, '='] => decodeTwo? p q r
  | p :: q :: r :: s :: rest => do
    let group ← decodeThree? p q r s
    let bytes ← decode? rest
    some (group ++ bytes)
  | _ => none

end ModelKeeper.Base64
