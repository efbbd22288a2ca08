/-!
# UTF-8

Characters as bytes and bytes as characters.  `Utf8.encode` writes characters; `Utf8.decode` reads
any bytes at all, as a list of *symbols*: a symbol is a character, or `none` for a run of bytes that
begins a character and breaks off, or for a byte that can begin none.

A symbol takes as many bytes as still can begin a character, so a reader that puts one replacement
character for every `none` (`Utf8.decodeLossy`) marks each broken character once.
-/

namespace ModelKeeper.Utf8

/-- The bytes of some characters. -/
def encode (cs : List Char) : List UInt8 :=
  cs.flatMap String.utf8EncodeChar

/-- The bytes of a text. -/
def ofString (s : String) : List UInt8 := encode s.toList

/-- A character that has been begun: the bounds of its next byte, the bits read so far, and how many
bytes follow the next one. -/
structure Begun where
  low : UInt8
  high : UInt8
  bits : Nat
  more : Nat

/-- What a byte does at a place where a character may begin: it is one, it cannot be read, or it
begins a longer one.  The bounds of the second byte leave out overlong forms, surrogates and
everything above the last code point. -/
def begin (b : UInt8) : Option Char ⊕ Begun :=
  if b < 0x80 then .inl (some (Char.ofNat b.toNat))
  else if b < 0xC2 then .inl none
  else if b < 0xE0 then .inr ⟨0x80, 0xBF, b.toNat - 0xC0, 0⟩
  else if b = 0xE0 then .inr ⟨0xA0, 0xBF, 0, 1⟩
  else if b = 0xED then .inr ⟨0x80, 0x9F, 0xD, 1⟩
  else if b < 0xF0 then .inr ⟨0x80, 0xBF, b.toNat - 0xE0, 1⟩
  else if b = 0xF0 then .inr ⟨0x90, 0xBF, 0, 2⟩
  else if b < 0xF4 then .inr ⟨0x80, 0xBF, b.toNat - 0xF0, 2⟩
  else if b = 0xF4 then .inr ⟨0x80, 0x8F, 4, 2⟩
  else .inl none

/-- What a byte within the bounds does to a character that has been begun. -/
def Begun.push (c : Begun) (b : UInt8) : Option Char ⊕ Begun :=
  let bits := c.bits * 64 + (b.toNat - 0x80)
  match c.more with
  | 0 => .inl (some (Char.ofNat bits))
  | more + 1 => .inr ⟨0x80, 0xBF, bits, more⟩

/-- The symbols of the rest of the bytes, after a character has been begun or not. -/
def decode.go : Option Begun → List UInt8 → List (Option Char)
  | none, [] => []
  | some _, [] => [none]
  | none, b :: bs =>
    match begin b with
    | .inl symbol => symbol :: decode.go none bs
    | .inr c => decode.go (some c) bs
  | some c, b :: bs =>
    if c.low ≤ b ∧ b ≤ c.high then
      match c.push b with
      | .inl symbol => symbol :: decode.go none bs
      | .inr c => decode.go (some c) bs
    else
      none :: match begin b with
        | .inl symbol => symbol :: decode.go none bs
        | .inr c => decode.go (some c) bs

/-- The symbols that the bytes spell. -/
def decode (bs : List UInt8) : List (Option Char) := decode.go none bs

/-- All characters of a list of symbols, if every symbol is one. -/
def characters? : List (Option Char) → Option (List Char)
  | [] => some []
  | none :: _ => none
  | some c :: rest => (characters? rest).map (c :: ·)

/-- The text that the bytes spell, if they spell one. -/
def decode? (bs : List UInt8) : Option String :=
  (characters? (decode bs)).map String.ofList

/-- The text that the bytes spell, with the replacement character for each symbol that is not a
character. -/
def decodeLossy (bs : List UInt8) : String :=
  String.ofList ((decode bs).map (·.getD '\uFFFD'))

end ModelKeeper.Utf8
