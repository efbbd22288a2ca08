import ModelKeeper.Json.Basic
import ModelKeeper.Text.Utf8

/-!
# JSON texts as far as they go

A reader of JSON that knows what it wants reports the first offence in reading order, whether the
text stops being JSON there or goes on with a value of the wrong kind.  A `Draft` is what such a
reader walks through: a JSON value whose last branch may break off.  `Draft.ofBytes` makes the draft
of any bytes; `Draft.ofJson` makes the unbroken draft of a value.

Where a reader has no use for a value it passes over it, and then less is asked of the text: a
number may be too large, a string may spell no text, and values may be nested to any depth.  So a
draft keeps such values, and a `Break` says separately what a reader and what a passer-by meets.
One who collects a value, without knowing its shape, asks most (`Draft.toJson?`).
-/

namespace ModelKeeper

/-- How a text stops being JSON: by something that cannot stand there, or by its end. -/
inductive Fault where
  | malformed
  | ended
  deriving DecidableEq, Repr

/-- The place where a text stops being JSON, as met by those who come there. -/
structure Break where
  /-- As met by a reader. -/
  read : Fault
  /-- As met by one who passes over the value. -/
  skip : Fault
  /-- As met by a reader who wants a name and nothing else: he stops where another thing begins,
  before he comes to the break. -/
  name : Fault
  deriving DecidableEq, Repr

namespace Break

/-- A break that all meet alike. -/
def both (f : Fault) : Break := ⟨f, f, f⟩

/-- A break in something that is no name. -/
def nameless (read skip : Fault) : Break := ⟨read, skip, .malformed⟩

/-- The break as it is behind something that is no name. -/
def behind (b : Break) : Break := nameless b.read b.skip

end Break

/-- A JSON value as far as its text goes. -/
inductive Draft where
  | null
  | bool (b : Bool)
  /-- A number; `none` for one that is too large. -/
  | number (n : Option Number)
  /-- A string; `none` for one that spells no text. -/
  | text (s : Option String)
  /-- An array up to its end or to the place where it stops being one. -/
  | array (items : List Draft) (stop : Option Break)
  /-- An object up to its end or to the place where it stops being one. -/
  | object (members : List (Option String × Draft)) (stop : Option Break)
  | broken (b : Break)
  deriving Inhabited

namespace Draft

mutual

/-- The draft of a value. -/
def ofJson : Json → Draft
  | .null => .null
  | .bool b => .bool b
  | .num n => .number (some n)
  | .str s => .text (some s)
  | .arr items => .array (ofItems items) none
  | .obj members => .object (ofMembers members) none

def ofItems : List Json → List Draft
  | [] => []
  | v :: vs => ofJson v :: ofItems vs

def ofMembers : List (String × Json) → List (Option String × Draft)
  | [] => []
  | (name, v) :: rest => (some name, ofJson v) :: ofMembers rest

end

/-! ### Strings -/

/-- The value of a hexadecimal digit. -/
def hexValue? (b : UInt8) : Option Nat :=
  if 0x30 ≤ b ∧ b ≤ 0x39 then some (b.toNat - 0x30)
  else if 0x41 ≤ b ∧ b ≤ 0x46 then some (b.toNat - 0x41 + 10)
  else if 0x61 ≤ b ∧ b ≤ 0x66 then some (b.toNat - 0x61 + 10)
  else none

/-- The value of four hexadecimal digits. -/
def hexWord? (a b c d : UInt8) : Option Nat := do
  let a ← hexValue? a
  let b ← hexValue? b
  let c ← hexValue? c
  let d ← hexValue? d
  pure (((a * 16 + b) * 16 + c) * 16 + d)

/-- The character that a short escape stands for. -/
def shortEscape? (b : UInt8) : Option UInt8 :=
  if b = 0x22 ∨ b = 0x5C ∨ b = 0x2F then some b
  else if b = 0x62 then some 0x08
  else if b = 0x66 then some 0x0C
  else if b = 0x6E then some 0x0A
  else if b = 0x72 then some 0x0D
  else if b = 0x74 then some 0x09
  else none

/-- The bytes of the character with this code. -/
def codeBytes (n : Nat) : List UInt8 := String.utf8EncodeChar (Char.ofNat n)

/-- What follows the opening quotation mark of a string. -/
inductive StringScan where
  /-- The string, `none` if it spells no text, and what follows it. -/
  | closed (s : Option String) (rest : List UInt8)
  | unclosed (b : Break)

/-- The string whose bytes so far are `reversed`.  It is `spoiled` if half of a surrogate pair has
been met: a reader stops there, one who passes over the string goes on. -/
def scanString (reversed : List UInt8) (spoiled : Bool) : List UInt8 → StringScan
  | [] => unclosed .ended
  | 0x22 :: rest => .closed (if spoiled then none else Utf8.decode? reversed.reverse) rest
  | 0x5C :: [] => unclosed .ended
  | 0x5C :: 0x75 :: a :: b :: c :: d :: rest =>
    match hexWord? a b c d with
    | none => unclosed .malformed
    | some n =>
      if 0xDC00 ≤ n ∧ n ≤ 0xDFFF then scanString reversed true rest
      else if 0xD800 ≤ n ∧ n ≤ 0xDBFF then
        match rest with
        | [] => unclosed .ended
        | 0x5C :: [] => unclosed .ended
        | 0x5C :: 0x75 :: a :: b :: c :: d :: rest =>
          match hexWord? a b c d with
          | none => unclosed .malformed
          | some m =>
            if 0xDC00 ≤ m ∧ m ≤ 0xDFFF then
              let code := 0x10000 + (n - 0xD800) * 0x400 + (m - 0xDC00)
              scanString ((codeBytes code).reverse ++ reversed) spoiled rest
            else if 0xD800 ≤ m ∧ m ≤ 0xDBFF then scanString reversed true rest
            else scanString ((codeBytes m).reverse ++ reversed) true rest
        | 0x5C :: 0x75 :: _ => unclosed .ended
        | b :: rest => scanString reversed true (b :: rest)
      else scanString ((codeBytes n).reverse ++ reversed) spoiled rest
  | 0x5C :: 0x75 :: _ => unclosed .ended
  | 0x5C :: e :: rest =>
    match shortEscape? e with
    | some b => scanString (b :: reversed) spoiled rest
    | none => unclosed .malformed
  | b :: rest =>
    if b < 0x20 then unclosed .malformed else scanString (b :: reversed) spoiled rest
where
  unclosed (f : Fault) : StringScan :=
    let read := if spoiled then .malformed else f
    .unclosed ⟨read, f, read⟩

/-! ### Numbers and literals -/

/-- Whether a byte is a decimal digit. -/
def isDigit (b : UInt8) : Bool := 0x30 ≤ b && b ≤ 0x39

/-- The leading decimal digits and what follows them. -/
def takeDigits : List UInt8 → List Nat × List UInt8
  | [] => ([], [])
  | b :: rest =>
    if isDigit b then
      let (ds, rest) := takeDigits rest
      ((b.toNat - 0x30) :: ds, rest)
    else ([], b :: rest)

/-- The digits that have to stand here. -/
def someDigits (bs : List UInt8) : Except Break (List Nat × List UInt8) :=
  match bs, takeDigits bs with
  | [], _ => .error (.nameless .ended .malformed)
  | _, ([], _) => .error (.both .malformed)
  | _, found => .ok found

/-- The digits before the point: a leading zero stands alone. -/
def wholeDigits (bs : List UInt8) : Except Break (List Nat × List UInt8) := do
  let (ds, rest) ← someDigits bs
  match ds with
  | 0 :: _ :: _ => .error (.both .malformed)
  | _ => pure (ds, rest)

/-- The numeral at the start, and what follows it. -/
def scanNumber (bs : List UInt8) : Except Break (Numeral × List UInt8) := do
  let (negative, bs) := match bs with
    | 0x2D :: rest => (true, rest)
    | bs => (false, bs)
  let (whole, bs) ← wholeDigits bs
  let (fraction, bs) ← match bs with
    | 0x2E :: rest => someDigits rest
    | bs => pure ([], bs)
  let exponent (rest : List UInt8) : Except Break (Option (Bool × List Nat) × List UInt8) := do
    let (below, rest) := match rest with
      | 0x2B :: rest => (false, rest)
      | 0x2D :: rest => (true, rest)
      | rest => (false, rest)
    let (ds, rest) ← someDigits rest
    pure (some (below, ds), rest)
  let (exponent, bs) ← match bs with
    | 0x65 :: rest => exponent rest
    | 0x45 :: rest => exponent rest
    | bs => pure (none, bs)
  pure (⟨negative, whole, fraction, exponent⟩, bs)

/-- What follows the bytes of a word that has to stand here. -/
def expectWord : List UInt8 → List UInt8 → Except Break (List UInt8)
  | [], rest => .ok rest
  | _ :: _, [] => .error (.nameless .ended .ended)
  | w :: word, b :: rest => if w = b then expectWord word rest else .error (.both .malformed)

/-! ### Values -/

/-- Drops leading blanks: spaces, tabs and ends of line. -/
def skipBlanks : List UInt8 → List UInt8
  | [] => []
  | b :: rest =>
    if b = 0x20 ∨ b = 0x09 ∨ b = 0x0A ∨ b = 0x0D then skipBlanks rest else b :: rest

/-- A value that breaks off. -/
def stopped (b : Break) : Draft × Option (List UInt8) := (.broken b, none)

/-- The value that a word stands for, after the word's first letter. -/
def literal (v : Draft) (word : String) (bs : List UInt8) :
    Draft × Option (List UInt8) :=
  match expectWord (Utf8.ofString word) bs with
  | .ok rest => (v, some rest)
  | .error b => stopped b

mutual

/-- The draft of the value at the start, and what follows it unless it breaks off.  Every second
call takes a byte, so twice their number is fuel enough. -/
def ofBytes.value : Nat → List UInt8 → Draft × Option (List UInt8)
  | 0, _ => stopped (.both .malformed)
  | fuel + 1, bs =>
    match skipBlanks bs with
    | [] => stopped (.both .ended)
    | 0x5B :: rest =>
      let (vs, stop, rest) := ofBytes.items fuel true rest
      (.array vs stop, rest)
    | 0x7B :: rest =>
      let (ms, stop, rest) := ofBytes.members fuel true rest
      (.object ms stop, rest)
    | 0x22 :: rest =>
      match scanString [] false rest with
      | .closed s rest => (.text s, some rest)
      | .unclosed b => stopped b
    | 0x6E :: rest => literal .null "ull" rest
    | 0x74 :: rest => literal (.bool true) "rue" rest
    | 0x66 :: rest => literal (.bool false) "alse" rest
    | b :: rest =>
      if b = 0x2D ∨ isDigit b then
        match scanNumber (b :: rest) with
        | .ok (n, rest) => (.number n.value?, some rest)
        | .error e => stopped e
      else stopped (.both .malformed)

/-- The items of an array from here on; `first` if none has been read yet. -/
def ofBytes.items : Nat → Bool → List UInt8 →
    List Draft × Option Break × Option (List UInt8)
  | 0, _, _ => ([], some (.both .malformed), none)
  | fuel + 1, first, bs =>
    let item (bs : List UInt8) : List Draft × Option Break × Option (List UInt8) :=
      match ofBytes.value fuel bs with
      | (v, none) => ([v], none, none)
      | (v, some rest) =>
        let (vs, stop, rest) := ofBytes.items fuel false rest
        (v :: vs, stop, rest)
    match first, skipBlanks bs with
    | _, [] => ([], some (.both .ended), none)
    | _, 0x5D :: rest => ([], none, some rest)
    | true, bs => item bs
    | false, 0x2C :: rest =>
      match skipBlanks rest with
      | 0x5D :: _ => ([], some (.both .malformed), none)
      | bs => item bs
    | false, _ => ([], some (.both .malformed), none)

/-- The members of an object from here on; `first` if none has been read yet. -/
def ofBytes.members : Nat → Bool → List UInt8 →
    List (Option String × Draft) × Option Break × Option (List UInt8)
  | 0, _, _ => ([], some (.both .malformed), none)
  | fuel + 1, first, bs =>
    let member (bs : List UInt8) :
        List (Option String × Draft) × Option Break × Option (List UInt8) :=
      match scanString [] false bs with
      | .unclosed b => ([], some (if first then b else b.behind), none)
      | .closed name rest =>
        match skipBlanks rest with
        | [] => ([(name, .broken (.both .ended))], none, none)
        | 0x3A :: rest =>
          match ofBytes.value fuel rest with
          | (v, none) => ([(name, v)], none, none)
          | (v, some rest) =>
            let (ms, stop, rest) := ofBytes.members fuel false rest
            ((name, v) :: ms, stop, rest)
        | _ => ([(name, .broken (.both .malformed))], none, none)
    match first, skipBlanks bs with
    | _, [] => ([], some (.both .ended), none)
    | _, 0x7D :: rest => ([], none, some rest)
    | true, 0x22 :: rest => member rest
    | true, _ => ([], some (.both .malformed), none)
    | false, 0x2C :: rest =>
      match skipBlanks rest with
      | [] => ([], some (.nameless .ended .ended), none)
      | 0x22 :: rest => member rest
      | _ => ([], some (.both .malformed), none)
    | false, _ => ([], some (.both .malformed), none)

end

/-- The draft of the first value in a text, and what follows it unless the value breaks off. -/
def ofBytes (bs : List UInt8) : Draft × Option (List UInt8) :=
  ofBytes.value (2 * bs.length + 2) bs

/-! ### Passing over and collecting -/

/-- What one who passes over a value meets: nothing, or the first fault. -/
def Break.skipped : Option Break → Except Fault Unit
  | none => .ok ()
  | some b => .error b.skip

mutual

/-- Passes over a value. -/
def skip : Draft → Except Fault Unit
  | .array items stop => do
    skipItems items
    Break.skipped stop
  | .object members stop => do
    skipMembers members
    Break.skipped stop
  | .broken b => .error b.skip
  | _ => .ok ()

def skipItems : List Draft → Except Fault Unit
  | [] => .ok ()
  | v :: vs => do
    skip v
    skipItems vs

def skipMembers : List (Option String × Draft) → Except Fault Unit
  | [] => .ok ()
  | (_, v) :: rest => do
    skip v
    skipMembers rest

end

/-- How deep the values of a text that are collected may be nested, the text's own value
included. -/
def depthLimit : Nat := 127

mutual

/-- The value that an unbroken draft stands for, if it is nested no deeper than `room` allows.  Of
several members with one name the last counts, at the place of the first. -/
def toJson? (room : Nat) : Draft → Option Json
  | .null => some .null
  | .bool b => some (.bool b)
  | .number n => n.map .num
  | .text s => s.map .str
  | .array items none => if room = 0 then none else (toItems? (room - 1) items).map .arr
  | .object members none => if room = 0 then none else (toMembers? (room - 1) [] members).map .obj
  | _ => none

def toItems? (room : Nat) : List Draft → Option (List Json)
  | [] => some []
  | v :: vs => do
    let v ← toJson? room v
    let vs ← toItems? room vs
    pure (v :: vs)

def toMembers? (room : Nat) (read : List (String × Json)) :
    List (Option String × Draft) → Option (List (String × Json))
  | [] => some read
  | (name, v) :: rest => do
    let name ← name
    let v ← toJson? room v
    toMembers? room (Json.putMember name v read) rest

end

end Draft

/-- The value that a whole text spells. -/
def Json.parse? (bs : List UInt8) : Option Json :=
  match Draft.ofBytes bs with
  | (v, some rest) =>
    if (Draft.skipBlanks rest).isEmpty then v.toJson? Draft.depthLimit else none
  | _ => none

end ModelKeeper
