import ModelKeeper.Json.Basic
import ModelKeeper.Number.Shortest

/-!
# JSON values as text

`Json.text` writes a value without any blanks, members in their order.  In strings only quotation
marks, backslashes and control characters are escaped, control characters by their short form if
they have one.  A datum is written with the fewest digits that read back in its own format, and
always with a point or an exponent.
-/

namespace ModelKeeper

/-- A 32-bit datum is written positionally from `10 ^ -6` up to below `10 ^ 13`. -/
def Single.layout : DecimalLayout := ⟨-6, 12⟩

/-- A 64-bit datum is written positionally from `10 ^ -5` up to below `10 ^ 16`. -/
def Double.layout : DecimalLayout := ⟨-5, 15⟩

/-- A number as text. -/
def Number.text : Number → String
  | .int n => toString n
  | .double x => (x.datum.text? .double Double.layout).getD "null"
  | .single x => (x.datum.text? .single Single.layout).getD "null"

namespace Json

/-- A hexadecimal digit, lower case. -/
def hexDigit (n : Nat) : Char := "0123456789abcdef".toList[n]?.getD '0'

/-- A character inside a string. -/
def escape (c : Char) : List Char :=
  if c = '"' then ['\\', '"']
  else if c = '\\' then ['\\', '\\']
  else if c = '\n' then ['\\', 'n']
  else if c = '\r' then ['\\', 'r']
  else if c = '\t' then ['\\', 't']
  else if c = '\x08' then ['\\', 'b']
  else if c = '\x0c' then ['\\', 'f']
  else if c.toNat < 0x20 then
    ['\\', 'u', '0', '0', hexDigit (c.toNat / 16), hexDigit (c.toNat % 16)]
  else [c]

/-- A string in quotation marks. -/
def quoted (s : String) : List Char :=
  '"' :: s.toList.flatMap escape ++ ['"']

mutual

/-- The characters of a value. -/
def characters : Json → List Char
  | .null => "null".toList
  | .bool true => "true".toList
  | .bool false => "false".toList
  | .num n => n.text.toList
  | .str s => quoted s
  | .arr [] => ['[', ']']
  | .arr (v :: vs) => '[' :: characters v ++ itemCharacters vs
  | .obj [] => ['\x7b', '\x7d']
  | .obj ((name, v) :: rest) =>
    '\x7b' :: quoted name ++ ':' :: characters v ++ memberCharacters rest

def itemCharacters : List Json → List Char
  | [] => [']']
  | v :: vs => ',' :: characters v ++ itemCharacters vs

def memberCharacters : List (String × Json) → List Char
  | [] => ['\x7d']
  | (name, v) :: rest => ',' :: quoted name ++ ':' :: characters v ++ memberCharacters rest

end

/-- The text of a value. -/
def text (v : Json) : String := String.ofList (characters v)

end Json

end ModelKeeper
