import ModelKeeper.Text.CodePoint

/-!
# Quoted text in messages

A message shows a text in quotation marks, so that the reader sees where it ends and what is in it.
Quotation marks, backslashes and common controls are escaped by a backslash and a letter; every
other character that has no glyph of its own, or that would merge with the one before it, is written
as its code in braces.
-/

namespace ModelKeeper.Quoted

/-- A code in hexadecimal digits between braces. -/
def code (c : Char) : String :=
  "\\u\x7b" ++ String.ofList (Nat.toDigits 16 c.toNat) ++ "\x7d"

/-- A character between quotation marks. -/
def character (c : Char) : String :=
  if c = '\x00' then "\\0"
  else if c = '\t' then "\\t"
  else if c = '\n' then "\\n"
  else if c = '\r' then "\\r"
  else if c = '\\' then "\\\\"
  else if c = '"' then "\\\""
  else if isExtending c || !isPrintable c then code c
  else String.singleton c

/-- A text between quotation marks. -/
def text (s : String) : String :=
  "\"" ++ String.join (s.toList.map character) ++ "\""

/-- A list of texts in brackets, each between quotation marks. -/
def list (items : List String) : String :=
  "[" ++ ", ".intercalate (items.map text) ++ "]"

end ModelKeeper.Quoted
