import ModelKeeper.Json.Draft
import ModelKeeper.Json.Printer
import ModelKeeper.Text.Quoted

/-!
# What a reader of JSON may object to

A `ReadError` is either a `Fault` of the text or a `Mismatch`: JSON of the wrong shape.
`ReadError.message` words it.
-/

namespace ModelKeeper

/-- What stands where something else is wanted. -/
inductive Unexpected where
  | text (s : String)
  | int (n : Int)
  | float (x : Double)
  | bool (b : Bool)
  | null
  | map
  | sequence
  deriving DecidableEq, Repr

/-- JSON of the wrong shape. -/
inductive Mismatch where
  | missingField (name : String)
  | duplicateField (name : String)
  | unknownVariant (found : String) (expected : List String)
  | invalidType (found : Unexpected) (expected : String)
  | invalidValue (found : Unexpected) (expected : String)
  /-- An array that is too short for a record. -/
  | invalidLength (found : Nat) (record : String) (elements : Nat)
  deriving DecidableEq, Repr

/-- Why a text could not be read. -/
inductive ReadError where
  | fault (f : Fault)
  | mismatch (m : Mismatch)
  deriving DecidableEq, Repr

def Unexpected.message : Unexpected → String
  | .text s => "string " ++ Quoted.text s
  | .int n => s!"integer `{n}`"
  | .float x => "floating point `" ++ (Number.double x).text ++ "`"
  | .bool b => s!"boolean `{b}`"
  | .null => "null"
  | .map => "map"
  | .sequence => "sequence"

/-- The names of the variants that a reader knows. -/
def Mismatch.alternatives (names : List String) : String :=
  let quoted := names.map (fun n => s!"`{n}`")
  match quoted with
  | [] => "there are no variants"
  | [a] => "expected " ++ a
  | [a, b] => "expected " ++ a ++ " or " ++ b
  | _ => "expected one of " ++ ", ".intercalate quoted

def Mismatch.message : Mismatch → String
  | .missingField name => s!"missing field `{name}`"
  | .duplicateField name => s!"duplicate field `{name}`"
  | .unknownVariant found expected =>
    s!"unknown variant `{found}`, " ++ Mismatch.alternatives expected
  | .invalidType found expected => s!"invalid type: {found.message}, expected {expected}"
  | .invalidValue found expected => s!"invalid value: {found.message}, expected {expected}"
  | .invalidLength found record elements =>
    s!"invalid length {found}, expected {record} with {elements} element" ++
      (if elements = 1 then "" else "s")

def ReadError.message : ReadError → String
  | .fault .malformed => "syntax"
  | .fault .ended => "eof"
  | .mismatch m => "data: " ++ m.message

/-- What a draft is, for one who wants something else.  A value that breaks off, and a number or
string that cannot be read, are faults before they are anything. -/
def Draft.unexpected : Draft → Except ReadError Unexpected
  | .null => .ok .null
  | .bool b => .ok (.bool b)
  | .number none => .error (.fault .malformed)
  | .number (some (.int n)) => .ok (.int n)
  | .number (some (.double x)) => .ok (.float x)
  | .number (some (.single x)) => .ok (.float x.toDouble)
  | .text none => .error (.fault .malformed)
  | .text (some s) => .ok (.text s)
  | .array _ _ => .ok .sequence
  | .object _ _ => .ok .map
  | .broken b => .error (.fault b.read)

/-- The objection of one who wants something else. -/
def Draft.mismatch {α : Type} (d : Draft) (expected : String) : Except ReadError α :=
  match d.unexpected with
  | .ok found => .error (.mismatch (.invalidType found expected))
  | .error e => .error e

end ModelKeeper
