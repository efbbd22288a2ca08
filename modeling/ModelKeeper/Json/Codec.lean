import ModelKeeper.Json.ReadError
import ModelKeeper.SortedMap

/-!
# Codecs: typed values as JSON and back

A `Codec` writes a type as JSON and reads it from a draft.  Records are described once, by the list
of their `Field`s, and the description serves both ways.

There are two customs for reading a record.  `Codec.record` is strict: a field that occurs twice is
an error, a field without a default must be there, and an array of the fields in order will do
for an object.  `Codec.lenient` takes the last of several occurrences, treats a null as an absent
field, and reads objects only.  Both pass over fields that they do not know.
-/

namespace ModelKeeper

/-- How a type is written as JSON and read from it. -/
structure Codec (α : Type) where
  write : α → Json
  read : Draft → Except ReadError α

/-- A named field of a record. -/
structure Field (α : Type) where
  name : String
  /-- The JSON of the field; `none` if it is left out. -/
  write : α → Option Json
  read : Draft → Except ReadError α
  /-- The value of a field that is not there, if it may be absent. -/
  absent : Option α
  /-- The value of a field for which an array of the fields is too short, if it may be. -/
  beyond : Option α := absent

/-- The fields of a record, whose values together are a nested pair. -/
inductive Fields : Type → Type 1
  | nil : Fields Unit
  | cons {α β : Type} (f : Field α) (rest : Fields β) : Fields (α × β)

namespace Codec

variable {α β : Type}

/-- The value that a whole text spells. -/
def readText (c : Codec α) (bs : List UInt8) : Except ReadError α := do
  let (draft, rest) := Draft.ofBytes bs
  let a ← c.read draft
  match rest with
  | some rest => if (Draft.skipBlanks rest).isEmpty then pure a else .error (.fault .malformed)
  | none => .error (.fault .malformed)

/-- The value that a JSON value stands for. -/
def ofJson? (c : Codec α) (v : Json) : Option α := (c.read (Draft.ofJson v)).toOption

/-! ### Simple values -/

/-- Text. -/
def string : Codec String where
  write := .str
  read
    | .text (some s) => .ok s
    | d => d.mismatch "a string"

/-- A flag. -/
def bool : Codec Bool where
  write := .bool
  read
    | .bool b => .ok b
    | d => d.mismatch "a boolean"

/-- An integer within bounds; `name` is the name of the range. -/
def int (low high : Int) (name : String) : Codec Int where
  write := Json.int
  read
    | .number (some (.int n)) =>
      if low ≤ n ∧ n ≤ high then .ok n else .error (.mismatch (.invalidValue (.int n) name))
    | d => d.mismatch name

/-- An integer of 32 bits. -/
def int32 : Codec Int := int (-0x80000000) 0x7FFFFFFF "an integer of 32 bits"

/-- An integer of 64 bits. -/
def int64 : Codec Int := int (-0x8000000000000000) 0x7FFFFFFFFFFFFFFF "an integer of 64 bits"

/-- An unsigned integer of 16 bits. -/
def word16 : Codec UInt16 where
  write n := Json.int n.toNat
  read d := do
    let n ← (int 0 65535 "u16").read d
    pure n.toNat.toUInt16

/-- A 32-bit datum.  What is no number is written as null. -/
def single : Codec Single where
  write x := if x.isFinite then .num (.single x) else .null
  read
    | .number (some (.int n)) => .ok (.ofInt n)
    | .number (some (.double x)) => .ok (.ofDouble x)
    | .number (some (.single x)) => .ok x
    | d => d.mismatch "f32"

/-- A null. -/
def unit : Codec Unit where
  write _ := .null
  read
    | .null => .ok ()
    | d => d.mismatch "unit"

/-- One of some named variants: its name, or an object whose only member is its name with a null.
The list names every value of the type. -/
def variant [DecidableEq α] [Inhabited α] (names : List (String × α)) : Codec α where
  write a := .str (((names.find? (fun n => n.2 = a)).map (·.1)).getD "")
  read
    | .text (some s) => named s
    | .text none => .error (.fault .malformed)
    | .object [] none => .error (.fault .malformed)
    | .object [] (some b) => .error (.fault b.name)
    | .object ((none, _) :: _) _ => .error (.fault .malformed)
    | .object ((some s, v) :: rest) stop => do
      let a ← named s
      unit.read v
      match rest, stop with
      | [], none => pure a
      | [], some b => .error (.fault b.name)
      | _, _ => .error (.fault .malformed)
    | .broken b => .error (.fault b.name)
    | _ => .error (.fault .malformed)
where
  named (s : String) : Except ReadError α :=
    match names.find? (fun n => n.1 = s) with
    | some n => .ok n.2
    | none => .error (.mismatch (.unknownVariant s (names.map (·.1))))

/-- A type that corresponds to another one. -/
def imap (c : Codec α) (forth : α → β) (back : β → α) : Codec β where
  write b := c.write (back b)
  read d := (c.read d).map forth

/-! ### Collections -/

/-- Reads the items of an array. -/
def readItems (c : Codec α) : List Draft → Except ReadError (List α)
  | [] => .ok []
  | d :: ds => do
    let a ← c.read d
    let as ← readItems c ds
    pure (a :: as)

/-- What a reader meets at the end of an array or object. -/
def readStop : Option Break → Except ReadError Unit
  | none => .ok ()
  | some b => .error (.fault b.read)

/-- An array. -/
def list (c : Codec α) : Codec (List α) where
  write as := .arr (as.map c.write)
  read
    | .array items stop => do
      let as ← readItems c items
      readStop stop
      pure as
    | d => d.mismatch "a sequence"

/-- Reads the members of an object with arbitrary names. -/
def readEntries (c : Codec α) (m : Dict α) :
    List (Option String × Draft) → Except ReadError (Dict α)
  | [] => .ok m
  | (none, _) :: _ => .error (.fault .malformed)
  | (some name, d) :: rest => do
    let a ← c.read d
    readEntries c (m.insert name a) rest

/-- An object with arbitrary names. -/
def dict (c : Codec α) : Codec (Dict α) where
  write m := .obj (m.entries.map (fun e => (e.1, c.write e.2)))
  read
    | .object members stop => do
      let m ← readEntries c .empty members
      readStop stop
      pure m
    | d => d.mismatch "a map"

end Codec

namespace Field

variable {α : Type}

/-- A field that must be there. -/
def required (name : String) (c : Codec α) : Field α where
  name := name
  write a := some (c.write a)
  read := c.read
  absent := none

/-- A field that is always written and has a default when read. -/
def withDefault (name : String) (c : Codec α) (default : α) : Field α where
  name := name
  write a := some (c.write a)
  read := c.read
  absent := some default

/-- A field that may be absent, or null. -/
def optional (name : String) (c : Codec α) : Field (Option α) where
  name := name
  write a := a.map c.write
  read
    | .null => .ok none
    | d => (c.read d).map some
  absent := some none

/-- A field that may be absent, or null, from an object, but not from an array of the fields. -/
def optionalPart (name : String) (c : Codec α) : Field (Option α) where
  name := name
  write a := a.map c.write
  read
    | .null => .ok none
    | d => (c.read d).map some
  absent := some none
  beyond := none

/-- A field that is left out if it has its default. -/
def unlessDefault (name : String) (c : Codec α) (default : α) [DecidableEq α] : Field α where
  name := name
  write a := if a = default then none else some (c.write a)
  read := c.read
  absent := some default

/-- A list that is left out if it is empty. -/
def unlessEmpty (name : String) (c : Codec α) : Field (List α) where
  name := name
  write as := if as.isEmpty then none else some ((Codec.list c).write as)
  read := (Codec.list c).read
  absent := some []

end Field

namespace Fields

/-- The values of the fields read so far. -/
@[reducible]
def Slots : {τ : Type} → Fields τ → Type
  | _, .nil => Unit
  | _, .cons (α := α) _ rest => Option α × Slots rest

/-- No field read yet. -/
def noSlots : {τ : Type} → (fs : Fields τ) → fs.Slots
  | _, .nil => ()
  | _, .cons _ rest => (none, noSlots rest)

/-- The number of fields. -/
def count : {τ : Type} → Fields τ → Nat
  | _, .nil => 0
  | _, .cons _ rest => rest.count + 1

/-- The members of a record. -/
def members : {τ : Type} → Fields τ → τ → List (String × Json)
  | _, .nil, _ => []
  | _, .cons f rest, (a, b) =>
    match f.write a with
    | some v => (f.name, v) :: rest.members b
    | none => rest.members b

/-- The custom for reading a record. -/
inductive Custom where
  | strict
  | lenient
  deriving DecidableEq

/-- Reads the member `name` into its slot; `none` if there is no such field. -/
def put (custom : Custom) (name : String) (d : Draft) : {τ : Type} → (fs : Fields τ) → fs.Slots →
    Except ReadError (Option fs.Slots)
  | _, .nil, _ => .ok none
  | _, .cons f rest, slots =>
    if f.name = name then
      match custom, slots.1, d with
      | .strict, some _, _ => .error (.mismatch (.duplicateField name))
      | .lenient, _, .null => .ok (some (none, slots.2))
      | _, _, d => (f.read d).map (fun a => some (some a, slots.2))
    else (put custom name d rest slots.2).map (·.map (fun others => (slots.1, others)))

/-- Reads the members of an object in turn. -/
def readMembers (custom : Custom) {τ : Type} (fs : Fields τ) (slots : fs.Slots) :
    List (Option String × Draft) → Except ReadError fs.Slots
  | [] => .ok slots
  | (none, _) :: _ => .error (.fault .malformed)
  | (some name, d) :: rest => do
    match ← put custom name d fs slots with
    | some slots => readMembers custom fs slots rest
    | none =>
      match d.skip with
      | .ok () => readMembers custom fs slots rest
      | .error f => .error (.fault f)

/-- The record, once all members are read: the first field that is missing and has no default is an
error. -/
def finish : {τ : Type} → (fs : Fields τ) → fs.Slots → Except ReadError τ
  | _, .nil, _ => .ok ()
  | _, .cons f rest, slots =>
    match slots.1 <|> f.absent with
    | some a => (rest.finish slots.2).map (fun b => (a, b))
    | none => .error (.mismatch (.missingField f.name))

/-- Reads the fields from an array that has them in order.  `index` counts the fields before,
`short` is the error for an array that ends before a field without a default. -/
def readArray (short : Nat → ReadError) (stop : Option Break) : {τ : Type} → Nat → Fields τ →
    List Draft → Except ReadError (τ × List Draft)
  | _, _, .nil, items => .ok ((), items)
  | _, index, .cons f rest, d :: items => do
    let a ← f.read d
    let (b, items) ← readArray short stop (index + 1) rest items
    pure ((a, b), items)
  | _, index, .cons f rest, [] => do
    Codec.readStop stop
    match f.beyond with
    | some a =>
      let (b, items) ← readArray short stop (index + 1) rest []
      pure ((a, b), items)
    | none => .error (short index)

end Fields

namespace Codec

variable {σ τ : Type}

/-- A record read strictly; `expected` is its name in messages. -/
def record (expected : String) (fs : Fields τ) (fields : σ → τ) (make : τ → σ) : Codec σ where
  write s := .obj (fs.members (fields s))
  read
    | .object members stop => do
      let slots ← fs.readMembers .strict fs.noSlots members
      readStop stop
      (fs.finish slots).map make
    | .array items stop => do
      let short index := ReadError.mismatch (.invalidLength index expected fs.count)
      let (t, rest) ← fs.readArray short stop 0 items
      if rest.isEmpty then readStop stop else .error (.fault .malformed)
      pure (make t)
    | d => d.mismatch expected

/-- Collects the members of an object but for those in `own`: they have to be values nested no
deeper than `room` allows. -/
def collectMembers (own : List String) (room : Nat) :
    List (Option String × Draft) → Except ReadError Unit
  | [] => .ok ()
  | (none, _) :: _ => .error (.fault .malformed)
  | (some name, d) :: rest =>
    if own.contains name || (d.toJson? room).isSome then collectMembers own room rest
    else .error (.fault .malformed)

/-- A record with another one inside, whose fields stand among its own.  It is read strictly, from
objects only, and all members but its `own` are collected first. -/
def nested (expected : String) (own : List String) (room : Nat) (fs : Fields τ) (fields : σ → τ)
    (make : τ → σ) : Codec σ where
  write s := .obj (fs.members (fields s))
  read
    | .object members stop => do
      collectMembers own room members
      let slots ← fs.readMembers .strict fs.noSlots members
      readStop stop
      (fs.finish slots).map make
    | d => d.mismatch expected

/-- A record read leniently. -/
def lenient (expected : String) (fs : Fields τ) (fields : σ → τ) (make : τ → σ) : Codec σ where
  write s := .obj (fs.members (fields s))
  read
    | .object members stop => do
      let slots ← fs.readMembers .lenient fs.noSlots members
      readStop stop
      (fs.finish slots).map make
    | d => d.mismatch expected

end Codec

end ModelKeeper
