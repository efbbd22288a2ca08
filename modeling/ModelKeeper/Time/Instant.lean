import ModelKeeper.Text.CodePoint
import ModelKeeper.Time.Calendar

/-!
# Instants and timestamps

An `Instant` is a moment on the clock, which may stand in a leap second.  `Instant.timestamp` writes
it to the whole second, in the form `2023-11-14T22:13:20Z`; `Instant.ofTimestamp?` reads that form
and looser ones: signs and blanks before the numbers, a fraction, and an offset from universal time.

A timestamp says nothing about the fraction of a second.  So what carries a moment in this form has
a `Stamp`, which is a moment without one.
-/

namespace ModelKeeper

/-- A moment: seconds since the beginning of 1970, and nanoseconds since that second.  A thousand
million nanoseconds or more stand for the leap second after it. -/
structure Instant where
  seconds : Int
  nanos : Nat := 0
  deriving DecidableEq, Repr, Inhabited

namespace Instant

/-- The first year that can be written. -/
def firstYear : Int := -262143

/-- The last year that can be written. -/
def lastYear : Int := 262142

/-- A thousand million. -/
def nanosPerSecond : Nat := 1000000000

/-- The days since the beginning of 1970. -/
def days (t : Instant) : Int := t.seconds / 86400

/-- The day on which the moment lies. -/
def date (t : Instant) : Date := Date.ofDays t.days

/-- The second of the day. -/
def secondOfDay (t : Instant) : Nat := (t.seconds % 86400).toNat

/-- Whether the clock can show this moment: its year is in range, and only the last second of a
minute has a leap second after it. -/
def isValid (t : Instant) : Bool :=
  Date.toDays ⟨firstYear, 1, 1⟩ ≤ t.days && t.days ≤ Date.toDays ⟨lastYear, 12, 31⟩ &&
    (t.nanos < nanosPerSecond || (t.nanos < 2 * nanosPerSecond && t.seconds % 60 = 59))

/-- The moment without the fraction of its second. -/
def wholeSecond (t : Instant) : Instant :=
  ⟨t.seconds, if t.nanos < nanosPerSecond then 0 else nanosPerSecond⟩

/-! ### Writing -/

/-- A number with leading zeros, to at least `width` digits. -/
def padded (width n : Nat) : String :=
  let digits := toString n
  String.ofList (List.replicate (width - digits.length) '0') ++ digits

/-- A year: four digits, and a sign if it is negative or does not fit. -/
def yearText (year : Int) : String :=
  if 0 ≤ year ∧ year ≤ 9999 then padded 4 year.natAbs
  else (if year < 0 then "-" else "+") ++ padded 4 year.natAbs

/-- The day in the form `2023-11-14`. -/
def dateText (d : Date) : String :=
  yearText d.year ++ "-" ++ padded 2 d.month ++ "-" ++ padded 2 d.day

/-- The moment to the whole second, without a zone: `2023-11-14T22:13:20`. -/
def secondText (t : Instant) : String :=
  let s := t.secondOfDay
  let second := s % 60 + (if t.nanos < nanosPerSecond then 0 else 1)
  dateText t.date ++ "T" ++ padded 2 (s / 3600) ++ ":" ++ padded 2 (s / 60 % 60) ++ ":" ++
    padded 2 second

/-- The moment to the whole second: `2023-11-14T22:13:20Z`. -/
def timestamp (t : Instant) : String := t.secondText ++ "Z"

/-! ### Reading -/

/-- Drops leading blanks. -/
def dropBlanks (cs : List Char) : List Char := cs.dropWhile isBlank

/-- The value of some decimal digits. -/
def digitsValue (cs : List Char) : Nat :=
  cs.foldl (fun n c => n * 10 + (c.toNat - '0'.toNat)) 0

/-- At least one digit and at most `width`, and what follows. -/
def takeNumber? (width : Nat) (cs : List Char) : Option (Nat × List Char) :=
  let digits := (cs.take width).takeWhile Char.isDigit
  if digits.isEmpty then none else some (digitsValue digits, cs.drop digits.length)

/-- A year after blanks: up to four digits, or a sign and any number of them. -/
def takeYear? (cs : List Char) : Option (Int × List Char) :=
  match dropBlanks cs with
  | '-' :: cs => (takeNumber? cs.length cs).map (fun (n, rest) => (-(n : Int), rest))
  | '+' :: cs => (takeNumber? cs.length cs).map (fun (n, rest) => ((n : Int), rest))
  | cs => (takeNumber? 4 cs).map (fun (n, rest) => ((n : Int), rest))

/-- Up to two digits after blanks. -/
def takePair? (cs : List Char) : Option (Nat × List Char) := takeNumber? 2 (dropBlanks cs)

/-- What follows a character that has to stand here after blanks. -/
def takeMark? (mark : Char) (cs : List Char) : Option (List Char) :=
  match dropBlanks cs with
  | c :: rest => if c = mark then some rest else none
  | [] => none

/-- What follows a fraction, if there is one. -/
def dropFraction? : List Char → Option (List Char)
  | '.' :: c :: rest => if c.isDigit then some (rest.dropWhile Char.isDigit) else none
  | ['.'] => none
  | cs => some cs

/-- What follows the name of universal time, in capital or small letters. -/
def dropUtc? : List Char → Option (List Char)
  | u :: t :: c :: rest =>
    if [u, t, c].map Char.toUpper = ['U', 'T', 'C'] then some rest else none
  | _ => none

/-- An offset from universal time in seconds, and what follows. -/
def takeOffset? (cs : List Char) : Option (Int × List Char) :=
  let hoursAndMinutes (sign : Int) (cs : List Char) : Option (Int × List Char) :=
    match cs with
    | a :: b :: rest =>
      if a.isDigit && b.isDigit then
        match rest.dropWhile (fun c => c == ':' || isBlank c) with
        | c :: d :: rest =>
          if c.isDigit && d.isDigit && c.toNat < '6'.toNat then
            some (sign * (digitsValue [a, b] * 3600 + digitsValue [c, d] * 60), rest)
          else none
        | _ => none
      else none
    | _ => none
  match dropUtc? cs with
  | some rest => some (0, rest)
  | none =>
    match cs with
    | 'Z' :: rest => some (0, rest)
    | 'z' :: rest => some (0, rest)
    | '+' :: rest => hoursAndMinutes 1 rest
    | '-' :: rest => hoursAndMinutes (-1) rest
    | '\u2212' :: rest => hoursAndMinutes (-1) rest
    | _ => none

/-- A date, and what follows. -/
def takeDate? (cs : List Char) : Option (Date × List Char) := do
  let (year, cs) ← takeYear? cs
  let cs ← takeMark? '-' cs
  let (month, cs) ← takePair? cs
  let cs ← takeMark? '-' cs
  let (day, cs) ← takePair? cs
  let d : Date := ⟨year, month, day⟩
  if d.isValid && firstYear ≤ year && year ≤ lastYear then some (d, cs) else none

/-- The hour, minute and second of a day, the last possibly sixty, and what follows. -/
def takeTime? (cs : List Char) : Option ((Nat × Nat × Nat) × List Char) := do
  let (hour, cs) ← takePair? cs
  let cs ← takeMark? ':' cs
  let (minute, cs) ← takePair? cs
  let cs ← takeMark? ':' cs
  let (second, cs) ← takePair? cs
  let cs ← dropFraction? cs
  if hour ≤ 23 ∧ minute ≤ 59 ∧ second ≤ 60 then some ((hour, minute, second), cs) else none

/-- The moment that a timestamp tells, to the whole second. -/
def ofTimestamp? (s : String) : Option Instant := do
  let (date, cs) ← takeDate? s.toList
  let cs ← match cs with
    | 'T' :: rest => some rest
    | 't' :: rest => some rest
    | ' ' :: rest => some rest
    | _ => none
  let ((hour, minute, second), cs) ← takeTime? cs
  let (offset, cs) ← takeOffset? (dropBlanks cs)
  let clock : Int := date.toDays * 86400 + (hour * 3600 + minute * 60 : Nat)
  let t : Instant :=
    if second = 60 then ⟨clock + 59 - offset, nanosPerSecond⟩
    else ⟨clock + second - offset, 0⟩
  if (dropBlanks cs).isEmpty && offset.natAbs < 86400 && t.isValid then some t else none

theorem wholeSecond_wholeSecond (t : Instant) : t.wholeSecond.wholeSecond = t.wholeSecond := by
  unfold wholeSecond
  split <;> rfl

end Instant

/-! ### Stamps -/

/-- A moment at a whole second, possibly a leap second. -/
structure Stamp where
  instant : Instant
  isWhole : instant.wholeSecond = instant
  deriving DecidableEq

/-- So many seconds after the beginning of 1970. -/
def Stamp.ofSeconds (seconds : Int) : Stamp := ⟨⟨seconds, 0⟩, rfl⟩

instance : Inhabited Stamp := ⟨.ofSeconds 0⟩

/-- The second in which a moment lies. -/
def Instant.stamp (t : Instant) : Stamp := ⟨t.wholeSecond, t.wholeSecond_wholeSecond⟩

end ModelKeeper
