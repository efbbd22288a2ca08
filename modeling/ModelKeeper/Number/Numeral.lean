import ModelKeeper.Number.Binary

/-!
# Numerals and the numbers they stand for

A `Numeral` is a number as written: a sign, digits, perhaps a fraction and an exponent.
`Numeral.value?` gives its value.  An integer of at most 64 bits is kept exactly; any other numeral
stands for a 64-bit datum, and a numeral beyond the largest finite one has no value.

The value of a numeral with a fraction or an exponent is found in two roundings: the significant
digits, as many as fit 64 bits, are rounded to a datum, and that datum is multiplied or divided by
the datum nearest to a power of ten.  With at most fifteen digits and a power up to `10 ^ 22` both
steps but the last are exact, so the result is the nearest datum.
-/

namespace ModelKeeper

/-- A number: an integer of at most 64 bits, signed or unsigned, or a finite datum. -/
inductive Number where
  | int (n : Int)
  | double (x : Double)
  | single (x : Single)
  deriving DecidableEq, Repr

/-- The 64-bit datum of a number that is not kept as an integer. -/
def Number.datum? : Number → Option Double
  | .int _ => none
  | .double x => some x
  | .single x => some x.toDouble

/-- Whether two numbers are equal.  An integer and a datum are never equal; the two zeros are. -/
def Number.same : Number → Number → Bool
  | .int a, .int b => a = b
  | a, b =>
    match a.datum?, b.datum? with
    | some x, some y => x.sameNumber y
    | _, _ => false

/-- A number as written. -/
structure Numeral where
  negative : Bool
  /-- The digits before the point. -/
  whole : List Nat
  /-- The digits after the point; none if there is no point. -/
  fraction : List Nat
  /-- The exponent: whether it is negative, and its digits. -/
  exponent : Option (Bool × List Nat)
  deriving DecidableEq, Repr

namespace Numeral

/-- The largest unsigned integer of 64 bits. -/
def maxWord : Nat := 0xFFFFFFFFFFFFFFFF

/-- The digits of `ds` that still fit 64 bits after `s`, as one number, and how many do not. -/
def takeWhole (s : Nat) : List Nat → Nat × Nat
  | [] => (s, 0)
  | d :: ds => if s * 10 + d ≤ maxWord then takeWhole (s * 10 + d) ds else (s, ds.length + 1)

/-- The digits of `ds` that still fit 64 bits after `s`, as one number, and how many those are. -/
def takeFraction (s : Nat) : List Nat → Nat × Nat
  | [] => (s, 0)
  | d :: ds =>
    if s * 10 + d ≤ maxWord then
      let (s, n) := takeFraction (s * 10 + d) ds
      (s, n + 1)
    else (s, 0)

/-- A datum times a datum, or over one. -/
def combine (inverse : Bool) (x y : Datum) : Datum :=
  match x, y with
  | .finite _ m e, .finite _ m' e' =>
    let (a, b) := Datum.ratio m e
    let (c, d) := Datum.ratio m' e'
    if inverse then BinaryFormat.double.round false (a * d) (b * c)
    else BinaryFormat.double.round false (a * c) (b * d)
  | _, _ => x

/-- The datum nearest to `10 ^ n`. -/
def tenPower (n : Nat) : Datum := BinaryFormat.double.round false (tenTo n) 1

/-- `significand · 10 ^ exponent`, rounded as the module says; `none` beyond the largest datum. -/
def scale? (significand : Nat) (exponent : Int) : Option Datum :=
  let x := BinaryFormat.double.round false significand 1
  if significand = 0 then some x
  else if 308 < exponent then none
  else if 0 ≤ exponent then
    match combine false x (tenPower exponent.toNat) with
    | .infinite _ => none
    | y => some y
  else if -308 ≤ exponent then some (combine true x (tenPower (-exponent).toNat))
  else if -616 ≤ exponent then
    some (combine true (combine true x (tenPower 308)) (tenPower (-exponent - 308).toNat))
  else some (.finite false 0 BinaryFormat.double.minExponent)

/-- The digits of an exponent as a number, cut off above the exponents that matter. -/
def exponentValue (digits : List Nat) : Nat :=
  digits.foldl (fun n d => if n * 10 + d ≤ 2147483647 then n * 10 + d else 2147483647) 0

/-- A datum with the sign of the numeral. -/
def signed (n : Numeral) (x : Datum) : Number :=
  match x with
  | .finite _ m e => .double (Double.ofDatum (.finite n.negative m e))
  | other => .double (Double.ofDatum other)

/-- The number that a numeral stands for, unless it lies beyond the largest datum. -/
def value? (n : Numeral) : Option Number :=
  let (s, dropped) := takeWhole 0 n.whole
  if n.fraction.isEmpty && n.exponent.isNone && dropped = 0 then
    if !n.negative then some (.int s)
    else if 0 < s ∧ s ≤ 0x8000000000000000 then some (.int (-(s : Int)))
    else (scale? s 0).map n.signed
  else
    let (s, places) := takeFraction s n.fraction
    let shift : Int := dropped - places
    match n.exponent with
    | none => (scale? s shift).map n.signed
    | some (negative, digits) =>
      let e : Int := exponentValue digits
      (scale? s (if negative then shift - e else shift + e)).map n.signed

end Numeral

end ModelKeeper
