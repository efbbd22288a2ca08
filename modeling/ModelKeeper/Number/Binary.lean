import ModelKeeper.Number.Power

/-!
# Binary floating point

Floating-point data as the bit patterns of a binary interchange format.  A `BinaryFormat` fixes the
number of significant bits and of exponent bits; `BinaryFormat.decode` reads a bit pattern as a
`Datum`, `BinaryFormat.encode` writes one, and `BinaryFormat.round` takes a quotient of natural
numbers to the nearest datum, a tie to the even significand.  All of it is exact arithmetic on
`Nat`.

`Single` and `Double` are the 32-bit and the 64-bit format; a value of either is its bits, so equal
values are equal bit for bit, and the two zeros differ.
-/

namespace ModelKeeper

/-- A binary interchange format. -/
structure BinaryFormat where
  /-- Significant bits, the leading one included. -/
  precision : Nat
  /-- Bits of the exponent field. -/
  exponentBits : Nat

/-- What a bit pattern stands for. -/
inductive Datum where
  /-- `± significand · 2 ^ exponent` -/
  | finite (negative : Bool) (significand : Nat) (exponent : Int)
  | infinite (negative : Bool)
  | undefined
  deriving DecidableEq, Repr

namespace BinaryFormat

/-- The 32-bit format. -/
def single : BinaryFormat := ⟨24, 8⟩

/-- The 64-bit format. -/
def double : BinaryFormat := ⟨53, 11⟩

/-- The weight of the last significand bit of the smallest values, as a power of two. -/
def minExponent (f : BinaryFormat) : Int :=
  3 - (twoTo (f.exponentBits - 1) : Int) - (f.precision : Int)

/-- The weight of the last significand bit of the largest values, as a power of two. -/
def maxExponent (f : BinaryFormat) : Int :=
  (twoTo (f.exponentBits - 1) : Int) - (f.precision : Int)

/-- The numerator and denominator of `num / den · 2 ^ -e`. -/
def scaled (num den : Nat) (e : Int) : Nat × Nat :=
  if 0 ≤ e then (num, den * twoTo e.toNat) else (num * twoTo (-e).toNat, den)

/-- The natural number nearest to `num / den`, the even one of two. -/
def nearest (num den : Nat) : Nat :=
  let q := num / den
  let twice := 2 * (num % den)
  if twice < den then q
  else if den < twice then q + 1
  else q + q % 2

/-- The datum nearest to `± num / den`, a tie going to the even significand; beyond the largest
finite value it is infinite. -/
def round (f : BinaryFormat) (negative : Bool) (num den : Nat) : Datum :=
  if num = 0 then .finite negative 0 f.minExponent
  else
    let guess := max f.minExponent ((num.log2 : Int) - den.log2 - f.precision)
    let e :=
      let (n, d) := scaled num den guess
      if n / d < twoTo f.precision then guess else guess + 1
    let (n, d) := scaled num den e
    let m := nearest n d
    let (m, e) := if m = twoTo f.precision then (twoTo (f.precision - 1), e + 1) else (m, e)
    if f.maxExponent < e then .infinite negative else .finite negative m e

/-- The bit pattern of a datum. -/
def encode (f : BinaryFormat) (x : Datum) : Nat :=
  let sign (negative : Bool) : Nat :=
    if negative then twoTo (f.precision - 1 + f.exponentBits) else 0
  let hidden := twoTo (f.precision - 1)
  let top := twoTo f.exponentBits - 1
  match x with
  | .finite negative m e =>
    if m < hidden then sign negative + m
    else sign negative + (e - f.minExponent + 1).toNat * hidden + (m - hidden)
  | .infinite negative => sign negative + top * hidden
  | .undefined => top * hidden + hidden / 2

/-- The datum of a bit pattern. -/
def decode (f : BinaryFormat) (bits : Nat) : Datum :=
  let hidden := twoTo (f.precision - 1)
  let fraction := bits % hidden
  let field := bits / hidden % twoTo f.exponentBits
  let negative := bits / (hidden * twoTo f.exponentBits) % 2 == 1
  if field = 0 then .finite negative fraction f.minExponent
  else if field = twoTo f.exponentBits - 1 then
    if fraction = 0 then .infinite negative else .undefined
  else .finite negative (hidden + fraction) (f.minExponent + (field - 1))

end BinaryFormat

/-- The numerator and denominator of `significand · 2 ^ exponent`. -/
def Datum.ratio (significand : Nat) (exponent : Int) : Nat × Nat :=
  if 0 ≤ exponent then (significand * twoTo exponent.toNat, 1)
  else (significand, twoTo (-exponent).toNat)

/-- A datum of the 64-bit format. -/
structure Double where
  bits : UInt64
  deriving DecidableEq, Repr

namespace Double

/-- The datum as sign, significand and exponent. -/
def datum (x : Double) : Datum := BinaryFormat.double.decode x.bits.toNat

def ofDatum (x : Datum) : Double := ⟨(BinaryFormat.double.encode x).toUInt64⟩

/-- The datum nearest to `± num / den`. -/
def ofRatio (negative : Bool) (num den : Nat) : Double :=
  ofDatum (BinaryFormat.double.round negative num den)

/-- Whether the datum is a number. -/
def isFinite (x : Double) : Bool :=
  match x.datum with
  | .finite .. => true
  | _ => false

/-- Whether two data are equal as numbers: the two zeros are, and what is no number equals
nothing. -/
def sameNumber (x y : Double) : Bool :=
  match x.datum, y.datum with
  | .finite _ 0 _, .finite _ 0 _ => true
  | .undefined, _ => false
  | _, _ => x = y

end Double

/-- A datum of the 32-bit format. -/
structure Single where
  bits : UInt32
  deriving DecidableEq, Repr

namespace Single

/-- The datum as sign, significand and exponent. -/
def datum (x : Single) : Datum := BinaryFormat.single.decode x.bits.toNat

def ofDatum (x : Datum) : Single := ⟨(BinaryFormat.single.encode x).toUInt32⟩

/-- The datum nearest to `± num / den`. -/
def ofRatio (negative : Bool) (num den : Nat) : Single :=
  ofDatum (BinaryFormat.single.round negative num den)

/-- The 32-bit datum nearest to a 64-bit one. -/
def ofDouble (x : Double) : Single :=
  match x.datum with
  | .finite negative m e =>
    let (num, den) := Datum.ratio m e
    ofRatio negative num den
  | other => ofDatum other

/-- The 32-bit datum nearest to an integer. -/
def ofInt (n : Int) : Single := ofRatio (n < 0) n.natAbs 1

/-- The same number in the 64-bit format. -/
def toDouble (x : Single) : Double :=
  match x.datum with
  | .finite negative m e =>
    let (num, den) := Datum.ratio m e
    Double.ofRatio negative num den
  | other => Double.ofDatum other

/-- Whether the datum is a number. -/
def isFinite (x : Single) : Bool :=
  match x.datum with
  | .finite .. => true
  | _ => false

end Single

end ModelKeeper
