import ModelKeeper.Number.Binary

/-!
# The shortest decimal that reads back

A binary datum has a whole interval of reals that round to it.  `BinaryFormat.shortest` gives the
decimal in that interval with the fewest digits, and of several with that many digits the one
nearest to the datum (`BinaryFormat.shortest.go`): it walks through the decimal grids from coarse to
fine and tests the two neighbours of the datum on each of them.

`Decimal.text` lays the digits out.  Where positional notation ends is a `DecimalLayout`.
-/

namespace ModelKeeper

/-- The number `digits · 10 ^ exponent`. -/
structure Decimal where
  digits : Nat
  exponent : Int
  deriving DecidableEq, Repr

namespace BinaryFormat

/-- The number of decimal digits of a natural number; zero has none. -/
def digitCount (n : Nat) : Nat :=
  if n = 0 then 0 else (Nat.toDigits 10 n).length

/-- The exponent of the leading decimal digit of a positive quotient. -/
def leadingExponent (num den : Nat) : Int :=
  if den ≤ num then digitCount (num / den) - 1
  else -(digitCount ((den - 1) / num) : Int)

/-- The reals that round to `significand · 2 ^ exponent`, in units of `2 ^ (exponent - 2)`. -/
structure Interval where
  low : Nat
  mid : Nat
  high : Nat
  /-- The ends round to the datum too, which they do for an even significand. -/
  closed : Bool

/-- The interval of a positive datum: half a unit to each side, but a quarter below a power of
two. -/
def interval (f : BinaryFormat) (significand : Nat) (exponent : Int) : Interval where
  low :=
    if significand = twoTo (f.precision - 1) ∧ f.minExponent < exponent then 4 * significand - 1
    else 4 * significand - 2
  mid := 4 * significand
  high := 4 * significand + 2
  closed := significand % 2 == 0

/-- The neighbour of the datum on the grid of multiples of `10 ^ k`, if one of its two neighbours
lies in the interval; the nearer one if both do.  Everything is scaled to integers by `unit`, the
numerator and denominator of the interval's unit. -/
def gridHit (i : Interval) (unit : Nat × Nat) (k : Int) : Option Nat :=
  let (un, ud) := unit
  let (stepNum, stepDen) : Nat × Nat := if 0 ≤ k then (tenTo k.toNat, 1) else (1, tenTo (-k).toNat)
  let scale (x : Nat) : Nat := x * un * stepDen
  let step := stepNum * ud
  let inside (d : Nat) : Bool :=
    let x := d * step
    if i.closed then decide (scale i.low ≤ x) && decide (x ≤ scale i.high)
    else decide (scale i.low < x) && decide (x < scale i.high)
  let below := scale i.mid / step
  let above := below + 1
  match inside below && below != 0, inside above with
  | false, false => none
  | true, false => some below
  | false, true => some above
  | true, true =>
    let down := scale i.mid - below * step
    let up := above * step - scale i.mid
    if up < down then some above
    else if down < up then some below
    else some (below + below % 2)

/-- The first grid with a hit, among the grid of `10 ^ k` and the `fuel` finer ones. -/
def shortest.go (i : Interval) (unit : Nat × Nat) : Nat → Int → Option Decimal
  | 0, _ => none
  | fuel + 1, k =>
    match gridHit i unit k with
    | some digits => some ⟨digits, k⟩
    | none => shortest.go i unit fuel (k - 1)

/-- The shortest decimal that reads back as a positive datum, the nearest one of that length.
Seventeen digits always suffice for 53 bits. -/
def shortest (f : BinaryFormat) (significand : Nat) (exponent : Int) : Decimal :=
  let unit := Datum.ratio 1 (exponent - 2)
  let (num, den) := Datum.ratio significand exponent
  (shortest.go (f.interval significand exponent) unit 18 (leadingExponent num den)).getD ⟨0, 0⟩

end BinaryFormat

/-- Which exponents of the leading digit are written without an exponent part. -/
structure DecimalLayout where
  least : Int
  greatest : Int

/-- A positive decimal as text.  Positional text has at least one digit on each side of the point;
an exponent part has a sign and follows digits without trailing zeros. -/
def Decimal.text (layout : DecimalLayout) (d : Decimal) : String :=
  let all := Nat.toDigits 10 d.digits
  let significant := (all.reverse.dropWhile (· == '0')).reverse
  let exponent := d.exponent + (all.length - significant.length : Nat)
  let leading := exponent + (significant.length : Int) - 1
  if layout.least ≤ leading ∧ leading ≤ layout.greatest then
    if 0 ≤ exponent then
      String.ofList (significant ++ List.replicate exponent.toNat '0') ++ ".0"
    else if 0 ≤ leading then
      let whole := (leading + 1).toNat
      String.ofList (significant.take whole) ++ "." ++ String.ofList (significant.drop whole)
    else
      "0." ++ String.ofList (List.replicate (-leading - 1).toNat '0' ++ significant)
  else
    let mantissa :=
      match significant with
      | [] => "0"
      | [c] => String.singleton c
      | c :: rest => String.singleton c ++ "." ++ String.ofList rest
    mantissa ++ (if leading < 0 then "e-" else "e+") ++ toString leading.natAbs

/-- A datum as text: the shortest digits that read back, after a sign if it is negative.  What is
no number has no text. -/
def Datum.text? (f : BinaryFormat) (layout : DecimalLayout) : Datum → Option String
  | .finite negative m e =>
    let body := if m = 0 then "0.0" else (f.shortest m e).text layout
    some (if negative then "-" ++ body else body)
  | _ => none

end ModelKeeper
