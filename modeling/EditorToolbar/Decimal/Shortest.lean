import EditorToolbar.Decimal.Binary64
import EditorToolbar.Text.Basic

/-!
# The shortest decimal of a number

A finite number of the 64-bit format is written with the fewest digits that read back as the same
number; of two candidates with the fewest digits the nearer one is taken, and the greater one if
both are equally near. The notation is positional throughout, without an exponent and without a
fraction that is zero.

The decimals that read back form an interval around the number. For each count of digits, from one
on, only the two neighbours of the number on the grid of decimals with so many digits have to be
tried: if any decimal of the grid is in the interval, one of them is.
-/

namespace EditorToolbar.Binary64

/-- A decimal, `coefficient * 10 ^ exponent`. -/
structure Decimal where
  coefficient : Nat
  exponent : Int
  deriving DecidableEq, Repr

/-- A positive number with the interval of what reads back as it, all in units of a fourth of the
last place: a fraction with one denominator for all three. -/
structure Interval where
  low : Nat
  value : Nat
  high : Nat
  denominator : Nat
  closed : Bool

/-- The interval of `mantissa * 2 ^ exponent`. Below a power of two the format is denser. -/
def interval (mantissa : Nat) (exponent : Int) : Interval :=
  let narrow := mantissa = Nat.pow 2 52 ∧ leastExponent < exponent
  let (unit, denominator) := scale 1 1 (2 - exponent)
  { low := (4 * mantissa - if narrow then 1 else 2) * unit
    value := 4 * mantissa * unit
    high := (4 * mantissa + 2) * unit
    denominator
    closed := mantissa % 2 = 0 }

/-- Whether `numerator / denominator` lies in the interval; the denominator is that of the
interval. -/
def Interval.holds (i : Interval) (numerator : Nat) : Bool :=
  if i.closed then i.low ≤ numerator && numerator ≤ i.high
  else i.low < numerator && numerator < i.high

/-- The interval with `10 ^ exponent` as the unit. -/
def Interval.inUnits (i : Interval) (exponent : Int) : Interval :=
  if exponent < 0 then
    let factor := Nat.pow 10 exponent.natAbs
    { i with low := i.low * factor, value := i.value * factor, high := i.high * factor }
  else { i with denominator := i.denominator * Nat.pow 10 exponent.natAbs }

/-- The decimal with the given exponent that reads back and is nearest, if there is one. -/
def Interval.nearest? (i : Interval) (exponent : Int) : Option Decimal :=
  let j := i.inUnits exponent
  let below := j.value / j.denominator
  let above := below + 1
  match j.holds (below * j.denominator), j.holds (above * j.denominator) with
  | true, true =>
    if 2 * (j.value % j.denominator) < j.denominator then some ⟨below, exponent⟩
    else some ⟨above, exponent⟩
  | true, false => some ⟨below, exponent⟩
  | false, true => some ⟨above, exponent⟩
  | false, false => none

/-- The number of digits before the point of a positive fraction: the exponent of the power of ten
just above it, which may be negative. -/
def digitsBeforePoint (num den : Nat) : Int :=
  let guess : Int := (Nat.toDigits 10 num).length - (Nat.toDigits 10 den).length
  let reached :=
    if guess < 0 then den ≤ num * Nat.pow 10 guess.natAbs
    else den * Nat.pow 10 guess.natAbs ≤ num
  if reached then guess + 1 else guess

/-- The first decimal that reads back, on finer and finer grids. -/
def Interval.shortestFrom (i : Interval) : Nat → Int → Decimal
  | 0, exponent => ⟨i.value / i.denominator, exponent⟩
  | tries + 1, exponent =>
    match i.nearest? exponent with
    | some d => d
    | none => i.shortestFrom tries (exponent - 1)

/-- The shortest decimal of a positive number. Seventeen digits are always enough. -/
def shortest (mantissa : Nat) (exponent : Int) : Decimal :=
  let i := interval mantissa exponent
  i.shortestFrom 17 (digitsBeforePoint i.value i.denominator - 1)

/-- Drops the zeros at the end. -/
def dropZeros : Text → Text
  | [] => []
  | c :: r =>
    match dropZeros r with
    | [] => if c = '0' then [] else [c]
    | d :: t => c :: d :: t

/-- A decimal in positional notation. -/
def Decimal.toText (d : Decimal) : Text :=
  let digits := Text.ofNat d.coefficient
  if 0 ≤ d.exponent then digits ++ List.replicate d.exponent.natAbs '0'
  else
    let places := d.exponent.natAbs
    let padded := List.replicate (places + 1 - digits.length) '0' ++ digits
    let whole := padded.take (padded.length - places)
    match dropZeros (padded.drop (padded.length - places)) with
    | [] => whole
    | fraction => whole ++ '.' :: fraction

def toText : Binary64 → Text
  | notANumber => "NaN".toList
  | infinite negative => if negative then "-inf".toList else "inf".toList
  | finite negative mantissa exponent =>
    let absolute := if mantissa = 0 then ['0'] else (shortest mantissa exponent).toText
    if negative then '-' :: absolute else absolute

end EditorToolbar.Binary64
