/-!
# Binary floating-point numbers

A finite number of the 64-bit format is `mantissa * 2 ^ exponent` with a mantissa below `2 ^ 53` and
an exponent of at least `-1074`; the mantissa is at least `2 ^ 52` unless the exponent is least.
Everything is exact arithmetic on natural numbers.

`ofDecimal` rounds a decimal to the nearest number of the format, and a decimal halfway between two
of them to the one with the even mantissa.
-/

namespace EditorToolbar

/-- A number of the 64-bit format. -/
inductive Binary64 where
  | finite (negative : Bool) (mantissa : Nat) (exponent : Int)
  | infinite (negative : Bool)
  | notANumber
  deriving DecidableEq, Repr

namespace Binary64

def leastExponent : Int := -1074

def greatestExponent : Int := 971

/-- The quotient rounded to the nearest natural number, halves to the even one. -/
def roundHalfEven (num den : Nat) : Nat :=
  let q := num / den
  let r := 2 * (num % den)
  if r < den then q else if den < r then q + 1 else if q % 2 = 0 then q else q + 1

/-- `num / den` divided by `2 ^ exponent`, as a fraction. -/
def scale (num den : Nat) (exponent : Int) : Nat × Nat :=
  if exponent < 0 then (num * Nat.pow 2 exponent.natAbs, den)
  else (num, den * Nat.pow 2 exponent.natAbs)

/-- The exponent at which a positive fraction has a mantissa of 53 bits, or the least one. The
logarithms of numerator and denominator determine it up to one. -/
def exponentFor (num den : Nat) : Int :=
  let guess : Int := (Nat.log2 num : Int) - (Nat.log2 den : Int) - 52
  let (n, d) := scale num den guess
  let exact := if n < d * Nat.pow 2 52 then guess - 1 else guess
  if exact < leastExponent then leastExponent else exact

/-- A positive fraction rounded to the format. -/
def ofFraction (negative : Bool) (num den : Nat) : Binary64 :=
  let exponent := exponentFor num den
  let (n, d) := scale num den exponent
  let mantissa := roundHalfEven n d
  let (mantissa, exponent) :=
    if mantissa = Nat.pow 2 53 then (Nat.pow 2 52, exponent + 1) else (mantissa, exponent)
  if greatestExponent < exponent then infinite negative else finite negative mantissa exponent

/-- The decimal `coefficient * 10 ^ exponent` rounded to the format. Decimals far outside the range
of the format are decided by their magnitude alone. -/
def ofDecimal (negative : Bool) (coefficient : Nat) (exponent : Int) : Binary64 :=
  let magnitude : Int := (Nat.toDigits 10 coefficient).length + exponent
  if coefficient = 0 ∨ magnitude < -400 then finite negative 0 leastExponent
  else if 400 < magnitude then infinite negative
  else if exponent < 0 then ofFraction negative coefficient (Nat.pow 10 exponent.natAbs)
  else ofFraction negative (coefficient * Nat.pow 10 exponent.natAbs) 1

def isFinite : Binary64 → Bool
  | finite _ _ _ => true
  | _ => false

/-- The nearest natural number up to `bound`, halves away from zero. Negative numbers count as
zero, and so does what is not a number. -/
def clampToNat (bound : Nat) : Binary64 → Nat
  | notANumber => 0
  | infinite negative => if negative then 0 else bound
  | finite true _ _ => 0
  | finite false mantissa exponent =>
    let (n, d) := scale mantissa 1 (-exponent)
    min bound ((2 * n + d) / (2 * d))

end Binary64

end EditorToolbar
