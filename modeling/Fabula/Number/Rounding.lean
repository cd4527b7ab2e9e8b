namespace Fabula.Number

/-!
# Rounding to binary precision

A binary number of limited precision is `mantissa · 2 ^ exponent` with a bounded
mantissa and a bounded exponent.  A positive quotient of natural numbers is
rounded to the nearest such number, and a value half way between two neighbours
goes to the one with the even mantissa.
-/

/-- The limits of a binary number format. -/
structure Precision where
  /-- The mantissa is less than two to this power. -/
  bits : Nat
  /-- The least exponent. -/
  least : Int
  /-- The greatest exponent. -/
  greatest : Int
  deriving Repr, DecidableEq

/-- A quotient rounded to the nearest natural number, a half to the even one. -/
def roundDiv (numerator denominator : Nat) : Nat :=
  let quotient := numerator / denominator
  let twice := 2 * (numerator % denominator)
  if twice < denominator then
    quotient
  else if denominator < twice then
    quotient + 1
  else
    quotient + quotient % 2

/-- A quotient divided by a power of two. -/
def scaleDown (numerator denominator : Nat) (power : Int) : Nat × Nat :=
  if 0 ≤ power then
    (numerator, denominator * Nat.pow 2 power.toNat)
  else
    (numerator * Nat.pow 2 (-power).toNat, denominator)

/-- The greatest power of two that is at most a positive quotient. -/
def floorLog (numerator denominator : Nat) : Int :=
  let guess : Int := (numerator.log2 : Int) - (denominator.log2 : Int)
  let scaled := scaleDown numerator denominator guess
  if scaled.1 < scaled.2 then guess - 1 else guess

/-- A mantissa and an exponent. -/
structure Scaled where
  mantissa : Nat
  exponent : Int
  deriving Repr, DecidableEq

/-- The value of a scaled number as a quotient of natural numbers. -/
def Scaled.quotient (x : Scaled) : Nat × Nat :=
  scaleDown x.mantissa 1 (-x.exponent)

/--
The nearest number of the given precision, or nothing when it is beyond the
greatest exponent.
-/
def Precision.round
    (precision : Precision)
    (numerator denominator : Nat) :
    Option Scaled :=
  if numerator = 0 then
    some ⟨0, precision.least⟩
  else
    let wanted := floorLog numerator denominator - ((precision.bits : Int) - 1)
    let exponent := max precision.least wanted
    let scaled := scaleDown numerator denominator exponent
    let mantissa := roundDiv scaled.1 scaled.2
    let result : Scaled :=
      if mantissa = Nat.pow 2 precision.bits then
        ⟨Nat.pow 2 (precision.bits - 1), exponent + 1⟩
      else
        ⟨mantissa, exponent⟩
    if precision.greatest < result.exponent then none else some result

def singlePrecision : Precision :=
  ⟨24, -149, 104⟩

def doublePrecision : Precision :=
  ⟨53, -1074, 971⟩

end Fabula.Number
