import Fabula.Number.Rounding

namespace Fabula

open Number

/-!
# Single-precision numbers

A number is kept as its thirty-two bits: a sign, eight bits of exponent and
twenty-three bits of fraction.  Arithmetic is exact on the number's value and
then rounded once, so every operation is a total function on natural numbers.
Values that are not numbers compare as unequal to everything.
-/

/-- A single-precision number by its bits. -/
structure Single where
  bits : UInt32
  deriving Repr, DecidableEq

namespace Single

/-- What the bits of a number stand for. -/
inductive View where
  /-- Not a number. -/
  | notANumber
  | infinite (negative : Bool)
  | finite (negative : Bool) (magnitude : Scaled)
  deriving Repr, DecidableEq

/-- Read the three parts of a number. -/
def view (x : Single) : View :=
  let bits := x.bits.toNat
  let negative := decide (0x80000000 ≤ bits)
  let exponent : Nat := bits / 0x800000 % 256
  let fraction : Nat := bits % 0x800000
  if exponent = 255 then
    if fraction = 0 then .infinite negative else .notANumber
  else if exponent = 0 then
    .finite negative ⟨fraction, -149⟩
  else
    .finite negative ⟨0x800000 + fraction, (exponent : Int) - 150⟩

def signBit (negative : Bool) : Nat :=
  if negative then 0x80000000 else 0

/-- The value that is not a number. -/
def nan : Single :=
  ⟨0x7fc00000⟩

def infinity (negative : Bool) : Single :=
  ⟨UInt32.ofNat (signBit negative + 255 * 0x800000)⟩

def zero (negative : Bool) : Single :=
  ⟨UInt32.ofNat (signBit negative)⟩

/-- The bits of a number within the precision. -/
def ofScaled (negative : Bool) (x : Scaled) : Single :=
  if x.mantissa < 0x800000 then
    ⟨UInt32.ofNat (signBit negative + x.mantissa)⟩
  else
    ⟨UInt32.ofNat
      (signBit negative + (x.exponent + 150).toNat * 0x800000 + (x.mantissa - 0x800000))⟩

/-- The number nearest to a quotient, infinite when it is out of range. -/
def ofQuotient (negative : Bool) (numerator denominator : Nat) : Single :=
  match singlePrecision.round numerator denominator with
  | some x => ofScaled negative x
  | none => infinity negative

/-- The number nearest to an integer. -/
def ofInt (i : Int) : Single :=
  ofQuotient (decide (i < 0)) i.natAbs 1

/-- A value that is not a number. -/
def isNaN (x : Single) : Bool :=
  x.view == .notANumber

def neg (x : Single) : Single :=
  ⟨x.bits ^^^ 0x80000000⟩

/-- The signed whole number of units of two to the given power. -/
def units (negative : Bool) (x : Scaled) (power : Int) : Int :=
  let amount : Int := (x.mantissa * Nat.pow 2 (x.exponent - power).toNat : Nat)
  if negative then -amount else amount

/-- The number nearest to a signed whole number of units of two to the given power. -/
def ofUnits (negativeZero : Bool) (amount power : Int) : Single :=
  if amount = 0 then
    zero negativeZero
  else
    let quotient := Scaled.quotient ⟨amount.natAbs, power⟩
    ofQuotient (decide (amount < 0)) quotient.1 quotient.2

def add (x y : Single) : Single :=
  match x.view, y.view with
  | .notANumber, _ => nan
  | _, .notANumber => nan
  | .infinite s, .infinite t => if s = t then infinity s else nan
  | .infinite s, _ => infinity s
  | _, .infinite t => infinity t
  | .finite s a, .finite t b =>
      let power := min a.exponent b.exponent
      ofUnits (s && t) (units s a power + units t b power) power

def sub (x y : Single) : Single :=
  x.add y.neg

def mul (x y : Single) : Single :=
  match x.view, y.view with
  | .notANumber, _ => nan
  | _, .notANumber => nan
  | .infinite s, .infinite t => infinity (s != t)
  | .infinite s, .finite t b => if b.mantissa = 0 then nan else infinity (s != t)
  | .finite s a, .infinite t => if a.mantissa = 0 then nan else infinity (s != t)
  | .finite s a, .finite t b =>
      let quotient :=
        Scaled.quotient ⟨a.mantissa * b.mantissa, a.exponent + b.exponent⟩
      ofQuotient (s != t) quotient.1 quotient.2

def div (x y : Single) : Single :=
  match x.view, y.view with
  | .notANumber, _ => nan
  | _, .notANumber => nan
  | .infinite _, .infinite _ => nan
  | .infinite s, .finite t _ => infinity (s != t)
  | .finite s _, .infinite t => zero (s != t)
  | .finite s a, .finite t b =>
      if b.mantissa = 0 then
        if a.mantissa = 0 then nan else infinity (s != t)
      else
        let quotient := scaleDown a.mantissa b.mantissa (b.exponent - a.exponent)
        ofQuotient (s != t) quotient.1 quotient.2

/-- The remainder of the truncated quotient, with the sign of the dividend. -/
def rem (x y : Single) : Single :=
  match x.view, y.view with
  | .notANumber, _ => nan
  | _, .notANumber => nan
  | .infinite _, _ => nan
  | .finite .., .infinite _ => x
  | .finite s a, .finite _ b =>
      if b.mantissa = 0 then
        nan
      else
        let power := min a.exponent b.exponent
        let amount := (units false a power).natAbs % (units false b power).natAbs
        ofUnits s (if s then -(amount : Int) else (amount : Int)) power

/-- The whole part of a finite number, toward zero. -/
def truncate (negative : Bool) (x : Scaled) : Int :=
  let quotient := x.quotient
  let whole : Int := (quotient.1 / quotient.2 : Nat)
  if negative then -whole else whole

/-- Whether a finite number is a whole number. -/
def isWhole (x : Scaled) : Bool :=
  let quotient := x.quotient
  quotient.1 % quotient.2 == 0

/-- The greatest whole number that is not above. -/
def floor (x : Single) : Single :=
  match x.view with
  | .finite s a =>
      if isWhole a then x
      else if s then ofInt (truncate s a - 1)
      else ofInt (truncate s a)
  | _ => x

/-- The least whole number that is not below. -/
def ceiling (x : Single) : Single :=
  match x.view with
  | .finite s a =>
      if isWhole a then x
      else if s then ofUnits true (truncate s a) 0
      else ofInt (truncate s a + 1)
  | _ => x

/-- The whole part brought into a range; what is not a number counts as zero. -/
def toIntWithin (least greatest : Int) (x : Single) : Int :=
  match x.view with
  | .notANumber => 0
  | .infinite s => if s then least else greatest
  | .finite s a => max least (min greatest (truncate s a))

/-- The whole part as a 32-bit integer, out of range at the nearest bound. -/
def toInt32 (x : Single) : Int32 :=
  Int32.ofInt (x.toIntWithin (-2147483648) 2147483647)

/-- The order of two numbers, or nothing when one of them is not a number. -/
def compare? (x y : Single) : Option Ordering :=
  match x.view, y.view with
  | .notANumber, _ => none
  | _, .notANumber => none
  | .infinite s, .infinite t =>
      some (if s = t then .eq else if s then .lt else .gt)
  | .infinite s, .finite .. => some (if s then .lt else .gt)
  | .finite .., .infinite t => some (if t then .gt else .lt)
  | .finite s a, .finite t b =>
      let power := min a.exponent b.exponent
      some (compare (units s a power) (units t b power))

/-- Numbers with the same value; nothing equals what is not a number. -/
def equal (x y : Single) : Bool :=
  x.compare? y == some .eq

/-- A number with the value zero. -/
def isZero (x : Single) : Bool :=
  x.equal (zero false)

end Single

end Fabula
