import Fabula.Json.Node

namespace Fabula.Json

/-!
# What a numeral stands for

Without a point and an exponent, a numeral in the range of 64-bit words is an
integer, except for a negative zero.  Any other numeral is a double-precision
number: its leading digits, as many as fit into a 64-bit word, are multiplied or
divided by a power of ten, and each of these steps is rounded.
-/

namespace Numeral

def digitValue (c : Char) : Nat :=
  c.toNat - 48

def greatestWord : Nat :=
  0xffffffffffffffff

/-- The greatest exponent that is kept apart. -/
def greatestExponent : Nat :=
  0x7fffffff

/-- The number that digits stand for. -/
def natOf (digits : List Char) : Nat :=
  digits.foldl (fun n c => n * 10 + digitValue c) 0

def toInt? (n : Numeral) : Option Int :=
  if n.fraction = [] ∧ n.exponent = none then
    let amount := natOf n.whole
    if n.negative then
      if 0 < amount ∧ amount ≤ 0x8000000000000000 then some (-(amount : Int)) else none
    else
      if amount ≤ greatestWord then some (amount : Int) else none
  else
    none

/-- The leading digits that fit into a word, and the number of digits after them. -/
def leading (word : Nat) : List Char → Nat × Nat
  | [] => (word, 0)
  | c :: rest =>
      let next := word * 10 + digitValue c
      if greatestWord < next then (word, rest.length + 1) else leading next rest

/-- Further digits that fit into a word, and how many there are. -/
def extend (word count : Nat) : List Char → Nat × Nat
  | [] => (word, count)
  | c :: rest =>
      let next := word * 10 + digitValue c
      if greatestWord < next then (word, count) else extend next (count + 1) rest

def roundDouble (quotient : Nat × Nat) : Option Number.Scaled :=
  Number.doublePrecision.round quotient.1 quotient.2

/-- The nearest double-precision number to a power of ten. -/
def powerOfTen (power : Nat) : Nat × Nat :=
  match roundDouble (Nat.pow 10 power, 1) with
  | some x => x.quotient
  | none => (1, 1)

/-- A number times a power of ten, rounded; nothing when it is too great. -/
def timesPower (x : Number.Scaled) (power : Nat) : Option Number.Scaled :=
  let quotient := x.quotient
  let factor := powerOfTen power
  roundDouble (quotient.1 * factor.1, quotient.2 * factor.2)

/-- A number divided by a power of ten, rounded. -/
def overPower (x : Number.Scaled) (power : Nat) : Option Number.Scaled :=
  let quotient := x.quotient
  let factor := powerOfTen power
  roundDouble (quotient.1 * factor.2, quotient.2 * factor.1)

/-- A number scaled by a power of ten, in steps of at most `10 ^ 308`. -/
def scale : Nat → Number.Scaled → Int → Option Number.Scaled
  | 0, x, _ => some x
  | fuel + 1, x, power =>
      if power.natAbs ≤ 308 then
        if 0 ≤ power then timesPower x power.natAbs else overPower x power.natAbs
      else if x.mantissa = 0 then
        some x
      else if 0 ≤ power then
        none
      else do
        let smaller ← overPower x 308
        scale fuel smaller (power + 308)

/-- The exponent of a numeral, or nothing when it is out of range. -/
def exponentValue? (digits : List Char) : Option Nat :=
  let value := natOf digits
  if value ≤ greatestExponent then some value else none

/-- An exponent held within the range of 32-bit integers. -/
def clampExponent (power : Int) : Int :=
  max (-2147483648) (min 2147483647 power)

/-- The double-precision magnitude of a numeral; nothing when it is too great. -/
def magnitude? (n : Numeral) : Option Number.Scaled := do
  let whole := leading 0 n.whole
  let digits := extend whole.1 0 n.fraction
  let power : Int := (whole.2 : Int) - (digits.2 : Int)
  let start ← roundDouble (digits.1, 1)
  match n.exponent with
  | none => scale 4 start power
  | some (negative, exponent) =>
      match exponentValue? exponent with
      | none => if digits.1 ≠ 0 ∧ ¬negative then none else some ⟨0, 0⟩
      | some value =>
          scale 4 start
            (clampExponent (if negative then power - (value : Int) else power + (value : Int)))

/-- The single-precision number of a numeral; infinite when only that is too great. -/
def toSingle? (n : Numeral) : Option Single :=
  match n.toInt? with
  | some i => some (Single.ofInt i)
  | none =>
      n.magnitude?.map fun x =>
        let quotient := x.quotient
        Single.ofQuotient n.negative quotient.1 quotient.2

end Numeral

end Fabula.Json
