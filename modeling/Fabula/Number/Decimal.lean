import Fabula.Number.Single

namespace Fabula

/-!
# Decimal text of numbers

A finite number is written with the fewest decimal digits that read back as the
same number, and with the nearest such digits; a `Tie` says which of two equally
near ones is taken.  Where the digits go is decided by a layout: which exponents
are written positionally and how an exponent is marked.
-/

/-- Decimal digits, the first of them standing for `10 ^ exponent`. -/
structure Decimal where
  digits : List Char
  exponent : Int
  deriving Repr, DecidableEq

namespace Decimal

/-- The interval of values that round to a number, in quarters of its last unit. -/
structure Interval where
  low : Nat
  high : Nat
  closed : Bool
  deriving Repr, DecidableEq

/-- The interval of values that round to the given finite number. -/
def interval (x : Number.Scaled) : Interval where
  low :=
    if x.mantissa = 0x800000 ∧ -149 < x.exponent then 4 * x.mantissa - 1 else 4 * x.mantissa - 2
  high := 4 * x.mantissa + 2
  closed := x.mantissa % 2 == 0

/-- Scale a quotient by a power of ten. -/
def timesTen (power : Int) (quotient : Nat × Nat) : Nat × Nat :=
  if 0 ≤ power then
    (quotient.1 * Nat.pow 10 power.toNat, quotient.2)
  else
    (quotient.1, quotient.2 * Nat.pow 10 (-power).toNat)

/-- The greatest power of ten that is at most a positive quotient, from a guess above it. -/
def floorLogTen (quotient : Nat × Nat) : Nat → Int → Int
  | 0, guess => guess
  | fuel + 1, guess =>
      let scaled := timesTen (-guess) quotient
      if scaled.2 ≤ scaled.1 then guess else floorLogTen quotient fuel (guess - 1)

/-- Whether a multiple of a power of ten lies in the interval around a number. -/
def Interval.holds (bounds : Interval) (exponent : Int) (amount : Nat) (ten : Int) : Bool :=
  let unit := Number.scaleDown 1 1 (-(exponent - 2))
  let scaled := timesTen ten (amount, 1)
  let value := scaled.1 * unit.2
  let low := bounds.low * unit.1 * scaled.2
  let high := bounds.high * unit.1 * scaled.2
  if bounds.closed then low ≤ value && value ≤ high else low < value && value < high

/-- Which of two equally near multiples of a power of ten is taken. -/
inductive Tie where
  /-- The greater one. -/
  | away
  /-- The even one. -/
  | even
  deriving Repr, DecidableEq

/-- Whether a number half way above `below` goes to the next one. -/
def Tie.goesUp : Tie → Nat → Bool
  | .away, _ => true
  | .even, below => below % 2 == 1

/--
The multiple of a power of ten that stands for a number: of the two neighbours
of the number the one inside the interval, the nearer one when both are, and the
one the tie says when both are equally near.
-/
def nearest? (tie : Tie) (x : Number.Scaled) (ten : Int) : Option Nat :=
  let bounds := interval x
  let scaled := timesTen (-ten) x.quotient
  let below := scaled.1 / scaled.2
  let lower := bounds.holds x.exponent below ten
  let upper := bounds.holds x.exponent (below + 1) ten
  if lower && upper then
    let twice := 2 * (scaled.1 % scaled.2)
    let up := scaled.2 < twice || (twice == scaled.2 && tie.goesUp below)
    some (if up then below + 1 else below)
  else if lower then
    some below
  else if upper then
    some (below + 1)
  else
    none

/-- The decimal digits of a natural number. -/
def digitsOf (amount : Nat) : List Char :=
  Nat.toDigits 10 amount

/-- Digits without the zeros at the end. -/
def dropZeros (digits : List Char) : List Char :=
  (digits.reverse.dropWhile (· == '0')).reverse

/-- The digits found for the first power of ten that gives any, starting from `ten`. -/
def search (tie : Tie) (x : Number.Scaled) : Nat → Int → Decimal
  | 0, ten =>
      let scaled := timesTen (-ten) x.quotient
      let digits := digitsOf (scaled.1 / scaled.2)
      ⟨digits, ten + (digits.length : Int) - 1⟩
  | fuel + 1, ten =>
      match nearest? tie x ten with
      | some amount =>
          let digits := digitsOf amount
          ⟨dropZeros digits, ten + (digits.length : Int) - 1⟩
      | none => search tie x fuel (ten - 1)

/-- The shortest decimal of a positive finite number. -/
def shortest (tie : Tie) (x : Number.Scaled) : Decimal :=
  let magnitude := floorLogTen x.quotient 90 40
  search tie x 16 magnitude

/-- Where the digits of a number go. -/
structure Layout where
  /-- The least and the greatest exponent that is written positionally. -/
  positional? : Option (Int × Int)
  /-- Whole numbers written positionally keep one zero after the point. -/
  pointZero : Bool
  /-- Exponents that are not negative are marked with a plus sign. -/
  plusSign : Bool
  deriving Repr, DecidableEq

/-- Whether a decimal is written without an exponent. -/
def Layout.isPositional (layout : Layout) (exponent : Int) : Bool :=
  match layout.positional? with
  | none => true
  | some (least, greatest) => least ≤ exponent && exponent ≤ greatest

def positional (pointZero : Bool) (x : Decimal) : List Char :=
  if x.exponent < 0 then
    ['0', '.'] ++ List.replicate (-x.exponent - 1).toNat '0' ++ x.digits
  else
    let whole := x.exponent.toNat + 1
    if x.digits.length ≤ whole then
      x.digits ++ List.replicate (whole - x.digits.length) '0' ++
        (if pointZero then ['.', '0'] else [])
    else
      x.digits.take whole ++ ['.'] ++ x.digits.drop whole

def exponential (plusSign : Bool) (x : Decimal) : List Char :=
  let mantissa :=
    match x.digits with
    | first :: second :: rest => first :: '.' :: second :: rest
    | digits => digits
  let sign :=
    if x.exponent < 0 then ['-'] else if plusSign then ['+'] else []
  mantissa ++ ['e'] ++ sign ++ digitsOf x.exponent.natAbs

def write (layout : Layout) (x : Decimal) : List Char :=
  if layout.isPositional x.exponent then
    positional layout.pointZero x
  else
    exponential layout.plusSign x

end Decimal

namespace Single

/--
A number in the given layout, of two equally near decimals the one further from
zero; `inf` and `NaN` stand for the others.
-/
def write (layout : Decimal.Layout) (x : Single) : String :=
  match x.view with
  | .notANumber => "NaN"
  | .infinite s => if s then "-inf" else "inf"
  | .finite s a =>
      let sign := if s then ['-'] else []
      let digits :=
        if a.mantissa = 0 then ⟨['0'], 0⟩ else Decimal.shortest .away a
      String.ofList (sign ++ digits.write layout)

/-- Digits around the point, however many there are. -/
def plainLayout : Decimal.Layout :=
  ⟨none, false, false⟩

/-- Positional from `0.0001` up to below `10 ^ 16`, whole numbers with one zero. -/
def inspectLayout : Decimal.Layout :=
  ⟨some (-4, 15), true, false⟩

/--
The text of a number as a reader of a story sees it: a whole number as an
integer, held within 64 bits, and any other without an exponent.
-/
def text (x : Single) : String :=
  match x.view with
  | .finite _ a =>
      if isWhole a then
        toString (x.toIntWithin (-9223372036854775808) 9223372036854775807)
      else
        x.write plainLayout
  | _ => x.write plainLayout

/-- The text of a number in a description of a value. -/
def inspect (x : Single) : String :=
  x.write inspectLayout

end Single

end Fabula
