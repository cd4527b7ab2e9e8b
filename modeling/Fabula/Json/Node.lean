import Fabula.Number.Decimal

namespace Fabula.Json

/-!
# JSON documents

A document is a tree.  A numeral keeps the digits it is written with, because
what it stands for depends on the type that is read from it.  A text may be
malformed, as long as nobody reads it.
-/

/-- A number by its digits. -/
structure Numeral where
  negative : Bool
  whole : List Char
  /-- The digits after the point, none when there is no point. -/
  fraction : List Char
  /-- The sign and the digits of the exponent. -/
  exponent : Option (Bool × List Char)
  deriving Repr, DecidableEq

/-- A JSON value. -/
inductive Node where
  | null
  | bool (b : Bool)
  | number (numeral : Numeral)
  /-- A text, or nothing for a text that is not well formed. -/
  | text (content : Option String)
  | array (items : List Node)
  /-- The fields in order; a key is nothing when it is not well formed. -/
  | object (fields : List (Option String × Node))

namespace Node

def ofString (s : String) : Node :=
  .text (some s)

def ofNat (n : Nat) : Node :=
  .number ⟨false, Nat.toDigits 10 n, [], none⟩

def ofInt (i : Int) : Node :=
  .number ⟨decide (i < 0), Nat.toDigits 10 i.natAbs, [], none⟩

/-- An optional value, `null` when it is missing. -/
def ofOption {α : Type} (encode : α → Node) : Option α → Node
  | none => .null
  | some a => encode a

def ofList {α : Type} (encode : α → Node) (list : List α) : Node :=
  .array (list.map encode)

/-- An object with well-formed keys. -/
def ofFields (fields : List (String × Node)) : Node :=
  .object (fields.map fun field => (some field.1, field.2))

end Node

/--
The digits of a number: positional from `0.000001` up to below `10 ^ 13` with at
least one digit after the point, and with an exponent otherwise.
-/
def Numeral.ofDecimal (negative : Bool) (x : Decimal) : Numeral :=
  if -6 ≤ x.exponent ∧ x.exponent ≤ 12 then
    if x.exponent < 0 then
      ⟨negative, ['0'], List.replicate (-x.exponent - 1).toNat '0' ++ x.digits, none⟩
    else
      let whole := x.exponent.toNat + 1
      if x.digits.length ≤ whole then
        ⟨negative, x.digits ++ List.replicate (whole - x.digits.length) '0', ['0'], none⟩
      else
        ⟨negative, x.digits.take whole, x.digits.drop whole, none⟩
  else
    ⟨negative, x.digits.take 1, x.digits.drop 1,
      some (decide (x.exponent < 0), Nat.toDigits 10 x.exponent.natAbs)⟩

/--
A single-precision number, of two equally near decimals the even one; `null`
when it is infinite or not a number.
-/
def Node.ofSingle (x : Single) : Node :=
  match x.view with
  | .finite s a =>
      .number (.ofDecimal s (if a.mantissa = 0 then ⟨['0'], 0⟩ else Decimal.shortest .even a))
  | _ => .null

end Fabula.Json
