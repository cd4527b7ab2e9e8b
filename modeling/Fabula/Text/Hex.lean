namespace Fabula.Text

/-!
# Octets in hexadecimal

An octet is written as two digits, the higher one first, with small letters.  Both
cases of letters are read.
-/

/-- The two digits of an octet. -/
def hexDigits (octet : UInt8) : List Char :=
  [Nat.digitChar (octet.toNat / 16), Nat.digitChar (octet.toNat % 16)]

def hexText (octets : List UInt8) : String :=
  String.ofList (octets.flatMap hexDigits)

def hexValue? (c : Char) : Option Nat :=
  if '0' ≤ c ∧ c ≤ '9' then some (c.toNat - 48)
  else if 'a' ≤ c ∧ c ≤ 'f' then some (c.toNat - 87)
  else if 'A' ≤ c ∧ c ≤ 'F' then some (c.toNat - 55)
  else none

/-- The octets of digits that come in pairs. -/
def ofHexDigits? : List Char → Option (List UInt8)
  | [] => some []
  | [_] => none
  | high :: low :: rest => do
      let high ← hexValue? high
      let low ← hexValue? low
      let octets ← ofHexDigits? rest
      pure (UInt8.ofNat (16 * high + low) :: octets)

/-- The octets of a text of digits. -/
def ofHexText? (text : String) : Option (List UInt8) :=
  ofHexDigits? text.toList

end Fabula.Text
