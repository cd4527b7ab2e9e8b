import Fabula.Text.Hidden

namespace Fabula.Text

/-!
# Quoted text

A quoted text stands between double quotes.  A quote, a backslash and the usual
control characters have short escapes, and other characters without a picture
are written by their number.
-/

/-- The digits of a number to the base sixteen. -/
def hex (n : Nat) : List Char :=
  Nat.toDigits 16 n

/-- The way a character stands in a quoted text. -/
def quoteChar (c : Char) : List Char :=
  if c = '\x00' then ['\\', '0']
  else if c = '\t' then ['\\', 't']
  else if c = '\r' then ['\\', 'r']
  else if c = '\n' then ['\\', 'n']
  else if c = '\\' then ['\\', '\\']
  else if c = '"' then ['\\', '"']
  else if isHidden c then ['\\', 'u', '\x7b'] ++ hex c.toNat ++ ['\x7d']
  else [c]

def quoted (text : String) : String :=
  String.ofList ('"' :: text.toList.flatMap quoteChar ++ ['"'])

end Fabula.Text
