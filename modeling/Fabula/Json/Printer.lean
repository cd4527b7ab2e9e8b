import Fabula.Json.Node
import Fabula.Text.Quoted

namespace Fabula.Json

/-!
# Writing JSON

Documents are written without blanks.  In a text the quote, the backslash and the
control characters are escaped and nothing else is.
-/

/-- The way a character stands in a text. -/
def escapeChar (c : Char) : List Char :=
  if c = '"' then ['\\', '"']
  else if c = '\\' then ['\\', '\\']
  else if c = '\n' then ['\\', 'n']
  else if c = '\r' then ['\\', 'r']
  else if c = '\t' then ['\\', 't']
  else if c = '\x08' then ['\\', 'b']
  else if c = '\x0c' then ['\\', 'f']
  else if c.toNat < 16 then ['\\', 'u', '0', '0', '0'] ++ Text.hex c.toNat
  else if c.toNat < 32 then ['\\', 'u', '0', '0'] ++ Text.hex c.toNat
  else [c]

def writeText (s : String) : List Char :=
  '"' :: s.toList.flatMap escapeChar ++ ['"']

/-- The digits of a numeral with their signs. -/
def Numeral.write (n : Numeral) : List Char :=
  (if n.negative then ['-'] else []) ++ n.whole ++
    (if n.fraction = [] then [] else '.' :: n.fraction) ++
    match n.exponent with
    | none => []
    | some (negative, digits) => 'e' :: (if negative then '-' else '+') :: digits

mutual

def Node.write : Node → List Char
  | .null => ['n', 'u', 'l', 'l']
  | .bool true => ['t', 'r', 'u', 'e']
  | .bool false => ['f', 'a', 'l', 's', 'e']
  | .number n => n.write
  | .text content => writeText (content.getD "")
  | .array items => '[' :: writeItems items
  | .object fields => '\x7b' :: writeFields fields

/-- The items of an array and its end. -/
def writeItems : List Node → List Char
  | [] => [']']
  | [item] => item.write ++ [']']
  | item :: rest => item.write ++ ',' :: writeItems rest

/-- The fields of an object and its end. -/
def writeFields : List (Option String × Node) → List Char
  | [] => ['\x7d']
  | [(key, value)] => writeText (key.getD "") ++ ':' :: value.write ++ ['\x7d']
  | (key, value) :: rest =>
      writeText (key.getD "") ++ ':' :: value.write ++ ',' :: writeFields rest

end

end Fabula.Json
