import Fabula.Json.Node
import Fabula.Text.Utf8

namespace Fabula.Json

/-!
# Reading JSON

Octets are read strictly: one document, blanks only between tokens, no leading
zeros, no trailing commas and no control characters in texts.  A text with octets
that are no UTF-8 or with half of a surrogate pair is read as malformed.
-/

/-- The octet of an ASCII character. -/
def octet (c : Char) : UInt8 :=
  c.toUInt8

def isSpace (b : UInt8) : Bool :=
  b == 32 || b == 10 || b == 13 || b == 9

/-- Drop the blanks before a token. -/
def skipSpace (input : List UInt8) : List UInt8 :=
  input.dropWhile isSpace

def isDigit (b : UInt8) : Bool :=
  48 ≤ b && b ≤ 57

/-- The character of an ASCII octet. -/
def charOf (b : UInt8) : Char :=
  Char.ofNat b.toNat

/-- The digits before the rest of the input. -/
def takeDigits (input : List UInt8) : List Char × List UInt8 :=
  ((input.takeWhile isDigit).map charOf, input.dropWhile isDigit)

/-- The value of a digit to the base sixteen. -/
def hexValue? (b : UInt8) : Option Nat :=
  if isDigit b then some (b.toNat - 48)
  else if 97 ≤ b && b ≤ 102 then some (b.toNat - 87)
  else if 65 ≤ b && b ≤ 70 then some (b.toNat - 55)
  else none

/-- The value of four digits to the base sixteen. -/
def hexValues? (a b c d : UInt8) : Option Nat := do
  let a ← hexValue? a
  let b ← hexValue? b
  let c ← hexValue? c
  let d ← hexValue? d
  pure (a * 4096 + b * 256 + c * 16 + d)

/-- What has been read of a text. -/
structure TextState where
  /-- The octets so far, the last first. -/
  octets : List UInt8
  /-- The first half of a surrogate pair that waits for its second half. -/
  pending : Option Nat
  valid : Bool

namespace TextState

def start : TextState :=
  ⟨[], none, true⟩

/-- Add octets; a waiting half of a pair is malformed. -/
def add (state : TextState) (octets : List UInt8) : TextState :=
  ⟨octets.reverse ++ state.octets, none, state.valid && state.pending.isNone⟩

/-- Add a code unit given by its number. -/
def addUnit (state : TextState) (unit : Nat) : TextState :=
  if 0xdc00 ≤ unit ∧ unit ≤ 0xdfff then
    match state.pending with
    | some high =>
        let code := 0x10000 + (high - 0xd800) * 0x400 + (unit - 0xdc00)
        ⟨(String.utf8EncodeChar (Char.ofNat code)).reverse ++ state.octets, none, state.valid⟩
    | none => { state with valid := false }
  else if 0xd800 ≤ unit ∧ unit ≤ 0xdbff then
    { state with pending := some unit, valid := state.valid && state.pending.isNone }
  else
    state.add (String.utf8EncodeChar (Char.ofNat unit))

/-- The text that has been read, if it is well formed. -/
def finish (state : TextState) : Option String :=
  if state.valid && state.pending.isNone then
    (Text.ofOctets state.octets.reverse).toOption
  else
    none

end TextState

/-- The octet that a short escape stands for. -/
def shortEscape? (b : UInt8) : Option UInt8 :=
  if b = octet '"' then some 34
  else if b = octet '\\' then some 92
  else if b = octet '/' then some 47
  else if b = octet 'b' then some 8
  else if b = octet 'f' then some 12
  else if b = octet 'n' then some 10
  else if b = octet 'r' then some 13
  else if b = octet 't' then some 9
  else none

/-- Read a text after its opening quote. -/
def parseText (state : TextState) : List UInt8 → Option (Option String × List UInt8)
  | [] => none
  | 34 :: rest => some (state.finish, rest)
  | 92 :: 117 :: a :: b :: c :: d :: rest =>
      match hexValues? a b c d with
      | some unit => parseText (state.addUnit unit) rest
      | none => none
  | 92 :: escape :: rest =>
      match shortEscape? escape with
      | some b => parseText (state.add [b]) rest
      | none => none
  | b :: rest =>
      if b < 32 || b = 92 then none else parseText (state.add [b]) rest

/-- Read the digits of an exponent after its mark. -/
def parseExponent (input : List UInt8) : Option ((Bool × List Char) × List UInt8) :=
  let signed : Bool × List UInt8 :=
    match input with
    | 43 :: rest => (false, rest)
    | 45 :: rest => (true, rest)
    | other => (false, other)
  let digits := takeDigits signed.2
  if digits.1.isEmpty then none else some ((signed.1, digits.1), digits.2)

/-- Read the part of a numeral after its whole digits. -/
def parseTail (negative : Bool) (whole : List Char) (input : List UInt8) :
    Option (Numeral × List UInt8) := do
  let (fraction, input) ←
    match input with
    | 46 :: rest =>
        let digits := takeDigits rest
        if digits.1.isEmpty then none else some digits
    | other => some ([], other)
  match input with
  | 101 :: rest | 69 :: rest =>
      let exponent ← parseExponent rest
      pure (⟨negative, whole, fraction, some exponent.1⟩, exponent.2)
  | other => pure (⟨negative, whole, fraction, none⟩, other)

def parseNumeral (input : List UInt8) : Option (Numeral × List UInt8) :=
  let signed : Bool × List UInt8 :=
    match input with
    | 45 :: rest => (true, rest)
    | other => (false, other)
  let digits := takeDigits signed.2
  match digits.1 with
  | [] => none
  | '0' :: _ :: _ => none
  | whole => parseTail signed.1 whole digits.2

/-- Drop a word at the head of the input. -/
def dropWord (word : List UInt8) (input : List UInt8) : Option (List UInt8) :=
  if input.take word.length = word then some (input.drop word.length) else none

mutual

/-- Read a value, within a bound on the length of its parts. -/
def parseNode : Nat → List UInt8 → Option (Node × List UInt8)
  | 0, _ => none
  | fuel + 1, input =>
      match skipSpace input with
      | [] => none
      | 110 :: rest => do
          let rest ← dropWord [117, 108, 108] rest
          pure (.null, rest)
      | 116 :: rest => do
          let rest ← dropWord [114, 117, 101] rest
          pure (.bool true, rest)
      | 102 :: rest => do
          let rest ← dropWord [97, 108, 115, 101] rest
          pure (.bool false, rest)
      | 34 :: rest => do
          let (content, rest) ← parseText .start rest
          pure (.text content, rest)
      | 91 :: rest =>
          match skipSpace rest with
          | 93 :: rest => some (.array [], rest)
          | other => do
              let (items, rest) ← parseItems fuel other
              pure (.array items, rest)
      | 123 :: rest =>
          match skipSpace rest with
          | 125 :: rest => some (.object [], rest)
          | other => do
              let (fields, rest) ← parseFields fuel other
              pure (.object fields, rest)
      | other => do
          let (numeral, rest) ← parseNumeral other
          pure (.number numeral, rest)

/-- Read the items of an array up to its end. -/
def parseItems : Nat → List UInt8 → Option (List Node × List UInt8)
  | 0, _ => none
  | fuel + 1, input => do
      let (item, rest) ← parseNode fuel input
      match skipSpace rest with
      | 93 :: rest => pure ([item], rest)
      | 44 :: rest => do
          let (items, rest) ← parseItems fuel rest
          pure (item :: items, rest)
      | _ => none

/-- Read the fields of an object up to its end. -/
def parseFields : Nat → List UInt8 → Option (List (Option String × Node) × List UInt8)
  | 0, _ => none
  | fuel + 1, input =>
      match skipSpace input with
      | 34 :: rest => do
          let (key, rest) ← parseText .start rest
          match skipSpace rest with
          | 58 :: rest => do
              let (value, rest) ← parseNode fuel rest
              match skipSpace rest with
              | 125 :: rest => pure ([(key, value)], rest)
              | 44 :: rest => do
                  let (fields, rest) ← parseFields fuel rest
                  pure ((key, value) :: fields, rest)
              | _ => none
          | _ => none
      | _ => none

end

/-- Read one document; nothing but blanks may follow it. -/
def parse (input : List UInt8) : Option Node :=
  match parseNode (2 * input.length + 2) input with
  | some (node, rest) => if (skipSpace rest).isEmpty then some node else none
  | none => none

end Fabula.Json
