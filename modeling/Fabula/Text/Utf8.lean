namespace Fabula.Text

/-!
# Texts as octets

A text is stored as the UTF-8 octets of its characters.  Reading octets back
either gives the characters or names the first place where the octets are no
UTF-8: how many octets are well formed before it, and how many octets the
faulty sequence has, unless the octets end inside a character.
-/

/-- The place where octets stop being UTF-8. -/
structure Utf8Fault where
  /-- The number of octets before the fault. -/
  validUpTo : Nat
  /-- The length of the faulty sequence, or nothing when the octets end too early. -/
  length? : Option Nat
  deriving Repr, DecidableEq

def Utf8Fault.message (fault : Utf8Fault) : String :=
  match fault.length? with
  | some length =>
      s!"invalid utf-8 sequence of {length} bytes from index {fault.validUpTo}"
  | none =>
      s!"incomplete utf-8 byte sequence from index {fault.validUpTo}"

def encodeUtf8 (text : List Char) : List UInt8 :=
  text.flatMap String.utf8EncodeChar

/-- An octet that continues a character. -/
def isTail (octet : UInt8) : Bool :=
  0x80 ≤ octet && octet ≤ 0xbf

/-- The six low bits of a continuing octet. -/
def tailBits (octet : UInt8) : Nat :=
  octet.toNat % 64

/-- The bounds of the second octet of a character of three octets. -/
def secondOfThree (first second : UInt8) : Bool :=
  if first = 0xe0 then 0xa0 ≤ second && second ≤ 0xbf
  else if first = 0xed then 0x80 ≤ second && second ≤ 0x9f
  else isTail second

/-- The bounds of the second octet of a character of four octets. -/
def secondOfFour (first second : UInt8) : Bool :=
  if first = 0xf0 then 0x90 ≤ second && second ≤ 0xbf
  else if first = 0xf4 then 0x80 ≤ second && second ≤ 0x8f
  else isTail second

/-- What stands at the head of a sequence of octets. -/
inductive Utf8Head where
  | ended
  | char (c : Char) (width : Nat)
  | faulty (length? : Option Nat)
  deriving Repr, DecidableEq

/-- Classify the head of a sequence of octets. -/
def utf8Head : List UInt8 → Utf8Head
  | [] => .ended
  | a :: rest =>
      if a < 0x80 then
        .char (Char.ofNat a.toNat) 1
      else if 0xc2 ≤ a && a ≤ 0xdf then
        match rest with
        | [] => .faulty none
        | b :: _ =>
            if isTail b then
              .char (Char.ofNat (a.toNat % 32 * 64 + tailBits b)) 2
            else
              .faulty (some 1)
      else if 0xe0 ≤ a && a ≤ 0xef then
        match rest with
        | [] => .faulty none
        | b :: rest =>
            if secondOfThree a b then
              match rest with
              | [] => .faulty none
              | c :: _ =>
                  if isTail c then
                    .char
                      (Char.ofNat (a.toNat % 16 * 4096 + tailBits b * 64 + tailBits c)) 3
                  else
                    .faulty (some 2)
            else
              .faulty (some 1)
      else if 0xf0 ≤ a && a ≤ 0xf4 then
        match rest with
        | [] => .faulty none
        | b :: rest =>
            if secondOfFour a b then
              match rest with
              | [] => .faulty none
              | c :: rest =>
                  if isTail c then
                    match rest with
                    | [] => .faulty none
                    | d :: _ =>
                        if isTail d then
                          .char
                            (Char.ofNat (a.toNat % 8 * 262144 + tailBits b * 4096 +
                              tailBits c * 64 + tailBits d)) 4
                        else
                          .faulty (some 3)
                  else
                    .faulty (some 2)
            else
              .faulty (some 1)
      else
        .faulty (some 1)

/-- Read characters from octets; `skip` octets belong to the character before. -/
def decodeFrom : Nat → Nat → List UInt8 → Except Utf8Fault (List Char)
  | _, _, [] => .ok []
  | position, skip + 1, _ :: rest => decodeFrom (position + 1) skip rest
  | position, 0, octet :: rest =>
      match utf8Head (octet :: rest) with
      | .ended => .ok []
      | .faulty length? => .error ⟨position, length?⟩
      | .char c width => do
          let tail ← decodeFrom (position + 1) (width - 1) rest
          pure (c :: tail)

/-- The characters of a sequence of octets, or its first fault. -/
def decodeUtf8 (octets : List UInt8) : Except Utf8Fault (List Char) :=
  decodeFrom 0 0 octets

/-- The octets of a character string. -/
def octets (text : String) : List UInt8 :=
  encodeUtf8 text.toList

/-- The character string of a sequence of octets, or its first fault. -/
def ofOctets (bytes : List UInt8) : Except Utf8Fault String :=
  (decodeUtf8 bytes).map String.ofList

end Fabula.Text
