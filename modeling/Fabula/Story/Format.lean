import Fabula.Error
import Fabula.LittleEndian
import Fabula.Story.Tables

namespace Fabula

/-!
# The story format

A stored story is the mark `INKB`, a version and the tables in order: strings,
lists, sets of flags, globals, containers and instructions.  A table is the number
of its entries and then the entries; a text is the number of its octets and then
its octets.  All words have their lowest octet first.
-/

namespace StoryFormat

open LittleEndian

def magic : List UInt8 :=
  Text.octets "INKB"

/-- The version that is written, and the newest one that is read. -/
def version : UInt32 := 1

/-! ## Writing -/

/-- The number of entries and the entries. -/
def writeTable {α : Type} (write : α → List UInt8) (entries : List α) : List UInt8 :=
  word32 (UInt32.ofNat entries.length) ++ entries.flatMap write

def writeString (text : String) : List UInt8 :=
  writeTable (fun octet => [octet]) (Text.octets text)

def writeFlag (flag : UInt32 × Int32) : List UInt8 :=
  word32 flag.1 ++ word32 flag.2.toUInt32

def writeList (list : StoredList) : List UInt8 :=
  word32 list.name ++ writeTable writeFlag list.flags

def writeFlagId (id : FlagId) : List UInt8 :=
  word16 id.list ++ word16 id.flag

def writeFlags (flags : StoredFlags) : List UInt8 :=
  writeTable word16 flags.origins ++ writeTable writeFlagId flags.items

/-- A value: its kind and its content. -/
def writeValue : StoredValue → List UInt8
  | .void => [0]
  | .bool b => [1, if b then 1 else 0]
  | .int i => 2 :: word32 i.toUInt32
  | .float x => 3 :: word32 x.bits
  | .str index => 4 :: word32 index
  | .list index => 5 :: word32 index
  | .divert target => 6 :: word32 target

def writeGlobal (global : UInt32 × StoredValue) : List UInt8 :=
  word32 global.1 ++ writeValue global.2

def writeContainer (container : StoredContainer) : List UInt8 :=
  word32 container.name ++ word32 container.start ++ word32 container.stop ++ [container.flags]

def writeInstruction (instruction : Instruction) : List UInt8 :=
  instruction.command.byte :: instruction.flag :: word32 instruction.payload

def encode (tables : Tables) : List UInt8 :=
  magic ++ word32 version ++ writeTable writeString tables.strings ++
    writeTable writeList tables.lists ++ writeTable writeFlags tables.literals ++
    writeTable writeGlobal tables.globals ++ writeTable writeContainer tables.containers ++
    writeTable writeInstruction tables.instructions

/-! ## Reading -/

/-- What is left to read, where it starts and how many octets there are in all. -/
structure Cursor where
  rest : List UInt8
  offset : Nat
  total : Nat
  deriving Repr, DecidableEq

def Cursor.start (octets : List UInt8) : Cursor :=
  ⟨octets, 0, octets.length⟩

/-- A reader of octets. -/
abbrev Reader := StateT Cursor (Except Error)

/-- Fail with a fault of the format. -/
def fault {α : Type} (cause : FormatFault) : Reader α :=
  throw (.invalidStory cause)

def take (count : Nat) : Reader (List UInt8) := do
  let cursor ← get
  if cursor.offset + count ≤ cursor.total then
    set { cursor with rest := cursor.rest.drop count, offset := cursor.offset + count }
    pure (cursor.rest.take count)
  else
    fault (.unexpectedEnd cursor.offset)

def octet : Reader UInt8 := do
  pure (UInt8.ofNat (value (← take 1)))

def readWord16 : Reader UInt16 := do
  pure (UInt16.ofNat (value (← take 2)))

def readWord32 : Reader UInt32 := do
  pure (UInt32.ofNat (value (← take 4)))

/-- A number of entries, each of which has at least the given number of octets. -/
def readCount (least : Nat) : Reader Nat := do
  let count := (← readWord32).toNat
  let cursor ← get
  let remaining := cursor.total - cursor.offset
  if remaining < count * least then
    fault (.tableTooLong count remaining)
  else
    pure count

/-- The given number of entries, counted from a position. -/
def readMany {α : Type} (read : Nat → Reader α) : Nat → Nat → Reader (List α)
  | _, 0 => pure []
  | position, count + 1 => do
      let entry ← read position
      let rest ← readMany read (position + 1) count
      pure (entry :: rest)

/-- A table whose entries depend on their positions. -/
def readIndexed {α : Type} (least : Nat) (read : Nat → Reader α) : Reader (List α) := do
  let count ← readCount least
  readMany read 0 count

/-- A table of entries with at least the given number of octets each. -/
def readTable {α : Type} (least : Nat) (read : Reader α) : Reader (List α) :=
  readIndexed least (fun _ => read)

def readString : Reader String := do
  let count ← readCount 1
  match Text.ofOctets (← take count) with
  | .ok text => pure text
  | .error cause => fault (.invalidText cause)

def readFlag : Reader (UInt32 × Int32) := do
  let name ← readWord32
  let flagValue ← readWord32
  pure (name, flagValue.toInt32)

def readList : Reader StoredList := do
  let name ← readWord32
  let flags ← readTable 8 readFlag
  pure ⟨name, flags⟩

def readFlagId : Reader FlagId := do
  let list ← readWord16
  let flag ← readWord16
  pure ⟨list, flag⟩

def readFlags : Reader StoredFlags := do
  let origins ← readTable 2 readWord16
  let items ← readTable 4 readFlagId
  pure ⟨origins, items⟩

def readValue : Reader StoredValue := do
  match ← octet with
  | 0 => pure .void
  | 1 => pure (.bool ((← octet) != 0))
  | 2 => pure (.int (← readWord32).toInt32)
  | 3 => pure (.float ⟨← readWord32⟩)
  | 4 => pure (.str (← readWord32))
  | 5 => pure (.list (← readWord32))
  | 6 => pure (.divert (← readWord32))
  | kind => fault (.unknownValueKind kind)

def readGlobal : Reader (UInt32 × StoredValue) := do
  let name ← readWord32
  let stored ← readValue
  pure (name, stored)

def readContainer : Reader StoredContainer := do
  let name ← readWord32
  let start ← readWord32
  let stop ← readWord32
  let flags ← octet
  pure ⟨name, start, stop, flags⟩

def readInstruction (position : Nat) : Reader Instruction := do
  let byte ← octet
  match Command.ofByte? byte with
  | none => fault (.unknownCommand byte position)
  | some command =>
      let flag ← octet
      let payload ← readWord32
      pure ⟨command, flag, payload⟩

def readHeader : Reader Unit := do
  let cursor ← get
  if cursor.rest.take 4 = magic then
    let _ ← take 4
    let found ← readWord32
    if version < found then
      throw (.unsupportedVersion found version)
    else if found = 0 then
      fault .versionZero
    else
      pure ()
  else
    fault .missingMagic

def readEnd : Reader Unit := do
  let cursor ← get
  if cursor.offset = cursor.total then
    pure ()
  else
    fault (.trailingBytes (cursor.total - cursor.offset))

def readTables : Reader Tables := do
  readHeader
  let strings ← readTable 4 readString
  let lists ← readTable 8 readList
  let literals ← readTable 8 readFlags
  let globals ← readTable 5 readGlobal
  let containers ← readTable 13 readContainer
  let instructions ← readIndexed 6 readInstruction
  readEnd
  pure ⟨strings, lists, literals, globals, containers, instructions⟩

/-- The tables of a stored story. -/
def decode (octets : List UInt8) : Except Error Tables :=
  (readTables.run (.start octets)).map Prod.fst

end StoryFormat

end Fabula
