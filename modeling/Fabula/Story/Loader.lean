import Fabula.Story.Basic
import Fabula.Story.Format

namespace Fabula

/-!
# Loading stories

Loading resolves the positions in the tables of a stored story and refuses a
story with a position that is out of range, a variable declared twice, or a
container whose markers are not where it says.
-/

namespace Loader

/-- Fail with a fault of the format. -/
def refuse {α : Type} (cause : FormatFault) : Except Error α :=
  .error (.invalidStory cause)

def string (strings : Array String) (index : UInt32) : Except Error String :=
  match strings[index.toNat]? with
  | some text => .ok text
  | none => refuse (.stringOutOfRange index)

def flag (strings : Array String) (stored : UInt32 × Int32) : Except Error (String × Int32) := do
  let name ← string strings stored.1
  pure (name, stored.2)

def list (strings : Array String) (stored : StoredList) : Except Error FlagList := do
  let flags ← stored.flags.mapM (flag strings)
  let name ← string strings stored.name
  pure ⟨name, flags.toArray⟩

def greatestListCount : Nat := 65535

def definitions (strings : Array String) (stored : List StoredList) :
    Except Error Definitions := do
  if greatestListCount < stored.length then
    refuse .tooManyLists
  else
    let lists ← stored.mapM (list strings)
    pure (.ofLists lists)

/-- A set of flags, all of which exist. -/
def literal (defs : Definitions) (stored : StoredFlags) : Except Error FlagSet :=
  if stored.origins.all (fun origin => (defs.list? origin).isSome) &&
      stored.items.all (fun item => (defs.flagName? item).isSome) then
    .ok (.ofParts defs stored.items stored.origins)
  else
    refuse .unknownLiteralFlag

/-- The first value of a variable. -/
def value
    (strings : Array String)
    (literals : Array FlagSet)
    (instructionCount : Nat) :
    StoredValue → Except Error Value
  | .void => .ok .void
  | .bool b => .ok (.bool b)
  | .int i => .ok (.int i)
  | .float x => .ok (.float x)
  | .str index => do pure (.str (← string strings index))
  | .list index =>
      match literals[index.toNat]? with
      | some set => .ok (.list set)
      | none => refuse (.literalOutOfRange index)
  | .divert target =>
      if target.toNat ≤ instructionCount then
        .ok (.divert target)
      else
        refuse (.divertOutOfRange target)

/-- The variables of a story, none with the name of one before it. -/
def globals
    (strings : Array String)
    (literals : Array FlagSet)
    (instructionCount : Nat) :
    List String → List (UInt32 × StoredValue) → Except Error (List Declaration)
  | _, [] => .ok []
  | seen, stored :: rest => do
      let name ← string strings stored.1
      if seen.contains name then
        refuse (.duplicateGlobal name)
      else
        let initial ← value strings literals instructionCount stored.2
        let others ← globals strings literals instructionCount (name :: seen) rest
        pure (⟨name, initial⟩ :: others)

/-- Whether the instruction at an address is a marker of a container. -/
def isMarker (instructions : Array Instruction) (address : Nat) (command : Command) (id : Nat) :
    Bool :=
  match instructions[address]? with
  | some instruction => instruction.command == command && instruction.payload.toNat == id
  | none => false

/-- A container with its name, between its markers. -/
def container
    (strings : Array String)
    (instructions : Array Instruction)
    (entry : StoredContainer × Nat) :
    Except Error Container := do
  let start := entry.1.start.toNat
  let stop := entry.1.stop.toNat
  if start ≤ stop && isMarker instructions start .startContainer entry.2 &&
      isMarker instructions stop .endContainer entry.2 then
    if entry.1.name = noName then
      pure ⟨none, start, stop, entry.1.flags⟩
    else
      let name ← string strings entry.1.name
      pure ⟨some name, start, stop, entry.1.flags⟩
  else
    refuse (.inconsistentMarkers entry.2)

/-- The sizes of the tables that payloads point into. -/
structure Bounds where
  strings : Nat
  literals : Nat
  containers : Nat
  instructions : Nat
  deriving Repr, DecidableEq

/-- Whether a payload is in range for its command. -/
def Bounds.admits (bounds : Bounds) (instruction : Instruction) : Bool :=
  let payload := instruction.payload.toNat
  match instruction.command with
  | .tunnel | .function | .thread =>
      if instruction.hasFlag DivertFlag.toVariable then
        decide (payload < bounds.strings)
      else
        decide (payload ≤ bounds.instructions)
  | .divert | .divertValue | .choice => decide (payload ≤ bounds.instructions)
  | .str | .tag | .divertToVariable | .defineTemp | .setVariable | .pushVariable
  | .valuePointer | .callExternal => decide (payload < bounds.strings)
  | .readCount | .startContainer | .endContainer => decide (payload < bounds.containers)
  | .list => decide (payload < bounds.literals)
  | _ => true

/-- Refuse the first instruction whose payload is out of range. -/
def checkInstructions (bounds : Bounds) : Nat → List Instruction → Except Error Unit
  | _, [] => .ok ()
  | address, instruction :: rest =>
      if bounds.admits instruction then
        checkInstructions bounds (address + 1) rest
      else
        refuse (.payloadOutOfRange address instruction.command instruction.payload)

end Loader

namespace Story

/-- The story in the tables of a stored story. -/
def ofTables (tables : Tables) : Except Error Story := do
  let strings := tables.strings.toArray
  let instructions := tables.instructions.toArray
  let defs ← Loader.definitions strings tables.lists
  let literals := (← tables.literals.mapM (Loader.literal defs)).toArray
  let globals ← Loader.globals strings literals instructions.size [] tables.globals
  let containers ← tables.containers.zipIdx.mapM (Loader.container strings instructions)
  Loader.checkInstructions
    ⟨strings.size, literals.size, containers.length, instructions.size⟩ 0 tables.instructions
  pure ⟨instructions, strings, literals, containers.toArray, ⟨globals, defs⟩⟩

/-- The story in the octets of a stored story. -/
def ofOctets (octets : List UInt8) : Except Error Story := do
  let tables ← StoryFormat.decode octets
  ofTables tables

end Story

end Fabula
