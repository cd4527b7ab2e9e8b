import Fabula.Story.Basic
import Fabula.Story.Format

namespace Fabula

/-!
# Assembling stories

An assembler gathers the tables of a story call by call.  Jumps may name labels
that are placed later and containers that are begun later; both are looked up when
the story is built.  A call that cannot be right is remembered, and building then
fails with the first such call.
-/

/-- Where a jump goes: a label, or the start of the container with a name. -/
inductive Target where
  | label (number : Nat)
  | path (name : String)
  deriving Repr, DecidableEq

/-- A story in the making. -/
structure Assembler where
  tables : Tables
  /-- The containers that are open, the innermost first. -/
  opened : List Nat
  /-- The addresses of the labels that are placed. -/
  labels : List (Option UInt32)
  /-- The jumps that wait for their targets, in order. -/
  fixups : List (Nat × Target)
  /-- The faults so far, in order. -/
  faults : List FormatFault
  deriving Repr, DecidableEq

namespace Assembler

def start : Assembler :=
  ⟨.empty, [], [], [], []⟩

/-- The address of the next instruction. -/
def address (a : Assembler) : UInt32 :=
  UInt32.ofNat a.tables.instructions.length

/-- The position of a string, which is added unless it is there. -/
def intern (a : Assembler) (text : String) : UInt32 × Assembler :=
  match a.tables.strings.findIdx? (· == text) with
  | some index => (UInt32.ofNat index, a)
  | none =>
      (UInt32.ofNat a.tables.strings.length,
        { a with tables := { a.tables with strings := a.tables.strings ++ [text] } })

def emit (a : Assembler) (command : Command) (flag : UInt8) (payload : UInt32) : Assembler :=
  { a with
    tables :=
      { a.tables with instructions := a.tables.instructions ++ [⟨command, flag, payload⟩] } }

/-- Add an instruction without flags and payload. -/
def op (a : Assembler) (command : Command) : Assembler :=
  a.emit command 0 0

/-- Add an instruction whose payload is found when the story is built. -/
def emitJump (a : Assembler) (command : Command) (flag : UInt8) (target : Target) : Assembler :=
  let waiting :=
    { a with fixups := a.fixups ++ [(a.tables.instructions.length, target)] }
  waiting.emit command flag 0

/-- Add an instruction whose payload is a string. -/
def emitNamed (a : Assembler) (command : Command) (flag : UInt8) (name : String) : Assembler :=
  let interned := a.intern name
  interned.2.emit command flag interned.1

def blame (a : Assembler) (fault : FormatFault) : Assembler :=
  { a with faults := a.faults ++ [fault] }

/-! ## Declarations -/

def internFlags (a : Assembler) : List (String × Int32) → List (UInt32 × Int32) × Assembler
  | [] => ([], a)
  | flag :: rest =>
      let interned := a.intern flag.1
      let others := interned.2.internFlags rest
      ((interned.1, flag.2) :: others.1, others.2)

def list (a : Assembler) (name : String) (flags : List (String × Int32)) : Assembler :=
  let named := a.intern name
  let flagged := named.2.internFlags flags
  let assembler := flagged.2
  { assembler with
    tables :=
      { assembler.tables with lists := assembler.tables.lists ++ [⟨named.1, flagged.1⟩] } }

/-- Whether a position holds a string. -/
def holds (a : Assembler) (index : UInt32) (text : String) : Bool :=
  a.tables.strings[index.toNat]? == some text

/-- The flag with a qualified name, among the lists declared so far. -/
def resolveFlag? (a : Assembler) (path : String) : Option FlagId := do
  let (listName, flagName) ← Definitions.splitQualified? path
  let list ← a.tables.lists.findIdx? (fun stored => a.holds stored.name listName)
  let stored ← a.tables.lists[list]?
  let ordered := stored.flags.mergeSort (fun x y => decide (x.2 ≤ y.2))
  let flag ← ordered.findIdx? (fun entry => a.holds entry.1 flagName)
  pure ⟨UInt16.ofNat list, UInt16.ofNat flag⟩

/-- Add a flag to a set of flags, or remember that there is none. -/
def addFlag (entry : StoredFlags × Assembler) (path : String) : StoredFlags × Assembler :=
  match entry.2.resolveFlag? path with
  | some id =>
      let origins :=
        if entry.1.origins.contains id.list then entry.1.origins
        else entry.1.origins ++ [id.list]
      (⟨origins, entry.1.items ++ [id]⟩, entry.2)
  | none => (entry.1, entry.2.blame (.unknownFlag path))

/-- Add a set of flags given by qualified names; its position is given back. -/
def literal (a : Assembler) (paths : List String) : UInt32 × Assembler :=
  let filled := paths.foldl addFlag (⟨[], []⟩, a)
  let assembler := filled.2
  (UInt32.ofNat assembler.tables.literals.length,
    { assembler with
      tables := { assembler.tables with literals := assembler.tables.literals ++ [filled.1] } })

def global (a : Assembler) (name : String) (value : StoredValue) : Assembler :=
  let interned := a.intern name
  let assembler := interned.2
  { assembler with
    tables :=
      { assembler.tables with globals := assembler.tables.globals ++ [(interned.1, value)] } }

/-- Declare a variable that holds a text. -/
def globalString (a : Assembler) (name text : String) : Assembler :=
  let interned := a.intern text
  interned.2.global name (.str interned.1)

/-- Declare a variable that holds a set of flags. -/
def globalList (a : Assembler) (name : String) (paths : List String) : Assembler :=
  let added := a.literal paths
  added.2.global name (.list added.1)

/-! ## Containers and labels -/

def beginContainer (a : Assembler) (name : Option String) (flags : UInt8) : Assembler :=
  let named : UInt32 × Assembler :=
    match name with
    | some text => a.intern text
    | none => (noName, a)
  let assembler := named.2
  let id := assembler.tables.containers.length
  let container : StoredContainer := ⟨named.1, assembler.address, assembler.address, flags⟩
  let begun : Assembler :=
    { assembler with
      tables :=
        { assembler.tables with containers := assembler.tables.containers ++ [container] }
      opened := id :: assembler.opened }
  begun.emit .startContainer 0 (UInt32.ofNat id)

/-- Begin a knot, whose visits and turns are tracked. -/
def beginKnot (a : Assembler) (path : String) : Assembler :=
  a.beginContainer (some path)
    (Container.knotBit ||| Container.visitsBit ||| Container.turnsBit)

def beginFunction (a : Assembler) (name : String) : Assembler :=
  a.beginContainer (some name) Container.functionBit

/-- Begin a container without a name, whose visits are counted. -/
def beginAnonymous (a : Assembler) : Assembler :=
  a.beginContainer none Container.visitsBit

def endContainer (a : Assembler) : Assembler :=
  match a.opened with
  | [] => a.blame .endWithoutContainer
  | id :: rest =>
      let ended :=
        { a with
          tables :=
            { a.tables with
              containers :=
                a.tables.containers.modify id (fun c => { c with stop := a.address }) }
          opened := rest }
      ended.emit .endContainer 0 (UInt32.ofNat id)

def newLabel (a : Assembler) : Nat × Assembler :=
  (a.labels.length, { a with labels := a.labels ++ [none] })

/-- Place a label at the next instruction. -/
def place (a : Assembler) (label : Nat) : Assembler :=
  { a with labels := a.labels.set label (some a.address) }

/-! ## Content -/

/-- Write a text, or push it while evaluating. -/
def text (a : Assembler) (text : String) : Assembler :=
  a.emitNamed .str 0 text

/-- Write a text and end the line. -/
def line (a : Assembler) (text : String) : Assembler :=
  (a.text text).op .newline

def tag (a : Assembler) (tag : String) : Assembler :=
  a.emitNamed .tag 0 tag

def int (a : Assembler) (i : Int32) : Assembler :=
  a.emit .int 0 i.toUInt32

def float (a : Assembler) (x : Single) : Assembler :=
  a.emit .float 0 x.bits

def bool (a : Assembler) (b : Bool) : Assembler :=
  a.emit .bool 0 (if b then 1 else 0)

def listValue (a : Assembler) (paths : List String) : Assembler :=
  let added := a.literal paths
  added.2.emit .list 0 added.1

def outputInt (a : Assembler) (i : Int32) : Assembler :=
  (((a.op .startEval).int i).op .output).op .endEval

/-- Push the value of a variable. -/
def getVariable (a : Assembler) (name : String) : Assembler :=
  a.emitNamed .pushVariable 0 name

/-- Write the value of a variable. -/
def outputVariable (a : Assembler) (name : String) : Assembler :=
  (((a.op .startEval).getVariable name).op .output).op .endEval

/-- Give a variable the value on the stack. -/
def setVariable (a : Assembler) (name : String) : Assembler :=
  a.emitNamed .setVariable 0 name

/-- Define a temporary with the value on the stack. -/
def temp (a : Assembler) (name : String) : Assembler :=
  a.emitNamed .defineTemp 0 name

/-- Give a temporary, or what it refers to, the value on the stack. -/
def reassignTemp (a : Assembler) (name : String) : Assembler :=
  a.emitNamed .defineTemp AssignmentFlag.redefine name

/-- Push a reference to a variable. -/
def pointer (a : Assembler) (name : String) : Assembler :=
  a.emitNamed .valuePointer 0 name

/-- Go to the address that a variable holds. -/
def divertToVariable (a : Assembler) (name : String) : Assembler :=
  a.emitNamed .divertToVariable 0 name

/-- Call a function of the host. -/
def callExternal (a : Assembler) (name : String) (arguments : UInt8) : Assembler :=
  a.emitNamed .callExternal arguments name

/-- Offer a choice with a text and tags. -/
def choiceText (a : Assembler) (text : String) (tags : List String) (target : Target) :
    Assembler :=
  let opened := ((a.op .startEval).op .startStr).text text
  let tagged := tags.foldl Assembler.tag opened
  ((tagged.op .endStr).op .endEval).emitJump .choice ChoiceFlag.choiceOnlyContent target

/-- Push how often the container with a name was entered. -/
def readCount (a : Assembler) (path : String) : Assembler :=
  a.emitJump .readCount 0 (.path path)

/-! ## Building -/

/-- The first container with a name, and its number. -/
def findContainer? (tables : Tables) (path : String) : Option (StoredContainer × Nat) :=
  tables.containers.zipIdx.find? fun entry =>
    entry.1.name != noName && tables.strings[entry.1.name.toNat]? == some path

/-- The payload that a jump gets from its target. -/
def payloadOf (a : Assembler) (command : Command) : Target → Except Error UInt32
  | .label number =>
      match a.labels[number]? with
      | some (some address) => .ok address
      | _ => .error (.invalidStory (.unplacedLabel number))
  | .path path =>
      match findContainer? a.tables path with
      | some (container, id) =>
          .ok (if command = .readCount then UInt32.ofNat id else container.start)
      | none => .error (.invalidStory (.unknownPath path))

/-- Give a waiting jump its payload. -/
def fixup (a : Assembler) (instructions : List Instruction) (entry : Nat × Target) :
    Except Error (List Instruction) :=
  match instructions[entry.1]? with
  | none => .ok instructions
  | some instruction => do
      let payload ← a.payloadOf instruction.command entry.2
      pure (instructions.set entry.1 { instruction with payload := payload })

/-- The tables of the finished story. -/
def finish (a : Assembler) : Except Error Tables :=
  match a.faults, a.opened with
  | fault :: _, _ => .error (.invalidStory fault)
  | [], id :: _ => .error (.invalidStory (.unclosedContainer id))
  | [], [] => do
      let instructions ← a.fixups.foldlM a.fixup a.tables.instructions
      pure { a.tables with instructions := instructions }

/-- The octets of the finished story. -/
def build (a : Assembler) : Except Error (List UInt8) := do
  let tables ← a.finish
  pure (StoryFormat.encode tables)

end Assembler

end Fabula
