import Fabula.Instruction
import Fabula.Story.Declarations

namespace Fabula

/-!
# Stories

A story is a sequence of instructions with the texts, sets of flags and
containers that they refer to.  A container covers the addresses from its start
marker to its end marker; knots and functions are containers with a name.
-/

/-- A range of addresses with the way it is tracked. -/
structure Container where
  name : Option String
  /-- The address of the start marker. -/
  start : Nat
  /-- The address of the end marker. -/
  stop : Nat
  flags : UInt8
  deriving Repr, DecidableEq

namespace Container

/-- The bit of containers whose visits are counted. -/
def visitsBit : UInt8 := 1

/-- The bit of containers whose last turn is kept. -/
def turnsBit : UInt8 := 2

def knotBit : UInt8 := 4

def functionBit : UInt8 := 8

def tracksVisits (container : Container) : Bool :=
  container.flags &&& visitsBit != 0

/-- Whether the turn of the last visit is kept. -/
def tracksTurns (container : Container) : Bool :=
  container.flags &&& turnsBit != 0

/-- Whether entering starts the tags of a knot. -/
def isKnot (container : Container) : Bool :=
  container.flags &&& knotBit != 0

/-- Whether the container can be called as a function. -/
def isFunction (container : Container) : Bool :=
  container.flags &&& functionBit != 0

/-- Whether execution at an address is inside the container. -/
def encloses (container : Container) (address : Nat) : Bool :=
  decide (container.start < address) && decide (address ≤ container.stop)

end Container

/-- A loaded story. -/
structure Story where
  instructions : Array Instruction
  strings : Array String
  literals : Array FlagSet
  containers : Array Container
  declarations : Declarations
  deriving Repr, DecidableEq

namespace Story

def instruction? (story : Story) (address : Nat) : Option Instruction :=
  story.instructions[address]?

def instructionCount (story : Story) : Nat :=
  story.instructions.size

def string (story : Story) (index : UInt32) : String :=
  story.strings.getD index.toNat ""

/-- The set of flags at a position, as a value. -/
def literal (story : Story) (index : UInt32) : Value :=
  match story.literals[index.toNat]? with
  | some set => .list set
  | none => .void

def container? (story : Story) (id : UInt32) : Option Container :=
  story.containers[id.toNat]?

def containerCount (story : Story) : Nat :=
  story.containers.size

def numbered (story : Story) : List (Container × Nat) :=
  story.containers.toList.zipIdx

/-- The first container that starts at an address. -/
def containerStartingAt? (story : Story) (address : Nat) : Option Nat :=
  story.containers.findIdx? (fun container => container.start == address)

/-- The containers around an address, the outermost first. -/
def enclosing (story : Story) (address : Nat) : List UInt32 :=
  let around := story.numbered.filter (fun entry => entry.1.encloses address)
  (around.mergeSort (fun a b => decide (a.1.start ≤ b.1.start))).map
    (fun entry => UInt32.ofNat entry.2)

/-- The last container with a name. -/
def findPath? (story : Story) (path : String) : Option Nat :=
  ((story.numbered.filter (fun entry => entry.1.name == some path)).getLast?).map Prod.snd

/-- The container that a path stands for. -/
def containerAt? (story : Story) (path : String) : Option Container :=
  (story.findPath? path).bind (fun id => story.containers[id]?)

/-- The address of the function that stands in for a missing host function. -/
def fallbackFunction? (story : Story) (name : String) : Option Nat :=
  (story.containerAt? name).bind
    (fun container => if container.isFunction then some container.start else none)

/-- The names of the knots in order. -/
def knots (story : Story) : List String :=
  (story.containers.toList.filter Container.isKnot).filterMap Container.name

def inspect (story : Story) : String :=
  s!"Story \x7b instructions: {story.instructionCount}, containers: {story.containerCount}, " ++
    s!"globals: {story.declarations.globals.length} \x7d"

end Story

end Fabula
