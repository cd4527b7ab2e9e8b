import Fabula.CallStack
import Fabula.Error
import Fabula.Output
import Fabula.Random.Draw
import Fabula.Story.Basic
import Fabula.Tags

namespace Fabula

/-!
# Flows

A flow is a story in progress: where it is, what it has gathered and what it
remembers.  The operations of this module are those that need nothing but the
flow and the story.
-/

/-- A way to go on that is offered to the reader. -/
structure Choice where
  /-- The position among the offered choices. -/
  index : Nat
  text : String
  tags : List String
  /-- The address at which the choice goes on. -/
  target : Nat
  /-- The calls that were open when the choice was offered. -/
  callStack : CallStack
  deriving Repr, DecidableEq

/-- A story in progress. -/
structure Flow where
  /-- The address of the next instruction, or nothing when the flow has stopped. -/
  ip : Option Nat
  /-- Whether values are pushed instead of written. -/
  evalMode : Bool
  /-- The evaluation stack, its top first. -/
  eval : List Value
  callStack : CallStack
  /-- The flows that wait for the running thread, the innermost first. -/
  threads : List SuspendedFlow
  output : Output
  /-- The containers around the present address, the outermost first. -/
  containers : List UInt32
  choices : List Choice
  /-- The choice that is taken when no other is offered. -/
  fallback : Option Choice
  /-- How often each container was entered. -/
  visits : List UInt32
  /-- The turn in which each container was last entered. -/
  turnVisited : List (Option UInt32)
  /-- The number of choices taken. -/
  turn : UInt32
  tags : Tags
  rng : Random.State
  /-- Whether the story has reached its end. -/
  ended : Bool
  deriving Repr, DecidableEq

namespace Flow

def start (story : Story) (seed : UInt64) : Flow where
  ip := if 0 < story.instructionCount then some 0 else none
  evalMode := false
  eval := []
  callStack := .start
  threads := []
  output := .empty
  containers := []
  choices := []
  fallback := none
  visits := List.replicate story.containerCount 0
  turnVisited := List.replicate story.containerCount none
  turn := 0
  tags := .start
  rng := .ofSeed seed
  ended := false

/-! ## The evaluation stack -/

def push (flow : Flow) (value : Value) : Flow :=
  { flow with eval := value :: flow.eval }

/-- Take the top off the stack. -/
def pop? (flow : Flow) : Option (Value × Flow) :=
  match flow.eval with
  | [] => none
  | value :: rest => some (value, { flow with eval := rest })

/-- The instruction at an address fails. -/
def fail {α : Type} (address : Nat) (fault : RuntimeFault) : Except Error α :=
  .error (.runtime address fault)

/-- Take the top off the stack for the instruction at an address. -/
def pop (flow : Flow) (address : Nat) : Except Error (Value × Flow) :=
  match flow.pop? with
  | some popped => .ok popped
  | none => fail address .stackUnderflow

/-! ## Output and tags -/

/-- Write a text.  Visible text outside markers starts the content of a line. -/
def appendText (flow : Flow) (text : String) : Flow :=
  let output := flow.output.appendText text
  if !Text.isBlankText text && !output.hasMarker then
    { flow with output := output, tags := flow.tags.contentStarted }
  else
    { flow with output := output }

/-- Push a value while evaluating, and write it otherwise. -/
def pushOrWrite (flow : Flow) (value : Value) : Flow :=
  if flow.evalMode then flow.push value else flow.appendText value.text

/-- End a line, or push a line end while evaluating. -/
def endLine (flow : Flow) : Flow :=
  if flow.evalMode then
    flow.push (.str "\n")
  else
    { flow with output := flow.output.appendNewline }

/-- Record a tag; inside a text for the stack it waits for the next choice. -/
def addTag (flow : Flow) (tag : String) : Flow :=
  if flow.output.pieces.contains .stringMarker then
    { flow with tags := flow.tags.pushChoice tag }
  else
    { flow with tags := flow.tags.push tag }

/-! ## Containers -/

def jump (flow : Flow) (story : Story) (target : Nat) : Flow :=
  { flow with ip := some target, containers := story.enclosing target }

/-- How often a container was entered. -/
def visitsOf (flow : Flow) (id : Nat) : UInt32 :=
  flow.visits.getD id 0

/-- Count a visit to a container that tracks them, and keep its turn. -/
def visit (flow : Flow) (container : Container) (index : Nat) : Flow :=
  { flow with
    visits := if container.tracksVisits then flow.visits.modify index (· + 1) else flow.visits
    turnVisited :=
      if container.tracksTurns then flow.turnVisited.set index (some flow.turn)
      else flow.turnVisited
    tags := if container.isKnot then flow.tags.enterKnot else flow.tags }

def enter (flow : Flow) (story : Story) (id : UInt32) : Flow :=
  let entered := { flow with containers := flow.containers ++ [id] }
  match story.container? id with
  | some container => entered.visit container id.toNat
  | none => entered

/-- Leave a container and all that were entered after it. -/
def leave? (flow : Flow) (id : UInt32) : Option Flow :=
  (splitLast? (· == id) flow.containers).map fun parts => { flow with containers := parts.1 }

/-- The name of the innermost knot around the present address. -/
def currentKnot (flow : Flow) (story : Story) : Option String :=
  ((flow.containers.reverse.filterMap story.container?).find? Container.isKnot).bind
    Container.name

/-! ## Choices -/

/-- Go on with a choice: all choices are withdrawn and a turn has passed. -/
def select (flow : Flow) (story : Story) (choice : Choice) : Flow :=
  Flow.jump
    { flow with
      choices := []
      fallback := none
      tags := flow.tags.clearLine
      callStack := choice.callStack
      threads := []
      evalMode := false
      turn := flow.turn + 1 }
    story choice.target

/-- The choice that is taken when the flow has stopped and offers nothing. -/
def fallback? (flow : Flow) : Option Choice :=
  if flow.ended || !flow.choices.isEmpty then none else flow.fallback

/-- Go to the start of a container, and drop what was pending. -/
def moveTo (flow : Flow) (story : Story) (container : Container) : Flow :=
  Flow.jump
    { flow with
      output := .empty
      choices := []
      fallback := none
      eval := []
      evalMode := false
      callStack := flow.callStack.clear
      threads := []
      tags := flow.tags.clearLine
      ended := false }
    story container.start

end Flow

end Fabula
