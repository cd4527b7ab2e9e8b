import Fabula.Runner.Basic

namespace Fabula

/-!
# Saved state

A saved value describes itself: the flags of a list are kept by name, so they can
be looked up again in the story that the value is restored for.  Addresses and
positions of frames are 64-bit words, counters are 32-bit words.
-/

/-- A value apart from the story it belongs to. -/
inductive SavedValue where
  | void
  | bool (b : Bool)
  | int (i : Int32)
  | float (x : Single)
  | str (s : String)
  /-- Flags as pairs of the names of their list and of their own, and names of lists. -/
  | list (items : List (String × String)) (origins : List String)
  | divert (target : UInt32)
  | pointer (name : String) (frame : Option UInt64)
  deriving Repr, DecidableEq

/-- A global variable with its value. -/
structure SavedVariable where
  name : String
  kind : Kind
  value : SavedValue
  deriving Repr, DecidableEq

/-- A frame of a call stack. -/
structure SavedFrame where
  kind : FrameKind
  returnTo : UInt64
  callerEval : Bool
  temps : List (String × SavedValue)
  deriving Repr, DecidableEq

/-- A choice; its index is its position. -/
structure SavedChoice where
  text : String
  tags : List String
  target : UInt64
  frames : List SavedFrame
  deriving Repr, DecidableEq

/-- A flow that waits for a thread. -/
structure SavedThread where
  frames : List SavedFrame
  resumeAt : UInt64
  evalMode : Bool
  deriving Repr, DecidableEq

/-- A flow; stacks are kept with their bottom first. -/
structure SavedFlow where
  ip : Option UInt64
  evalMode : Bool
  eval : List SavedValue
  frames : List SavedFrame
  threads : List SavedThread
  output : List Piece
  containers : List UInt32
  choices : List SavedChoice
  fallback : Option SavedChoice
  visits : List UInt32
  turnVisited : List (Option UInt32)
  turn : UInt32
  tags : Tags
  rng : Random.State
  ended : Bool
  deriving Repr, DecidableEq

/-! ## Saving -/

namespace SavedValue

/-- The name of the list at a position. -/
def listName (defs : Definitions) (index : UInt16) : String :=
  match defs.list? index with
  | some found => found.name
  | none => ""

/-- The names of a flag's list and of the flag. -/
def flagNames (defs : Definitions) (item : FlagId) : String × String :=
  (listName defs item.list, (defs.flagName? item).getD "")

def ofValue : Value → SavedValue
  | .void => .void
  | .bool b => .bool b
  | .int i => .int i
  | .float x => .float x
  | .str s => .str s
  | .list set =>
      .list (set.items.toList.map (flagNames set.defs))
        (set.origins.toList.map (listName set.defs))
  | .divert target => .divert target
  | .pointer name frame => .pointer name (frame.map UInt64.ofNat)

end SavedValue

def SavedFrame.ofFrame (frame : Frame) : SavedFrame where
  kind := frame.kind
  returnTo := UInt64.ofNat frame.returnTo
  callerEval := frame.callerEval
  temps := frame.temps.map fun entry => (entry.1, .ofValue entry.2)

/-- Save the frames of a call stack. -/
def CallStack.saved (stack : CallStack) : List SavedFrame :=
  stack.frames.map SavedFrame.ofFrame

def SavedChoice.ofChoice (choice : Choice) : SavedChoice where
  text := choice.text
  tags := choice.tags
  target := UInt64.ofNat choice.target
  frames := choice.callStack.saved

def SavedThread.ofSuspended (waiting : SuspendedFlow) : SavedThread where
  frames := waiting.callStack.saved
  resumeAt := UInt64.ofNat waiting.resumeAt
  evalMode := waiting.evalMode

def SavedFlow.ofFlow (flow : Flow) : SavedFlow where
  ip := flow.ip.map UInt64.ofNat
  evalMode := flow.evalMode
  eval := flow.eval.reverse.map SavedValue.ofValue
  frames := flow.callStack.saved
  threads := flow.threads.reverse.map SavedThread.ofSuspended
  output := flow.output.pieces
  containers := flow.containers
  choices := flow.choices.map SavedChoice.ofChoice
  fallback := flow.fallback.map SavedChoice.ofChoice
  visits := flow.visits
  turnVisited := flow.turnVisited
  turn := flow.turn
  tags := flow.tags
  rng := flow.rng
  ended := flow.ended

def SavedVariable.ofEntry (entry : String × Value) : SavedVariable :=
  ⟨entry.1, entry.2.kind, .ofValue entry.2⟩

/-- Save the values of a store. -/
def Store.saved (store : Store) : List SavedVariable :=
  store.entries.map SavedVariable.ofEntry

end Fabula
