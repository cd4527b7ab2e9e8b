import Fabula.Flow.Change
import Fabula.Store.Basic

namespace Fabula.Flow

/-!
# Variables and references

A name stands for the temporary of the innermost frame that has it, and otherwise
for a global variable.  A temporary that holds a reference stands for what it
refers to.
-/

/-- Where a value is kept. -/
inductive Place where
  /-- A temporary of the frame at a position. -/
  | temp (frame : Nat) (name : String)
  | global (name : String)
  deriving Repr, DecidableEq

/-- The place that a reference leads to. -/
def Place.ofReference (name : String) : Option Nat → Place
  | some frame => .temp frame name
  | none => .global name

/-- The place that a name stands for. -/
def place (flow : Flow) (name : String) : Place :=
  match flow.callStack.top.temp? name with
  | some (.pointer target frame) => .ofReference target frame
  | some _ => .temp flow.callStack.topIndex name
  | none => .global name

def readAt (flow : Flow) (store : Store) : Place → Except Error Value
  | .temp frame name =>
      match (flow.callStack.frame? frame).bind (fun found => found.temp? name) with
      | some value => .ok value
      | none => .error (.unknownVariable name)
  | .global name => store.get name

def read (flow : Flow) (store : Store) (name : String) : Except Error Value :=
  flow.readAt store (flow.place name)

/-- Put a value at a place; for a global variable this is asked of the world. -/
def writeAt (flow : Flow) (value : Value) : Place → Except Error Change
  | .temp frame name =>
      match flow.callStack.frame? frame with
      | some _ =>
          .ok (.of { flow with callStack := flow.callStack.setTempAt frame name value })
      | none => .error (.unknownVariable name)
  | .global name => .ok ⟨flow, [.assigned name value], some (.write name value)⟩

def write (flow : Flow) (name : String) (value : Value) : Except Error Change :=
  flow.writeAt value (flow.place name)

/--
Give a temporary of the innermost frame a value.  If it exists already and holds a
reference, the value goes where the reference leads.
-/
def define (flow : Flow) (redefine : Bool) (name : String) (value : Value) :
    Except Error Change :=
  match redefine, flow.callStack.top.temp? name with
  | true, some (.pointer ..) => flow.write name value
  | _, _ => .ok (.of { flow with callStack := flow.callStack.setTemp name value })

/--
The frame that a new reference leads to.  The flag says whether the innermost
frame is tried first, a global is meant, or which frame is meant.
-/
def referenceFrame (flow : Flow) (name : String) (flag : UInt8) : Option Nat :=
  if flag = 0 then
    if (flow.callStack.top.temp? name).isSome then some flow.callStack.topIndex else none
  else if flag = 1 then
    none
  else
    some (flag.toNat - 2)

/-- A reference to a variable; a temporary that holds a reference is passed on as that reference. -/
def reference (flow : Flow) (name : String) (flag : UInt8) : Value :=
  let frame := flow.referenceFrame name flag
  let held := do
    let index ← frame
    let found ← flow.callStack.frame? index
    found.temp? name
  match held with
  | some (.pointer target home) => .pointer target home
  | _ => .pointer name frame

/-- The address that a variable holds. -/
def targetOf (flow : Flow) (store : Store) (name : String) (address : Nat) : Except Error Nat := do
  match ← flow.read store name with
  | .divert target => .ok target.toNat
  | other => fail address (.notADivert name other.kind)

end Fabula.Flow
