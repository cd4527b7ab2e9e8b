import Fabula.Value.Basic

namespace Fabula

/-!
# Call stacks

A call stack has a frame for the story itself and one for each tunnel or function
that has been called and not yet returned.  Frames are counted from the outermost
one, and a stack always has a frame.
-/

/-- What a frame was opened for. -/
inductive FrameKind where
  | root
  | tunnel
  | function
  deriving Repr, DecidableEq

/-- The name of a frame's kind. -/
def FrameKind.name : FrameKind → String
  | .root => "Root"
  | .tunnel => "Tunnel"
  | .function => "Function"

/-- One call: where it returns to and the temporaries defined in it. -/
structure Frame where
  kind : FrameKind
  returnTo : Nat
  /-- Whether the caller was evaluating. -/
  callerEval : Bool
  temps : List (String × Value)
  deriving Repr, DecidableEq

namespace Frame

/-- The frame of the story itself. -/
def root : Frame :=
  ⟨.root, 0, false, []⟩

def temp? (frame : Frame) (name : String) : Option Value :=
  frame.temps.lookup name

/-- Change the first entry with a name, or add one at the end. -/
def assign (name : String) (value : Value) : List (String × Value) → List (String × Value)
  | [] => [(name, value)]
  | entry :: rest =>
      if entry.1 = name then (entry.1, value) :: rest else entry :: assign name value rest

def setTemp (frame : Frame) (name : String) (value : Value) : Frame :=
  { frame with temps := assign name value frame.temps }

end Frame

/-- The frames of a flow. -/
@[ext]
structure CallStack where
  /-- The frames of the open calls, the innermost first. -/
  calls : List Frame
  /-- The frame that is never closed. -/
  outermost : Frame
  deriving Repr, DecidableEq

namespace CallStack

def start : CallStack :=
  ⟨[], Frame.root⟩

/-- The stack of the given frames, the outermost first; none give the stack before any call. -/
def ofFrames : List Frame → CallStack
  | [] => start
  | outermost :: calls => ⟨calls.reverse, outermost⟩

/-- The frames, the outermost first. -/
def frames (stack : CallStack) : List Frame :=
  stack.outermost :: stack.calls.reverse

def depth (stack : CallStack) : Nat :=
  stack.calls.length + 1

def top (stack : CallStack) : Frame :=
  stack.calls.headD stack.outermost

/-- The position of the innermost frame. -/
def topIndex (stack : CallStack) : Nat :=
  stack.calls.length

def frame? (stack : CallStack) (index : Nat) : Option Frame :=
  stack.frames[index]?

def push (stack : CallStack) (kind : FrameKind) (returnTo : Nat) (callerEval : Bool) :
    CallStack :=
  { stack with calls := ⟨kind, returnTo, callerEval, []⟩ :: stack.calls }

/-- Close the innermost frame if it has the given kind and is not the outermost one. -/
def pop? (stack : CallStack) (kind : FrameKind) : Option (Frame × CallStack) :=
  match stack.calls with
  | [] => none
  | frame :: rest => if frame.kind = kind then some (frame, { stack with calls := rest }) else none

/-- Change the frame at a position. -/
def modify (stack : CallStack) (index : Nat) (change : Frame → Frame) : CallStack :=
  if index = 0 then
    { stack with outermost := change stack.outermost }
  else if index ≤ stack.topIndex then
    { stack with calls := stack.calls.modify (stack.topIndex - index) change }
  else
    stack

/-- Give a temporary of the frame at a position a value. -/
def setTempAt (stack : CallStack) (index : Nat) (name : String) (value : Value) : CallStack :=
  stack.modify index (fun frame => frame.setTemp name value)

/-- Give a temporary of the innermost frame a value. -/
def setTemp (stack : CallStack) (name : String) (value : Value) : CallStack :=
  stack.setTempAt stack.topIndex name value

/-- Close all frames but the outermost one and forget its temporaries. -/
def clear (stack : CallStack) : CallStack :=
  ⟨[], { stack.outermost with temps := [] }⟩

/-- A stack is told by its frames. -/
@[simp]
theorem ofFrames_frames (stack : CallStack) : ofFrames stack.frames = stack := by
  simp [ofFrames, frames]

/-- As many frames as the depth says. -/
@[simp]
theorem length_frames (stack : CallStack) : stack.frames.length = stack.depth := by
  simp [frames, depth]

/-- The innermost frame stands at the end. -/
theorem frame?_topIndex (stack : CallStack) : stack.frame? stack.topIndex = some stack.top := by
  cases stack with
  | mk calls outermost =>
      cases calls with
      | nil => rfl
      | cons frame rest => simp [frame?, frames, topIndex, top]

/-- Closing a frame that was opened gives the stack back. -/
@[simp]
theorem pop?_push (stack : CallStack) (kind : FrameKind) (returnTo : Nat) (callerEval : Bool) :
    (stack.push kind returnTo callerEval).pop? kind =
      some (⟨kind, returnTo, callerEval, []⟩, stack) := by
  simp [push, pop?]

end CallStack

/-- A flow that waits for a thread to finish. -/
structure SuspendedFlow where
  callStack : CallStack
  resumeAt : Nat
  evalMode : Bool
  deriving Repr, DecidableEq

end Fabula
