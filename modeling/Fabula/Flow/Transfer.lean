import Fabula.Flow.Change

namespace Fabula.Flow

/-!
# Transfers of control

Calls, threads, containers and choices.  A thread runs on a copy of the call
stack, and the flow that forked it waits until the thread is done.
-/

/-- Stop a flow: a waiting flow resumes, and otherwise nothing is left to do. -/
def done (flow : Flow) (story : Story) : Change :=
  match flow.threads with
  | parent :: rest =>
      Change.after [.threadDone parent.resumeAt]
        (Flow.goTo
          { flow with
            threads := rest
            callStack := parent.callStack
            evalMode := parent.evalMode }
          story parent.resumeAt)
  | [] => .of { flow with ip := none }

/-- End the story: nothing waits and nothing is offered any more. -/
def finish (flow : Flow) : Change :=
  .reported
    { flow with
      ip := none
      ended := true
      choices := []
      fallback := none
      callStack := flow.callStack.clear
      threads := [] }
    [.storyEnded]

/-- Run a thread at an address, and let the present flow wait. -/
def fork (flow : Flow) (story : Story) (target resumeAt : Nat) : Change :=
  let threads := ⟨flow.callStack, resumeAt, flow.evalMode⟩ :: flow.threads
  Change.after [.forked target threads.length]
    (Flow.goTo { flow with threads := threads } story target)

/-- Open a frame and go to an address.  A function starts by writing, not by evaluating. -/
def call (flow : Flow) (story : Story) (kind : FrameKind) (target returnTo : Nat) : Change :=
  let callStack := flow.callStack.push kind returnTo flow.evalMode
  let entered :=
    if kind = .function then
      { flow with
        callStack := callStack
        output := flow.output.appendFunctionStart
        evalMode := false }
    else
      { flow with callStack := callStack }
  Change.after [.called kind target callStack.depth] (entered.goTo story target)

/-- Close a frame of the given kind and go back to where it was opened. -/
def returnFrom (flow : Flow) (story : Story) (kind : FrameKind) (address : Nat) :
    Except Error Change :=
  match flow.callStack.pop? kind with
  | none => fail address (.returnWithoutCall kind)
  | some (frame, callStack) =>
      let output := if kind = .function then flow.output.appendFunctionEnd else flow.output
      let left :=
        { flow with
          callStack := callStack
          output := output
          evalMode := frame.callerEval }
      .ok (left.goTo story frame.returnTo)

/-- What is reported when a container is entered. -/
def entryEvents (story : Story) (id : UInt32) : List Event :=
  match story.container? id with
  | some container => if container.isKnot then [.knotEntered container.name] else []
  | none => []

/-- Enter a container, and report a knot. -/
def enterContainer (flow : Flow) (story : Story) (id : UInt32) : Change :=
  .reported (flow.enter story id) (entryEvents story id)

/-- Whether a container is a function. -/
def isFunction (story : Story) (id : UInt32) : Bool :=
  match story.container? id with
  | some container => container.isFunction
  | none => false

/-- Leave a container.  A function that is left without a return gives no value back. -/
def leaveContainer (flow : Flow) (story : Story) (id : UInt32) (address : Nat) :
    Except Error Change :=
  match flow.leave? id with
  | none => fail address (.containerNotEntered id)
  | some left =>
      if isFunction story id && left.callStack.top.kind == .function then
        (left.push .void).returnFrom story .function address
      else
        .ok (.of left)

/-! ## Choices -/

/-- Take the top off the stack if it is asked for. -/
def popIf (flow : Flow) (asked : Bool) (address : Nat) : Except Error (Option Value × Flow) :=
  if asked then do
    let (value, rest) ← flow.pop address
    pure (some value, rest)
  else
    .ok (none, flow)

/-- The text of a value, or no text. -/
def textOf : Option Value → String
  | some value => value.text
  | none => ""

/-- The words of a text with single spaces between them. -/
def collapsed (text : String) : String :=
  String.ofList (Text.collapse text.toList)

/-- Whether the container that starts at an address was entered. -/
def wasVisited (flow : Flow) (story : Story) (target : Nat) : Bool :=
  match story.containerStartingAt? target with
  | some id => 0 < flow.visitsOf id
  | none => false

/-- Offer a choice, or keep it as the fallback. -/
def offer (flow : Flow) (invisible : Bool) (text : String) (tags : List String) (target : Nat) :
    Flow :=
  let choice : Choice := ⟨flow.choices.length, text, tags, target, flow.callStack⟩
  if invisible then
    { flow with fallback := some choice }
  else
    { flow with choices := flow.choices ++ [choice] }

/--
Offer the choice of an instruction.  Its texts and condition come off the stack
and it claims the waiting tags even when it is not offered after all.
-/
def addChoice (flow : Flow) (story : Story) (instruction : Instruction) (address : Nat) :
    Except Error Flow := do
  let (condition, flow) ← flow.popIf (instruction.hasFlag ChoiceFlag.condition) address
  let (choiceOnly, flow) ← flow.popIf (instruction.hasFlag ChoiceFlag.choiceOnlyContent) address
  let (start, flow) ← flow.popIf (instruction.hasFlag ChoiceFlag.startContent) address
  let claimed := flow.tags.takeChoice
  let flow := { flow with tags := claimed.2 }
  let target := instruction.address
  let holds := condition.all Value.isTruthy
  let spent := instruction.hasFlag ChoiceFlag.onceOnly && flow.wasVisited story target
  if holds && !spent then
    pure
      (flow.offer (instruction.hasFlag ChoiceFlag.invisibleDefault)
        (collapsed (textOf start ++ textOf choiceOnly)) claimed.1 target)
  else
    pure flow

end Fabula.Flow
