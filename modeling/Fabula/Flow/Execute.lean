import Fabula.Flow.Operator
import Fabula.Flow.Transfer
import Fabula.Flow.Variable

namespace Fabula.Flow

/-!
# Carrying out instructions

`execute` gives the change that an instruction makes to a flow.  It reads the store
but does not touch it: a write to a global variable and a call of a host function
are requests, which a runner answers.
-/

/-- The address that an instruction leads to: its payload, or what a variable holds. -/
def destination (flow : Flow) (story : Story) (store : Store) (instruction : Instruction)
    (address : Nat) : Except Error Nat :=
  if instruction.hasFlag DivertFlag.toVariable then
    flow.targetOf store (story.string instruction.payload) address
  else
    .ok instruction.address

/-- Go to an address unless a condition on the stack is false. -/
def divert (flow : Flow) (story : Story) (instruction : Instruction) (address : Nat) :
    Except Error Change := do
  let (condition, flow) ← flow.popIf (instruction.hasFlag DivertFlag.condition) address
  if condition.all Value.isTruthy then
    pure (flow.goTo story instruction.address)
  else
    pure (.of flow)

/-- Repeat the top of the stack. -/
def duplicate (flow : Flow) (address : Nat) : Except Error Flow :=
  match flow.eval with
  | [] => fail address .nothingToDuplicate
  | top :: _ => .ok (flow.push top)

/-- How often the innermost container was entered before this time. -/
def earlierVisits (flow : Flow) : UInt32 :=
  let count :=
    match flow.containers.getLast? with
    | some id => flow.visitsOf id.toNat
    | none => 0
  if count = 0 then 0 else count - 1

/-- Start the random numbers from the seed on the stack. -/
def reseed (flow : Flow) (address : Nat) : Except Error Flow := do
  let (seed, flow) ← flow.pop address
  match seed.asInt? with
  | some seed =>
      pure (Flow.push { flow with rng := .ofSeed seed.toInt64.toUInt64 } .void)
  | none => fail address .seedNotNumeric

/-- Start a text on the stack. -/
def openText (flow : Flow) : Flow :=
  { flow with output := flow.output.push .stringMarker, evalMode := false }

/-- Finish a text and push it. -/
def closeText (flow : Flow) (address : Nat) : Except Error Flow :=
  match flow.output.closeMarker? .stringMarker with
  | some (text, output) =>
      .ok (Flow.push { flow with output := output, evalMode := true } (.str text))
  | none => fail address .textNotStarted

def openTag (flow : Flow) : Flow :=
  { flow with output := flow.output.push .tagMarker }

/-- Finish a tag and record it. -/
def closeTag (flow : Flow) (address : Nat) : Except Error Flow :=
  match flow.output.closeMarker? .tagMarker with
  | some (tag, output) => .ok (Flow.addTag { flow with output := output } tag)
  | none => fail address .tagNotStarted

/--
Call a function of the host.  A name without a binding stands for a function of
the story, if there is one.
-/
def callExternal (flow : Flow) (setup : Setup) (name : String) (count address : Nat) :
    Except Error Change :=
  if flow.eval.length < count then
    fail address (.missingArguments name)
  else
    match setup.bindings.get? name with
    | none =>
        match setup.story.fallbackFunction? name with
        | some target =>
            .ok (Change.after [.fallbackUsed name]
              (flow.call setup.story .function target (address + 1)))
        | none => .error (.unboundExternal name)
    | some binding =>
        if binding.arity.all (· == count) then
          .ok
            ⟨{ flow with eval := flow.eval.drop count }, [],
              some (.call name binding (flow.eval.take count).reverse)⟩
        else
          .error (.externalArity name (binding.arity.getD 0) count)

/-- A change of the flow alone, if there is one. -/
def alone (result : Except Error Flow) : Except Error Change :=
  result.map Change.of

/-- The change that an instruction makes to a flow that stands after its address. -/
def execute
    (setup : Setup)
    (store : Store)
    (instruction : Instruction)
    (address : Nat)
    (flow : Flow) :
    Except Error Change :=
  let story := setup.story
  let payload := instruction.payload
  match instruction.command with
  | .str => .ok (.of (flow.pushOrWrite (.str (story.string payload))))
  | .int => .ok (.of (flow.pushOrWrite (.int payload.toInt32)))
  | .bool => .ok (.of (flow.pushOrWrite (.bool (payload != 0))))
  | .float => .ok (.of (flow.pushOrWrite (.float ⟨payload⟩)))
  | .divertValue => .ok (.of (flow.push (.divert payload)))
  | .list => .ok (.of (flow.pushOrWrite (story.literal payload)))
  | .newline => .ok (.of flow.endLine)
  | .glue => .ok (.of { flow with output := flow.output.appendGlue })
  | .void => .ok (.of (flow.push .void))
  | .tag => .ok (.of (flow.addTag (story.string payload)))
  | .divert => flow.divert story instruction address
  | .divertToVariable => do
      let target ← flow.targetOf store (story.string payload) address
      pure (flow.goTo story target)
  | .tunnel => do
      let target ← flow.destination story store instruction address
      pure (flow.call story .tunnel target (address + 1))
  | .function => do
      let target ← flow.destination story store instruction address
      pure (flow.call story .function target (address + 1))
  | .thread => do
      let target ← flow.destination story store instruction address
      pure (flow.fork story target (address + 1))
  | .done => .ok (flow.done story)
  | .finish => .ok flow.finish
  | .tunnelReturn => flow.returnFrom story .tunnel address
  | .functionReturn => flow.returnFrom story .function address
  | .defineTemp => do
      let (value, flow) ← flow.pop address
      flow.define (instruction.hasFlag AssignmentFlag.redefine) (story.string payload) value
  | .setVariable => do
      let (value, flow) ← flow.pop address
      flow.write (story.string payload) value
  | .startEval => .ok (.of { flow with evalMode := true })
  | .endEval => .ok (.of { flow with evalMode := false })
  | .output => do
      let (value, flow) ← flow.pop address
      pure (.of (flow.appendText value.text))
  | .pop => do
      let (_, flow) ← flow.pop address
      pure (.of flow)
  | .duplicate => alone (flow.duplicate address)
  | .pushVariable => do
      let value ← flow.read store (story.string payload)
      pure (.of (flow.push value))
  | .valuePointer =>
      .ok (.of (flow.push (flow.reference (story.string payload) instruction.flag)))
  | .visit => .ok (.of (flow.push (.int flow.earlierVisits.toInt32)))
  | .turn => .ok (.of (flow.push (.int flow.turn.toInt32)))
  | .readCount => .ok (.of (flow.push (.int (flow.visitsOf payload.toNat).toInt32)))
  | .sequence => alone (flow.sequence address)
  | .seed => alone (flow.reseed address)
  | .startStr => .ok (.of flow.openText)
  | .endStr => alone (flow.closeText address)
  | .startTag => .ok (.of flow.openTag)
  | .endTag => alone (flow.closeTag address)
  | .choice => alone (flow.addChoice story instruction address)
  | .listRange => alone (flow.listRange address)
  | .binary operator => alone (flow.binary operator address)
  | .unary operator => alone (flow.unary story operator address)
  | .choiceCount => .ok (.of (flow.push (.int (Int32.ofNat flow.choices.length))))
  | .startContainer => .ok (flow.enterContainer story payload)
  | .endContainer => flow.leaveContainer story payload address
  | .callExternal =>
      flow.callExternal setup (story.string payload) instruction.flag.toNat address

end Fabula.Flow
