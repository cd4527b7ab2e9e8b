import Fabula.Snapshot.Saved

namespace Fabula

/-!
# Restoring saved state

Saved state is checked against the story that it is restored for: its flags and
variables must be declared, its addresses must lie inside the story and it must
count the visits of as many containers as the story has.
-/

/-- The saved state does not fit the story. -/
def refuseMismatch {α : Type} (fault : MismatchFault) : Except Error α :=
  .error (.snapshotMismatch fault)

def refuseCorrupt {α : Type} (fault : CorruptionFault) : Except Error α :=
  .error (.snapshotCorrupt fault)

/-- An address of a saved state; the place after the last instruction counts as inside. -/
def Story.checkAddress (story : Story) (role : AddressRole) (address : UInt64) :
    Except Error Nat :=
  if address.toNat ≤ story.instructionCount then
    .ok address.toNat
  else
    refuseMismatch (.addressOutside role address.toNat)

namespace SavedValue

def listNamed (defs : Definitions) (name : String) : Except Error UInt16 :=
  match defs.listIndex? name with
  | some index => .ok index
  | none => refuseMismatch (.unknownList name)

/-- The flag with a name in the list with a name. -/
def flagNamed (defs : Definitions) (names : String × String) : Except Error FlagId := do
  let index ← listNamed defs names.1
  match defs.flagByName? index names.2 with
  | some item => .ok item
  | none => refuseMismatch (.unknownFlag names.1 names.2)

def restore (story : Story) : SavedValue → Except Error Value
  | .void => .ok .void
  | .bool b => .ok (.bool b)
  | .int i => .ok (.int i)
  | .float x => .ok (.float x)
  | .str s => .ok (.str s)
  | .list items origins => do
      let defs := story.declarations.lists
      let flags ← items.mapM (flagNamed defs)
      let lists ← origins.mapM (listNamed defs)
      pure (.list (.ofParts defs flags lists))
  | .divert target =>
      if target.toNat ≤ story.instructionCount then
        .ok (.divert target)
      else
        refuseMismatch (.divertOutside target)
  | .pointer name none =>
      if (story.declarations.index? name).isSome then
        .ok (.pointer name none)
      else
        refuseMismatch (.undeclaredReference name)
  | .pointer name (some frame) => .ok (.pointer name (some frame.toNat))

end SavedValue

def restoreTemp (story : Story) (entry : String × SavedValue) :
    Except Error (String × Value) := do
  let value ← entry.2.restore story
  pure (entry.1, value)

def SavedFrame.restore (story : Story) (saved : SavedFrame) : Except Error Frame := do
  let returnTo ← story.checkAddress .returnAddress saved.returnTo
  let temps ← saved.temps.mapM (restoreTemp story)
  pure ⟨saved.kind, returnTo, saved.callerEval, temps⟩

/-- Restore a call stack, which starts with the frame of the story. -/
def CallStack.restore (story : Story) (saved : List SavedFrame) : Except Error CallStack := do
  let frames ← saved.mapM (SavedFrame.restore story)
  if (frames.head?.map Frame.kind) = some .root then
    pure (.ofFrames frames)
  else
    refuseCorrupt .noRootFrame

/-- Restore a choice at a position. -/
def SavedChoice.restore (story : Story) (saved : SavedChoice) (index : Nat) :
    Except Error Choice := do
  let target ← story.checkAddress .choiceTarget saved.target
  let callStack ← CallStack.restore story saved.frames
  pure ⟨index, saved.text, saved.tags, target, callStack⟩

def SavedThread.restore (story : Story) (saved : SavedThread) : Except Error SuspendedFlow := do
  let resumeAt ← story.checkAddress .resumeAddress saved.resumeAt
  let callStack ← CallStack.restore story saved.frames
  pure ⟨callStack, resumeAt, saved.evalMode⟩

namespace SavedFlow

/-- The containers that a saved flow tracks are those of the story. -/
def checkContainers (story : Story) (saved : SavedFlow) : Except Error Unit :=
  let count := story.containerCount
  if saved.visits.length = count ∧ saved.turnVisited.length = count then
    match saved.containers.find? (fun id => decide (count ≤ id.toNat)) with
    | some id => refuseCorrupt (.unknownContainer id)
    | none => .ok ()
  else
    refuseMismatch (.containerCount saved.visits.length count)

def restore (story : Story) (saved : SavedFlow) : Except Error Flow := do
  checkContainers story saved
  let ip ← saved.ip.mapM (story.checkAddress .instructionPointer)
  let choices ← saved.choices.zipIdx.mapM (fun entry => entry.1.restore story entry.2)
  let fallback ← saved.fallback.mapM (fun choice => choice.restore story 0)
  let eval ← saved.eval.mapM (SavedValue.restore story)
  let callStack ← CallStack.restore story saved.frames
  let threads ← saved.threads.mapM (SavedThread.restore story)
  pure
    { ip := ip
      evalMode := saved.evalMode
      eval := eval.reverse
      callStack := callStack
      threads := threads.reverse
      output := ⟨saved.output⟩
      containers := saved.containers
      choices := choices
      fallback := fallback
      visits := saved.visits
      turnVisited := saved.turnVisited
      turn := saved.turn
      tags := saved.tags
      rng := saved.rng
      ended := saved.ended }

end SavedFlow

/-- Put the value of a saved variable in its place. -/
def SavedVariable.restore (story : Story) (values : List Value) (saved : SavedVariable) :
    Except Error (List Value) :=
  match story.declarations.index? saved.name with
  | none => refuseMismatch (.undeclaredVariable saved.name)
  | some index => do
      let value ← saved.value.restore story
      if value.kind = saved.kind then
        pure (values.set index value)
      else
        refuseCorrupt (.recordedKind saved.name saved.kind value.kind)

/-- A store with the saved values; variables that were not saved have their first values. -/
def Store.restore (story : Story) (saved : List SavedVariable) : Except Error Store := do
  let values ← saved.foldlM (SavedVariable.restore story) story.declarations.initialValues
  pure (.ofValues story.declarations values)

end Fabula
