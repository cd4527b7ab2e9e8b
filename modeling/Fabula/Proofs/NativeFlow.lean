import Fabula.Proofs.RealmFlow

namespace Fabula

/-!
# Native flows

A flow is native to a story when all its values are, when all its addresses lie inside
the story and when it counts the visits of the story's containers.  What is native is a
realm of the story, so every instruction leads from native flows to native flows.
-/

/-- Operators do not lead out of the sets that are built over given lists. -/
theorem FlagSet.Over.closed
    (defs : Definitions) :
    FlagSet.Closed (FlagSet.Over defs) where
  union := .union
  difference := .difference
  intersection := .intersection
  shift steps built := built.shift steps
  all := .all
  invert := .invert
  singleMin := .singleMin
  singleMax := .singleMax
  range low high built := built.range low high
  only built inside := built.only inside
  itemWithValue value built := built.itemWithValue value

/-- The realm of what is native to a story; any turns may be remembered. -/
def Realm.native {story : Story} (sound : story.Sound) : Realm story where
  sound := sound
  Allowed := FlagSet.Over story.declarations.lists
  closed := FlagSet.Over.closed _
  literals := sound.literals
  Declares declarations size :=
    declarations = story.declarations ∧ size = story.declarations.globals.length
  Dated _ _ := True
  today _ := trivial

variable {story : Story} {sound : story.Sound}

theorem Value.within_native
    {value : Value} :
    value.Within (.native sound) ↔ value.Native story := by
  cases value <;> exact Iff.rfl

/-- A frame that belongs to a story. -/
structure Frame.Native
    (story : Story)
    (frame : Frame) :
    Prop where
  returnTo : frame.returnTo ≤ story.instructionCount
  temps : ∀ entry ∈ frame.temps, entry.2.Native story

theorem Frame.Within.native
    {frame : Frame}
    (within : frame.Within (.native sound)) :
    frame.Native story :=
  ⟨within.returnTo, fun entry member => Value.within_native.mp (within.temps entry member)⟩

/-- A call stack that belongs to a story. -/
structure CallStack.Native
    (story : Story)
    (stack : CallStack) :
    Prop where
  root : stack.outermost.kind = .root
  frames : ∀ frame ∈ stack.frames, frame.Native story

theorem CallStack.Within.native
    {stack : CallStack}
    (within : stack.Within (.native sound)) :
    stack.Native story :=
  ⟨within.root, fun frame member => (within.frames frame member).native⟩

/-- A waiting flow that belongs to a story. -/
structure SuspendedFlow.Native
    (story : Story)
    (waiting : SuspendedFlow) :
    Prop where
  callStack : waiting.callStack.Native story
  resumeAt : waiting.resumeAt ≤ story.instructionCount

theorem SuspendedFlow.Within.native
    {waiting : SuspendedFlow}
    (within : waiting.Within (.native sound)) :
    waiting.Native story :=
  ⟨within.callStack.native, within.resumeAt⟩

/-- A choice that belongs to a story. -/
structure Choice.Native
    (story : Story)
    (choice : Choice) :
    Prop where
  target : choice.target ≤ story.instructionCount
  callStack : choice.callStack.Native story

theorem Choice.Within.native
    {choice : Choice}
    (within : choice.Within (.native sound)) :
    choice.Native story :=
  ⟨within.target, within.callStack.native⟩

/-- A flow that belongs to a story. -/
structure Flow.Native
    (story : Story)
    (flow : Flow) :
    Prop where
  ip : ∀ address ∈ flow.ip, address ≤ story.instructionCount
  eval : ∀ value ∈ flow.eval, value.Native story
  callStack : flow.callStack.Native story
  threads : ∀ waiting ∈ flow.threads, waiting.Native story
  containers : ∀ id ∈ flow.containers, id.toNat < story.containerCount
  choices : ∀ choice ∈ flow.choices, choice.Native story
  /-- Choices are numbered in their order. -/
  numbers : flow.choices.map Choice.index = List.range flow.choices.length
  fallback : ∀ choice ∈ flow.fallback, choice.Native story
  visits : flow.visits.length = story.containerCount
  turnVisited : flow.turnVisited.length = story.containerCount

theorem Flow.Within.native
    {flow : Flow}
    (within : flow.Within (.native sound)) :
    flow.Native story where
  ip := within.ip
  eval value member := Value.within_native.mp (within.eval value member)
  callStack := within.callStack.native
  threads waiting member := (within.threads waiting member).native
  containers := within.containers
  choices choice member := (within.choices choice member).native
  numbers := within.numbers
  fallback choice member := (within.fallback choice member).native
  visits := within.visits
  turnVisited := within.turnVisited

end Fabula
