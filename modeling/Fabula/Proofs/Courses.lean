import Fabula.Proofs.Operands
import Fabula.Proofs.Safety
import Fabula.Proofs.Step

namespace Fabula

/-!
# The courses of a step

Of all that a flow holds, only a few parts steer it: where it is, what is open, what waits
and what is offered.  `Course` lists what a step can make of them: the flow goes on in its
thread, offers a choice, forks a thread, resumes a flow that waited, stops or ends the
story.  `Movement` lists what it can make of the frames of the calls that are open.
Everything that is said about how flows are steered follows from these lists, and both are
found in one pass over the instructions.
-/

/-- Every value is allowed. -/
theorem Value.Closed.any : Value.Closed fun _ => True where
  void := trivial
  bool _ := trivial
  int _ := trivial
  float _ := trivial
  text _ _ := trivial
  lists :=
    { union := fun _ _ => trivial
      difference := fun _ => trivial
      intersection := fun _ => trivial
      shift := fun _ _ => trivial
      all := fun _ => trivial
      invert := fun _ => trivial
      singleMin := fun _ => trivial
      singleMax := fun _ => trivial
      range := fun _ _ _ => trivial
      only := fun _ _ => trivial
      itemWithValue := fun _ _ => trivial }

namespace Flow

/-- A flow that nothing has steered. -/
structure Level (before after : Flow) : Prop where
  ip : after.ip = before.ip
  evalMode : after.evalMode = before.evalMode
  callStack : after.callStack = before.callStack
  threads : after.threads = before.threads
  choices : after.choices = before.choices
  fallback : after.fallback = before.fallback
  ended : after.ended = before.ended

/-- The same is offered, and the story is over if it was. -/
structure SameOffers (before after : Flow) : Prop where
  choices : after.choices = before.choices
  fallback : after.fallback = before.fallback
  ended : after.ended = before.ended

/-- A choice is added to those that are offered, or becomes the fallback. -/
inductive Gathers (choice : Choice) (before after : Flow) : Prop where
  | choice
      (number : choice.index = before.choices.length)
      (choices : after.choices = before.choices ++ [choice])
      (fallback : after.fallback = before.fallback)
  | fallback
      (choices : after.choices = before.choices)
      (fallback : after.fallback = some choice)

theorem mem_offers
    {flow : Flow}
    {choice : Choice} :
    choice ∈ flow.offers ↔ choice ∈ flow.choices ∨ flow.fallback = some choice := by
  simp [offers]

theorem SameOffers.offers
    {before after : Flow}
    (same : SameOffers before after) :
    after.offers = before.offers := by
  simp only [Flow.offers, same.choices, same.fallback]

/-- Nothing is offered any more but what was, or has just been gathered. -/
theorem Gathers.offers
    {before after : Flow}
    {gathered choice : Choice}
    (gathers : Gathers gathered before after)
    (offered : choice ∈ after.offers) :
    choice ∈ before.offers ∨ choice = gathered := by
  rw [mem_offers] at offered ⊢
  cases gathers with
  | choice _ choices fallback =>
      rw [choices, fallback, List.mem_append, List.mem_singleton] at offered
      rcases offered with (older | new) | older
      · exact .inl (.inl older)
      · exact .inr new
      · exact .inl (.inr older)
  | fallback choices fallback =>
      rw [choices, fallback, Option.some.injEq] at offered
      rcases offered with older | new
      · exact .inl (.inl older)
      · exact .inr new.symm

/-- A fallback is taken only while the story goes on. -/
theorem fallback?_eq_some
    {flow : Flow}
    {choice : Choice}
    (taken : flow.fallback? = some choice) :
    flow.ended = false ∧ choice ∈ flow.offers := by
  simp only [fallback?] at taken
  split at taken
  · cases taken
  · next kept =>
      refine ⟨?_, mem_offers.mpr (.inr taken)⟩
      cases ended : flow.ended with
      | false => rfl
      | true => simp [ended] at kept

/-- The instruction at an address has a command. -/
def Commands (story : Story) (address : Nat) (command : Command) : Prop :=
  ∃ instruction,
    story.instruction? address = some instruction ∧
      instruction.command = command

/-- A thread that comes to an address is done there. -/
def Completes (story : Story) (address : Nat) : Prop :=
  story.instruction? address = none ∨ Commands story address .done

/-- What a step at an address can make of a flow. -/
inductive Course (story : Story) (address : Nat) (before after : Flow) : Prop where
  /-- The flow goes on in its thread. -/
  | onward
      (going : after.ip.isSome = true)
      (ground : after.callStack.ground = before.callStack.ground)
      (threads : after.threads = before.threads)
      (offers : SameOffers before after)
  /-- A choice is offered in the name of the calls that are open. -/
  | offered
      {choice : Choice}
      (offering : Commands story address .choice)
      (going : after.ip.isSome = true)
      (callStack : after.callStack = before.callStack)
      (threads : after.threads = before.threads)
      (gathers : Gathers choice before after)
      (carries : choice.callStack = before.callStack)
      (ended : after.ended = before.ended)
  /-- A thread runs on a copy of the calls, and the flow waits for it. -/
  | forked
      (forking : Commands story address .thread)
      (going : after.ip.isSome = true)
      (callStack : after.callStack = before.callStack)
      (threads :
        after.threads = ⟨before.callStack, address + 1, before.evalMode⟩ :: before.threads)
      (offers : SameOffers before after)
  /-- A thread is done, and the flow that waited for it goes on. -/
  | resumed
      {parent : SuspendedFlow}
      (completes : Completes story address)
      (waiting : before.threads = parent :: after.threads)
      (ip : after.ip = some parent.resumeAt)
      (evalMode : after.evalMode = parent.evalMode)
      (callStack : after.callStack = parent.callStack)
      (offers : SameOffers before after)
  /-- Nothing waited, and the flow stops. -/
  | stopped
      (completes : Completes story address)
      (alone : before.threads = [])
      (threads : after.threads = [])
      (ip : after.ip = none)
      (callStack : after.callStack = before.callStack)
      (offers : SameOffers before after)
  /-- The story is over. -/
  | finished
      (finishing : Commands story address .finish)
      (ip : after.ip = none)
      (callStack : after.callStack = before.callStack.clear)
      (threads : after.threads = [])
      (choices : after.choices = [])
      (fallback : after.fallback = none)
      (ended : after.ended = true)

/-- The instruction at an address returns from a call, or is the end of a function. -/
inductive Returns (story : Story) (address : Nat) : FrameKind → Prop where
  | function
      (commands : Commands story address .functionReturn) :
      Returns story address .function
  | tunnel
      (commands : Commands story address .tunnelReturn) :
      Returns story address .tunnel
  | implicit
      {flag : UInt8}
      {payload : UInt32}
      (here : story.instruction? address = some ⟨.endContainer, flag, payload⟩)
      (function : isFunction story payload = true) :
      Returns story address .function

/-- The instruction at an address writes a temporary of a frame through a reference to it. -/
def WritesThrough
    (story : Story)
    (address : Nat)
    (flow : Flow)
    (index : Nat)
    (name : String) :
    Prop :=
  ∃ instruction,
    story.instruction? address = some instruction ∧
      (instruction.command = .setVariable ∨
        instruction.command = .defineTemp ∧
          instruction.hasFlag AssignmentFlag.redefine = true) ∧
      flow.callStack.top.temp? (story.string instruction.payload) =
        some (.pointer name (some index))

/-- The story ends at an address, or a thread is done there and another flow goes on. -/
def Interrupts (story : Story) (address : Nat) (flow : Flow) : Prop :=
  Commands story address .finish ∨ Completes story address ∧ flow.threads ≠ []

/-- What a step at an address can make of the frames of a flow. -/
inductive Movement (story : Story) (address : Nat) (before after : Flow) : Prop where
  /-- No frame is opened, closed or written. -/
  | still
      (callStack : after.callStack = before.callStack)
  /-- A temporary is written, of the innermost frame or through a reference. -/
  | wrote
      (index : Nat)
      (name : String)
      (value : Value)
      (near :
        index = before.callStack.topIndex ∨ WritesThrough story address before index name)
      (callStack : after.callStack = before.callStack.setTempAt index name value)
  | called
      {kind : FrameKind}
      (callStack : after.callStack = before.callStack.push kind (address + 1) before.evalMode)
  | returned
      {kind : FrameKind}
      {frame : Frame}
      (returns : Returns story address kind)
      (popped : before.callStack.pop? kind = some (frame, after.callStack))
      (ip : after.ip = some frame.returnTo)
      (evalMode : after.evalMode = frame.callerEval)
  /-- The calls of this flow are over, and others may be open. -/
  | interrupted
      (interrupts : Interrupts story address before)

/-- What a step at an address makes of a flow: its course, and how its frames move. -/
structure Turn (story : Story) (address : Nat) (before after : Flow) : Prop where
  course : Course story address before after
  movement : Movement story address before after

namespace Turn

variable {story : Story} {address : Nat} {before after : Flow}

/-- A flow goes on in its thread with the calls that were open. -/
theorem onward
    (going : after.ip.isSome = true)
    (callStack : after.callStack = before.callStack)
    (threads : after.threads = before.threads)
    (offers : SameOffers before after) :
    Turn story address before after :=
  ⟨.onward going (by rw [callStack]) threads offers, .still callStack⟩

theorem wrote
    (going : after.ip.isSome = true)
    (index : Nat)
    (name : String)
    (value : Value)
    (near :
      index = before.callStack.topIndex ∨ WritesThrough story address before index name)
    (callStack : after.callStack = before.callStack.setTempAt index name value)
    (threads : after.threads = before.threads)
    (offers : SameOffers before after) :
    Turn story address before after :=
  ⟨.onward going (by rw [callStack, CallStack.ground_setTempAt]) threads offers,
    .wrote index name value near callStack⟩

theorem called
    (going : after.ip.isSome = true)
    {kind : FrameKind}
    (callStack : after.callStack = before.callStack.push kind (address + 1) before.evalMode)
    (threads : after.threads = before.threads)
    (offers : SameOffers before after) :
    Turn story address before after :=
  ⟨.onward going (by rw [callStack, CallStack.ground_push]) threads offers, .called callStack⟩

theorem returned
    {kind : FrameKind}
    {frame : Frame}
    (returns : Returns story address kind)
    (popped : before.callStack.pop? kind = some (frame, after.callStack))
    (ip : after.ip = some frame.returnTo)
    (evalMode : after.evalMode = frame.callerEval)
    (threads : after.threads = before.threads)
    (offers : SameOffers before after) :
    Turn story address before after :=
  ⟨.onward (by rw [ip, Option.isSome_some]) (CallStack.ground_of_pop? popped) threads offers,
    .returned returns popped ip evalMode⟩

end Turn

section Instructions

variable {story : Story} {base flow : Flow} {address : Nat}

/-! ## Instructions that steer nothing -/

theorem Level.refl
    (flow : Flow) :
    Level flow flow :=
  ⟨rfl, rfl, rfl, rfl, rfl, rfl, rfl⟩

theorem Level.offers
    (level : Level base flow) :
    SameOffers base flow :=
  ⟨level.choices, level.fallback, level.ended⟩

/-- What only works on the stack steers nothing. -/
theorem Level.stocks
    (base : Flow) :
    Stocks (fun _ => True) (Level base) where
  values := .any
  stack _ _ _ := trivial
  push level _ := { level with }
  drop level _ := { level with }
  rng _ level := { level with }

namespace Level

theorem push
    (level : Level base flow)
    (value : Value) :
    Level base (flow.push value) :=
  (stocks base).push level trivial

theorem appendText
    (level : Level base flow)
    (text : String) :
    Level base (flow.appendText text) := by
  simp only [Flow.appendText]
  split <;> exact { level with }

theorem pushOrWrite
    (level : Level base flow)
    (value : Value) :
    Level base (flow.pushOrWrite value) := by
  simp only [Flow.pushOrWrite]
  split
  · exact level.push value
  · exact level.appendText value.text

theorem endLine
    (level : Level base flow) :
    Level base flow.endLine := by
  simp only [Flow.endLine]
  split
  · exact level.push _
  · exact { level with }

theorem addTag
    (level : Level base flow)
    (tag : String) :
    Level base (flow.addTag tag) := by
  simp only [Flow.addTag]
  split <;> exact { level with }

theorem enter
    (level : Level base flow)
    (story : Story)
    (id : UInt32) :
    Level base (flow.enter story id) := by
  simp only [Flow.enter]
  split <;> exact { level with }

theorem closeTag
    (level : Level base flow)
    (address : Nat) :
    Yields (Level base) (flow.closeTag address) := by
  simp only [Flow.closeTag]
  split
  · refine .ok (addTag ?_ _)
    exact { level with }
  · exact .error _

/-- A flow that nothing has steered goes on in its thread. -/
theorem turn
    (level : Level base flow)
    (going : base.ip.isSome = true) :
    Turn story address base flow :=
  .onward (level.ip ▸ going) level.callStack level.threads level.offers

end Level

/-- Whether instructions with a command can steer a flow. -/
def steers : Command → Bool
  | .divert | .divertToVariable | .tunnel | .function | .thread | .done | .finish
  | .tunnelReturn | .functionReturn | .defineTemp | .setVariable | .startEval | .endEval
  | .startStr | .endStr | .choice | .endContainer | .callExternal => true
  | _ => false

theorem execute_level
    {setup : Setup}
    (store : Store)
    {instruction : Instruction}
    (idle : steers instruction.command = false) :
    Yields (fun change => Level flow change.flow)
      (execute setup store instruction address flow) := by
  obtain ⟨command, flag, payload⟩ := instruction
  have stocks := Level.stocks flow
  have still := Level.refl flow
  have alone {result : Except Error Flow} (level : Yields (Level flow) result) :
      Yields (fun change => Level flow change.flow) (alone result) :=
    level.map fun _ level => level
  cases command with
  | str | int | bool | float | list =>
      exact .ok (still.pushOrWrite _)
  | divertValue | void | valuePointer | visit | turn | readCount | choiceCount =>
      exact .ok (still.push _)
  | newline =>
      exact .ok still.endLine
  | glue | startTag =>
      exact .ok ⟨rfl, rfl, rfl, rfl, rfl, rfl, rfl⟩
  | tag =>
      exact .ok (still.addTag _)
  | output =>
      exact (stocks.pop still _).bind fun _ ⟨_, kept⟩ => .ok (kept.appendText _)
  | pop =>
      exact (stocks.pop still _).bind fun _ ⟨_, kept⟩ => .ok kept
  | duplicate =>
      exact alone (stocks.duplicate still _)
  | pushVariable =>
      exact Yields.bind (fun _ _ => trivial) fun _ _ => .ok (still.push _)
  | sequence =>
      exact alone (stocks.sequence still _)
  | seed =>
      exact alone (stocks.reseed still _)
  | endTag =>
      exact alone (still.closeTag _)
  | listRange =>
      exact alone (stocks.listRange still _)
  | binary operator =>
      exact alone (stocks.binary still _ _)
  | unary operator =>
      exact alone (stocks.unary still _ _ _)
  | startContainer =>
      exact .ok (still.enter _ _)
  | divert | divertToVariable | tunnel | function | thread | done | finish | tunnelReturn
  | functionReturn | defineTemp | setVariable | startEval | endEval | startStr | endStr | choice
  | endContainer | callExternal =>
      cases idle

/-! ## Instructions that steer -/

theorem done_turn
    (completes : Completes story address) :
    Turn story address flow (flow.done story).flow := by
  simp only [done]
  cases waiting : flow.threads with
  | nil =>
      exact ⟨.stopped completes waiting rfl rfl rfl ⟨rfl, rfl, rfl⟩, .still rfl⟩
  | cons parent rest =>
      exact ⟨.resumed completes waiting rfl rfl rfl ⟨rfl, rfl, rfl⟩,
        .interrupted (.inr ⟨completes, by simp [waiting]⟩)⟩

theorem call_turn
    (story : Story)
    (address : Nat)
    (flow : Flow)
    (kind : FrameKind)
    (target : Nat) :
    Turn story address flow (flow.call story kind target (address + 1)).flow := by
  simp only [call, Change.after]
  split <;> exact .called rfl rfl rfl ⟨rfl, rfl, rfl⟩

theorem returnFrom_turn
    {kind : FrameKind}
    (returns : Returns story address kind)
    (level : Level base flow) :
    Yields (fun change => Turn story address base change.flow)
      (flow.returnFrom story kind address) := by
  simp only [returnFrom]
  cases popped : flow.callStack.pop? kind with
  | none =>
      exact .error _
  | some parts =>
      exact .ok (.returned returns (level.callStack ▸ popped) rfl rfl level.threads
        { level.offers with })

theorem leaveContainer_turn
    {flag : UInt8}
    {id : UInt32}
    (here : story.instruction? address = some ⟨.endContainer, flag, id⟩)
    (going : flow.ip.isSome = true) :
    Yields (fun change => Turn story address flow change.flow)
      (flow.leaveContainer story id address) := by
  simp only [leaveContainer]
  cases left : flow.leave? id with
  | none =>
      exact .error _
  | some rest =>
      have level : Level flow rest := by
        simp only [leave?, Option.map_eq_some_iff] at left
        obtain ⟨_, _, rfl⟩ := left
        exact ⟨rfl, rfl, rfl, rfl, rfl, rfl, rfl⟩
      simp only
      split
      · next function =>
          have implicit : isFunction story id = true := (Bool.and_eq_true_iff.mp function).1
          exact returnFrom_turn (.implicit here implicit) (level.push .void)
      · exact .ok (level.turn going)

theorem divert_turn
    (going : flow.ip.isSome = true)
    (instruction : Instruction) :
    Yields (fun change => Turn story address flow change.flow)
      (flow.divert story instruction address) := by
  refine ((Level.stocks flow).popIf (.refl flow) _ _).bind fun popped level => ?_
  simp only
  split
  · exact .ok (.onward rfl level.callStack level.threads { level.offers with })
  · exact .ok (level.turn going)

theorem writeAt_turn
    (level : Level base flow)
    (going : base.ip.isSome = true)
    (value : Value)
    {place : Place}
    (near :
      ∀ index name,
        place = .temp index name →
        index = base.callStack.topIndex ∨ WritesThrough story address base index name) :
    Yields (fun change => Turn story address base change.flow)
      (flow.writeAt value place) := by
  cases place with
  | temp index name =>
      simp only [writeAt]
      split
      · refine .ok (.wrote (level.ip ▸ going) index name value (near index name rfl) ?_
          level.threads { level.offers with })
        exact congrArg (fun stack => stack.setTempAt index name value) level.callStack
      · exact .error _
  | global name =>
      exact .ok (level.turn going)

/-- What is written through a name goes to the innermost frame or through a reference. -/
theorem write_turn
    (level : Level base flow)
    (going : base.ip.isSome = true)
    {instruction : Instruction}
    (here : story.instruction? address = some instruction)
    (writes :
      instruction.command = .setVariable ∨
        instruction.command = .defineTemp ∧
          instruction.hasFlag AssignmentFlag.redefine = true)
    (value : Value) :
    Yields (fun change => Turn story address base change.flow)
      (flow.write (story.string instruction.payload) value) := by
  refine writeAt_turn level going value fun index name there => ?_
  simp only [place, level.callStack] at there
  split at there
  · next target home held =>
      cases home with
      | none =>
          cases there
      | some frame =>
          cases there
          exact .inr ⟨instruction, here, writes, held⟩
  · cases there
    exact .inl rfl
  · cases there

theorem define_turn
    (level : Level base flow)
    (going : base.ip.isSome = true)
    {instruction : Instruction}
    (here : story.instruction? address = some instruction)
    (defines : instruction.command = .defineTemp)
    (value : Value) :
    Yields (fun change => Turn story address base change.flow)
      (flow.define (instruction.hasFlag AssignmentFlag.redefine)
        (story.string instruction.payload) value) := by
  simp only [define]
  split
  · next redefine _ =>
      exact write_turn level going here (.inr ⟨defines, redefine⟩) value
  · refine .ok (.wrote (level.ip ▸ going) _ (story.string instruction.payload) value (.inl rfl)
      ?_ level.threads { level.offers with })
    exact congrArg (fun stack : CallStack => stack.setTemp _ value) level.callStack

theorem callExternal_turn
    (going : flow.ip.isSome = true)
    (setup : Setup)
    (name : String)
    (count : Nat) :
    Yields (fun change => Turn setup.story address flow change.flow)
      (flow.callExternal setup name count address) := by
  simp only [callExternal]
  split
  · exact .error _
  · split
    · split
      · exact .ok (call_turn _ _ _ _ _)
      · exact .error _
    · split
      · exact .ok (.onward going rfl rfl ⟨rfl, rfl, rfl⟩)
      · exact .error _

/-- A flow that offers a choice does so in the name of the calls that are open. -/
theorem offer_turn
    (level : Level base flow)
    (going : base.ip.isSome = true)
    (offering : Commands story address .choice)
    (invisible : Bool)
    (text : String)
    (tags : List String)
    (target : Nat) :
    Turn story address base (flow.offer invisible text tags target) := by
  have carries := level.callStack
  have ip : flow.ip.isSome = true := level.ip ▸ going
  simp only [offer]
  split
  · exact ⟨.offered offering ip carries level.threads (.fallback level.choices rfl) carries
      level.ended, .still carries⟩
  · refine ⟨.offered offering ip carries level.threads
      (.choice ?_ (congrArg (· ++ _) level.choices) level.fallback) carries level.ended,
      .still carries⟩
    exact congrArg List.length level.choices

theorem addChoice_turn
    (going : flow.ip.isSome = true)
    (offering : Commands story address .choice)
    (instruction : Instruction) :
    Yields (Turn story address flow) (flow.addChoice story instruction address) := by
  have stocks := Level.stocks flow
  refine (stocks.popIf (.refl flow) _ _).bind fun condition level => ?_
  refine (stocks.popIf level _ _).bind fun choiceOnly level => ?_
  refine (stocks.popIf level _ _).bind fun start level => ?_
  simp only
  split
  · refine .ok (offer_turn ?_ going offering _ _ _ _)
    exact { level with }
  · exact .ok (.onward (level.ip ▸ going) level.callStack level.threads { level.offers with })

theorem closeText_turn
    (going : flow.ip.isSome = true) :
    Yields (Turn story address flow) (flow.closeText address) := by
  simp only [closeText]
  split
  · exact .ok (.onward going rfl rfl ⟨rfl, rfl, rfl⟩)
  · exact .error _

end Instructions

/-! ## Steps -/

/-- What the instruction at an address makes of a flow that goes on behind it. -/
theorem execute_turn
    {setup : Setup}
    (store : Store)
    {instruction : Instruction}
    {address : Nat}
    (here : setup.story.instruction? address = some instruction)
    {flow : Flow}
    (entered : flow.ip = some (address + 1)) :
    Yields (fun change => Turn setup.story address flow change.flow)
      (execute setup store instruction address flow) := by
  obtain ⟨command, flag, payload⟩ := instruction
  have going : flow.ip.isSome = true := by
    rw [entered]
    rfl
  have commands : Commands setup.story address command := ⟨_, here, rfl⟩
  have stocks := Level.stocks flow
  have still := Level.refl flow
  have alone {result : Except Error Flow}
      (turn : Yields (Turn setup.story address flow) result) :
      Yields (fun change => Turn setup.story address flow change.flow) (alone result) :=
    turn.map fun _ turn => turn
  cases command with
  | str | int | bool | float | list | divertValue | void | valuePointer | visit | turn | readCount
  | choiceCount | newline | glue | startTag | tag | output | pop | duplicate | pushVariable
  | sequence | seed | endTag | listRange | binary | unary | startContainer =>
      exact fun change made => (execute_level store rfl change made).turn going
  | startEval | endEval | startStr =>
      exact .ok (.onward going rfl rfl ⟨rfl, rfl, rfl⟩)
  | divert =>
      exact divert_turn going _
  | divertToVariable =>
      exact Yields.bind (fun _ _ => trivial) fun _ _ =>
        .ok (.onward rfl rfl rfl ⟨rfl, rfl, rfl⟩)
  | tunnel | function =>
      exact Yields.bind (fun _ _ => trivial) fun _ _ => .ok (call_turn _ _ _ _ _)
  | thread =>
      refine Yields.bind (fun _ _ => trivial) fun _ _ => .ok ⟨?_, .still rfl⟩
      exact .forked commands rfl rfl (by simp only [fork]; rfl) ⟨rfl, rfl, rfl⟩
  | done =>
      exact .ok (done_turn (.inr commands))
  | finish =>
      exact .ok ⟨.finished commands rfl rfl rfl rfl rfl rfl, .interrupted (.inl commands)⟩
  | tunnelReturn =>
      exact returnFrom_turn (.tunnel commands) still
  | functionReturn =>
      exact returnFrom_turn (.function commands) still
  | defineTemp =>
      exact (stocks.pop still _).bind fun _ ⟨_, kept⟩ => define_turn kept going here rfl _
  | setVariable =>
      exact (stocks.pop still _).bind fun _ ⟨_, kept⟩ => write_turn kept going here (.inl rfl) _
  | endStr =>
      exact alone (closeText_turn going)
  | choice =>
      exact alone (addChoice_turn going commands _)
  | endContainer =>
      exact leaveContainer_turn here going
  | callExternal =>
      exact callExternal_turn going _ _ _

/-- A course depends neither on where the flow came from nor on what is left on its stack. -/
theorem Course.shift
    {story : Story}
    {address : Nat}
    {before after : Flow}
    {ip : Option Nat}
    (eval : List Value)
    (course : Course story address { before with ip := ip } after) :
    Course story address before { after with eval := eval } := by
  cases course with
  | onward going ground threads offers =>
      exact .onward going ground threads ⟨offers.1, offers.2, offers.3⟩
  | offered offering going callStack threads gathers carries ended =>
      refine .offered offering going callStack threads ?_ carries ended
      cases gathers with
      | choice number choices fallback =>
          exact .choice number choices fallback
      | fallback choices fallback =>
          exact .fallback choices fallback
  | forked forking going callStack threads offers =>
      exact .forked forking going callStack threads ⟨offers.1, offers.2, offers.3⟩
  | resumed completes waiting ip evalMode callStack offers =>
      exact .resumed completes waiting ip evalMode callStack ⟨offers.1, offers.2, offers.3⟩
  | stopped completes alone threads ip callStack offers =>
      exact .stopped completes alone threads ip callStack ⟨offers.1, offers.2, offers.3⟩
  | finished finishing ip callStack threads choices fallback ended =>
      exact .finished finishing ip callStack threads choices fallback ended

/-- Frames move alike wherever the flow came from and whatever is left on its stack. -/
theorem Movement.shift
    {story : Story}
    {address : Nat}
    {before after : Flow}
    {ip : Option Nat}
    (eval : List Value)
    (movement : Movement story address { before with ip := ip } after) :
    Movement story address before { after with eval := eval } := by
  cases movement with
  | still callStack =>
      exact .still callStack
  | wrote index name value near callStack =>
      exact .wrote index name value near callStack
  | called callStack =>
      exact .called callStack
  | returned returns popped ip evalMode =>
      exact .returned returns popped ip evalMode
  | interrupted interrupts =>
      exact .interrupted interrupts

theorem Turn.shift
    {story : Story}
    {address : Nat}
    {before after : Flow}
    {ip : Option Nat}
    (eval : List Value)
    (turn : Turn story address { before with ip := ip } after) :
    Turn story address before { after with eval := eval } :=
  ⟨turn.course.shift eval, turn.movement.shift eval⟩

/-- What the change of a step makes of a flow. -/
theorem next_turn
    (setup : Setup)
    (store : Store)
    (address : Nat)
    (flow : Flow) :
    Yields (fun change => Turn setup.story address flow change.flow)
      (flow.next setup store address) := by
  simp only [next]
  cases here : setup.story.instruction? address with
  | none =>
      exact .ok (done_turn (.inl here))
  | some instruction =>
      intro change made
      exact (execute_turn store here rfl change made).shift change.flow.eval

end Flow

namespace Play

variable {σ : Type} {setup : Setup} {host : Host σ} {play : Play σ} {address : Nat}

/-- Beyond the change of its instruction a step touches nothing but the stack. -/
theorem step_flow
    (host : Host σ)
    {change : Change}
    (made : play.flow.next setup play.world.store address = .ok change) :
    ∃ eval, (play.step setup host address).2.flow = { change.flow with eval := eval } := by
  rw [step_eq, made]
  simp only
  cases change.request with
  | none =>
      exact ⟨change.flow.eval, rfl⟩
  | some request =>
      cases request with
      | write name value =>
          exact ⟨change.flow.eval, ((play.carry setup change).assign_world host name value).2⟩
      | call name binding arguments =>
          simp only [answer, callHost]
          split
          · split
            · exact ⟨change.flow.eval, rfl⟩
            · exact ⟨_, rfl⟩
          · exact ⟨_, rfl⟩

/-- What a step makes of the flow, whether it succeeds or fails. -/
theorem step_turn
    {result : Except Error Unit}
    {after : Play σ}
    (stepped : play.step setup host address = (result, after)) :
    Flow.Turn setup.story address play.flow after.flow := by
  obtain rfl : (play.step setup host address).2 = after := by
    rw [stepped]
  cases made : play.flow.next setup play.world.store address with
  | error error =>
      rw [step_eq, made]
      exact .onward rfl rfl rfl ⟨rfl, rfl, rfl⟩
  | ok change =>
      obtain ⟨eval, flow⟩ := step_flow host made
      rw [flow]
      exact (Flow.next_turn setup _ address play.flow change made).shift eval

end Play

end Fabula
