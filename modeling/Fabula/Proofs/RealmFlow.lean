import Fabula.Proofs.Realm

namespace Fabula

/-!
# Flows of a realm

A flow belongs to a realm when all its values do, when all its addresses lie inside the
story, when the outermost frame of each of its call stacks and no other is that of the story
itself, and when it keeps a count of visits and a turn for each container of the story.
Every instruction leads from such a flow to another.
-/

/-- A frame that belongs to a realm. -/
structure Frame.Within
    {story : Story}
    (realm : Realm story)
    (frame : Frame) :
    Prop where
  returnTo : frame.returnTo ≤ story.instructionCount
  temps : ∀ entry ∈ frame.temps, entry.2.Within realm

namespace Frame

namespace Within

variable {story : Story} {realm : Realm story} {frame : Frame}

theorem setTemp
    (within : frame.Within realm)
    (name : String)
    {value : Value}
    (valueWithin : value.Within realm) :
    (frame.setTemp name value).Within realm where
  returnTo := within.returnTo
  temps entry member := by
    rcases mem_assign member with new | old
    · exact new ▸ valueWithin
    · exact within.temps entry old

end Within

end Frame

/-- A call stack that belongs to a realm. -/
structure CallStack.Within
    {story : Story}
    (realm : Realm story)
    (stack : CallStack) :
    Prop where
  root : stack.outermost.kind = .root
  /-- Only the outermost frame is that of the story itself. -/
  calls : ∀ frame ∈ stack.calls, frame.kind ≠ .root
  frames : ∀ frame ∈ stack.frames, frame.Within realm

namespace CallStack

namespace Within

variable {story : Story} {realm : Realm story} {stack : CallStack}

theorem start :
    CallStack.start.Within realm where
  root := rfl
  calls _ member := absurd member List.not_mem_nil
  frames frame member := by
    rw [frames_start, List.mem_singleton] at member
    exact member ▸ ⟨Nat.zero_le _, by simp [Frame.root]⟩

theorem push
    (within : stack.Within realm)
    {kind : FrameKind}
    (called : kind ≠ .root)
    {returnTo : Nat}
    (inside : returnTo ≤ story.instructionCount)
    (callerEval : Bool) :
    (stack.push kind returnTo callerEval).Within realm where
  root := within.root
  calls := List.forall_mem_cons.mpr ⟨called, within.calls⟩
  frames := forall_push.mpr ⟨within.frames, inside, by simp⟩

theorem pop?
    (within : stack.Within realm)
    {kind : FrameKind}
    {frame : Frame}
    {rest : CallStack}
    (popped : stack.pop? kind = some (frame, rest)) :
    frame.Within realm ∧ rest.Within realm := by
  obtain ⟨_, calls, outermost⟩ := of_pop? popped
  obtain ⟨others, closed⟩ := forall_of_pop? popped within.frames
  refine ⟨closed, outermost ▸ within.root, fun other member => ?_, others⟩
  exact within.calls other (calls ▸ List.mem_cons_of_mem frame member)

theorem clear
    (within : stack.Within realm) :
    stack.clear.Within realm where
  root := within.root
  calls _ member := absurd member List.not_mem_nil
  frames frame member := by
    rw [frames_clear, List.mem_singleton] at member
    exact member ▸ ⟨(within.frames _ outermost_mem_frames).returnTo, by simp [ground]⟩

theorem setTempAt
    (within : stack.Within realm)
    (index : Nat)
    (name : String)
    {value : Value}
    (valueWithin : value.Within realm) :
    (stack.setTempAt index name value).Within realm where
  root := (congrArg Frame.kind (stack.ground_setTempAt index name value)).trans within.root
  calls frame member := by
    have kept : frame.kind ∈ stack.calls.map Frame.kind := by
      rw [← stack.kinds_setTempAt index name value]
      exact List.mem_map_of_mem member
    obtain ⟨old, inside, same⟩ := List.mem_map.mp kept
    exact same ▸ within.calls old inside
  frames := forall_setTempAt within.frames fun _ old => old.setTemp name valueWithin

end Within

end CallStack

/-- A waiting flow that belongs to a realm. -/
structure SuspendedFlow.Within
    {story : Story}
    (realm : Realm story)
    (waiting : SuspendedFlow) :
    Prop where
  callStack : waiting.callStack.Within realm
  resumeAt : waiting.resumeAt ≤ story.instructionCount

/-- A choice that belongs to a realm. -/
structure Choice.Within
    {story : Story}
    (realm : Realm story)
    (choice : Choice) :
    Prop where
  target : choice.target ≤ story.instructionCount
  callStack : choice.callStack.Within realm

/-- A flow that belongs to a realm. -/
structure Flow.Within
    {story : Story}
    (realm : Realm story)
    (flow : Flow) :
    Prop where
  ip : ∀ address ∈ flow.ip, address ≤ story.instructionCount
  eval : ∀ value ∈ flow.eval, value.Within realm
  callStack : flow.callStack.Within realm
  threads : ∀ waiting ∈ flow.threads, waiting.Within realm
  containers : ∀ id ∈ flow.containers, id.toNat < story.containerCount
  choices : ∀ choice ∈ flow.choices, choice.Within realm
  /-- Choices are numbered in their order. -/
  numbers : flow.choices.map Choice.index = List.range flow.choices.length
  fallback : ∀ choice ∈ flow.fallback, choice.Within realm
  visits : flow.visits.length = story.containerCount
  turnVisited : flow.turnVisited.length = story.containerCount
  dates : ∀ date, some date ∈ flow.turnVisited → realm.Dated date flow.turn

/-- A request that hands out values of a realm only. -/
def Request.Within {story : Story} (realm : Realm story) : Request → Prop
  | .write _ value => value.Within realm
  | .call _ _ arguments => ∀ value ∈ arguments, value.Within realm

/-- A change that leads to a flow of a realm and hands out values of it only. -/
structure Change.Within
    {story : Story}
    (realm : Realm story)
    (change : Change) :
    Prop where
  flow : change.flow.Within realm
  request : ∀ request ∈ change.request, request.Within realm

namespace Change.Within

variable {story : Story} {realm : Realm story} {flow : Flow}

theorem of
    (within : flow.Within realm) :
    (Change.of flow).Within realm :=
  ⟨within, by simp [Change.of]⟩

theorem reported
    (within : flow.Within realm)
    (events : List Event) :
    (Change.reported flow events).Within realm :=
  ⟨within, by simp [Change.reported]⟩

theorem after
    {change : Change}
    (within : change.Within realm)
    (events : List Event) :
    (Change.after events change).Within realm :=
  ⟨within.flow, within.request⟩

end Change.Within

namespace Story

/-- The containers around an address are containers of the story. -/
theorem Sound.enclosing
    {story : Story}
    (sound : story.Sound)
    {address : Nat}
    {id : UInt32}
    (around : id ∈ story.enclosing address) :
    id.toNat < story.containerCount := by
  simp only [Story.enclosing, List.mem_map, List.mem_mergeSort, List.mem_filter, numbered] at around
  obtain ⟨⟨container, index⟩, ⟨numbered, _⟩, rfl⟩ := around
  have inside : index < story.containerCount := by
    have bound := List.snd_lt_of_mem_zipIdx numbered
    rwa [Array.length_toList] at bound
  have bound := sound.containerCount
  rw [UInt32.toNat_ofNat_of_lt' (Nat.lt_of_lt_of_le inside bound)]
  exact inside

theorem Sound.containerAt?
    {story : Story}
    (sound : story.Sound)
    {path : String}
    {container : Container}
    (found : story.containerAt? path = some container) :
    container.start ≤ story.instructionCount := by
  obtain ⟨id, _, here⟩ := Option.bind_eq_some_iff.mp found
  exact Nat.le_of_lt (sound.starts container (Array.mem_of_getElem? here))

end Story

namespace Flow

theorem start_within
    {story : Story}
    (realm : Realm story)
    (seed : UInt64) :
    (Flow.start story seed).Within realm where
  ip := by
    simp only [Flow.start]
    split <;> simp
  eval := by simp [Flow.start]
  callStack := .start
  threads := by simp [Flow.start]
  containers := by simp [Flow.start]
  choices := by simp [Flow.start]
  numbers := rfl
  fallback := by simp [Flow.start]
  visits := List.length_replicate
  turnVisited := List.length_replicate
  dates date member := nomatch List.eq_of_mem_replicate member

namespace Within

variable {story : Story} {realm : Realm story} {flow : Flow}

/-- Output, tags and random numbers do not matter. -/
theorem dressed
    (within : flow.Within realm)
    (output : Output)
    (tags : Tags)
    (rng : Random.State)
    (evalMode : Bool) :
    Flow.Within realm
      { flow with output := output, tags := tags, rng := rng, evalMode := evalMode } :=
  { within with }

theorem push
    (within : flow.Within realm)
    {value : Value}
    (valueWithin : value.Within realm) :
    (flow.push value).Within realm :=
  { within with
    eval := fun other member => by
      rcases List.mem_cons.mp member with rfl | below
      · exact valueWithin
      · exact within.eval other below }

/-- The stack of a flow holds values of the realm. -/
theorem stocks :
    Stocks (Value.Within realm) (Flow.Within realm) where
  values := Value.Within.closed
  stack within := within.eval
  push within := within.push
  drop within rest :=
    { within with eval := fun value member => within.eval value (rest.mem member) }
  rng rng within := within.dressed _ _ rng _

theorem appendText
    (within : flow.Within realm)
    (text : String) :
    (flow.appendText text).Within realm := by
  simp only [Flow.appendText]
  split <;> exact within.dressed _ _ _ _

theorem pushOrWrite
    (within : flow.Within realm)
    {value : Value}
    (valueWithin : value.Within realm) :
    (flow.pushOrWrite value).Within realm := by
  simp only [Flow.pushOrWrite]
  split
  · exact within.push valueWithin
  · exact within.appendText _

theorem endLine
    (within : flow.Within realm) :
    flow.endLine.Within realm := by
  simp only [Flow.endLine]
  split
  · exact within.push trivial
  · exact within.dressed _ _ _ _

theorem addTag
    (within : flow.Within realm)
    (tag : String) :
    (flow.addTag tag).Within realm := by
  simp only [Flow.addTag]
  split <;> exact within.dressed _ _ _ _

/-! ## Variables -/

theorem readAt
    (within : flow.Within realm)
    {store : Store}
    (globals : ∀ value ∈ store.values, value.Within realm)
    (place : Place) :
    Yields (Value.Within realm) (flow.readAt store place) :=
  readAt_yields trivial (fun frame member => (within.callStack.frames frame member).temps)
    globals place

theorem targetOf
    (within : flow.Within realm)
    {store : Store}
    (globals : ∀ value ∈ store.values, value.Within realm)
    (name : String)
    (address : Nat) :
    Yields (· ≤ story.instructionCount) (flow.targetOf store name address) := by
  refine (within.readAt globals _).bind fun value valueWithin => ?_
  cases value with
  | divert target => exact .ok valueWithin
  | _ => exact .error _

/-- An instruction leads inside the story, unless its address comes from a variable. -/
theorem destination
    (within : flow.Within realm)
    {store : Store}
    (globals : ∀ value ∈ store.values, value.Within realm)
    {instruction : Instruction}
    (inside :
      instruction.hasFlag DivertFlag.toVariable = false →
        instruction.address ≤ story.instructionCount)
    (address : Nat) :
    Yields (· ≤ story.instructionCount) (flow.destination story store instruction address) := by
  simp only [Flow.destination]
  split
  · exact within.targetOf globals _ address
  · next direct => exact .ok (inside (by simpa using direct))

theorem writeAt
    (within : flow.Within realm)
    {value : Value}
    (valueWithin : value.Within realm)
    (place : Place) :
    Yields (Change.Within realm) (flow.writeAt value place) := by
  cases place with
  | temp index name =>
      simp only [Flow.writeAt]
      split
      · refine .ok (.of { within with callStack := ?_ })
        exact within.callStack.setTempAt index name valueWithin
      · exact .error _
  | global name =>
      refine .ok ⟨within, ?_⟩
      rintro _ ⟨⟩
      exact valueWithin

theorem define
    (within : flow.Within realm)
    (redefine : Bool)
    (name : String)
    {value : Value}
    (valueWithin : value.Within realm) :
    Yields (Change.Within realm) (flow.define redefine name value) := by
  simp only [Flow.define]
  split
  · exact within.writeAt valueWithin _
  · refine .ok (.of { within with callStack := ?_ })
    exact within.callStack.setTempAt _ name valueWithin

/-- References to variables belong to every realm, wherever they lead. -/
theorem reference
    (flow : Flow)
    (name : String)
    (flag : UInt8) :
    (flow.reference name flag).Within realm := by
  simp only [Flow.reference]
  split <;> trivial

theorem closeText
    (within : flow.Within realm)
    (address : Nat) :
    Yields (Flow.Within realm) (flow.closeText address) := by
  simp only [Flow.closeText]
  split
  · exact .ok ((within.dressed _ _ _ _).push trivial)
  · exact .error _

theorem closeTag
    (within : flow.Within realm)
    (address : Nat) :
    Yields (Flow.Within realm) (flow.closeTag address) := by
  simp only [Flow.closeTag]
  split
  · exact .ok ((within.dressed _ _ _ _).addTag _)
  · exact .error _

/-! ## Transfers of control -/

theorem jump
    (within : flow.Within realm)
    {target : Nat}
    (inside : target ≤ story.instructionCount) :
    (flow.jump story target).Within realm :=
  { within with
    ip := by
      rintro _ ⟨⟩
      exact inside
    containers := fun _ around => realm.sound.enclosing around }

theorem goTo
    (within : flow.Within realm)
    {target : Nat}
    (inside : target ≤ story.instructionCount) :
    (flow.goTo story target).Within realm :=
  .reported (within.jump inside) _

theorem done
    (within : flow.Within realm) :
    (flow.done story).Within realm := by
  obtain ⟨_, _, _, _, threads, _, _, _, _, _, _, _, _, _, _⟩ := flow
  cases threads with
  | nil =>
      exact .of { within with ip := by simp }
  | cons parent rest =>
      have resumed := within.threads parent List.mem_cons_self
      refine .after (goTo ?_ resumed.resumeAt) _
      exact
        { within with
          callStack := resumed.callStack
          threads := fun other member =>
            within.threads other (List.mem_cons_of_mem parent member) }

theorem finish
    (within : flow.Within realm) :
    flow.finish.Within realm :=
  have ended :
      Flow.Within realm
        { flow with
          ip := none
          ended := true
          choices := []
          fallback := none
          callStack := flow.callStack.clear
          threads := [] } :=
    { within with
      ip := by simp
      choices := by simp
      numbers := rfl
      fallback := by simp
      callStack := within.callStack.clear
      threads := by simp }
  .reported ended _

theorem fork
    (within : flow.Within realm)
    {target resumeAt : Nat}
    (targetInside : target ≤ story.instructionCount)
    (resumeInside : resumeAt ≤ story.instructionCount) :
    (flow.fork story target resumeAt).Within realm := by
  refine .after (goTo ?_ targetInside) _
  refine { within with threads := ?_ }
  intro waiting member
  rcases List.mem_cons.mp member with rfl | older
  · exact ⟨within.callStack, resumeInside⟩
  · exact within.threads waiting older

theorem call
    (within : flow.Within realm)
    {kind : FrameKind}
    (called : kind ≠ .root)
    {target returnTo : Nat}
    (targetInside : target ≤ story.instructionCount)
    (returnInside : returnTo ≤ story.instructionCount) :
    (flow.call story kind target returnTo).Within realm := by
  have opened := within.callStack.push called returnInside flow.evalMode
  simp only [Flow.call]
  split
  · refine .after (goTo ?_ targetInside) _
    exact { within with callStack := opened }
  · refine .after (goTo ?_ targetInside) _
    exact { within with callStack := opened }

theorem returnFrom
    (within : flow.Within realm)
    (kind : FrameKind)
    (address : Nat) :
    Yields (Change.Within realm) (flow.returnFrom story kind address) := by
  simp only [Flow.returnFrom]
  split
  · exact .error _
  · next frame rest popped =>
      obtain ⟨frameWithin, restWithin⟩ := within.callStack.pop? popped
      refine .ok (goTo ?_ frameWithin.returnTo)
      exact { within with callStack := restWithin }

theorem enterContainer
    (within : flow.Within realm)
    {id : UInt32}
    (inside : id.toNat < story.containerCount) :
    (flow.enterContainer story id).Within realm := by
  have around : ∀ other ∈ flow.containers ++ [id], other.toNat < story.containerCount := by
    intro other member
    rcases List.mem_append.mp member with outer | last
    · exact within.containers other outer
    · exact List.mem_singleton.mp last ▸ inside
  refine .reported ?_ _
  simp only [Flow.enter]
  split
  · next container _ =>
      refine { within with containers := around, visits := ?_, turnVisited := ?_, dates := ?_ }
      · simp only [Flow.visit]
        split
        · exact (List.length_modify _ _ _).trans within.visits
        · exact within.visits
      · simp only [Flow.visit]
        split
        · exact List.length_set.trans within.turnVisited
        · exact within.turnVisited
      · intro date member
        simp only [Flow.visit] at member
        split at member
        · rcases List.mem_or_eq_of_mem_set member with earlier | now
          · exact within.dates date earlier
          · exact Option.some.inj now ▸ realm.today flow.turn
        · exact within.dates date member
  · exact { within with containers := around }

theorem leaveContainer
    (within : flow.Within realm)
    (id : UInt32)
    (address : Nat) :
    Yields (Change.Within realm) (flow.leaveContainer story id address) := by
  simp only [Flow.leaveContainer]
  split
  · exact .error _
  · next left found =>
      obtain ⟨parts, cut, rfl⟩ := Option.map_eq_some_iff.mp found
      have leftWithin : Flow.Within realm { flow with containers := parts.1 } :=
        { within with
          containers := fun other member =>
            within.containers other ((prefix_of_splitLast? cut).subset member) }
      split
      · have pushed : (Flow.push { flow with containers := parts.1 } .void).Within realm :=
          leftWithin.push trivial
        exact pushed.returnFrom .function address
      · exact .ok (.of leftWithin)

theorem divert
    (within : flow.Within realm)
    {instruction : Instruction}
    (inside : instruction.address ≤ story.instructionCount)
    (address : Nat) :
    Yields (Change.Within realm) (flow.divert story instruction address) := by
  refine (stocks.popIf within _ address).bind fun _ within => ?_
  simp only
  split
  · exact .ok (within.goTo inside)
  · exact .ok (.of within)

theorem offer
    (within : flow.Within realm)
    (invisible : Bool)
    (text : String)
    (tags : List String)
    {target : Nat}
    (inside : target ≤ story.instructionCount) :
    (flow.offer invisible text tags target).Within realm := by
  have offered : Choice.Within realm ⟨flow.choices.length, text, tags, target, flow.callStack⟩ :=
    ⟨inside, within.callStack⟩
  cases invisible with
  | true =>
      refine { within with fallback := ?_ }
      rintro _ ⟨⟩
      exact offered
  | false =>
      refine { within with choices := ?_, numbers := ?_ }
      · intro choice member
        rcases List.mem_append.mp member with earlier | last
        · exact within.choices choice earlier
        · exact List.mem_singleton.mp last ▸ offered
      · simp only [Flow.offer, Bool.false_eq_true, if_false, List.map_append, within.numbers,
          List.length_append, List.map_cons, List.map_nil, List.length_singleton,
          List.range_succ]

theorem addChoice
    (within : flow.Within realm)
    {instruction : Instruction}
    (inside : instruction.address ≤ story.instructionCount)
    (address : Nat) :
    Yields (Flow.Within realm) (flow.addChoice story instruction address) := by
  refine (stocks.popIf within _ address).bind fun _ within => ?_
  refine (stocks.popIf within _ address).bind fun _ within => ?_
  refine (stocks.popIf within _ address).bind fun _ within => ?_
  simp only
  split
  · exact .ok ((within.dressed _ _ _ _).offer _ _ _ inside)
  · exact .ok (within.dressed _ _ _ _)

theorem callExternal
    {setup : Setup}
    {realm : Realm setup.story}
    (within : flow.Within realm)
    (name : String)
    (count : Nat)
    {address : Nat}
    (inside : address < setup.story.instructionCount) :
    Yields (Change.Within realm) (flow.callExternal setup name count address) := by
  simp only [Flow.callExternal]
  split
  · exact .error _
  · split
    · split
      · next target found =>
          simp only [Story.fallbackFunction?, Option.bind_eq_some_iff,
            Option.ite_none_right_eq_some, Option.some.injEq] at found
          obtain ⟨container, named, _, rfl⟩ := found
          exact .ok (.after (within.call (by decide) (realm.sound.containerAt? named) inside) _)
      · exact .error _
    · split
      · refine .ok ⟨{ within with eval := ?_ }, ?_⟩
        · exact fun value member => within.eval value (List.mem_of_mem_drop member)
        · rintro _ ⟨⟩ value member
          exact within.eval value (List.mem_of_mem_take (List.mem_reverse.mp member))
      · exact .error _

end Within

/-- An instruction does not lead out of a realm. -/
theorem execute_within
    {setup : Setup}
    {realm : Realm setup.story}
    {store : Store}
    (globals : ∀ value ∈ store.values, value.Within realm)
    {address : Nat}
    {instruction : Instruction}
    (here : setup.story.instruction? address = some instruction)
    {flow : Flow}
    (within : flow.Within realm) :
    Yields (Change.Within realm) (execute setup store instruction address flow) := by
  have next : address + 1 ≤ setup.story.instructionCount :=
    (Array.getElem?_eq_some_iff.mp here).1
  have admitted := realm.sound.admitted address instruction here
  obtain ⟨command, flag, payload⟩ := instruction
  have stocks := @Within.stocks _ realm
  have alone {result : Except Error Flow} (made : Yields (Flow.Within realm) result) :
      Yields (Change.Within realm) (Flow.alone result) :=
    made.map fun _ within => .of within
  have pushes {value : Value} (valueWithin : value.Within realm) :
      Yields (Change.Within realm) (.ok (.of (flow.push value)) : Except Error Change) :=
    .ok (.of (within.push valueWithin))
  have writes {value : Value} (valueWithin : value.Within realm) :
      Yields (Change.Within realm)
        (.ok (.of (flow.pushOrWrite value)) : Except Error Change) :=
    .ok (.of (within.pushOrWrite valueWithin))
  have dressed (output : Output) (evalMode : Bool) :
      Yields (Change.Within realm)
        (.ok (.of { flow with output := output, evalMode := evalMode }) : Except Error Change) :=
    .ok (.of (within.dressed output flow.tags flow.rng evalMode))
  cases command with
  | str | int | bool | float =>
      exact writes trivial
  | divertValue =>
      have inside : payload.toNat ≤ setup.story.instructionCount := of_decide_eq_true admitted
      exact pushes inside
  | list =>
      refine writes ?_
      simp only [Story.literal]
      split
      · next set found => exact realm.literals set (Array.mem_of_getElem? found)
      · trivial
  | newline =>
      exact .ok (.of within.endLine)
  | glue | startTag | startEval | endEval | startStr =>
      exact dressed _ _
  | void | visit | turn | readCount | choiceCount =>
      exact pushes trivial
  | tag =>
      exact .ok (.of (within.addTag _))
  | divert =>
      exact within.divert (of_decide_eq_true admitted) address
  | divertToVariable =>
      exact (within.targetOf globals _ address).bind fun _ inside => .ok (within.goTo inside)
  | tunnel | function =>
      refine (within.destination globals ?_ address).bind fun _ inside =>
        .ok (within.call (by decide) inside next)
      intro direct
      simpa [Loader.Bounds.admits, Instruction.address, direct] using admitted
  | thread =>
      refine (within.destination globals ?_ address).bind fun _ inside =>
        .ok (within.fork inside next)
      intro direct
      simpa [Loader.Bounds.admits, Instruction.address, direct] using admitted
  | done =>
      exact .ok (within.done)
  | finish =>
      exact .ok within.finish
  | tunnelReturn | functionReturn =>
      exact within.returnFrom _ address
  | defineTemp =>
      exact (stocks.pop within address).bind fun _ ⟨valueWithin, within⟩ =>
        within.define _ _ valueWithin
  | setVariable =>
      exact (stocks.pop within address).bind fun _ ⟨valueWithin, within⟩ =>
        within.writeAt valueWithin _
  | output =>
      exact (stocks.pop within address).bind fun _ ⟨_, within⟩ => .ok (.of (within.appendText _))
  | pop =>
      exact (stocks.pop within address).bind fun _ ⟨_, within⟩ => .ok (.of within)
  | duplicate =>
      exact alone (stocks.duplicate within address)
  | pushVariable =>
      exact (within.readAt globals _).bind fun _ valueWithin => pushes valueWithin
  | valuePointer =>
      exact pushes (Within.reference flow _ flag)
  | sequence =>
      exact alone (stocks.sequence within address)
  | seed =>
      exact alone (stocks.reseed within address)
  | endStr =>
      exact alone (within.closeText address)
  | endTag =>
      exact alone (within.closeTag address)
  | choice =>
      exact alone (within.addChoice (of_decide_eq_true admitted) address)
  | listRange =>
      exact alone (stocks.listRange within address)
  | binary operator =>
      exact alone (stocks.binary within operator address)
  | unary operator =>
      exact alone (stocks.unary within _ operator address)
  | startContainer =>
      exact .ok (within.enterContainer (of_decide_eq_true admitted))
  | endContainer =>
      exact within.leaveContainer payload address
  | callExternal =>
      exact within.callExternal _ _ next

end Flow

end Fabula
