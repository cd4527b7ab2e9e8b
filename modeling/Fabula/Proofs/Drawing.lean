import Fabula.Proofs.Courses
import Fabula.Proofs.Stroke

namespace Fabula

/-!
# Drawing

Which stroke a step draws can be told before it is made: from the instruction, from what is
on top of the stack, from whether values are pushed or written, and from the frame that is
open when a container is left.
-/

namespace Flow

/-- A value is written as its text, unless values are pushed. -/
def writing (flow : Flow) (value : Value) : Stroke :=
  if flow.evalMode then .still else .text value.text

/-- The stroke that an instruction draws when it succeeds. -/
def stroke (setup : Setup) (instruction : Instruction) (flow : Flow) : Stroke :=
  let story := setup.story
  let payload := instruction.payload
  match instruction.command with
  | .str => flow.writing (.str (story.string payload))
  | .int => flow.writing (.int payload.toInt32)
  | .bool => flow.writing (.bool (payload != 0))
  | .float => flow.writing (.float ⟨payload⟩)
  | .list => flow.writing (story.literal payload)
  | .newline => if flow.evalMode then .still else .newline
  | .glue => .glue
  | .function => .functionStart
  | .functionReturn => .functionEnd
  | .output =>
      match flow.eval with
      | [] => .still
      | value :: _ => .text value.text
  | .startStr => .mark ⟨.stringMarker, rfl⟩
  | .endStr => .close ⟨.stringMarker, rfl⟩
  | .startTag => .mark ⟨.tagMarker, rfl⟩
  | .endTag => .close ⟨.tagMarker, rfl⟩
  | .endContainer =>
      if isFunction story payload && flow.callStack.top.kind == .function then .functionEnd
      else .still
  | .callExternal =>
      if (setup.bindings.get? (story.string payload)).isNone then .functionStart else .still
  | _ => .still

/-- The stroke of the instruction at an address; behind the last one nothing is drawn. -/
def strokeAt (setup : Setup) (address : Nat) (flow : Flow) : Stroke :=
  match setup.story.instruction? address with
  | none => .still
  | some instruction => flow.stroke setup instruction

/-! ## Instructions -/

/-- A flow that has drawn nothing. -/
def Undrawn (base flow : Flow) : Prop :=
  flow.output = base.output

theorem Undrawn.stocks
    (base : Flow) :
    Stocks (fun _ => True) (Undrawn base) where
  values := .any
  stack _ _ _ := trivial
  push undrawn _ := undrawn
  drop undrawn _ := undrawn
  rng _ undrawn := undrawn

variable {story : Story} {base flow : Flow}

theorem output_appendText
    (flow : Flow)
    (text : String) :
    (flow.appendText text).output = flow.output.appendText text := by
  simp only [appendText]
  split <;> rfl

theorem output_pushOrWrite
    (flow : Flow)
    (value : Value) :
    (flow.pushOrWrite value).output = (flow.writing value).apply flow.output := by
  simp only [pushOrWrite, writing]
  split
  · rfl
  · exact flow.output_appendText value.text

theorem output_endLine
    (flow : Flow) :
    flow.endLine.output =
      (if flow.evalMode then Stroke.still else .newline).apply flow.output := by
  simp only [endLine]
  split <;> rfl

theorem output_addTag
    (flow : Flow)
    (tag : String) :
    (flow.addTag tag).output = flow.output := by
  simp only [addTag]
  split <;> rfl

theorem output_enter
    (flow : Flow)
    (story : Story)
    (id : UInt32) :
    (flow.enter story id).output = flow.output := by
  simp only [enter]
  split <;> rfl

theorem output_done
    (flow : Flow)
    (story : Story) :
    (flow.done story).flow.output = flow.output := by
  simp only [done]
  split <;> rfl

theorem output_call
    (flow : Flow)
    (story : Story)
    (kind : FrameKind)
    (target returnTo : Nat) :
    (flow.call story kind target returnTo).flow.output =
      (if kind = .function then Stroke.functionStart else .still).apply flow.output := by
  simp only [call, Change.after]
  split <;> rfl

theorem output_returnFrom
    (flow : Flow)
    (story : Story)
    (kind : FrameKind)
    (address : Nat) :
    Yields
      (fun change =>
        change.flow.output =
          (if kind = .function then Stroke.functionEnd else .still).apply flow.output)
      (flow.returnFrom story kind address) := by
  simp only [returnFrom]
  cases flow.callStack.pop? kind with
  | none =>
      exact .error _
  | some popped =>
      cases kind <;> exact .ok rfl

/-- A container that is left ends a function if it is one and a function was called. -/
theorem output_leaveContainer
    (flow : Flow)
    (story : Story)
    (id : UInt32)
    (address : Nat) :
    Yields
      (fun change =>
        change.flow.output =
          (if isFunction story id && flow.callStack.top.kind == .function then
            Stroke.functionEnd
          else .still).apply flow.output)
      (flow.leaveContainer story id address) := by
  simp only [leaveContainer]
  cases left : flow.leave? id with
  | none =>
      exact .error _
  | some rest =>
      simp only [leave?, Option.map_eq_some_iff] at left
      obtain ⟨_, _, rfl⟩ := left
      simp only
      split
      · exact output_returnFrom _ story .function address
      · exact .ok rfl

theorem output_divert
    (flow : Flow)
    (instruction : Instruction)
    (address : Nat) :
    Yields (fun change => Undrawn flow change.flow) (flow.divert story instruction address) := by
  refine ((Undrawn.stocks flow).popIf rfl _ _).bind fun popped undrawn => ?_
  simp only
  split <;> exact .ok undrawn

theorem output_writeAt
    (undrawn : Undrawn base flow)
    (value : Value)
    (place : Place) :
    Yields (fun change => Undrawn base change.flow) (flow.writeAt value place) := by
  cases place with
  | temp frame name =>
      simp only [writeAt]
      split
      · exact .ok undrawn
      · exact .error _
  | global name =>
      exact .ok undrawn

theorem output_define
    (undrawn : Undrawn base flow)
    (redefine : Bool)
    (name : String)
    (value : Value) :
    Yields (fun change => Undrawn base change.flow) (flow.define redefine name value) := by
  simp only [define]
  split
  · exact output_writeAt undrawn value _
  · exact .ok undrawn

theorem output_addChoice
    (flow : Flow)
    (instruction : Instruction)
    (address : Nat) :
    Yields (Undrawn flow) (flow.addChoice story instruction address) := by
  have stocks := Undrawn.stocks flow
  refine (stocks.popIf rfl _ _).bind fun condition undrawn => ?_
  refine (stocks.popIf undrawn _ _).bind fun choiceOnly undrawn => ?_
  refine (stocks.popIf undrawn _ _).bind fun start undrawn => ?_
  simp only [offer]
  split
  · split <;> exact .ok undrawn
  · exact .ok undrawn

theorem output_callExternal
    (flow : Flow)
    (setup : Setup)
    (name : String)
    (count address : Nat) :
    Yields
      (fun change =>
        change.flow.output =
          (if (setup.bindings.get? name).isNone then Stroke.functionStart else .still).apply
            flow.output)
      (flow.callExternal setup name count address) := by
  simp only [callExternal]
  by_cases missing : flow.eval.length < count
  · rw [if_pos missing]
    exact .error _
  · rw [if_neg missing]
    cases setup.bindings.get? name with
    | none =>
        cases setup.story.fallbackFunction? name with
        | none =>
            exact .error _
        | some target =>
            exact .ok (output_call _ _ .function _ _)
    | some binding =>
        cases matched : binding.arity.all (· == count) with
        | false =>
            simp only [matched]
            exact .error _
        | true =>
            simp only [matched]
            exact .ok rfl

theorem output_closeText
    (flow : Flow)
    (address : Nat) :
    Yields
      (fun closed => closed.output = (Stroke.close ⟨.stringMarker, rfl⟩).apply flow.output)
      (flow.closeText address) := by
  simp only [closeText]
  split
  · next closed =>
      refine .ok ?_
      simp only [Stroke.apply, closed, Flow.push]
  · exact .error _

theorem output_closeTag
    (flow : Flow)
    (address : Nat) :
    Yields
      (fun closed => closed.output = (Stroke.close ⟨.tagMarker, rfl⟩).apply flow.output)
      (flow.closeTag address) := by
  simp only [closeTag]
  split
  · next closed =>
      refine .ok ?_
      simp only [output_addTag, Stroke.apply, closed]
  · exact .error _

/-- An instruction that succeeds draws its stroke. -/
theorem output_execute
    (setup : Setup)
    (store : Store)
    (instruction : Instruction)
    (address : Nat)
    (flow : Flow) :
    Yields
      (fun change => change.flow.output = (flow.stroke setup instruction).apply flow.output)
      (execute setup store instruction address flow) := by
  obtain ⟨command, flag, payload⟩ := instruction
  have stocks := Undrawn.stocks flow
  have alone {result : Except Error Flow} {drawn : Output}
      (draws : Yields (fun after => after.output = drawn) result) :
      Yields (fun change => change.flow.output = drawn) (alone result) :=
    draws.map fun _ drawn => drawn
  cases command with
  | str | int | bool | float | list =>
      exact .ok (flow.output_pushOrWrite _)
  | newline =>
      exact .ok flow.output_endLine
  | glue | divertValue | void | valuePointer | visit | turn | readCount | choiceCount
  | startEval | endEval | startStr | startTag | finish =>
      exact .ok rfl
  | tag =>
      exact .ok (flow.output_addTag _)
  | divert =>
      exact flow.output_divert _ address
  | divertToVariable | thread | pushVariable =>
      exact Yields.bind (fun _ _ => trivial) fun _ _ => .ok rfl
  | tunnel =>
      exact Yields.bind (fun _ _ => trivial) fun _ _ => .ok (flow.output_call _ .tunnel _ _)
  | function =>
      exact Yields.bind (fun _ _ => trivial) fun _ _ => .ok (flow.output_call _ .function _ _)
  | done =>
      exact .ok (flow.output_done _)
  | tunnelReturn =>
      exact flow.output_returnFrom _ .tunnel address
  | functionReturn =>
      exact flow.output_returnFrom _ .function address
  | defineTemp =>
      exact (stocks.pop rfl _).bind fun _ ⟨_, undrawn⟩ => output_define undrawn _ _ _
  | setVariable =>
      exact (stocks.pop rfl _).bind fun _ ⟨_, undrawn⟩ => output_writeAt undrawn _ _
  | output =>
      simp only [execute, stroke, Flow.pop, pop?]
      cases flow.eval with
      | nil =>
          exact .error _
      | cons value rest =>
          exact .ok (output_appendText _ value.text)
  | pop =>
      exact (stocks.pop rfl _).bind fun _ ⟨_, undrawn⟩ => .ok undrawn
  | duplicate =>
      exact alone (stocks.duplicate rfl _)
  | sequence =>
      exact alone (stocks.sequence rfl _)
  | seed =>
      exact alone (stocks.reseed rfl _)
  | listRange =>
      exact alone (stocks.listRange rfl _)
  | binary operator =>
      exact alone (stocks.binary rfl _ _)
  | unary operator =>
      exact alone (stocks.unary rfl _ _ _)
  | endStr =>
      exact alone (flow.output_closeText address)
  | endTag =>
      exact alone (flow.output_closeTag address)
  | choice =>
      exact alone (flow.output_addChoice _ address)
  | startContainer =>
      exact .ok (flow.output_enter _ _)
  | endContainer =>
      exact flow.output_leaveContainer _ _ address
  | callExternal =>
      exact flow.output_callExternal setup _ _ address

end Flow

namespace Play

variable {σ : Type} {setup : Setup} {host : Host σ} {play after : Play σ} {address : Nat}

/-- A step that succeeds draws the stroke of the instruction at its address. -/
theorem output_step
    (stepped : play.step setup host address = (.ok (), after)) :
    after.flow.output = (play.flow.strokeAt setup address).apply play.flow.output := by
  cases made : play.flow.next setup play.world.store address with
  | error error =>
      simp [step_eq, made] at stepped
  | ok change =>
      obtain ⟨eval, flow⟩ := step_flow host made
      rw [stepped] at flow
      rw [flow]
      simp only [Flow.next] at made
      simp only [Flow.strokeAt]
      cases here : setup.story.instruction? address with
      | none =>
          simp only [here, Except.ok.injEq] at made
          subst made
          exact Flow.output_done _ _
      | some instruction =>
          simp only [here] at made
          -- The position moves on before the instruction is run, and no stroke depends on it.
          exact Flow.output_execute setup _ instruction address
            { play.flow with ip := some (address + 1) } change made

end Play

end Fabula
