import Fabula.Proofs.Nesting
import Fabula.Proofs.Step

namespace Fabula

/-!
# Where a flow is

A flow keeps the containers around it.  Markers add and remove them one by one, and jumps
work them out anew.  In a nested story both agree: a flow at an address always keeps the
containers around that address, and the container that an end marker leaves is the one
that was entered last.
-/

/-- Whether a container was left that was not entered. -/
def RuntimeFault.isStray : RuntimeFault → Bool
  | .containerNotEntered _ => true
  | _ => false

/-- Whether an error says that a container was left that was not entered. -/
def Error.isStray : Error → Bool
  | .runtime _ fault => fault.isStray
  | _ => false

/-- A computation gives a value with a property, or an error that is not stray. -/
def Fares
    {ε α : Type}
    (stray : ε → Bool)
    (Property : α → Prop) :
    Except ε α → Prop
  | .ok value => Property value
  | .error error => stray error = false

namespace Fares

variable {ε ε' α β : Type} {stray : ε → Bool} {Property : α → Prop} {Other : β → Prop}

theorem bind
    {result : Except ε α}
    {continuation : α → Except ε β}
    (first : Fares stray Property result)
    (rest : ∀ value, Property value → Fares stray Other (continuation value)) :
    Fares stray Other (result >>= continuation) := by
  cases result with
  | error error =>
      exact first
  | ok value =>
      exact rest value first

theorem imp
    {Weaker : α → Prop}
    {result : Except ε α}
    (first : Fares stray Property result)
    (rest : ∀ value, Property value → Weaker value) :
    Fares stray Weaker result := by
  cases result with
  | error error =>
      exact first
  | ok value =>
      exact rest value first

theorem map
    {result : Except ε α}
    {change : α → β}
    (first : Fares stray Property result)
    (rest : ∀ value, Property value → Other (change value)) :
    Fares stray Other (result.map change) := by
  cases result with
  | error error =>
      exact first
  | ok value =>
      exact rest value first

theorem mapError
    {result : Except ε α}
    {wrap : ε → ε'}
    {other : ε' → Bool}
    (first : Fares stray Property result)
    (kept : ∀ error, stray error = false → other (wrap error) = false) :
    Fares other Property (result.mapError wrap) := by
  cases result with
  | error error =>
      exact kept error first
  | ok value =>
      exact first

end Fares

namespace Flow

/-- A flow keeps the containers around its address. -/
def Placed (story : Story) (flow : Flow) : Prop :=
  ∀ address, flow.ip = some address → flow.containers = story.enclosing address

/-- A flow has not moved. -/
structure Stays (before after : Flow) : Prop where
  ip : after.ip = before.ip
  containers : after.containers = before.containers

/-- A flow has not moved, or has come to an address with the containers around it. -/
def Lands (story : Story) (before after : Flow) : Prop :=
  Stays before after ∨ after.Placed story

section Moves

variable {story : Story} {before flow : Flow}

theorem Stays.refl
    (flow : Flow) :
    Stays flow flow :=
  ⟨rfl, rfl⟩

theorem Stays.lands
    (stays : Stays before flow) :
    Lands story before flow :=
  .inl stays

theorem jump_placed
    (flow : Flow)
    (story : Story)
    (target : Nat) :
    (flow.jump story target).Placed story := by
  rintro _ ⟨⟩
  rfl

theorem goTo_lands
    (story : Story)
    (before flow : Flow)
    (target : Nat) :
    Lands story before (flow.goTo story target).flow :=
  .inr (flow.jump_placed story target)

/-! ## Instructions that stay -/

namespace Stays

theorem push
    (stays : Stays before flow)
    (value : Value) :
    Stays before (flow.push value) :=
  ⟨stays.ip, stays.containers⟩

theorem pop
    (stays : Stays before flow)
    (address : Nat) :
    Fares Error.isStray (fun popped => Stays before popped.2) (flow.pop address) := by
  simp only [Flow.pop, Flow.pop?]
  cases flow.eval with
  | nil =>
      rfl
  | cons value rest =>
      exact ⟨stays.ip, stays.containers⟩

theorem popIf
    (stays : Stays before flow)
    (asked : Bool)
    (address : Nat) :
    Fares Error.isStray (fun popped => Stays before popped.2) (flow.popIf asked address) := by
  simp only [Flow.popIf]
  split
  · exact (stays.pop address).bind fun _ popped => popped
  · exact stays

theorem appendText
    (stays : Stays before flow)
    (text : String) :
    Stays before (flow.appendText text) := by
  simp only [Flow.appendText]
  split <;> exact ⟨stays.ip, stays.containers⟩

theorem pushOrWrite
    (stays : Stays before flow)
    (value : Value) :
    Stays before (flow.pushOrWrite value) := by
  simp only [Flow.pushOrWrite]
  split
  · exact stays.push value
  · exact stays.appendText value.text

theorem endLine
    (stays : Stays before flow) :
    Stays before flow.endLine := by
  simp only [Flow.endLine]
  split
  · exact stays.push _
  · exact ⟨stays.ip, stays.containers⟩

theorem addTag
    (stays : Stays before flow)
    (tag : String) :
    Stays before (flow.addTag tag) := by
  simp only [Flow.addTag]
  split <;> exact ⟨stays.ip, stays.containers⟩

end Stays

/-! ## Operators -/

theorem fares_ofOperator
    {α : Type}
    (result : Except OperatorFault α) :
    Fares RuntimeFault.isStray (fun _ => True) (ofOperator result) := by
  cases result with
  | error fault =>
      rfl
  | ok value =>
      trivial

theorem fares_atAddress
    {α : Type}
    {Property : α → Prop}
    {result : Except RuntimeFault α}
    (fares : Fares RuntimeFault.isStray Property result)
    (address : Nat) :
    Fares Error.isStray Property (atAddress address result) :=
  fares.mapError fun _ kept => kept

theorem fares_toFlags
    (value : Value) :
    Fares RuntimeFault.isStray (fun _ => True) value.toFlags := by
  cases value <;> first | rfl | trivial

theorem fares_toBound
    (extreme : FlagSet → Option Int32)
    (value : Value) :
    Fares RuntimeFault.isStray (fun _ => True) (value.toBound extreme) := by
  simp only [Value.toBound]
  split
  · trivial
  · split
    · trivial
    · rfl

theorem fares_toAddress
    (operator : UnaryOperator)
    (value : Value) :
    Fares RuntimeFault.isStray (fun _ => True) (toAddress operator value) := by
  cases value <;> first | rfl | trivial

namespace Stays

theorem draw
    (stays : Stays before flow)
    (low high : Int32) :
    Stays before (flow.draw low high).2 :=
  ⟨stays.ip, stays.containers⟩

theorem applyBinary
    (stays : Stays before flow)
    (operator : BinaryOperator)
    (left right : Value) :
    Fares RuntimeFault.isStray (fun result => Stays before result.2)
      (flow.applyBinary operator left right) := by
  simp only [Flow.applyBinary]
  split
  · exact stays.draw _ _
  · exact (fares_ofOperator _).bind fun _ _ => stays

theorem binary
    (stays : Stays before flow)
    (operator : BinaryOperator)
    (address : Nat) :
    Fares Error.isStray (Stays before) (flow.binary operator address) := by
  refine (stays.pop address).bind fun right first => ?_
  refine (first.pop address).bind fun left second => ?_
  refine (fares_atAddress (second.applyBinary operator _ _) address).bind fun result last => ?_
  exact last.push result.1

theorem pickFlag
    (stays : Stays before flow)
    (set : FlagSet) :
    Stays before (flow.pickFlag set).2 := by
  simp only [Flow.pickFlag]
  split
  · exact stays
  · split <;> exact stays.draw _ _

theorem applyUnary
    (stays : Stays before flow)
    (story : Story)
    (operator : UnaryOperator)
    (operand : Value) :
    Fares RuntimeFault.isStray (fun result => Stays before result.2)
      (flow.applyUnary story operator operand) := by
  cases operator with
  | not =>
      exact stays
  | negate | floor | ceiling | toInt | toFloat =>
      exact (fares_ofOperator _).bind fun _ _ => stays
  | listCount | listMin | listMax | listAll | listInvert | listValue =>
      exact (fares_toFlags _).bind fun _ _ => stays
  | listRandom =>
      exact (fares_toFlags _).bind fun set _ => stays.pickFlag set
  | readCountVar | turns =>
      exact (fares_toAddress _ _).bind fun _ _ => stays

theorem unary
    (stays : Stays before flow)
    (story : Story)
    (operator : UnaryOperator)
    (address : Nat) :
    Fares Error.isStray (Stays before) (flow.unary story operator address) := by
  refine (stays.pop address).bind fun operand first => ?_
  refine
    (fares_atAddress (first.applyUnary story operator operand.1) address).bind
      fun result last => ?_
  exact last.push result.1

theorem listRange
    (stays : Stays before flow)
    (address : Nat) :
    Fares Error.isStray (Stays before) (flow.listRange address) := by
  refine (stays.pop address).bind fun high first => ?_
  refine (first.pop address).bind fun low second => ?_
  refine (second.pop address).bind fun operand third => ?_
  refine (fares_atAddress (fares_toFlags _) address).bind fun set _ => ?_
  refine (fares_atAddress (fares_toBound _ _) address).bind fun _ _ => ?_
  refine (fares_atAddress (fares_toBound _ _) address).bind fun _ _ => ?_
  exact third.push _

theorem sequence
    (stays : Stays before flow)
    (address : Nat) :
    Fares Error.isStray (Stays before) (flow.sequence address) := by
  refine (stays.pop address).bind fun elements first => ?_
  refine (first.pop address).bind fun visits second => ?_
  simp only
  split
  · rfl
  · split <;> exact second.push _

theorem reseed
    (stays : Stays before flow)
    (address : Nat) :
    Fares Error.isStray (Stays before) (flow.reseed address) := by
  refine (stays.pop address).bind fun seed first => ?_
  simp only
  split
  · exact ⟨first.ip, first.containers⟩
  · rfl

theorem duplicate
    (stays : Stays before flow)
    (address : Nat) :
    Fares Error.isStray (Stays before) (flow.duplicate address) := by
  simp only [Flow.duplicate]
  split
  · rfl
  · exact stays.push _

theorem closeText
    (stays : Stays before flow)
    (address : Nat) :
    Fares Error.isStray (Stays before) (flow.closeText address) := by
  simp only [Flow.closeText]
  split
  · exact ⟨stays.ip, stays.containers⟩
  · rfl

theorem closeTag
    (stays : Stays before flow)
    (address : Nat) :
    Fares Error.isStray (Stays before) (flow.closeTag address) := by
  simp only [Flow.closeTag]
  split
  · next tag output _ =>
      have closed : Stays before { flow with output := output } :=
        ⟨stays.ip, stays.containers⟩
      exact closed.addTag tag
  · rfl

theorem addChoice
    (stays : Stays before flow)
    (story : Story)
    (instruction : Instruction)
    (address : Nat) :
    Fares Error.isStray (Stays before) (flow.addChoice story instruction address) := by
  refine (stays.popIf _ address).bind fun condition first => ?_
  refine (first.popIf _ address).bind fun choiceOnly second => ?_
  refine (second.popIf _ address).bind fun start third => ?_
  simp only [offer]
  split
  · split <;> exact ⟨third.ip, third.containers⟩
  · exact ⟨third.ip, third.containers⟩

/-! ## Variables -/

theorem writeAt
    (stays : Stays before flow)
    (value : Value)
    (place : Place) :
    Fares Error.isStray (fun change => Stays before change.flow) (flow.writeAt value place) := by
  cases place with
  | temp frame name =>
      simp only [Flow.writeAt]
      split
      · exact ⟨stays.ip, stays.containers⟩
      · rfl
  | global name =>
      exact stays

theorem define
    (stays : Stays before flow)
    (redefine : Bool)
    (name : String)
    (value : Value) :
    Fares Error.isStray (fun change => Stays before change.flow)
      (flow.define redefine name value) := by
  simp only [Flow.define]
  split
  · exact stays.writeAt value _
  · exact ⟨stays.ip, stays.containers⟩

end Stays

theorem fares_get
    (store : Store)
    (name : String) :
    Fares Error.isStray (fun _ => True) (store.get name) := by
  simp only [Store.get, Store.index]
  split
  · trivial
  · rfl

theorem fares_read
    (flow : Flow)
    (store : Store)
    (name : String) :
    Fares Error.isStray (fun _ => True) (flow.read store name) := by
  simp only [Flow.read]
  cases flow.place name with
  | temp frame name =>
      simp only [readAt]
      split
      · trivial
      · rfl
  | global name =>
      exact fares_get store name

theorem fares_targetOf
    (flow : Flow)
    (store : Store)
    (name : String)
    (address : Nat) :
    Fares Error.isStray (fun _ => True) (flow.targetOf store name address) := by
  refine (fares_read flow store name).bind fun value _ => ?_
  split
  · trivial
  · rfl

theorem fares_destination
    (flow : Flow)
    (story : Story)
    (store : Store)
    (instruction : Instruction)
    (address : Nat) :
    Fares Error.isStray (fun _ => True) (flow.destination story store instruction address) := by
  simp only [destination]
  split
  · exact fares_targetOf flow store _ address
  · trivial

/-! ## Instructions that move -/

theorem done_placed
    (flow : Flow)
    (story : Story) :
    (flow.done story).flow.Placed story := by
  simp only [done]
  split
  · exact jump_placed _ _ _
  · rintro _ ⟨⟩

theorem returnFrom_placed
    (flow : Flow)
    (story : Story)
    (kind : FrameKind)
    (address : Nat) :
    Fares Error.isStray (fun change => change.flow.Placed story)
      (flow.returnFrom story kind address) := by
  simp only [returnFrom]
  split
  · rfl
  · exact jump_placed _ _ _

theorem call_placed
    (flow : Flow)
    (story : Story)
    (kind : FrameKind)
    (target returnTo : Nat) :
    (flow.call story kind target returnTo).flow.Placed story :=
  jump_placed _ _ _

theorem divert_lands
    (flow : Flow)
    (story : Story)
    (instruction : Instruction)
    (address : Nat) :
    Fares Error.isStray (fun change => Lands story flow change.flow)
      (flow.divert story instruction address) := by
  refine ((Stays.refl flow).popIf _ address).bind fun condition popped => ?_
  simp only
  split
  · exact goTo_lands story flow _ _
  · exact .inl popped

theorem callExternal_lands
    (flow : Flow)
    (setup : Setup)
    (name : String)
    (count address : Nat) :
    Fares Error.isStray (fun change => Lands setup.story flow change.flow)
      (flow.callExternal setup name count address) := by
  simp only [callExternal]
  split
  · rfl
  · split
    · split
      · exact .inr (call_placed _ _ _ _ _)
      · rfl
    · split
      · exact .inl ⟨rfl, rfl⟩
      · rfl

theorem alone_lands
    {result : Except Error Flow}
    (fares : Fares Error.isStray (Stays before) result) :
    Fares Error.isStray (fun change => Lands story before change.flow) (alone result) :=
  fares.map fun _ stays => .inl stays

/-- An instruction other than a marker stays or lands. -/
theorem execute_lands
    (setup : Setup)
    (store : Store)
    (instruction : Instruction)
    (address : Nat)
    (flow : Flow)
    (notStart : instruction.command ≠ .startContainer)
    (notStop : instruction.command ≠ .endContainer) :
    Fares Error.isStray (fun change => Lands setup.story flow change.flow)
      (execute setup store instruction address flow) := by
  obtain ⟨command, flag, payload⟩ := instruction
  have here := Stays.refl flow
  cases command with
  | startContainer =>
      exact absurd rfl notStart
  | endContainer =>
      exact absurd rfl notStop
  | str | int | bool | float | list =>
      exact (here.pushOrWrite _).lands
  | divertValue | void | valuePointer | visit | turn | readCount | choiceCount =>
      exact (here.push _).lands
  | newline =>
      exact here.endLine.lands
  | glue | startEval | endEval | startStr | startTag =>
      exact .inl ⟨rfl, rfl⟩
  | tag =>
      exact (here.addTag _).lands
  | divert =>
      exact divert_lands _ _ _ _
  | divertToVariable =>
      exact (fares_targetOf _ _ _ _).bind fun _ _ => goTo_lands _ _ _ _
  | tunnel | function =>
      exact (fares_destination _ _ _ _ _).bind fun _ _ => .inr (call_placed _ _ _ _ _)
  | thread =>
      exact (fares_destination _ _ _ _ _).bind fun _ _ => .inr (jump_placed _ _ _)
  | done =>
      exact .inr (done_placed flow setup.story)
  | finish =>
      refine .inr ?_
      rintro _ ⟨⟩
  | tunnelReturn | functionReturn =>
      exact (returnFrom_placed flow setup.story _ address).imp fun _ placed => .inr placed
  | defineTemp =>
      refine (here.pop address).bind fun popped stays => ?_
      exact (stays.define _ _ popped.1).imp fun _ written => .inl written
  | setVariable =>
      refine (here.pop address).bind fun popped stays => ?_
      exact (stays.writeAt popped.1 _).imp fun _ written => .inl written
  | output =>
      exact (here.pop address).bind fun popped stays => .inl (stays.appendText _)
  | pop =>
      exact (here.pop address).bind fun popped stays => .inl stays
  | duplicate =>
      exact alone_lands (here.duplicate address)
  | pushVariable =>
      exact (fares_read _ _ _).bind fun _ _ => (here.push _).lands
  | sequence =>
      exact alone_lands (here.sequence address)
  | seed =>
      exact alone_lands (here.reseed address)
  | endStr =>
      exact alone_lands (here.closeText address)
  | endTag =>
      exact alone_lands (here.closeTag address)
  | choice =>
      exact alone_lands (here.addChoice setup.story _ address)
  | listRange =>
      exact alone_lands (here.listRange address)
  | binary operator =>
      exact alone_lands (here.binary operator address)
  | unary operator =>
      exact alone_lands (here.unary setup.story operator address)
  | callExternal =>
      exact callExternal_lands _ _ _ _ _

end Moves

/-! ## Markers -/

theorem splitLast?_snoc
    {α : Type}
    {test : α → Bool}
    {last : α}
    (passes : test last = true)
    (front : List α) :
    splitLast? test (front ++ [last]) = some (front, []) := by
  induction front with
  | nil =>
      simp [splitLast?, passes]
  | cons first rest inductionHypothesis =>
      simp [splitLast?, inductionHypothesis]

theorem enter_place
    (flow : Flow)
    (story : Story)
    (id : UInt32) :
    (flow.enter story id).ip = flow.ip ∧
      (flow.enter story id).containers = flow.containers ++ [id] := by
  simp only [enter]
  split <;> exact ⟨rfl, rfl⟩

/-- The container that is left is the one that was entered last. -/
theorem leaveContainer_placed
    {story : Story}
    {flow : Flow}
    {address : Nat}
    {id : UInt32}
    (here : flow.ip = some (address + 1))
    (around : flow.containers = story.enclosing (address + 1) ++ [id]) :
    Fares Error.isStray (fun change => change.flow.Placed story)
      (flow.leaveContainer story id address) := by
  have left :
      flow.leave? id = some { flow with containers := story.enclosing (address + 1) } := by
    simp [leave?, around, splitLast?_snoc]
  simp only [leaveContainer, left]
  split
  · exact returnFrom_placed _ _ _ _
  · intro next there
    simp only [Change.of, here, Option.some.injEq] at there
    subst there
    rfl

/-- A step at the address of a flow leads to an address with the containers around it. -/
theorem next_placed
    {setup : Setup}
    (nested : setup.story.Nested)
    (store : Store)
    {flow : Flow}
    (placed : flow.Placed setup.story)
    {address : Nat}
    (here : flow.ip = some address) :
    Fares Error.isStray (fun change => change.flow.Placed setup.story)
      (flow.next setup store address) := by
  have around := placed address here
  simp only [next]
  cases found : setup.story.instruction? address with
  | none =>
      exact done_placed flow setup.story
  | some instruction =>
      obtain ⟨command, flag, payload⟩ := instruction
      by_cases start : command = .startContainer
      · subst start
        obtain ⟨ip, containers⟩ :=
          enter_place { flow with ip := some (address + 1) } setup.story payload
        intro next there
        simp only [enterContainer, Change.reported] at there ⊢
        rw [ip, Option.some.injEq] at there
        subst there
        rw [containers, nested.enclosing_start found]
        exact congrArg (· ++ [payload]) around
      · by_cases stop : command = .endContainer
        · subst stop
          exact leaveContainer_placed rfl (around.trans (nested.enclosing_stop found))
        · refine
            (execute_lands setup store ⟨command, flag, payload⟩ address
              { flow with ip := some (address + 1) } start stop).imp fun change lands => ?_
          rcases lands with stays | placed
          · intro next there
            rw [stays.ip, Option.some.injEq] at there
            subst there
            rw [stays.containers, nested.enclosing_plain (by simp [found, start])
              (by simp [found, stop])]
            exact around
          · exact placed

end Flow

end Fabula
