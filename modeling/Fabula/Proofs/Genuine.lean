import Fabula.Proofs.Whereabouts

namespace Fabula

/-!
# Errors of a story

An instruction can fail, but only for a reason of the story.  The failure of a host
function is never its error: a host function is called, and observers are told, only when
the request of an instruction is answered.
-/

/-- A computation does not fail with the failure of a host function. -/
def Genuine {α : Type} (result : Except Error α) : Prop :=
  Fares Error.isCallback (fun _ => True) result

namespace Genuine

variable {α β : Type}

theorem bind
    {result : Except Error α}
    {continuation : α → Except Error β}
    (first : Genuine result)
    (rest : ∀ value, Genuine (continuation value)) :
    Genuine (result >>= continuation) :=
  Fares.bind first fun value _ => rest value

theorem of_error
    {result : Except Error α}
    (genuine : Genuine result)
    {error : Error}
    (failed : result = .error error) :
    error.isCallback = false := by
  subst failed
  exact genuine

theorem atAddress
    (address : Nat)
    (result : Except RuntimeFault α) :
    Genuine (Flow.atAddress address result) := by
  cases result with
  | error fault =>
      rfl
  | ok value =>
      trivial

theorem alone
    {result : Except Error Flow}
    (genuine : Genuine result) :
    Genuine (Flow.alone result) :=
  Fares.map genuine fun _ _ => trivial

/-! ## The stack -/

theorem pop
    (flow : Flow)
    (address : Nat) :
    Genuine (flow.pop address) := by
  simp only [Flow.pop]
  split
  · trivial
  · rfl

theorem popIf
    (flow : Flow)
    (asked : Bool)
    (address : Nat) :
    Genuine (flow.popIf asked address) := by
  simp only [Flow.popIf]
  split
  · exact (pop flow address).bind fun _ => trivial
  · trivial

theorem duplicate
    (flow : Flow)
    (address : Nat) :
    Genuine (flow.duplicate address) := by
  simp only [Flow.duplicate]
  split
  · rfl
  · trivial

theorem binary
    (flow : Flow)
    (operator : BinaryOperator)
    (address : Nat) :
    Genuine (flow.binary operator address) :=
  (pop flow address).bind fun _ =>
    (pop _ address).bind fun _ => (atAddress address _).bind fun _ => trivial

theorem unary
    (flow : Flow)
    (story : Story)
    (operator : UnaryOperator)
    (address : Nat) :
    Genuine (flow.unary story operator address) :=
  (pop flow address).bind fun _ => (atAddress address _).bind fun _ => trivial

theorem listRange
    (flow : Flow)
    (address : Nat) :
    Genuine (flow.listRange address) :=
  (pop flow address).bind fun _ =>
    (pop _ address).bind fun _ =>
      (pop _ address).bind fun _ =>
        (atAddress address _).bind fun _ =>
          (atAddress address _).bind fun _ => (atAddress address _).bind fun _ => trivial

theorem sequence
    (flow : Flow)
    (address : Nat) :
    Genuine (flow.sequence address) := by
  refine (pop flow address).bind fun elements => (pop _ address).bind fun visits => ?_
  simp only
  split
  · rfl
  · split <;> trivial

theorem reseed
    (flow : Flow)
    (address : Nat) :
    Genuine (flow.reseed address) := by
  refine (pop flow address).bind fun seed => ?_
  simp only
  split
  · trivial
  · rfl

/-! ## Texts, tags and choices -/

theorem closeText
    (flow : Flow)
    (address : Nat) :
    Genuine (flow.closeText address) := by
  simp only [Flow.closeText]
  split
  · trivial
  · rfl

theorem closeTag
    (flow : Flow)
    (address : Nat) :
    Genuine (flow.closeTag address) := by
  simp only [Flow.closeTag]
  split
  · trivial
  · rfl

theorem addChoice
    (flow : Flow)
    (story : Story)
    (instruction : Instruction)
    (address : Nat) :
    Genuine (flow.addChoice story instruction address) := by
  refine (popIf flow _ address).bind fun condition => ?_
  refine (popIf _ _ address).bind fun choiceOnly => ?_
  refine (popIf _ _ address).bind fun start => ?_
  simp only
  split <;> trivial

/-! ## Variables -/

theorem index
    (store : Store)
    (name : String) :
    Genuine (store.index name) := by
  simp only [Store.index]
  split
  · trivial
  · rfl

theorem read
    (flow : Flow)
    (store : Store)
    (name : String) :
    Genuine (flow.read store name) := by
  simp only [Flow.read]
  cases flow.place name with
  | temp frame name =>
      simp only [Flow.readAt]
      split
      · trivial
      · rfl
  | global name =>
      exact (index store name).bind fun _ => trivial

theorem writeAt
    (flow : Flow)
    (value : Value)
    (place : Flow.Place) :
    Genuine (flow.writeAt value place) := by
  cases place with
  | temp frame name =>
      simp only [Flow.writeAt]
      split
      · trivial
      · rfl
  | global name =>
      trivial

theorem define
    (flow : Flow)
    (redefine : Bool)
    (name : String)
    (value : Value) :
    Genuine (flow.define redefine name value) := by
  simp only [Flow.define]
  split
  · exact writeAt flow value _
  · trivial

/-- A write that cannot be prepared fails for a reason of the story. -/
theorem prepare
    (store : Store)
    (name : String)
    (value : Value) :
    Genuine (store.prepare name value) := by
  refine (index store name).bind fun index => ?_
  simp only
  split
  · trivial
  · rfl

/-! ## Transfers of control -/

theorem targetOf
    (flow : Flow)
    (store : Store)
    (name : String)
    (address : Nat) :
    Genuine (flow.targetOf store name address) := by
  refine (read flow store name).bind fun value => ?_
  split
  · trivial
  · rfl

theorem destination
    (flow : Flow)
    (story : Story)
    (store : Store)
    (instruction : Instruction)
    (address : Nat) :
    Genuine (flow.destination story store instruction address) := by
  simp only [Flow.destination]
  split
  · exact targetOf flow store _ address
  · trivial

theorem divert
    (flow : Flow)
    (story : Story)
    (instruction : Instruction)
    (address : Nat) :
    Genuine (flow.divert story instruction address) := by
  refine (popIf flow _ address).bind fun condition => ?_
  simp only
  split <;> trivial

theorem returnFrom
    (flow : Flow)
    (story : Story)
    (kind : FrameKind)
    (address : Nat) :
    Genuine (flow.returnFrom story kind address) := by
  simp only [Flow.returnFrom]
  split
  · rfl
  · trivial

theorem leaveContainer
    (flow : Flow)
    (story : Story)
    (id : UInt32)
    (address : Nat) :
    Genuine (flow.leaveContainer story id address) := by
  simp only [Flow.leaveContainer]
  split
  · rfl
  · split
    · exact returnFrom _ _ _ _
    · trivial

theorem callExternal
    (flow : Flow)
    (setup : Setup)
    (name : String)
    (count address : Nat) :
    Genuine (flow.callExternal setup name count address) := by
  simp only [Flow.callExternal]
  split
  · rfl
  · split
    · split
      · trivial
      · rfl
    · split
      · trivial
      · rfl

/-- No instruction fails with the failure of a host function. -/
theorem execute
    (setup : Setup)
    (store : Store)
    (instruction : Instruction)
    (address : Nat)
    (flow : Flow) :
    Genuine (flow.execute setup store instruction address) := by
  obtain ⟨command, flag, payload⟩ := instruction
  cases command with
  | divert =>
      exact divert _ _ _ _
  | divertToVariable =>
      exact (targetOf _ _ _ _).bind fun _ => trivial
  | tunnel | function | thread =>
      exact (destination _ _ _ _ _).bind fun _ => trivial
  | tunnelReturn | functionReturn =>
      exact returnFrom _ _ _ _
  | defineTemp =>
      exact (pop _ _).bind fun _ => define _ _ _ _
  | setVariable =>
      exact (pop _ _).bind fun _ => writeAt _ _ _
  | output | pop =>
      exact (pop _ _).bind fun _ => trivial
  | pushVariable =>
      exact (read _ _ _).bind fun _ => trivial
  | duplicate =>
      exact (duplicate _ _).alone
  | sequence =>
      exact (sequence _ _).alone
  | seed =>
      exact (reseed _ _).alone
  | endStr =>
      exact (closeText _ _).alone
  | endTag =>
      exact (closeTag _ _).alone
  | choice =>
      exact (addChoice _ _ _ _).alone
  | listRange =>
      exact (listRange _ _).alone
  | binary operator =>
      exact (binary _ _ _).alone
  | unary operator =>
      exact (unary _ _ _ _).alone
  | endContainer =>
      exact leaveContainer _ _ _ _
  | callExternal =>
      exact callExternal _ _ _ _ _
  | _ =>
      trivial

/-- No step fails with the failure of a host function. -/
theorem next
    (setup : Setup)
    (store : Store)
    (address : Nat)
    (flow : Flow) :
    Genuine (flow.next setup store address) := by
  simp only [Flow.next]
  split
  · trivial
  · exact execute _ _ _ _ _

end Genuine

end Fabula
