import Fabula.Proofs.Discretion
import Fabula.Runner.Line

namespace Fabula

/-!
# Steps side by side

A step carries out the change of one instruction and answers its request.  Two plays
whose flows make corresponding changes stay in correspondence as long as their worlds
are joined by a bridge: a relation that shows the same globals on both sides and is
kept by writes and by the calls that are made.
-/

namespace Store

/-- Stores with the same declarations and values show the same globals. -/
theorem get_congr
    {left right : Store}
    (declarations : left.declarations = right.declarations)
    (values : left.values = right.values) :
    left.get = right.get := by
  obtain ⟨leftDeclarations, leftValues, _, _, _⟩ := left
  obtain ⟨rightDeclarations, rightValues, _, _, _⟩ := right
  simp only at declarations values
  subst declarations values
  rfl

end Store

namespace Flow

/-- A flow reads nothing of a store but its globals. -/
theorem read_congr
    {left right : Store}
    (same : left.get = right.get)
    (flow : Flow) :
    flow.read left = flow.read right := by
  funext name
  simp only [read, readAt, same]

/-- The address that a variable holds depends on the globals only. -/
theorem targetOf_congr
    {left right : Store}
    (same : left.get = right.get)
    (flow : Flow) :
    flow.targetOf left = flow.targetOf right := by
  funext name address
  simp only [targetOf, read_congr same]

/-- An instruction reads nothing of a store but its globals. -/
theorem execute_congr
    {left right : Store}
    (same : left.get = right.get)
    (setup : Setup)
    (instruction : Instruction)
    (address : Nat)
    (flow : Flow) :
    execute setup left instruction address flow =
      execute setup right instruction address flow := by
  simp only [execute, destination, targetOf_congr same, read_congr same]

/-- The change that the step at an address makes to a flow. -/
def next
    (setup : Setup)
    (store : Store)
    (address : Nat)
    (flow : Flow) :
    Except Error Change :=
  match setup.story.instruction? address with
  | none => .ok (flow.done setup.story)
  | some instruction =>
      execute setup store instruction address { flow with ip := some (address + 1) }

/-- A step reads nothing of a store but its globals. -/
theorem next_congr
    {left right : Store}
    (same : left.get = right.get)
    (setup : Setup)
    (address : Nat)
    (flow : Flow) :
    flow.next setup left address = flow.next setup right address := by
  simp only [next, execute_congr same]

/-- The changes of a result call no function of the host. -/
def CallsNone (result : Except Error Change) : Prop :=
  ∀ change name binding arguments,
    result = .ok change →
    change.request ≠ some (.call name binding arguments)

namespace CallsNone

theorem ok
    {change : Change}
    (none : change.request = none) :
    CallsNone (.ok change) := by
  rintro _ name binding arguments ⟨⟩ asked
  simp [none] at asked

theorem error
    (error : Error) :
    CallsNone (.error error) := by
  rintro _ name binding arguments ⟨⟩

theorem bind
    {α : Type}
    {result : Except Error α}
    {continuation : α → Except Error Change}
    (rest : ∀ value, CallsNone (continuation value)) :
    CallsNone (result >>= continuation) := by
  cases result with
  | error fault =>
      exact .error fault
  | ok value =>
      exact rest value

theorem alone
    (result : Except Error Flow) :
    CallsNone (alone result) := by
  cases result with
  | error fault =>
      exact .error fault
  | ok flow =>
      exact .ok rfl

theorem done
    (flow : Flow)
    (story : Story) :
    CallsNone (.ok (flow.done story)) := by
  apply CallsNone.ok
  simp only [Flow.done]
  split <;> rfl

theorem returnFrom
    (flow : Flow)
    (story : Story)
    (kind : FrameKind)
    (address : Nat) :
    CallsNone (flow.returnFrom story kind address) := by
  simp only [Flow.returnFrom]
  split
  · exact .error _
  · exact .ok rfl

theorem leaveContainer
    (flow : Flow)
    (story : Story)
    (id : UInt32)
    (address : Nat) :
    CallsNone (flow.leaveContainer story id address) := by
  simp only [Flow.leaveContainer]
  split
  · exact .error _
  · split
    · exact returnFrom _ _ _ _
    · exact .ok rfl

theorem divert
    (flow : Flow)
    (story : Story)
    (instruction : Instruction)
    (address : Nat) :
    CallsNone (flow.divert story instruction address) := by
  apply CallsNone.bind
  intro popped
  simp only
  split <;> exact .ok rfl

theorem writeAt
    (flow : Flow)
    (value : Value)
    (place : Place) :
    CallsNone (flow.writeAt value place) := by
  cases place with
  | temp frame name =>
      simp only [Flow.writeAt]
      split
      · exact .ok rfl
      · exact .error _
  | global name =>
      rintro _ other binding arguments ⟨⟩ asked
      simp at asked

theorem define
    (flow : Flow)
    (redefine : Bool)
    (name : String)
    (value : Value) :
    CallsNone (flow.define redefine name value) := by
  simp only [Flow.define]
  split
  · exact writeAt _ _ _
  · exact .ok rfl

end CallsNone

/-- Only an instruction that calls an external asks for a call. -/
theorem execute_callsNone
    (setup : Setup)
    (store : Store)
    (instruction : Instruction)
    (address : Nat)
    (flow : Flow)
    (otherwise : instruction.command ≠ .callExternal) :
    CallsNone (execute setup store instruction address flow) := by
  obtain ⟨command, flag, payload⟩ := instruction
  cases command with
  | callExternal =>
      exact absurd rfl otherwise
  | divert =>
      exact .divert _ _ _ _
  | divertToVariable | tunnel | function | thread | output | pop | pushVariable =>
      exact .bind fun _ => .ok rfl
  | done =>
      exact .done _ _
  | tunnelReturn | functionReturn =>
      exact .returnFrom _ _ _ _
  | defineTemp =>
      exact .bind fun _ => .define _ _ _ _
  | setVariable =>
      exact .bind fun _ => .writeAt _ _ _
  | duplicate | sequence | seed | endStr | endTag | choice | listRange | binary | unary =>
      exact .alone _
  | endContainer =>
      exact .leaveContainer _ _ _ _
  | _ =>
      exact .ok rfl

/-- A call of the host is asked for only by an instruction that calls its binding. -/
theorem next_call
    {setup : Setup}
    {store : Store}
    {address : Nat}
    {flow : Flow}
    {change : Change}
    {name : String}
    {binding : Binding}
    {arguments : List Value}
    (made : flow.next setup store address = .ok change)
    (asked : change.request = some (.call name binding arguments)) :
    ∃ flag payload,
      setup.story.instruction? address = some ⟨.callExternal, flag, payload⟩ ∧
        setup.bindings.get? (setup.story.string payload) = some binding := by
  simp only [next] at made
  cases found : setup.story.instruction? address with
  | none =>
      simp only [found] at made
      exact absurd asked (CallsNone.done _ _ _ _ _ _ made)
  | some instruction =>
      obtain ⟨command, flag, payload⟩ := instruction
      simp only [found] at made
      by_cases external : command = .callExternal
      · subst external
        refine ⟨flag, payload, rfl, ?_⟩
        simp only [execute, callExternal] at made
        split at made
        · cases made
        · split at made
          · split at made
            · cases made
              simp [Change.after, call, goTo, Change.reported] at asked
            · cases made
          · next bound =>
              split at made
              · cases made
                simp only [Option.some.injEq, Request.call.injEq] at asked
                rw [bound, asked.2.1]
              · cases made
      · exact absurd asked
          (execute_callsNone setup store _ _ _ external _ _ _ _ made)

end Flow

/-- The outcome of a write apart from the failures of observers. -/
def hushed : Except Error Unit → Except Error Unit
  | .ok () => .ok ()
  | .error error => if error.isCallback then .ok () else .error error

namespace World

variable {σ : Type} {host : Host σ} {world : World σ} {name : String} {value : Value}

/-- A write that cannot be prepared fails, whatever observers do. -/
theorem hushed_of_refused
    {error : Error}
    (refused : world.store.prepare name value = .error error) :
    hushed (world.assign host name value).1 = .error error := by
  rw [assign_of_refused refused]
  rcases Store.prepare_eq_error refused with rfl | ⟨_, rfl⟩ <;> rfl

/-- A prepared write succeeds, observers that fail aside. -/
theorem hushed_of_prepared
    {write : Write}
    (prepared : world.store.prepare name value = .ok write) :
    hushed (world.assign host name value).1 = .ok () := by
  cases told : (world.assign host name value).1 with
  | ok _ =>
      rfl
  | error error =>
      simp [hushed, isCallback_of_prepared prepared told]

end World

/-- A relation between worlds that a story's steps cannot break. -/
structure Bridge
    {σ : Type}
    (setup : Setup)
    (host : Host σ)
    (allowed : Binding → Prop)
    (Related : World σ → World σ → Prop) :
    Prop where
  globals :
    ∀ {left right},
      Related left right →
      left.store.get = right.store.get
  log :
    ∀ {left right} leftLog rightLog,
      Related left right →
      Related { left with log := leftLog } { right with log := rightLog }
  assign :
    ∀ {left right} name value,
      Related left right →
      hushed (left.assign host name value).1 = hushed (right.assign host name value).1 ∧
        Related (left.assign host name value).2 (right.assign host name value).2
  call :
    ∀ {left right binding} arguments,
      setup.Calls binding →
      allowed binding →
      Related left right →
      (host.call binding.callback arguments left).1 =
          (host.call binding.callback arguments right).1 ∧
        Related
          (host.call binding.callback arguments left).2
          (host.call binding.callback arguments right).2

/-- Two results that fail alike, or succeed with related values. -/
inductive Agree
    {ε α : Type}
    (Related : α → α → Prop) :
    Except ε α → Except ε α → Prop where
  | error (error : ε) :
      Agree Related (.error error) (.error error)
  | ok
      {left right : α}
      (related : Related left right) :
      Agree Related (.ok left) (.ok right)

/-- Two instructions fail alike, or make corresponding changes and ask for the same. -/
def Corresponding
    (Related : Flow → Flow → Prop) :
    Except Error Change → Except Error Change → Prop :=
  Agree fun left right => left.request = right.request ∧ Related left.flow right.flow

namespace Play

variable {σ : Type}

/-- A step makes its change and answers its request. -/
theorem step_eq
    (setup : Setup)
    (host : Host σ)
    (address : Nat)
    (play : Play σ) :
    play.step setup host address =
      match play.flow.next setup play.world.store address with
      | .error error =>
          (.error error, { play with flow := { play.flow with ip := some (address + 1) } })
      | .ok change => (play.carry setup change).answer setup host change.request := by
  simp only [step, Flow.next]
  cases setup.story.instruction? address with
  | none =>
      have silent : (play.flow.done setup.story).request = none := by
        simp only [Flow.done]
        split <;> rfl
      simp only [silent, answer]
  | some instruction =>
      rfl

/-- A write succeeds or fails as it does in the world, apart from observers. -/
theorem assign_result
    (host : Host σ)
    (name : String)
    (value : Value)
    (play : Play σ) :
    (play.assign host name value).1 = hushed (play.world.assign host name value).1 := by
  simp only [assign]
  cases (play.world.assign host name value).1 with
  | ok _ =>
      rfl
  | error error =>
      simp only [hushed]
      split <;> rfl

/-- A write changes only the world and the reports. -/
theorem assign_world
    (host : Host σ)
    (name : String)
    (value : Value)
    (play : Play σ) :
    (play.assign host name value).2.world = (play.world.assign host name value).2 ∧
      (play.assign host name value).2.flow = play.flow := by
  simp only [assign]
  split
  · exact ⟨rfl, rfl⟩
  · split <;> exact ⟨rfl, rfl⟩

/-- A step that fails does not stop the story by itself. -/
theorem step_failure
    (setup : Setup)
    (host : Host σ)
    (play : Play σ)
    (address : Nat) :
    (play.step setup host address).2.failure = play.failure := by
  rw [step_eq]
  split
  · rfl
  · next change _ =>
      cases change.request with
      | none =>
          rfl
      | some request =>
          cases request with
          | write name value =>
              simp only [answer, assign]
              split
              · rfl
              · split <;> rfl
          | call name binding arguments =>
              simp only [answer, callHost]
              split
              · split <;> rfl
              · rfl

end Play

namespace Bridge

variable {σ : Type} {setup : Setup} {host : Host σ} {allowed : Binding → Prop}
  {Related : World σ → World σ → Prop} {left right : Play σ}

/-- Calls with the same result keep corresponding flows in correspondence. -/
theorem callHost
    (bridge : Bridge setup host allowed Related)
    {Matching : Flow → Flow → Prop}
    (pushes : ∀ {a b} value, Matching a b → Matching (a.push value) (b.push value))
    (name : String)
    {binding : Binding}
    (arguments : List Value)
    (called : setup.Calls binding)
    (permitted : allowed binding)
    (worlds : Related left.world right.world)
    (flows : Matching left.flow right.flow) :
    (left.callHost setup host name binding arguments).1 =
        (right.callHost setup host name binding arguments).1 ∧
      Related
        (left.callHost setup host name binding arguments).2.world
        (right.callHost setup host name binding arguments).2.world ∧
      Matching
        (left.callHost setup host name binding arguments).2.flow
        (right.callHost setup host name binding arguments).2.flow := by
  obtain ⟨same, related⟩ := bridge.call arguments called permitted worlds
  simp only [Play.callHost, same]
  split
  · split
    · exact ⟨rfl, bridge.log _ _ related, flows⟩
    · exact ⟨rfl, bridge.log _ _ related, pushes _ flows⟩
  · exact ⟨rfl, bridge.log _ _ (bridge.log _ _ related), pushes _ flows⟩

/-- Steps with corresponding changes keep two plays in correspondence. -/
theorem step
    (bridge : Bridge setup host allowed Related)
    {Matching : Flow → Flow → Prop}
    (pushes : ∀ {a b} value, Matching a b → Matching (a.push value) (b.push value))
    {address : Nat}
    (permitted :
      ∀ flag payload binding,
        setup.story.instruction? address = some ⟨.callExternal, flag, payload⟩ →
        setup.bindings.get? (setup.story.string payload) = some binding →
        allowed binding)
    (worlds : Related left.world right.world)
    (entered :
      Matching
        { left.flow with ip := some (address + 1) }
        { right.flow with ip := some (address + 1) })
    (changes :
      Corresponding Matching
        (left.flow.next setup left.world.store address)
        (right.flow.next setup right.world.store address)) :
    (left.step setup host address).1 = (right.step setup host address).1 ∧
      Related
        (left.step setup host address).2.world
        (right.step setup host address).2.world ∧
      Matching
        (left.step setup host address).2.flow
        (right.step setup host address).2.flow := by
  rw [Play.step_eq, Play.step_eq]
  generalize leftMade : left.flow.next setup left.world.store address = leftNext at changes
  generalize right.flow.next setup right.world.store address = rightNext at changes
  cases changes with
  | error error =>
      exact ⟨rfl, worlds, entered⟩
  | @ok leftChange rightChange related =>
      obtain ⟨request, flows⟩ := related
      have carried :
          Related (left.carry setup leftChange).world (right.carry setup rightChange).world :=
        bridge.log _ _ worlds
      simp only [← request]
      cases asked : leftChange.request with
      | none =>
          exact ⟨rfl, carried, flows⟩
      | some request =>
          cases request with
          | write name value =>
              obtain ⟨same, related⟩ := bridge.assign name value carried
              have leftAfter := (left.carry setup leftChange).assign_world host name value
              have rightAfter := (right.carry setup rightChange).assign_world host name value
              simp only [Play.answer, Play.assign_result, leftAfter, rightAfter]
              exact ⟨same, related, flows⟩
          | call name binding arguments =>
              obtain ⟨flag, payload, here, bound⟩ := Flow.next_call leftMade asked
              exact
                bridge.callHost pushes name arguments
                  ⟨address, flag, payload, here, bound⟩
                  (permitted flag payload binding here bound) carried flows

end Bridge

end Fabula
