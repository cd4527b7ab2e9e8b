import Fabula.Proofs.Frames
import Fabula.Proofs.Kinds
import Fabula.Proofs.Notification

namespace Fabula

/-!
# Writing through names and references

A name stands for a place: the one that a reference in the innermost frame leads to, a
temporary of the innermost frame, or a global variable.  What is written through a name is
kept at its place and nowhere else, and is read back through the name.  That needs an
argument where places coincide: a reference may lead to the very temporary that holds it,
and is then replaced by what is written.
-/

/-! ## Variables by name -/

/-- The kind that a name is declared with. -/
def Declarations.kind? (declarations : Declarations) (name : String) : Option Kind :=
  (declarations.globals.find? fun declaration => declaration.name == name).map Declaration.kind

namespace Store

variable {store : Store} {name : String} {value : Value} {write : Write}

/-- There is a value for every variable that is declared. -/
def Complete (store : Store) : Prop :=
  store.values.length = store.declarations.globals.length

theorem kind?_eq
    {index : Nat}
    (found : store.declarations.index? name = some index) :
    store.declarations.kind? name = some (store.kindAt index) := by
  obtain ⟨inside, same⟩ := List.findIdx?_eq_some_iff_findIdx_eq.mp found
  simp [Declarations.kind?, kindAt, List.find?_eq_getElem?_findIdx, same, inside]

/-- What is written for a name replaces its value, and has the kind that it is declared with. -/
theorem prepare_named
    (prepared : store.prepare name value = .ok write) :
    store.get name = .ok write.old ∧
      ∃ declared,
        store.declarations.kind? name = some declared ∧
          declared.accepts value.kind = true ∧
          write.new = value.coerceTo declared := by
  obtain ⟨index, found, accepted, rfl⟩ := prepare_eq_ok_iff.mp prepared
  refine ⟨?_, _, kind?_eq found, accepted, rfl⟩
  simp only [get, Store.index, found]
  rfl

/-- A write changes the variable of its name alone. -/
theorem get_apply
    (complete : store.Complete)
    (prepared : store.prepare name value = .ok write)
    (other : String) :
    (store.apply write).get other = if other = name then .ok write.new else store.get other := by
  obtain ⟨index, found, _, rfl⟩ := prepare_eq_ok_iff.mp prepared
  have inside : index < store.values.length := complete ▸ index_lt found
  have declarations (new old : Value) :
      (store.apply ⟨index, new, old⟩).declarations = store.declarations := rfl
  simp only [get, Store.index, declarations]
  cases there : store.declarations.index? other with
  | none =>
      have apart : other ≠ name := by
        rintro rfl
        rw [found] at there
        cases there
      simp only [apart, if_false]
      rfl
  | some position =>
      simp only [bind, Except.bind, pure, Except.pure, valueAt_apply]
      by_cases same : other = name
      · subst same
        obtain rfl := Option.some.inj (found.symm.trans there)
        simp [inside]
      · have apart : index ≠ position := by
          rintro rfl
          exact same (Declarations.name_unique there found)
        simp [same, apart]

end Store

namespace Flow

variable {flow : Flow} {store : Store} {name : String} {value : Value}

/-! ## Places -/

/-- What a place holds once a value has been put there: a variable holds it as its kind. -/
def Place.keeps (declarations : Declarations) (value : Value) : Place → Value
  | .temp _ _ => value
  | .global name =>
      match declarations.kind? name with
      | some declared => value.coerceTo declared
      | none => value

theorem readAt_temp
    (flow : Flow)
    (store : Store)
    (frame : Nat)
    (name : String) :
    flow.readAt store (.temp frame name) =
      match flow.callStack.temp? frame name with
      | some value => .ok value
      | none => .error (.unknownVariable name) :=
  rfl

/--
Whoever writes through a name a value that is no reference leaves the name at its place,
also when the place is the reference itself.
-/
theorem place_setTempAt
    (plain : ∀ target frame, value ≠ .pointer target frame)
    {index : Nat}
    {target : String}
    (here : flow.place name = .temp index target) :
    place { flow with callStack := flow.callStack.setTempAt index target value } name =
      .temp index target := by
  have top (stack : CallStack) (same : stack.topIndex = flow.callStack.topIndex) :
      stack.top.temp? name = stack.temp? flow.callStack.topIndex name := by
    rw [← same, CallStack.temp?_topIndex]
  simp only [place, top _ (CallStack.topIndex_setTempAt _ _ _ _), CallStack.topIndex_setTempAt]
  -- What is written may replace the very reference that led there.
  by_cases own : (index, target) = (flow.callStack.topIndex, name)
  · obtain ⟨rfl, rfl⟩ := Prod.mk.inj own
    have written :
        (flow.callStack.setTempAt flow.callStack.topIndex target value).temp?
            flow.callStack.topIndex target =
          some value := by
      apply CallStack.temp?_setTempAt
      rw [CallStack.frame?_topIndex, Option.isSome_some]
    rw [written]
    split
    · next pointing => exact absurd (Option.some.inj pointing) (plain _ _)
    · rfl
    · next absent => cases absent
  · rw [CallStack.temp?_setTempAt_of_ne _ _ _ _ own, CallStack.temp?_topIndex]
    exact here

end Flow

variable {σ : Type}

/-- A host whose observers write no variable. -/
def Host.Listens (host : Host σ) : Prop :=
  ∀ callback notice (world : World σ),
    (host.notify callback notice world).2.store.get = world.store.get

/-- A write that is prepared is kept as it is, whatever observers say to it. -/
theorem World.get_assign
    {host : Host σ}
    (listens : host.Listens)
    {world : World σ}
    {name : String}
    {value : Value}
    {write : Write}
    (prepared : world.store.prepare name value = .ok write) :
    (world.assign host name value).2.store.get = (world.store.apply write).get := by
  have delivered :=
    tellAll_view Store.get listens { world with store := world.store.apply write }
      (world.store.nameAt write.index) write.new (some write.old)
      (world.store.observersOf write.index)
  simp only [assign, prepared]
  split
  · rfl
  · split <;> exact delivered

namespace Play

variable {setup : Setup} {host : Host σ} {play : Play σ} {name : String} {value : Value}

/-! ## Writes -/

/-- Write a value through a name. -/
def write
    (setup : Setup)
    (host : Host σ)
    (name : String)
    (value : Value)
    (play : Play σ) :
    Except Error Unit × Play σ :=
  match play.flow.write name value with
  | .error error => (.error error, play)
  | .ok change => (play.carry setup change).answer setup host change.request

/-- The instruction that sets a variable writes the value that it takes off the stack. -/
theorem step_setVariable
    (setup : Setup)
    (host : Host σ)
    {address : Nat}
    {flag : UInt8}
    {payload : UInt32}
    (here : setup.story.instruction? address = some ⟨.setVariable, flag, payload⟩)
    {rest : List Value}
    (held : play.flow.eval = value :: rest) :
    let written :=
      Play.write setup host (setup.story.string payload) value
        { play with flow := { play.flow with ip := some (address + 1), eval := rest } }
    (play.step setup host address).1 = written.1 ∧
      (written.1 = .ok () → (play.step setup host address).2 = written.2) := by
  simp only [step, here, Flow.execute, Flow.pop, Flow.pop?, held, write, bind, Except.bind]
  generalize Flow.write _ (setup.story.string payload) value = written
  cases written with
  | error error =>
      refine ⟨rfl, fun succeeded => ?_⟩
      cases succeeded
  | ok change =>
      exact ⟨rfl, fun _ => rfl⟩

/-- What a write through a name makes of the place that the name stood for, and of all others. -/
structure Written (name : String) (value : Value) (before after : Play σ) : Prop where
  /-- The name reads as what was written. -/
  read :
    after.flow.read after.world.store name =
      .ok ((before.flow.place name).keeps before.world.store.declarations value)
  /-- So does the place itself. -/
  readAt :
    after.flow.readAt after.world.store (before.flow.place name) =
      .ok ((before.flow.place name).keeps before.world.store.declarations value)
  temps :
    ∀ frame other,
      before.flow.place name ≠ .temp frame other →
      after.flow.callStack.temp? frame other = before.flow.callStack.temp? frame other
  globals :
    ∀ other,
      before.flow.place name ≠ .global other →
      after.world.store.get other = before.world.store.get other
  /-- Frames keep their kinds, return addresses and modes. -/
  frames :
    after.flow.callStack.frames.map Frame.bare = before.flow.callStack.frames.map Frame.bare
  /-- Nothing of the flow changes but its temporaries. -/
  rest : after.flow = { before.flow with callStack := after.flow.callStack }

/-- Nothing has been written. -/
structure Unwritten (before after : Play σ) : Prop where
  flow : after.flow = before.flow
  store : after.world.store = before.world.store

/-- A write to a temporary. -/
theorem written_temp
    (plain : ∀ target frame, value ≠ .pointer target frame)
    {index : Nat}
    {target : String}
    (there : play.flow.place name = .temp index target)
    (inside : (play.flow.callStack.frame? index).isSome = true)
    {after : Play σ}
    (flow :
      after.flow =
        { play.flow with callStack := play.flow.callStack.setTempAt index target value })
    (store : after.world.store = play.world.store) :
    Written name value play after := by
  have place : after.flow.place name = .temp index target :=
    flow ▸ Flow.place_setTempAt plain there
  have held : after.flow.readAt after.world.store (.temp index target) = .ok value := by
    rw [Flow.readAt_temp, flow, CallStack.temp?_setTempAt _ _ _ _ inside]
  constructor
  · rw [Flow.read, place, there, held]
    rfl
  · rw [there, held]
    rfl
  · intro frame other apart
    rw [flow]
    refine CallStack.temp?_setTempAt_of_ne _ _ _ _ fun same => apart ?_
    obtain ⟨rfl, rfl⟩ := Prod.mk.inj same
    exact there
  · intro other _
    rw [store]
  · rw [flow]
    exact CallStack.bare_setTempAt _ _ _ _
  · rw [flow]

/-- A write to a global variable. -/
theorem written_global
    {target : String}
    (there : play.flow.place name = .global target)
    {after : Play σ}
    (flow : after.flow = play.flow)
    (new : Value)
    (kept : (play.flow.place name).keeps play.world.store.declarations value = new)
    (store :
      ∀ other,
        after.world.store.get other =
          if other = target then .ok new else play.world.store.get other) :
    Written name value play after := by
  have held : after.flow.readAt after.world.store (.global target) = .ok new := by
    rw [Flow.readAt, store, if_pos rfl]
  constructor
  · rw [Flow.read, flow, there, ← flow, held, ← kept, there]
  · rw [there, held, ← kept, there]
  · intro frame other _
    rw [flow]
  · intro other apart
    rw [store, if_neg]
    rintro rfl
    exact apart there
  · rw [flow]
  · rw [flow]

/-- A global variable is written by the world, which may refuse the value. -/
theorem assign_writes
    (listens : host.Listens)
    {before : Play σ}
    (complete : before.world.store.Complete)
    {target : String}
    (there : before.flow.place name = .global target)
    (sameFlow : play.flow = before.flow)
    (sameStore : play.world.store = before.world.store) :
    match play.assign host target value with
    | (.ok (), after) => Written name value before after
    | (.error _, after) => Unwritten before after := by
  have result := play.assign_result host target value
  obtain ⟨world, flow⟩ := play.assign_world host target value
  generalize play.assign host target value = assigned at result world flow ⊢
  obtain ⟨outcome, after⟩ := assigned
  simp only at result world flow
  cases prepared : play.world.store.prepare target value with
  | error error =>
      rw [World.assign_of_refused prepared] at world
      rw [result, World.hushed_of_refused prepared]
      exact ⟨flow.trans sameFlow, (congrArg World.store world).trans sameStore⟩
  | ok write =>
      have succeeded : hushed (play.world.assign host target value).1 = .ok () :=
        World.hushed_of_prepared prepared
      have kept := World.get_assign listens prepared
      rw [sameStore] at kept prepared
      obtain ⟨_, declared, kind, _, new⟩ := Store.prepare_named prepared
      rw [result, succeeded]
      refine written_global there (flow.trans sameFlow) write.new ?_ fun other => ?_
      · simp only [there, Flow.Place.keeps, kind, new]
      · rw [world, kept, Store.get_apply complete prepared]

/--
Writing through a name and reading through it take the same place.  The place holds what was
written, a global variable as a value of its kind, and nothing else has changed: no other
temporary, no other variable, and of the frames neither kind nor return address nor mode.
A write that fails has changed nothing.
-/
theorem write_reads_back
    (setup : Setup)
    (host : Host σ)
    (listens : host.Listens)
    (play : Play σ)
    (complete : play.world.store.Complete)
    (name : String)
    (value : Value)
    (plain : ∀ target frame, value ≠ .pointer target frame) :
    match play.write setup host name value with
    | (.ok (), after) => Written name value play after
    | (.error _, after) => Unwritten play after := by
  simp only [write, Flow.write]
  cases there : play.flow.place name with
  | temp index target =>
      simp only [Flow.writeAt]
      cases here : play.flow.callStack.frame? index with
      | none =>
          exact ⟨rfl, rfl⟩
      | some frame =>
          exact written_temp plain there (by rw [here]; rfl) rfl rfl
  | global target =>
      exact assign_writes listens complete there rfl rfl

/-! ## A mirror -/

/-- One instruction, which writes through the name of a reference. -/
def mirrorStory : Story where
  instructions := #[⟨.setVariable, 0, 0⟩]
  strings := #["mirror"]
  literals := #[]
  containers := #[]
  declarations := ⟨[⟨"coins", .int 3⟩], ⟨#[]⟩⟩

/-- The mirror is a reference to itself; beside it is a reference to a frame further out. -/
def mirrorFlow : Flow :=
  { Flow.start mirrorStory 0 with
    eval := [.int 5]
    callStack :=
      ⟨[⟨.function, 1, true,
          [("mirror", .pointer "mirror" (some 1)), ("far", .pointer "x" (some 0))]⟩],
        ⟨.root, 0, false, [("x", .int 1)]⟩⟩ }

def mirrorPlay : Play Unit :=
  ⟨.ofFlow mirrorFlow, ⟨.start mirrorStory.declarations, #[], ()⟩⟩

def mirrorSetup : Setup :=
  ⟨mirrorStory, .empty, .standard⟩

theorem write_reads_back_mirror :
    idleHost.Listens ∧
      mirrorPlay.world.store.Complete ∧
      mirrorPlay.flow.read mirrorPlay.world.store "mirror" = .ok (.pointer "mirror" (some 1)) ∧
      ∃ after,
        mirrorPlay.step mirrorSetup idleHost 0 = (.ok (), after) ∧
          after.flow.read after.world.store "mirror" = .ok (.int 5) ∧
          after.flow.callStack.temp? 1 "far" = some (.pointer "x" (some 0)) ∧
          after.flow.callStack.temp? 0 "x" = some (.int 1) ∧
          after.world.store.get "coins" = .ok (.int 3) := by
  have listens : idleHost.Listens := fun _ _ _ => rfl
  have complete : mirrorPlay.world.store.Complete := rfl
  let before : Play Unit :=
    { mirrorPlay with flow := { mirrorPlay.flow with ip := some 1, eval := [] } }
  have place : before.flow.place "mirror" = .temp 1 "mirror" := by decide +kernel
  have succeeds : (before.write mirrorSetup idleHost "mirror" (.int 5)).1 = .ok () := rfl
  have written :
      Written "mirror" (.int 5) before (before.write mirrorSetup idleHost "mirror" (.int 5)).2 :=
    write_reads_back mirrorSetup idleHost listens before complete "mirror" (.int 5) nofun
  obtain ⟨result, same⟩ :=
    mirrorPlay.step_setVariable mirrorSetup idleHost
      (show mirrorSetup.story.instruction? 0 = some ⟨.setVariable, 0, 0⟩ from rfl) rfl
  refine ⟨listens, complete, by decide +kernel,
    (before.write mirrorSetup idleHost "mirror" (.int 5)).2,
    Prod.ext (result.trans succeeds) (same succeeds), ?_⟩
  refine ⟨written.read.trans (by rw [place]; rfl), ?_, ?_, ?_⟩
  · exact written.temps 1 "far" (by rw [place]; decide)
  · exact written.temps 0 "x" (by rw [place]; decide)
  · exact written.globals "coins" (by rw [place]; nofun)

end Play

end Fabula
