import Fabula.Proofs.Speculation
import Fabula.Proofs.Telling
import Fabula.Binding

namespace Fabula

/-!
# Discreet hosts

A story only sees the declarations and values of its store and what host functions
give back.  The observers of the store and the state of the host are its audience, and two
worlds are alike when their stores agree apart from observers and their audiences agree in
what host functions depend on.  A host is discreet when its observers write nothing and heed
only what they are told, when the functions that may be called on trial are pure, and when
all other functions cannot tell alike worlds apart.
-/

namespace Store

/-- A store apart from its observers. -/
def unobserved (store : Store) : Store :=
  { store with observers := [], nextObserver := 0 }

@[simp]
theorem unobserved_declarations (store : Store) :
    store.unobserved.declarations = store.declarations :=
  rfl

@[simp]
theorem unobserved_values (store : Store) :
    store.unobserved.values = store.values :=
  rfl

@[simp]
theorem unobserved_journals (store : Store) :
    store.unobserved.journals = store.journals :=
  rfl

/-- Observers do not matter to a write. -/
theorem unobserved_apply
    (store : Store)
    (write : Write) :
    (store.apply write).unobserved = store.unobserved.apply write :=
  rfl

/-- Observers do not matter to keeping a speculation. -/
theorem unobserved_commit
    (store : Store)
    (id : Nat) :
    (store.commit id).2.unobserved = (store.unobserved.commit id).2 := by
  have around : store.unobserved.journalsAround id = store.journalsAround id := rfl
  have writes : store.unobserved.writesSince id = store.writesSince id := rfl
  simp only [commit, around, writes]
  split <;> rfl

/-- Observers do not matter to the writes of a speculation that is kept. -/
theorem commit_unobserved
    (store : Store)
    (id : Nat) :
    (store.unobserved.commit id).1 = (store.commit id).1 := by
  have around : store.unobserved.journalsAround id = store.journalsAround id := rfl
  have writes : store.unobserved.writesSince id = store.writesSince id := rfl
  simp only [commit, around, writes]
  split <;> rfl

/-- Stores with the same declarations and values prepare the same writes. -/
theorem prepare_congr
    {left right : Store}
    (declarations : left.declarations = right.declarations)
    (values : left.values = right.values)
    (name : String)
    (value : Value) :
    left.prepare name value = right.prepare name value := by
  obtain ⟨leftDeclarations, leftValues, _, _, _⟩ := left
  obtain ⟨rightDeclarations, rightValues, _, _, _⟩ := right
  simp only at declarations values
  subst declarations values
  rfl

/-- Keeping a speculation that was just opened changes nothing. -/
theorem commit_beginSpeculation
    (store : Store) :
    (store.beginSpeculation.2.commit store.beginSpeculation.1).2 = store := by
  obtain ⟨declarations, values, observers, nextObserver, journals⟩ := store
  have writes :
      (beginSpeculation
        ⟨declarations, values, observers, nextObserver, journals⟩).2.writesSince
          journals.length = [] := by
    simp [beginSpeculation, writesSince]
  have around :
      (beginSpeculation
        ⟨declarations, values, observers, nextObserver, journals⟩).2.journalsAround
          journals.length = journals := by
    simp [beginSpeculation, journalsAround]
  simp only [commit, beginSpeculation] at writes around ⊢
  cases journals with
  | nil =>
      rfl
  | cons innermost outer =>
      simp only [around, writes, List.nil_append]

/-- Keeping a speculation that was just opened tells nothing. -/
theorem commit_beginSpeculation_writes
    (store : Store) :
    (store.beginSpeculation.2.commit store.beginSpeculation.1).1 = [] := by
  have writes : store.beginSpeculation.2.writesSince store.beginSpeculation.1 = [] := by
    simp [beginSpeculation, writesSince]
  simp only [commit, writes]
  split <;> rfl

/-- A store in which a speculation is open speculates. -/
theorem isSpeculating_of_open
    {store : Store}
    {id : Nat}
    (isOpen : id < store.journals.length) :
    store.isSpeculating = true := by
  cases journals : store.journals with
  | nil =>
      simp [journals] at isOpen
  | cons innermost outer =>
      simp [isSpeculating, journals]

/-- A write inside a speculation is the last of its writes, and changes nothing around it. -/
theorem writesSince_apply
    {store : Store}
    {id : Nat}
    (isOpen : id < store.journals.length)
    (write : Write) :
    (store.apply write).writesSince id = write :: store.writesSince id ∧
      (store.apply write).journalsAround id = store.journalsAround id := by
  simp only [writesSince, journalsAround, apply]
  generalize store.journals = journals at isOpen
  cases journals with
  | nil =>
      simp at isOpen
  | cons innermost outer =>
      have count : outer.length + 1 - id = outer.length - id + 1 := by
        simp only [List.length_cons] at isOpen
        omega
      simp [journal, count]

/-- A write inside a speculation can as well be carried out after it was kept. -/
theorem commit_apply
    {store : Store}
    {id : Nat}
    (isOpen : id < store.journals.length)
    (write : Write) :
    ((store.apply write).commit id).2 = (store.commit id).2.apply write := by
  obtain ⟨since, around⟩ := writesSince_apply isOpen write
  simp only [commit, since, around]
  cases store.journalsAround id <;> rfl

/-- A write that leaves its speculation is told after the others. -/
theorem commit_apply_writes
    {store : Store}
    {id : Nat}
    (isOpen : id < store.journals.length)
    (write : Write) :
    ((store.apply write).commit id).1 =
      (store.commit id).1 ++ if (store.commit id).2.isSpeculating then [] else [write] := by
  obtain ⟨since, around⟩ := writesSince_apply isOpen write
  cases outside : store.journalsAround id <;>
    simp [commit, since, around, outside, isSpeculating]

end Store

/-- Who hears of a story: the observers of its store, and the state of its host. -/
structure Audience (σ : Type) where
  observers : List Observer
  nextObserver : Nat
  host : σ

namespace World

variable {σ τ : Type}

def audience (world : World σ) : Audience σ :=
  ⟨world.store.observers, world.store.nextObserver, world.host⟩

/-- All observers of a world are of one class. -/
def ObservedBy
    (quiet : CallbackId → Prop)
    (world : World σ) :
    Prop :=
  ∀ observer ∈ world.store.observers, quiet observer.callback

/-- A world in which nothing has changed but the audience, with observers of one class. -/
structure Untouched
    (quiet : CallbackId → Prop)
    (before after : World σ) :
    Prop where
  store : after.store.unobserved = before.store.unobserved
  observed : after.ObservedBy quiet

namespace Untouched

variable {quiet : CallbackId → Prop} {before middle after : World σ}

theorem trans
    (first : Untouched quiet before middle)
    (second : Untouched quiet middle after) :
    Untouched quiet before after :=
  ⟨second.store.trans first.store, second.observed⟩

theorem declarations
    (untouched : Untouched quiet before after) :
    after.store.declarations = before.store.declarations := by
  simpa using congrArg Store.declarations untouched.store

theorem values
    (untouched : Untouched quiet before after) :
    after.store.values = before.store.values := by
  simpa using congrArg Store.values untouched.store

theorem journals
    (untouched : Untouched quiet before after) :
    after.store.journals = before.store.journals := by
  simpa using congrArg Store.journals untouched.store

end Untouched

/--
Worlds of the same variables whose audiences look the same to host functions.  The values of
the variables may differ.
-/
structure Akin
    (view : Audience σ → τ)
    (quiet : CallbackId → Prop)
    (left right : World σ) :
    Prop where
  declarations : left.store.declarations = right.store.declarations
  audience : view left.audience = view right.audience
  leftObserved : left.ObservedBy quiet
  rightObserved : right.ObservedBy quiet

/-- Worlds that a story cannot tell apart, with observers of one class only. -/
structure Alike
    (view : Audience σ → τ)
    (quiet : CallbackId → Prop)
    (left right : World σ) :
    Prop where
  store : left.store.unobserved = right.store.unobserved
  audience : view left.audience = view right.audience
  leftObserved : left.ObservedBy quiet
  rightObserved : right.ObservedBy quiet

namespace Alike

variable {view : Audience σ → τ} {quiet : CallbackId → Prop} {left middle right : World σ}

theorem refl
    (observed : left.ObservedBy quiet) :
    Alike view quiet left left :=
  ⟨rfl, rfl, observed, observed⟩

theorem symm
    (alike : Alike view quiet left right) :
    Alike view quiet right left :=
  ⟨alike.store.symm, alike.audience.symm, alike.rightObserved, alike.leftObserved⟩

theorem trans
    (first : Alike view quiet left middle)
    (second : Alike view quiet middle right) :
    Alike view quiet left right :=
  ⟨first.store.trans second.store, first.audience.trans second.audience, first.leftObserved,
    second.rightObserved⟩

theorem declarations
    (alike : Alike view quiet left right) :
    left.store.declarations = right.store.declarations := by
  simpa using congrArg Store.declarations alike.store

theorem values
    (alike : Alike view quiet left right) :
    left.store.values = right.store.values := by
  simpa using congrArg Store.values alike.store

theorem journals
    (alike : Alike view quiet left right) :
    left.store.journals = right.store.journals := by
  simpa using congrArg Store.journals alike.store

theorem akin
    (alike : Alike view quiet left right) :
    Akin view quiet left right :=
  ⟨alike.declarations, alike.audience, alike.leftObserved, alike.rightObserved⟩

/-- What is logged does not matter. -/
theorem log
    (alike : Alike view quiet left right)
    (leftLog rightLog : Array LogRecord) :
    Alike view quiet { left with log := leftLog } { right with log := rightLog } :=
  ⟨alike.store, alike.audience, alike.leftObserved, alike.rightObserved⟩

/-- The same write keeps worlds alike. -/
theorem apply
    (alike : Alike view quiet left right)
    (write : Write) :
    Alike view quiet
      { left with store := left.store.apply write }
      { right with store := right.store.apply write } where
  store := by
    simp only [Store.unobserved_apply, alike.store]
  audience := alike.audience
  leftObserved := alike.leftObserved
  rightObserved := alike.rightObserved

end Alike

/-- The world after a speculation is kept, before anybody is told. -/
def settled
    (id : Nat)
    (world : World σ) :
    World σ :=
  { world with store := (world.store.commit id).2 }

/-- Keeping a speculation leaves the audience as it is until it is told. -/
@[simp]
theorem audience_settled
    (id : Nat)
    (world : World σ) :
    (world.settled id).audience = world.audience := by
  simp only [audience, settled, Store.commit]
  split <;> rfl

theorem ObservedBy.settled
    {quiet : CallbackId → Prop}
    {world : World σ}
    (observed : world.ObservedBy quiet)
    (id : Nat) :
    (world.settled id).ObservedBy quiet := by
  simpa only [ObservedBy, World.settled, Store.commit_observers] using observed

/-- Keeping a speculation that was just opened changes nothing. -/
theorem commit_beginSpeculation
    (host : Host σ)
    (world : World σ) :
    (world.beginSpeculation.2.commit host world.store.journals.length).2 = world := by
  have unchanged := Store.commit_beginSpeculation world.store
  have writes := Store.commit_beginSpeculation_writes world.store
  simp only [Store.beginSpeculation] at unchanged writes
  simp only [commit, beginSpeculation, Store.beginSpeculation, unchanged, writes, deliverAll]

end World

/-- The bindings that an instruction of the story can call. -/
def Setup.Calls
    (setup : Setup)
    (binding : Binding) :
    Prop :=
  ∃ address flag payload,
    setup.story.instruction? address = some ⟨.callExternal, flag, payload⟩ ∧
      setup.bindings.get? (setup.story.string payload) = some binding

/-- What an instruction can call is among the bindings. -/
theorem Setup.Calls.exists_entry
    {setup : Setup}
    {binding : Binding}
    (called : setup.Calls binding) :
    ∃ name, (name, binding) ∈ setup.bindings.entries := by
  obtain ⟨_, _, _, _, bound⟩ := called
  obtain ⟨before, after, entries, _⟩ := List.lookup_eq_some_iff.1 bound
  exact ⟨_, entries ▸ List.mem_append_right before List.mem_cons_self⟩

/-- Observers of a class write nothing. -/
def Host.Silent
    {σ : Type}
    (host : Host σ)
    (quiet : CallbackId → Prop) :
    Prop :=
  ∀ callback,
    quiet callback →
    ∀ notice (world : World σ),
      world.ObservedBy quiet →
      world.Untouched quiet (host.notify callback notice world).2

/--
A host that a story can call without noticing how often or when it hears of the
story's writes.  `quiet` are the callbacks that observe, and `view` is the part of the
audience that the host's functions depend on.
-/
structure Host.Discreet
    {σ τ : Type}
    (host : Host σ)
    (setup : Setup)
    (view : Audience σ → τ)
    (quiet : CallbackId → Prop) :
    Prop where
  /-- Observers write nothing. -/
  silent : host.Silent quiet
  /-- What functions find of a notice depends on the notice, not on the values of the store. -/
  heard :
    ∀ write (left right : World σ),
      World.Akin view quiet left right →
      view (left.deliver host write).2.audience = view (right.deliver host write).2.audience
  /-- Functions that may be called on trial are pure. -/
  safe :
    ∀ binding,
      setup.Calls binding →
      binding.safe = true →
      ∀ arguments,
        ∃ result,
          ∀ world : World σ,
            world.ObservedBy quiet →
            (host.call binding.callback arguments world).1 = result ∧
              World.Alike view quiet (host.call binding.callback arguments world).2 world
  /-- All others may read and write the store and what they depend on of the audience. -/
  other :
    ∀ binding,
      setup.Calls binding →
      binding.safe = false →
      ∀ arguments (left right : World σ),
        World.Alike view quiet left right →
        (host.call binding.callback arguments left).1 =
            (host.call binding.callback arguments right).1 ∧
          World.Alike view quiet
            (host.call binding.callback arguments left).2
            (host.call binding.callback arguments right).2

/--
A host whose observers write nothing, and whose functions give the same results in
worlds that are alike, whatever is told in both.
-/
structure Host.Impartial
    {σ τ : Type}
    (host : Host σ)
    (setup : Setup)
    (view : Audience σ → τ)
    (quiet : CallbackId → Prop) :
    Prop where
  silent : host.Silent quiet
  told :
    ∀ write (left right : World σ),
      World.Alike view quiet left right →
      view (left.deliver host write).2.audience = view (right.deliver host write).2.audience
  call :
    ∀ binding,
      setup.Calls binding →
      ∀ arguments (left right : World σ),
        World.Alike view quiet left right →
        (host.call binding.callback arguments left).1 =
            (host.call binding.callback arguments right).1 ∧
          World.Alike view quiet
            (host.call binding.callback arguments left).2
            (host.call binding.callback arguments right).2

section Hosts

variable {σ τ : Type} {host : Host σ} {setup : Setup} {view : Audience σ → τ}
  {quiet : CallbackId → Prop} {world left right : World σ}

/-! ## Observers that write nothing -/

namespace Host.Silent

/-- Delivering a write touches nothing. -/
theorem deliver
    (silent : host.Silent quiet)
    (observed : world.ObservedBy quiet)
    (write : Write) :
    world.Untouched quiet (world.deliver host write).2 := by
  refine World.tellAll_keeps (motive := fun after => world.Untouched quiet after)
    (fun observer member after untouched => ?_)
    (fun _ _ untouched => ⟨untouched.store, untouched.observed⟩) ⟨rfl, observed⟩
  simp only [World.tell]
  split
  · have hears : quiet observer.callback := observed observer (List.mem_filter.mp member).1
    exact untouched.trans (silent _ hears _ after untouched.observed)
  · exact untouched

/-- Delivering writes touches nothing. -/
theorem deliverAll
    (silent : host.Silent quiet)
    (observed : world.ObservedBy quiet)
    (writes : List Write) :
    world.Untouched quiet (World.deliverAll host writes world).2 :=
  World.deliverAll_keeps (motive := fun after => world.Untouched quiet after)
    (fun write _ _ untouched => untouched.trans (silent.deliver untouched.observed write))
    ⟨rfl, observed⟩

/-- A write that is carried out leaves the store with that write. -/
theorem carryOut
    (silent : host.Silent quiet)
    (observed : world.ObservedBy quiet)
    (write : Write) :
    World.Untouched quiet
      { world with store := world.store.apply write } (world.carryOut host write) := by
  have written : World.ObservedBy quiet { world with store := world.store.apply write } :=
    observed
  simp only [World.carryOut]
  split
  · exact ⟨rfl, written⟩
  · exact silent.deliver written write

/-- Keeping a speculation touches nothing else. -/
theorem commit
    (silent : host.Silent quiet)
    (observed : world.ObservedBy quiet)
    (id : Nat) :
    (world.settled id).Untouched quiet (world.commit host id).2 :=
  silent.deliverAll (observed.settled id) _

end Host.Silent

/-! ## Alike worlds stay alike -/

namespace Host.Impartial

theorem deliver
    (impartial : host.Impartial setup view quiet)
    (alike : World.Alike view quiet left right)
    (write : Write) :
    World.Alike view quiet (left.deliver host write).2 (right.deliver host write).2 := by
  have leftTold := impartial.silent.deliver alike.leftObserved write
  have rightTold := impartial.silent.deliver alike.rightObserved write
  exact
    { store := leftTold.store.trans (alike.store.trans rightTold.store.symm)
      audience := impartial.told write left right alike
      leftObserved := leftTold.observed
      rightObserved := rightTold.observed }

theorem deliverAll
    (impartial : host.Impartial setup view quiet)
    (alike : World.Alike view quiet left right)
    (writes : List Write) :
    World.Alike view quiet
      (World.deliverAll host writes left).2 (World.deliverAll host writes right).2 := by
  induction writes generalizing left right with
  | nil =>
      exact alike
  | cons write rest inductionHypothesis =>
      exact inductionHypothesis (impartial.deliver alike write)

theorem carryOut
    (impartial : host.Impartial setup view quiet)
    (alike : World.Alike view quiet left right)
    (write : Write) :
    World.Alike view quiet (left.carryOut host write) (right.carryOut host write) := by
  have speculating : left.store.isSpeculating = right.store.isSpeculating := by
    simp only [Store.isSpeculating, alike.journals]
  have written := alike.apply write
  cases there : right.store.isSpeculating with
  | true =>
      rw [World.carryOut_of_speculating there,
        World.carryOut_of_speculating (speculating.trans there)]
      exact written
  | false =>
      rw [World.carryOut_of_not_speculating there,
        World.carryOut_of_not_speculating (speculating.trans there)]
      exact impartial.deliver written write

theorem commit
    (impartial : host.Impartial setup view quiet)
    (alike : World.Alike view quiet left right)
    (id : Nat) :
    World.Alike view quiet (left.commit host id).2 (right.commit host id).2 := by
  have settled : World.Alike view quiet (left.settled id) (right.settled id) :=
    { store := by
        simp only [World.settled, Store.unobserved_commit, alike.store]
      audience := by
        simpa only [World.audience_settled] using alike.audience
      leftObserved := alike.leftObserved.settled id
      rightObserved := alike.rightObserved.settled id }
  have writes : (left.store.commit id).1 = (right.store.commit id).1 := by
    rw [← Store.commit_unobserved, alike.store, Store.commit_unobserved]
  simp only [World.commit, writes]
  exact impartial.deliverAll settled _

end Host.Impartial

/-! ## Notices that come late -/

namespace Host.Discreet

/-- A discreet host is impartial. -/
theorem impartial
    (discreet : host.Discreet setup view quiet) :
    host.Impartial setup view quiet where
  silent := discreet.silent
  told write left right alike := discreet.heard write left right alike.akin
  call := by
    intro binding called arguments left right alike
    cases safe : binding.safe with
    | false =>
        exact discreet.other binding called safe arguments left right alike
    | true =>
        obtain ⟨result, pure⟩ := discreet.safe binding called safe arguments
        obtain ⟨leftResult, leftAlike⟩ := pure left alike.leftObserved
        obtain ⟨rightResult, rightAlike⟩ := pure right alike.rightObserved
        exact
          ⟨leftResult.trans rightResult.symm,
            (leftAlike.trans alike).trans rightAlike.symm⟩

/-- Whatever the values are, akin worlds stay akin when writes are delivered in both. -/
theorem deliverAll
    (discreet : host.Discreet setup view quiet)
    (akin : World.Akin view quiet left right)
    (writes : List Write) :
    World.Akin view quiet
      (World.deliverAll host writes left).2 (World.deliverAll host writes right).2 := by
  induction writes generalizing left right with
  | nil =>
      exact akin
  | cons write rest inductionHypothesis =>
      have leftTold := discreet.silent.deliver akin.leftObserved write
      have rightTold := discreet.silent.deliver akin.rightObserved write
      exact inductionHypothesis
        { declarations :=
            leftTold.declarations.trans (akin.declarations.trans rightTold.declarations.symm)
          audience := discreet.heard write left right akin
          leftObserved := leftTold.observed
          rightObserved := rightTold.observed }

/--
A write inside a speculation can as well be carried out after it was kept: the notices of
the writes before it come later than the write itself, but nobody can tell.
-/
theorem commit_carryOut
    (discreet : host.Discreet setup view quiet)
    (observed : world.ObservedBy quiet)
    {id : Nat}
    (isOpen : id < world.store.journals.length)
    (write : Write) :
    World.Alike view quiet
      ((world.carryOut host write).commit host id).2
      ((world.commit host id).2.carryOut host write) := by
  rw [World.carryOut_of_speculating (Store.isSpeculating_of_open isOpen)]
  let written : World σ := { world with store := world.store.apply write }
  have writtenObserved : written.ObservedBy quiet := observed
  have late := discreet.silent.commit writtenObserved id
  have kept := discreet.silent.commit observed id
  have soon := discreet.silent.carryOut kept.observed write
  refine ⟨?_, ?_, late.observed, soon.observed⟩
  · rw [late.store, soon.store]
    simp only [World.settled, written, Store.commit_apply isOpen, Store.unobserved_apply,
      kept.store]
  · have start : World.Akin view quiet (written.settled id) (world.settled id) :=
      { declarations := by
          simp only [World.settled, Store.commit_declarations]
          rfl
        audience := by
          simp only [World.audience_settled]
          rfl
        leftObserved := writtenObserved.settled id
        rightObserved := observed.settled id }
    -- The writes before this one are told where it has been carried out and where it has not.
    have told := discreet.deliverAll start (world.store.commit id).1
    have still : (world.commit host id).2.store.isSpeculating =
        (world.store.commit id).2.isSpeculating := by
      simp only [Store.isSpeculating, kept.journals, World.settled]
    have last : (written.commit host id).2 =
        (World.deliverAll host (if (world.store.commit id).2.isSpeculating then [] else [write])
          (World.deliverAll host (world.store.commit id).1 (written.settled id)).2).2 := by
      rw [← World.deliverAll_append, ← Store.commit_apply_writes isOpen]
      rfl
    rw [last]
    cases outside : (world.store.commit id).2.isSpeculating with
    | true =>
        rw [World.carryOut_of_speculating (still.trans outside)]
        exact told.audience
    | false =>
        rw [World.carryOut_of_not_speculating (still.trans outside)]
        exact
          discreet.heard write _ _
            ⟨told.declarations, told.audience, told.leftObserved, told.rightObserved⟩

/-- A host that a story never calls is discreet as long as its observers write nothing. -/
theorem of_uncalled
    (silent : host.Silent quiet)
    (uncalled : ∀ binding, ¬ setup.Calls binding) :
    host.Discreet setup (fun _ => ()) quiet where
  silent := silent
  heard _ _ _ _ := rfl
  safe binding called := absurd called (uncalled binding)
  other binding called := absurd called (uncalled binding)

end Host.Discreet

/-! ## Observers that look at nothing -/

/-- What an observer leaves behind depends on its notice and on the audience. -/
def Host.Heedless
    (host : Host σ) :
    Prop :=
  ∀ callback notice (left right : World σ),
    left.audience = right.audience →
    (host.notify callback notice left).2.audience = (host.notify callback notice right).2.audience

namespace Host.Heedless

theorem tellAll
    (heedless : host.Heedless)
    (leftName rightName : String)
    (new : Value)
    (old : Option Value)
    (observers : List Observer)
    (same : left.audience = right.audience) :
    (World.tellAll host leftName new old observers left).2.audience =
      (World.tellAll host rightName new old observers right).2.audience := by
  induction observers generalizing left right with
  | nil =>
      exact same
  | cons observer rest inductionHypothesis =>
      have told :
          (left.tell host observer new old).2.audience =
            (right.tell host observer new old).2.audience := by
        simp only [World.tell]
        split
        · exact heedless _ _ left right same
        · exact same
      simp only [World.tellAll]
      split <;> split <;> exact inductionHypothesis told

/-- Such observers can be told of a write whatever the values are by then. -/
theorem deliver
    (heedless : host.Heedless)
    (same : left.audience = right.audience)
    (write : Write) :
    (left.deliver host write).2.audience = (right.deliver host write).2.audience := by
  have observers : left.store.observers = right.store.observers :=
    congrArg Audience.observers same
  simp only [World.deliver, Store.observersOf, observers]
  exact heedless.tellAll _ _ _ _ _ same

end Host.Heedless

end Hosts

end Fabula
