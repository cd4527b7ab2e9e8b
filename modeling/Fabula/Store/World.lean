import Fabula.Store.Basic
import Fabula.Trace

namespace Fabula

/-!
# Stores and their host

The host is the program around a story: it lends the story functions to call and
observes its variables.  A host function may do anything to the host and to the
store, so it is a function on the world: the store, the log and the state of the
host.
-/

/-- A store, a log and the state of the host. -/
structure World (σ : Type) where
  store : Store
  log : Array LogRecord
  host : σ

/-- What an observer is told. -/
inductive Notice where
  /-- The new value and the old one, which is missing when the observer is registered. -/
  | changed (new : Value) (old : Option Value)
  | ping
  | delta (new old : Value)
  deriving Repr, DecidableEq

/-- The functions of the host. -/
structure Host (σ : Type) where
  /-- Call a function with arguments. -/
  call : CallbackId → List Value → World σ → Except Failure Value × World σ
  /-- Tell an observer. -/
  notify : CallbackId → Notice → World σ → Except Failure Unit × World σ

namespace World

variable {σ : Type}

/-- Add a record to the log. -/
def record (record : LogRecord) (world : World σ) : World σ :=
  { world with log := world.log.push record }

/-- What an observer hears of a write; nothing when it does not care. -/
def noticeOf (kind : ObserverKind) (new : Value) (old : Option Value) : Option Notice :=
  match kind with
  | .changed => some (.changed new old)
  | .ping => some .ping
  | .delta =>
      match old with
      | some old => if old.same new then none else some (.delta new old)
      | none => none

/-- Tell one observer of a write. -/
def tell
    (host : Host σ)
    (observer : Observer)
    (new : Value)
    (old : Option Value)
    (world : World σ) :
    Except Failure Unit × World σ :=
  match noticeOf observer.kind new old with
  | some notice => host.notify observer.callback notice world
  | none => (.ok (), world)

def observerFailed (name : String) (failure : Failure) : LogRecord :=
  ⟨.warn, "inkvm::globals", s!"observer for '{name}' failed: {failure.chain}"⟩

/-- Tell observers in turn; the first failure is given back after all have been told. -/
def tellAll (host : Host σ) (name : String) (new : Value) (old : Option Value) :
    List Observer → World σ → Option Error × World σ
  | [], world => (none, world)
  | observer :: rest, world =>
      let told := world.tell host observer new old
      match told.1 with
      | .ok () => tellAll host name new old rest told.2
      | .error failure =>
          let others :=
            tellAll host name new old rest (told.2.record (observerFailed name failure))
          (some (.callback name failure), others.2)

/-- Tell the observers of a variable of a write to it. -/
def deliver (host : Host σ) (write : Write) (world : World σ) : Option Error × World σ :=
  tellAll host (world.store.nameAt write.index) write.new (some write.old)
    (world.store.observersOf write.index) world

/-- Deliver writes in order, and give back the failures. -/
def deliverAll (host : Host σ) : List Write → World σ → List Error × World σ
  | [], world => ([], world)
  | write :: rest, world =>
      let delivered := world.deliver host write
      let others := deliverAll host rest delivered.2
      (delivered.1.toList ++ others.1, others.2)

/--
Give a variable a value.  Outside a speculation its observers are told at once;
the write stands even if one of them fails.
-/
def assign (host : Host σ) (name : String) (value : Value) (world : World σ) :
    Except Error Unit × World σ :=
  match world.store.prepare name value with
  | .error error => (.error error, world)
  | .ok write =>
      let written := { world with store := world.store.apply write }
      if world.store.isSpeculating then
        (.ok (), written)
      else
        let delivered := written.deliver host write
        match delivered.1 with
        | none => (.ok (), delivered.2)
        | some error => (.error error, delivered.2)

def beginSpeculation (world : World σ) : Nat × World σ :=
  let opened := world.store.beginSpeculation
  (opened.1, { world with store := opened.2 })

def rollback (id : Nat) (world : World σ) : World σ :=
  { world with store := world.store.rollback id }

/-- Keep a speculation, and deliver its writes if no other is open. -/
def commit (host : Host σ) (id : Nat) (world : World σ) : List Error × World σ :=
  let closed := world.store.commit id
  deliverAll host closed.1 { world with store := closed.2 }

/-- Remove an observer, and say whether there was one. -/
def unobserve (id : Nat) (world : World σ) : Bool × World σ :=
  let removed := world.store.unobserve id
  (removed.1, { world with store := removed.2 })

/--
Observe a variable.  The observer is told of the present value at once, except
when it only cares for changes; if it fails, it is removed again.
-/
def observe
    (host : Host σ)
    (name : String)
    (kind : ObserverKind)
    (callback : CallbackId)
    (world : World σ) :
    Except Error Nat × World σ :=
  match world.store.index name with
  | .error error => (.error error, world)
  | .ok index =>
      let registered := world.store.register index kind callback
      let observer := registered.1
      let told :=
        World.tell host observer (world.store.valueAt index) none
          { world with store := registered.2 }
      match told.1 with
      | .ok () => (.ok observer.id, told.2)
      | .error failure => (.error (.callback name failure), (told.2.unobserve observer.id).2)

end World

end Fabula
