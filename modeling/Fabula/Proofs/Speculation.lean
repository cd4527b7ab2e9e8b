import Fabula.Store.World

namespace Fabula

/-!
# Speculations are transactions

Inside an open speculation the store only ever grows journals on top of those that
were there before, and replaying these journals backwards leads to the values at the
point where the speculation was opened.  This holds after every write, however
speculations are opened, kept, taken back or closed twice inside.  Taking back the
outer speculation therefore gives back the world as it was, and no observer hears
of anything that happened in between.
-/

namespace Store

/-- The value at a position is put back by writing it there again. -/
theorem set_valueAt
    (store : Store)
    (index : Nat) :
    store.values.set index (store.valueAt index) = store.values := by
  apply List.ext_getElem?
  intro position
  rw [List.getElem?_set]
  split
  · next same =>
      subst same
      split
      · next inside =>
          simp [valueAt, List.getD, inside]
      · next outside =>
          simp [Nat.le_of_not_lt outside]
  · rfl

/-- A prepared write remembers the value that it replaces. -/
theorem prepare_old
    {store : Store}
    {name : String}
    {value : Value}
    {write : Write}
    (prepared : store.prepare name value = .ok write) :
    write.old = store.valueAt write.index := by
  simp only [prepare, bind, Except.bind] at prepared
  cases found : store.index name with
  | error error =>
      simp [found] at prepared
  | ok index =>
      simp only [found] at prepared
      split at prepared
      · simp only [pure, Except.pure, Except.ok.injEq] at prepared
        subst prepared
        rfl
      · simp [throw, throwThe, MonadExceptOf.throw] at prepared

/-- Keeping a speculation keeps the declarations. -/
@[simp]
theorem commit_declarations
    (store : Store)
    (id : Nat) :
    (store.commit id).2.declarations = store.declarations := by
  simp only [commit]
  split <;> rfl

/-- Keeping a speculation keeps the values. -/
@[simp]
theorem commit_values
    (store : Store)
    (id : Nat) :
    (store.commit id).2.values = store.values := by
  simp only [commit]
  split <;> rfl

/-- Keeping a speculation keeps the observers. -/
@[simp]
theorem commit_observers
    (store : Store)
    (id : Nat) :
    (store.commit id).2.observers = store.observers := by
  simp only [commit]
  split <;> rfl

/-- Undoing a write that was just carried out gives the values back. -/
theorem undo_apply
    {store : Store}
    {write : Write}
    (remembers : write.old = store.valueAt write.index) :
    undo (store.apply write).values write = store.values := by
  simp only [undo, apply, List.set_set, remembers, set_valueAt]

/--
One store lies above another when it differs from it only by the journals of open
speculations on top and by the writes that these journals take back.
-/
structure Above (base store : Store) : Prop where
  declarations : store.declarations = base.declarations
  observers : store.observers = base.observers
  nextObserver : store.nextObserver = base.nextObserver
  journals :
    ∃ inner,
      inner ≠ [] ∧
      store.journals = inner ++ base.journals ∧
      inner.flatten.foldl undo store.values = base.values

namespace Above

variable {base store : Store}

/-- Opening a speculation leads above the store. -/
theorem beginSpeculation
    (store : Store) :
    Above store store.beginSpeculation.2 where
  declarations := rfl
  observers := rfl
  nextObserver := rfl
  journals := ⟨[[]], by simp, rfl, rfl⟩

/-- A speculation is open in a store above another. -/
theorem isSpeculating
    (above : Above base store) :
    store.isSpeculating = true := by
  obtain ⟨inner, nonempty, shape, _⟩ := above.journals
  cases inner with
  | nil =>
      exact absurd rfl nonempty
  | cons first rest =>
      simp [Store.isSpeculating, shape]

/-- Taking back the lowest of the upper speculations leads back down. -/
theorem rollback_base
    (above : Above base store) :
    store.rollback base.journals.length = base := by
  obtain ⟨inner, _, shape, undone⟩ := above.journals
  have writes : store.writesSince base.journals.length = inner.flatten := by
    simp [writesSince, shape]
  have around : store.journalsAround base.journals.length = base.journals := by
    simp [journalsAround, shape]
  simp only [Store.rollback, writes, around, undone, above.declarations,
    above.observers, above.nextObserver]

/-- A write stays above. -/
theorem apply
    (above : Above base store)
    {write : Write}
    (remembers : write.old = store.valueAt write.index) :
    Above base (store.apply write) where
  declarations := above.declarations
  observers := above.observers
  nextObserver := above.nextObserver
  journals := by
    obtain ⟨inner, nonempty, shape, undone⟩ := above.journals
    cases inner with
    | nil =>
        exact absurd rfl nonempty
    | cons first rest =>
        refine ⟨(write :: first) :: rest, by simp, ?_, ?_⟩
        · simp [Store.apply, shape, journal]
        · have back := undo_apply remembers
          simp only [List.flatten_cons, List.cons_append, List.foldl_cons]
          rw [back]
          simpa using undone

/-- Opening a further speculation stays above. -/
theorem speculate
    (above : Above base store) :
    Above base store.beginSpeculation.2 where
  declarations := above.declarations
  observers := above.observers
  nextObserver := above.nextObserver
  journals := by
    obtain ⟨inner, _, shape, undone⟩ := above.journals
    exact ⟨[] :: inner, by simp, by simp [Store.beginSpeculation, shape],
      by simpa [Store.beginSpeculation] using undone⟩

/--
A speculation inside the upper ones splits their journals: those inside it and those
around it, of which there is at least one.
-/
theorem split
    (above : Above base store)
    {id : Nat}
    (inside : base.journals.length < id) :
    ∃ closed kept,
      kept ≠ [] ∧
      store.writesSince id = closed.flatten ∧
      store.journalsAround id = kept ++ base.journals ∧
      (closed ++ kept).flatten.foldl undo store.values = base.values := by
  obtain ⟨inner, nonempty, shape, undone⟩ := above.journals
  have positive : 0 < inner.length := List.length_pos_iff.mpr nonempty
  have size : store.journals.length = inner.length + base.journals.length := by
    rw [shape, List.length_append]
  refine ⟨inner.take (store.journals.length - id),
    inner.drop (store.journals.length - id), ?_, ?_, ?_, ?_⟩
  · intro empty
    have := List.drop_eq_nil_iff.mp empty
    omega
  · have fits : inner.length + base.journals.length - id ≤ inner.length := by omega
    simp only [writesSince, size]
    rw [shape, List.take_append_of_le_length fits]
  · have fits : inner.length + base.journals.length - id ≤ inner.length := by omega
    simp only [journalsAround, size]
    rw [shape, List.drop_append_of_le_length fits]
  · rw [List.take_append_drop]
    exact undone

/-- Taking back an inner speculation stays above. -/
theorem rollback
    (above : Above base store)
    {id : Nat}
    (inside : base.journals.length < id) :
    Above base (store.rollback id) where
  declarations := above.declarations
  observers := above.observers
  nextObserver := above.nextObserver
  journals := by
    obtain ⟨closed, kept, nonempty, writes, around, undone⟩ := above.split inside
    refine ⟨kept, nonempty, around, ?_⟩
    rw [List.flatten_append, List.foldl_append] at undone
    simpa [Store.rollback, writes] using undone

/-- Keeping an inner speculation holds all notices back. -/
theorem commit_writes
    (above : Above base store)
    {id : Nat}
    (inside : base.journals.length < id) :
    (store.commit id).1 = [] := by
  obtain ⟨closed, kept, nonempty, _, around, _⟩ := above.split inside
  cases kept with
  | nil =>
      exact absurd rfl nonempty
  | cons first rest =>
      simp [Store.commit, around]

/-- Keeping an inner speculation stays above. -/
theorem commit
    (above : Above base store)
    {id : Nat}
    (inside : base.journals.length < id) :
    Above base (store.commit id).2 := by
  obtain ⟨closed, kept, nonempty, writes, around, undone⟩ := above.split inside
  cases kept with
  | nil =>
      exact absurd rfl nonempty
  | cons first rest =>
      have shape :
          (store.commit id).2 =
            { store with
              journals := (closed.flatten ++ first) :: (rest ++ base.journals) } := by
        simp [Store.commit, around, writes]
      rw [shape]
      exact
        { declarations := above.declarations
          observers := above.observers
          nextObserver := above.nextObserver
          journals :=
            ⟨(closed.flatten ++ first) :: rest, by simp, rfl, by simpa using undone⟩ }

end Above

end Store

/-! ## Operations on a world -/

/-- What can be done with the globals and speculations of a store. -/
inductive Operation where
  /-- Give a variable a value. -/
  | assign (name : String) (value : Value)
  /-- Open a speculation. -/
  | speculate
  /-- Keep a speculation and those inside it. -/
  | commit (id : Nat)
  /-- Take back a speculation and those inside it. -/
  | rollback (id : Nat)
  deriving Repr, DecidableEq

/-- Whether an operation closes only speculations inside the one with a number. -/
def Operation.isInside (id : Nat) : Operation → Bool
  | .assign .. | .speculate => true
  | .commit other | .rollback other => decide (id < other)

namespace World

variable {σ : Type}

/-- Carry out an operation, whether it succeeds or not. -/
def perform
    (host : Host σ)
    (world : World σ) :
    Operation → World σ
  | .assign name value => (world.assign host name value).2
  | .speculate => world.beginSpeculation.2
  | .commit id => (world.commit host id).2
  | .rollback id => world.rollback id

/-- Carry out operations in order. -/
def performAll
    (host : Host σ)
    (world : World σ)
    (operations : List Operation) :
    World σ :=
  operations.foldl (perform host) world

/--
One world lies above another when its store does, and the log and the state of the
host are untouched.
-/
structure Above (base world : World σ) : Prop where
  store : Store.Above base.store world.store
  log : world.log = base.log
  host : world.host = base.host

namespace Above

variable {base world : World σ}

/-- Opening a speculation leads above the world. -/
theorem beginSpeculation
    (world : World σ) :
    Above world world.beginSpeculation.2 where
  store := .beginSpeculation world.store
  log := rfl
  host := rfl

/-- Taking back the lowest of the upper speculations leads back down. -/
theorem rollback_base
    (above : Above base world) :
    world.rollback base.store.journals.length = base := by
  simp only [World.rollback, above.store.rollback_base, above.log, above.host]

/-- Inside a speculation a write tells nobody, so it is the same for every host. -/
theorem assign
    (above : Above base world)
    (host : Host σ)
    (name : String)
    (value : Value) :
    Above base (world.assign host name value).2 ∧
      ∀ other : Host σ,
        world.assign other name value = world.assign host name value := by
  cases prepared : world.store.prepare name value with
  | error error =>
      simp only [World.assign, prepared, implies_true, and_true]
      exact above
  | ok write =>
      simp only [World.assign, prepared, above.store.isSpeculating, ↓reduceIte,
        implies_true, and_true]
      exact
        { store := above.store.apply (Store.prepare_old prepared)
          log := above.log
          host := above.host }

/-- Keeping an inner speculation tells nobody either. -/
theorem commit
    (above : Above base world)
    (host : Host σ)
    {id : Nat}
    (inside : base.store.journals.length < id) :
    Above base (world.commit host id).2 ∧
      ∀ other : Host σ, world.commit other id = world.commit host id := by
  simp only [World.commit, above.store.commit_writes inside, deliverAll, implies_true,
    and_true]
  exact
    { store := above.store.commit inside
      log := above.log
      host := above.host }

/-- Every operation inside a speculation stays above, the same for every host. -/
theorem perform
    (above : Above base world)
    (host : Host σ)
    {operation : Operation}
    (inside : operation.isInside base.store.journals.length = true) :
    Above base (world.perform host operation) ∧
      ∀ other : Host σ, world.perform other operation = world.perform host operation := by
  cases operation with
  | assign name value =>
      obtain ⟨stays, same⟩ := above.assign host name value
      exact ⟨stays, fun other => congrArg Prod.snd (same other)⟩
  | speculate =>
      exact
        ⟨{ store := above.store.speculate
           log := above.log
           host := above.host },
          fun _ => rfl⟩
  | commit id =>
      obtain ⟨stays, same⟩ := above.commit host (of_decide_eq_true inside)
      exact ⟨stays, fun other => congrArg Prod.snd (same other)⟩
  | rollback id =>
      exact
        ⟨{ store := above.store.rollback (of_decide_eq_true inside)
           log := above.log
           host := above.host },
          fun _ => rfl⟩

/-- Every run of operations inside a speculation stays above, the same for every host. -/
theorem performAll
    (above : Above base world)
    (host : Host σ)
    {operations : List Operation}
    (inside :
      ∀ operation ∈ operations,
        operation.isInside base.store.journals.length = true) :
    Above base (world.performAll host operations) ∧
      ∀ other : Host σ,
        world.performAll other operations = world.performAll host operations := by
  induction operations generalizing world with
  | nil =>
      exact ⟨above, fun _ => rfl⟩
  | cons operation rest inductionHypothesis =>
      obtain ⟨stays, same⟩ := above.perform host (inside operation List.mem_cons_self)
      obtain ⟨staysToEnd, sameToEnd⟩ :=
        inductionHypothesis stays
          (fun later member => inside later (List.mem_cons_of_mem operation member))
      refine ⟨staysToEnd, ?_⟩
      intro other
      simp only [World.performAll, List.foldl_cons, same other]
      exact sameToEnd other

end Above

/--
Nested speculation is a transaction.  Whatever is written, opened, kept or taken back
inside a speculation, taking it back gives the world as it was when it was opened: the
values, the speculations around it with their journals, the log and the state of the
host.  No observer is called on the way: every other host would see the same run.
-/
theorem rollback_performAll_speculation
    (host : Host σ)
    (world : World σ)
    (operations : List Operation)
    (inside :
      ∀ operation ∈ operations,
        operation.isInside world.beginSpeculation.1 = true) :
    (world.beginSpeculation.2.performAll host operations).rollback
        world.beginSpeculation.1 = world ∧
      ∀ other : Host σ,
        world.beginSpeculation.2.performAll other operations =
          world.beginSpeculation.2.performAll host operations := by
  obtain ⟨above, same⟩ :=
    (Above.beginSpeculation world).performAll host inside
  exact ⟨above.rollback_base, same⟩

/--
Inside a second speculation a purse is filled, a third speculation is kept and a
fourth is taken back and closed twice, while an observer counts the notices.
-/
theorem rollback_performAll_purse :
    let purse : Store :=
      { Store.start ⟨[⟨"gold", .int 1⟩], ⟨#[]⟩⟩ with
        values := [.int 3]
        observers := [⟨0, 0, .changed, 0⟩]
        nextObserver := 1
        journals := [[⟨0, .int 3, .int 1⟩]] }
    let host : Host Nat :=
      { call := fun _ _ world => (.ok .void, world)
        notify := fun _ _ world => (.ok (), { world with host := world.host + 1 }) }
    let world : World Nat := ⟨purse, #[], 0⟩
    let operations : List Operation :=
      [.assign "gold" (.int 5), .speculate, .assign "gold" (.int 6), .commit 2,
        .speculate, .assign "gold" (.int 7), .rollback 2, .rollback 2, .speculate]
    (∀ operation ∈ operations, operation.isInside world.beginSpeculation.1 = true) ∧
      (world.beginSpeculation.2.performAll host operations).rollback
          world.beginSpeculation.1 = world ∧
        ∀ other : Host Nat,
          world.beginSpeculation.2.performAll other operations =
            world.beginSpeculation.2.performAll host operations := by
  intro purse host world operations
  have inside :
      ∀ operation ∈ operations, operation.isInside world.beginSpeculation.1 = true := by
    decide
  exact ⟨inside, rollback_performAll_speculation host world operations inside⟩

end World

end Fabula
