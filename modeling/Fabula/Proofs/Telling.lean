import Fabula.Store.World

namespace Fabula

/-!
# Telling observers

A write is prepared first, which asks for a declared name and a value of its kind; what is not
prepared changes nothing.  Writes are delivered in order, each to one observer after the other,
and the failure of an observer is put on record.  So a property of the world that lasts while a
single observer is told lasts while writes are delivered, and a variable can be given a value
without losing it.
-/

/-- A host that does nothing. -/
def idleHost : Host Unit :=
  { call := fun _ _ world => (.ok .void, world)
    notify := fun _ _ world => (.ok (), world) }

/-! ## Prepared writes -/

namespace Store

variable {store : Store} {name : String} {value : Value}

/-- A write is prepared for a declared variable whose kind accepts the value. -/
theorem prepare_eq_ok_iff
    {write : Write} :
    store.prepare name value = .ok write ↔
      ∃ index,
        store.declarations.index? name = some index ∧
        (store.kindAt index).accepts value.kind = true ∧
        write = ⟨index, value.coerceTo (store.kindAt index), store.valueAt index⟩ := by
  simp only [prepare, index]
  cases found : store.declarations.index? name with
  | none =>
      simp [bind, Except.bind]
  | some index =>
      simp only [bind, Except.bind, Option.some.injEq, exists_eq_left']
      split
      · next accepted =>
          simp [pure, Except.pure, accepted, eq_comm]
      · next refused =>
          simp [throw, throwThe, MonadExceptOf.throw, refused]

/-- What is not prepared fails for its name or for its kind. -/
theorem prepare_eq_error
    {error : Error}
    (refused : store.prepare name value = .error error) :
    error = .unknownVariable name ∨ ∃ declared, error = .typeMismatch name declared value.kind := by
  simp only [prepare, index] at refused
  cases found : store.declarations.index? name with
  | none =>
      simp only [found, bind, Except.bind, Except.error.injEq] at refused
      exact .inl refused.symm
  | some index =>
      simp only [found, bind, Except.bind] at refused
      split at refused
      · cases refused
      · simp only [throw, throwThe, MonadExceptOf.throw, Except.error.injEq] at refused
        exact .inr ⟨_, refused.symm⟩

end Store

namespace World

variable {σ : Type} {host : Host σ} {world : World σ} {motive : World σ → Prop}

/-! ## What lasts -/

theorem tellAll_keeps
    {name : String}
    {new : Value}
    {old : Option Value}
    {observers : List Observer}
    (tell :
      ∀ observer ∈ observers,
        ∀ world, motive world → motive (world.tell host observer new old).2)
    (record : ∀ entry world, motive world → motive (World.record entry world))
    (kept : motive world) :
    motive (tellAll host name new old observers world).2 := by
  induction observers generalizing world with
  | nil =>
      exact kept
  | cons observer rest inductionHypothesis =>
      obtain ⟨first, others⟩ := List.forall_mem_cons.mp tell
      have told := first world kept
      simp only [tellAll]
      split
      · exact inductionHypothesis others told
      · exact inductionHypothesis others (record _ _ told)

theorem deliverAll_keeps
    {writes : List Write}
    (deliver : ∀ write ∈ writes, ∀ world, motive world → motive (world.deliver host write).2)
    (kept : motive world) :
    motive (deliverAll host writes world).2 := by
  induction writes generalizing world with
  | nil =>
      exact kept
  | cons write rest inductionHypothesis =>
      obtain ⟨first, others⟩ := List.forall_mem_cons.mp deliver
      exact inductionHypothesis others (first world kept)

/-- A write that is prepared counts with its observers told and without. -/
theorem assign_keeps
    {name : String}
    {value : Value}
    (written :
      ∀ write,
        world.store.prepare name value = .ok write →
        let after : World σ := { world with store := world.store.apply write }
        motive after ∧ motive (after.deliver host write).2)
    (kept : motive world) :
    motive (world.assign host name value).2 := by
  simp only [assign]
  cases prepared : world.store.prepare name value with
  | error error =>
      exact kept
  | ok write =>
      obtain ⟨alone, delivered⟩ := written write prepared
      simp only
      split
      · exact alone
      · split <;> exact delivered

/-- Writes are delivered one after the other. -/
theorem deliverAll_append
    (host : Host σ)
    (first later : List Write)
    (world : World σ) :
    (deliverAll host (first ++ later) world).2 =
      (deliverAll host later (deliverAll host first world).2).2 := by
  induction first generalizing world with
  | nil =>
      rfl
  | cons write rest inductionHypothesis =>
      exact inductionHypothesis _

/-! ## Giving a variable a value -/

/-- Failures to tell observers are failures of callbacks. -/
theorem tellAll_isCallback
    {name : String}
    {new : Value}
    {old : Option Value}
    {observers : List Observer}
    {error : Error}
    (failed : (tellAll host name new old observers world).1 = some error) :
    error.isCallback = true := by
  induction observers generalizing world with
  | nil =>
      simp [tellAll] at failed
  | cons observer rest inductionHypothesis =>
      simp only [tellAll] at failed
      split at failed
      · exact inductionHypothesis failed
      · simp only [Option.some.injEq] at failed
        subst failed
        rfl

/-- A write that cannot be prepared fails and changes nothing. -/
theorem assign_of_refused
    {name : String}
    {value : Value}
    {error : Error}
    (refused : world.store.prepare name value = .error error) :
    world.assign host name value = (.error error, world) := by
  simp only [assign, refused]

/-- A prepared write succeeds, observers that fail aside. -/
theorem isCallback_of_prepared
    {name : String}
    {value : Value}
    {write : Write}
    (prepared : world.store.prepare name value = .ok write)
    {error : Error}
    (failed : (world.assign host name value).1 = .error error) :
    error.isCallback = true := by
  simp only [assign, prepared] at failed
  split at failed
  · cases failed
  · split at failed
    · cases failed
    · next told =>
        obtain rfl := Except.error.inj failed
        exact tellAll_isCallback told

/-- Carry out a write; its notices are held back while a speculation is open. -/
def carryOut (host : Host σ) (write : Write) (world : World σ) : World σ :=
  let written := { world with store := world.store.apply write }
  if world.store.isSpeculating then written else (written.deliver host write).2

theorem carryOut_of_speculating
    (speculating : world.store.isSpeculating = true)
    (write : Write) :
    world.carryOut host write = { world with store := world.store.apply write } := by
  simp only [carryOut, speculating, if_true]

theorem carryOut_of_not_speculating
    (plain : world.store.isSpeculating = false)
    (write : Write) :
    world.carryOut host write =
      (World.deliver host write { world with store := world.store.apply write }).2 := by
  simp only [carryOut, plain, Bool.false_eq_true, if_false]

/-- A prepared write is carried out. -/
theorem assign_of_prepared
    {name : String}
    {value : Value}
    {write : Write}
    (prepared : world.store.prepare name value = .ok write) :
    (world.assign host name value).2 = world.carryOut host write := by
  simp only [assign, prepared, carryOut]
  split
  · rfl
  · split <;> rfl

end World

end Fabula
