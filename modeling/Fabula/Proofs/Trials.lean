import Fabula.Proofs.PlainRun

namespace Fabula

/-!
# Trials

While a runner looks ahead from a checkpoint, its world differs from that of a plain run only
by the journal of the open speculation, and by the notices that the journal holds back: keeping
the speculation gives the world of the plain run, taking it back gives the world at the
checkpoint.
-/

namespace World

variable {σ τ : Type} {view : Audience σ → τ} {quiet : CallbackId → Prop} {host : Host σ}
  {setup : Setup}

/-- Worlds that are alike stay so when a story runs in both. -/
theorem alike_bridge
    (impartial : host.Impartial setup view quiet) :
    Bridge setup host (fun _ => True) (Alike view quiet) where
  globals alike := Store.get_congr alike.declarations alike.values
  log leftLog rightLog alike := alike.log leftLog rightLog
  assign := by
    intro left right name value alike
    have same := Store.prepare_congr alike.declarations alike.values name value
    cases prepared : left.store.prepare name value with
    | error error =>
        rw [assign_of_refused prepared, assign_of_refused (same.symm.trans prepared)]
        exact ⟨rfl, alike⟩
    | ok write =>
        have there := same.symm.trans prepared
        rw [hushed_of_prepared prepared, hushed_of_prepared there, assign_of_prepared prepared,
          assign_of_prepared there]
        exact ⟨rfl, impartial.carryOut alike write⟩
  call arguments called _ alike := impartial.call _ called arguments _ _ alike

/--
A world on trial since a base: taking the trial back gives a world like the base, and
keeping it gives a world like that of the plain run.
-/
structure OnTrial
    (host : Host σ)
    (view : Audience σ → τ)
    (quiet : CallbackId → Prop)
    (base world plain : World σ) :
    Prop where
  above : Store.Above base.store.unobserved world.store.unobserved
  audience : view world.audience = view base.audience
  observed : world.ObservedBy quiet
  kept : Alike view quiet (world.commit host base.store.journals.length).2 plain

namespace OnTrial

variable {base world plain : World σ}

/-- A trial starts where a speculation is opened. -/
theorem start
    (host : Host σ)
    (alike : Alike view quiet world plain) :
    OnTrial host view quiet plain world.beginSpeculation.2 plain where
  above := by
    have opened := Store.Above.beginSpeculation world.store.unobserved
    rw [alike.store] at opened
    exact alike.store ▸ opened
  audience := alike.audience
  observed := alike.leftObserved
  kept := by
    rw [← alike.journals, commit_beginSpeculation]
    exact alike

/-- Taking a trial back leads to the base. -/
theorem rollback
    (trial : OnTrial host view quiet base world plain)
    (observed : base.ObservedBy quiet) :
    Alike view quiet (world.rollback base.store.journals.length) base where
  store := trial.above.rollback_base
  audience := trial.audience
  leftObserved := trial.observed
  rightObserved := observed

/-- The speculation of a trial is open. -/
theorem isOpen
    (trial : OnTrial host view quiet base world plain) :
    base.store.journals.length < world.store.journals.length := by
  obtain ⟨inner, nonempty, shape, _⟩ := trial.above.journals
  have positive : 0 < inner.length := List.length_pos_iff.mpr nonempty
  simp only [Store.unobserved_journals] at shape
  rw [shape, List.length_append]
  omega

/-- Declarations and values are those of the plain world. -/
theorem declarations_values
    (discreet : host.Discreet setup view quiet)
    (trial : OnTrial host view quiet base world plain) :
    world.store.declarations = plain.store.declarations ∧
      world.store.values = plain.store.values := by
  have closed := discreet.silent.commit trial.observed base.store.journals.length
  have declarations := closed.declarations.symm.trans trial.kept.declarations
  have values := closed.values.symm.trans trial.kept.values
  simp only [settled, Store.commit_declarations, Store.commit_values] at declarations values
  exact ⟨declarations, values⟩

/-- Replacing the world on trial by one that is alike, and the plain world too. -/
theorem replace
    (discreet : host.Discreet setup view quiet)
    (trial : OnTrial host view quiet base world plain)
    {otherWorld otherPlain : World σ}
    (worldAlike : Alike view quiet otherWorld world)
    (plainAlike : Alike view quiet otherPlain plain) :
    OnTrial host view quiet base otherWorld otherPlain where
  above := worldAlike.store ▸ trial.above
  audience := worldAlike.audience.trans trial.audience
  observed := worldAlike.leftObserved
  kept := by
    have kept := discreet.impartial.commit worldAlike base.store.journals.length
    exact (kept.trans trial.kept).trans plainAlike.symm

/-- What is logged does not matter. -/
theorem log
    (discreet : host.Discreet setup view quiet)
    (trial : OnTrial host view quiet base world plain)
    (worldLog plainLog : Array LogRecord) :
    OnTrial host view quiet base
      { world with log := worldLog } { plain with log := plainLog } :=
  trial.replace discreet ((Alike.refl trial.observed).log worldLog world.log)
    ((Alike.refl trial.kept.rightObserved).log plainLog plain.log)

/-- A write on trial is carried out in the plain world too. -/
theorem carryOut
    (discreet : host.Discreet setup view quiet)
    (trial : OnTrial host view quiet base world plain)
    {write : Write}
    (remembers : write.old = world.store.valueAt write.index) :
    OnTrial host view quiet base (world.carryOut host write) (plain.carryOut host write) where
  above := by
    rw [(discreet.silent.carryOut trial.observed write).store]
    exact trial.above.apply remembers
  audience := by
    have speculating : world.store.isSpeculating = true := trial.above.isSpeculating
    rw [carryOut_of_speculating speculating]
    exact trial.audience
  observed := (discreet.silent.carryOut trial.observed write).observed
  kept :=
    (discreet.commit_carryOut trial.observed trial.isOpen write).trans
      (discreet.impartial.carryOut trial.kept write)

/-- Trials are kept by the steps of a story that call only what may be called on trial. -/
theorem bridge
    (base : World σ)
    (discreet : host.Discreet setup view quiet) :
    Bridge setup host (fun binding => binding.safe = true) (OnTrial host view quiet base) where
  globals trial :=
    Store.get_congr (trial.declarations_values discreet).1 (trial.declarations_values discreet).2
  log leftLog rightLog trial := trial.log discreet leftLog rightLog
  assign := by
    intro world plain name value trial
    obtain ⟨declarations, values⟩ := trial.declarations_values discreet
    have same := Store.prepare_congr declarations values name value
    cases prepared : world.store.prepare name value with
    | error error =>
        rw [assign_of_refused prepared, assign_of_refused (same.symm.trans prepared)]
        exact ⟨rfl, trial⟩
    | ok write =>
        have there := same.symm.trans prepared
        rw [hushed_of_prepared prepared, hushed_of_prepared there, assign_of_prepared prepared,
          assign_of_prepared there]
        exact ⟨rfl, trial.carryOut discreet (Store.prepare_old prepared)⟩
  call := by
    intro world plain binding arguments called safe trial
    obtain ⟨result, pure⟩ := discreet.safe binding called safe arguments
    obtain ⟨worldResult, worldAlike⟩ := pure world trial.observed
    obtain ⟨plainResult, plainAlike⟩ := pure plain trial.kept.rightObserved
    exact ⟨worldResult.trans plainResult.symm, trial.replace discreet worldAlike plainAlike⟩

end OnTrial

end World

namespace Play

variable {σ τ : Type} {view : Audience σ → τ} {quiet : CallbackId → Prop} {host : Host σ}
  {setup : Setup}

/-- Two plays at the same place in worlds that are alike. -/
structure Follows
    (view : Audience σ → τ)
    (quiet : CallbackId → Prop)
    (play plain : Play σ) :
    Prop where
  flow : play.flow = plain.flow
  world : World.Alike view quiet play.world plain.world

/-- A play that looks ahead from a checkpoint, beside a plain run from the same place. -/
structure Tries
    (host : Host σ)
    (view : Audience σ → τ)
    (quiet : CallbackId → Prop)
    (saved : Checkpoint)
    (base play plain : Play σ) :
    Prop where
  savedFlow : saved.flow = base.flow
  outputSize : saved.outputSize = base.flow.output.size
  speculation : saved.speculation = base.world.store.journals.length
  observed : base.world.ObservedBy quiet
  flow : play.flow = plain.flow
  world : World.OnTrial host view quiet base.world play.world plain.world

/-- The same flow makes the same change over stores with the same globals. -/
theorem corresponding_eq
    {left right : Play σ}
    (flow : left.flow = right.flow)
    (globals : left.world.store.get = right.world.store.get)
    (address : Nat) :
    Corresponding Eq
      (left.flow.next setup left.world.store address)
      (right.flow.next setup right.world.store address) := by
  rw [flow, Flow.next_congr globals]
  cases right.flow.next setup right.world.store address with
  | error error =>
      exact .error error
  | ok change =>
      exact .ok ⟨rfl, rfl⟩

/-- An instruction that is not an unsafe call calls only what may be called on trial. -/
theorem safe_of_isUnsafeCall
    {address : Nat}
    (safeCall : setup.isUnsafeCall address = false)
    {flag : UInt8}
    {payload : UInt32}
    {binding : Binding}
    (here : setup.story.instruction? address = some ⟨.callExternal, flag, payload⟩)
    (bound : setup.bindings.get? (setup.story.string payload) = some binding) :
    binding.safe = true := by
  simpa [Setup.isUnsafeCall, here, bound] using safeCall

/-- Going on with the fallback is the same on both sides. -/
theorem takeFallback?_world
    {play continued : Play σ}
    (taken : play.takeFallback? setup = some continued)
    {plain : Play σ}
    (flow : play.flow = plain.flow) :
    ∃ other worldLog plainLog,
      plain.takeFallback? setup = some other ∧
        continued.flow = other.flow ∧
        continued.world = { play.world with log := worldLog } ∧
        other.world = { plain.world with log := plainLog } := by
  simp only [takeFallback?, Option.map_eq_some_iff] at taken
  obtain ⟨choice, offered, rfl⟩ := taken
  refine
    ⟨(plain.emit setup [.fallbackChosen choice.target]).select setup choice, _, _, ?_, ?_,
      rfl, rfl⟩
  · simp only [takeFallback?, ← flow, offered, Option.map_some]
  · simp only [select, emit, flow]

namespace Follows

variable {play plain : Play σ}

/-- A step is the same on both sides. -/
theorem step
    (discreet : host.Discreet setup view quiet)
    (follows : Follows view quiet play plain)
    (address : Nat) :
    (play.step setup host address).1 = (plain.step setup host address).1 ∧
      Follows view quiet
        (play.step setup host address).2 (plain.step setup host address).2 := by
  have bridge := World.alike_bridge discreet.impartial
  obtain ⟨same, world, flow⟩ :=
    bridge.step (fun value equal => congrArg (Flow.push · value) equal)
      (fun _ _ _ _ _ => trivial) follows.world
      (congrArg (fun flow : Flow => { flow with ip := some (address + 1) }) follows.flow)
      (corresponding_eq follows.flow (bridge.globals follows.world) address)
  exact ⟨same, flow, world⟩

/-- A step that succeeds is a plain advance. -/
theorem moved
    (discreet : host.Discreet setup view quiet)
    (follows : Follows view quiet play plain)
    {address : Nat}
    {after : Play σ}
    (here : play.flow.ip = some address)
    (stepped : play.step setup host address = (.ok (), after)) :
    ∃ next,
      plain.plainAdvance? setup host = some (.ok (), next) ∧
        Follows view quiet after next := by
  obtain ⟨same, matching⟩ := follows.step discreet address
  rw [stepped] at same matching
  exact
    ⟨(plain.step setup host address).2,
      plainAdvance?_of_result (follows.flow ▸ here) same, matching⟩

/-- A step that fails is a plain advance that fails. -/
theorem failed
    (discreet : host.Discreet setup view quiet)
    (follows : Follows view quiet play plain)
    {address : Nat}
    {after : Play σ}
    {error : Error}
    (here : play.flow.ip = some address)
    (stepped : play.step setup host address = (.error error, after)) :
    ∃ last,
      plain.plainAdvance? setup host = some (.error error, last) ∧
        Follows view quiet after last := by
  obtain ⟨same, matching⟩ := follows.step discreet address
  rw [stepped] at same matching
  exact
    ⟨(plain.step setup host address).2,
      plainAdvance?_of_result (follows.flow ▸ here) same, matching⟩

/-- Taking the fallback is a plain advance. -/
theorem fallback
    (host : Host σ)
    (follows : Follows view quiet play plain)
    {continued : Play σ}
    (stopped : play.flow.ip = none)
    (taken : play.takeFallback? setup = some continued) :
    ∃ next,
      plain.plainAdvance? setup host = some (.ok (), next) ∧
        Follows view quiet continued next := by
  obtain ⟨next, worldLog, plainLog, same, flow, world, plainWorld⟩ :=
    takeFallback?_world taken follows.flow
  refine ⟨next, ?_, flow, ?_⟩
  · rw [plainAdvance?_of_stopped (follows.flow ▸ stopped), same, Option.map_some]
  · rw [world, plainWorld]
    exact follows.world.log worldLog plainLog

end Follows

/-- Without a fallback there is none on the other side either. -/
theorem plainAdvance?_eq_none
    (host : Host σ)
    {play plain : Play σ}
    (flow : play.flow = plain.flow)
    (stopped : play.flow.ip = none)
    (nothing : play.takeFallback? setup = none) :
    plain.plainAdvance? setup host = none := by
  simp only [takeFallback?, Option.map_eq_none_iff] at nothing
  rw [plainAdvance?_of_stopped (flow ▸ stopped)]
  simp only [takeFallback?, ← flow, nothing, Option.map_none]

namespace Tries

variable {saved : Checkpoint} {base play plain : Play σ}

/-- A step that calls nothing unsafe is the same on both sides. -/
theorem step
    (discreet : host.Discreet setup view quiet)
    (tries : Tries host view quiet saved base play plain)
    {address : Nat}
    (safeCall : setup.isUnsafeCall address = false) :
    (play.step setup host address).1 = (plain.step setup host address).1 ∧
      World.OnTrial host view quiet base.world
        (play.step setup host address).2.world (plain.step setup host address).2.world ∧
      (play.step setup host address).2.flow = (plain.step setup host address).2.flow := by
  have bridge := World.OnTrial.bridge base.world discreet
  exact
    bridge.step (fun value equal => congrArg (Flow.push · value) equal)
      (fun _ _ _ here bound => safe_of_isUnsafeCall safeCall here bound) tries.world
      (congrArg (fun flow : Flow => { flow with ip := some (address + 1) }) tries.flow)
      (corresponding_eq tries.flow (bridge.globals tries.world) address)

/-- A step that succeeds is a plain advance. -/
theorem moved
    (discreet : host.Discreet setup view quiet)
    (tries : Tries host view quiet saved base play plain)
    {address : Nat}
    {after : Play σ}
    (here : play.flow.ip = some address)
    (safeCall : setup.isUnsafeCall address = false)
    (stepped : play.step setup host address = (.ok (), after)) :
    ∃ next,
      plain.plainAdvance? setup host = some (.ok (), next) ∧
        Tries host view quiet saved base after next := by
  obtain ⟨same, world, flow⟩ := tries.step discreet safeCall
  rw [stepped] at same world flow
  exact
    ⟨(plain.step setup host address).2,
      plainAdvance?_of_result (tries.flow ▸ here) same,
      { savedFlow := tries.savedFlow
        outputSize := tries.outputSize
        speculation := tries.speculation
        observed := tries.observed
        flow := flow
        world := world }⟩

/-- A step that fails is a plain advance that fails; the store stays on trial. -/
theorem failed
    (discreet : host.Discreet setup view quiet)
    (tries : Tries host view quiet saved base play plain)
    {address : Nat}
    {after : Play σ}
    {error : Error}
    (here : play.flow.ip = some address)
    (safeCall : setup.isUnsafeCall address = false)
    (stepped : play.step setup host address = (.error error, after)) :
    ∃ last,
      plain.plainAdvance? setup host = some (.error error, last) ∧
        World.OnTrial host view quiet base.world after.world last.world := by
  obtain ⟨same, world, _⟩ := tries.step discreet safeCall
  rw [stepped] at same world
  exact
    ⟨(plain.step setup host address).2,
      plainAdvance?_of_result (tries.flow ▸ here) same, world⟩

/-- Taking the fallback is a plain advance. -/
theorem fallback
    (discreet : host.Discreet setup view quiet)
    (tries : Tries host view quiet saved base play plain)
    {continued : Play σ}
    (stopped : play.flow.ip = none)
    (taken : play.takeFallback? setup = some continued) :
    ∃ next,
      plain.plainAdvance? setup host = some (.ok (), next) ∧
        Tries host view quiet saved base continued next := by
  obtain ⟨next, worldLog, plainLog, same, flow, world, plainWorld⟩ :=
    takeFallback?_world taken tries.flow
  refine ⟨next, ?_, ?_⟩
  · rw [plainAdvance?_of_stopped (tries.flow ▸ stopped), same, Option.map_some]
  · exact
      { savedFlow := tries.savedFlow
        outputSize := tries.outputSize
        speculation := tries.speculation
        observed := tries.observed
        flow := flow
        world := by
          rw [world, plainWorld]
          exact tries.world.log discreet worldLog plainLog }

/-- A checkpoint starts a trial. -/
theorem start
    (host : Host σ)
    (follows : Follows view quiet play plain) :
    Tries host view quiet (play.save setup).1 plain (play.save setup).2 plain where
  savedFlow := follows.flow
  outputSize := congrArg (fun flow => flow.output.size) follows.flow
  speculation := congrArg List.length follows.world.journals
  observed := follows.world.rightObserved
  flow := follows.flow
  world := .start host (follows.world.log _ plain.world.log)

/-- Taking back what was on trial leads to the checkpoint. -/
theorem rollback
    (tries : Tries host view quiet saved base play plain)
    {other : Play σ}
    {plainWorld : World σ}
    (trial : World.OnTrial host view quiet base.world other.world plainWorld) :
    Follows view quiet (other.rollback setup saved) base where
  flow := tries.savedFlow
  world := by
    have back := trial.rollback tries.observed
    rw [← tries.speculation] at back
    exact back.log _ base.world.log

/-- Keeping what was on trial leads to the plain run. -/
theorem commit
    (tries : Tries host view quiet saved base play plain) :
    Follows view quiet (play.commit host (some saved)) plain where
  flow := tries.flow
  world := by
    have kept := tries.world.kept
    rw [← tries.speculation] at kept
    exact kept

end Tries

end Play

end Fabula
