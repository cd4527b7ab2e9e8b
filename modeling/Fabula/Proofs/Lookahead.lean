import Fabula.Proofs.Canonical
import Fabula.Proofs.Trials

namespace Fabula

/-!
# Lookahead never invents a state

The moves of a runner on the way to the end of a line are plain advances, some of them on
trial.  Whatever the runner decides at the end of the line, whether it keeps the trial or takes
it back, it ends where some plain run ends.
-/

namespace Play

variable {σ τ : Type} {view : Audience σ → τ} {quiet : CallbackId → Prop} {host : Host σ}
  {setup : Setup}

/-! ## Reading a line -/

/-- Nothing is on trial, or the line end before the trial has just been removed. -/
def Free
    (base : Option (Play σ))
    (next : Play σ) :
    Prop :=
  ∀ held,
    base = some held →
    growth held.flow.output.size next.flow.output = .newlineRemoved

/--
The plain runs from an entry that a runner follows on the way to the end of a line, with
the play at the checkpoint while there is one.
-/
inductive Reading
    (setup : Setup)
    (host : Host σ)
    (entry : Play σ) :
    Option (Play σ) → Play σ → Prop where
  | start :
      Reading setup host entry none entry
  | fallback
      {base : Option (Play σ)}
      {plain next : Play σ}
      (reading : Reading setup host entry base plain)
      (stopped : plain.flow.ip = none)
      (moved : plain.plainAdvance? setup host = some (.ok (), next)) :
      Reading setup host entry base next
  | marked
      {base : Option (Play σ)}
      {plain next : Play σ}
      (reading : Reading setup host entry base plain)
      (moved : plain.plainAdvance? setup host = some (.ok (), next))
      (marker : next.flow.output.hasMarker = true) :
      Reading setup host entry base next
  | undecided
      {base plain next : Play σ}
      (reading : Reading setup host entry (some base) plain)
      (moved : plain.plainAdvance? setup host = some (.ok (), next))
      (noMarker : next.flow.output.hasMarker = false)
      (grown : growth base.flow.output.size next.flow.output = .none) :
      Reading setup host entry (some base) next
  | onward
      {base : Option (Play σ)}
      {plain next : Play σ}
      (reading : Reading setup host entry base plain)
      (moved : plain.plainAdvance? setup host = some (.ok (), next))
      (noMarker : next.flow.output.hasMarker = false)
      (free : Free base next)
      (unended : next.flow.output.endsWithNewline = false ∨ next.flow.ip = none) :
      Reading setup host entry none next
  | onTrial
      {base : Option (Play σ)}
      {plain next : Play σ}
      (reading : Reading setup host entry base plain)
      (moved : plain.plainAdvance? setup host = some (.ok (), next))
      (noMarker : next.flow.output.hasMarker = false)
      (free : Free base next)
      (ended : next.flow.output.endsWithNewline = true)
      (lookahead : setup.config.lookahead = true)
      (continues : next.flow.ip.isSome = true) :
      Reading setup host entry (some next) next

/-- The plays at which a runner that reads from an entry ends its line. -/
inductive LineEnd
    (setup : Setup)
    (host : Host σ)
    (entry : Play σ) :
    Play σ → Prop where
  /-- The story has stopped. -/
  | finished
      {base : Option (Play σ)}
      {plain : Play σ}
      (reading : Reading setup host entry base plain)
      (stopped : plain.plainAdvance? setup host = none) :
      LineEnd setup host entry plain
  /-- A line end, when nothing is looked at beyond it. -/
  | cut
      {base : Option (Play σ)}
      {plain next : Play σ}
      (reading : Reading setup host entry base plain)
      (moved : plain.plainAdvance? setup host = some (.ok (), next))
      (noMarker : next.flow.output.hasMarker = false)
      (free : Free base next)
      (ended : next.flow.output.endsWithNewline = true)
      (plainly : setup.config.lookahead = false) :
      LineEnd setup host entry next
  /-- A function that may not be called on trial comes next. -/
  | refused
      {base plain : Play σ}
      {address : Nat}
      (reading : Reading setup host entry (some base) plain)
      (here : plain.flow.ip = some address)
      (unsafeCall : setup.isUnsafeCall address = true) :
      LineEnd setup host entry base
  /-- The story fails on trial. -/
  | abandoned
      {base plain after : Play σ}
      {error : Error}
      (reading : Reading setup host entry (some base) plain)
      (failed : plain.plainAdvance? setup host = some (.error error, after)) :
      LineEnd setup host entry base
  /-- Visible text follows the line end. -/
  | completed
      {base plain next : Play σ}
      (reading : Reading setup host entry (some base) plain)
      (moved : plain.plainAdvance? setup host = some (.ok (), next))
      (noMarker : next.flow.output.hasMarker = false)
      (grown : growth base.flow.output.size next.flow.output = .textAdded) :
      LineEnd setup host entry base

namespace Reading

variable {entry plain : Play σ}

/-- Every play on the way is reached by a plain run, checkpoints after at least one advance. -/
theorem plainRun
    {base : Option (Play σ)}
    (reading : Reading setup host entry base plain) :
    (∃ count, PlainRun setup host count entry plain) ∧
      ∀ held,
        base = some held →
        ∃ count, PlainRun setup host (count + 1) entry held := by
  induction reading with
  | start =>
      exact ⟨⟨0, .refl entry⟩, fun held absent => nomatch absent⟩
  | fallback _ _ moved inductionHypothesis
  | marked _ moved _ inductionHypothesis
  | undecided _ moved _ _ inductionHypothesis =>
      obtain ⟨⟨count, run⟩, held⟩ := inductionHypothesis
      exact ⟨⟨count + 1, .advance run moved⟩, held⟩
  | onward _ moved _ _ _ inductionHypothesis =>
      obtain ⟨⟨count, run⟩, _⟩ := inductionHypothesis
      exact ⟨⟨count + 1, .advance run moved⟩, fun held absent => nomatch absent⟩
  | onTrial _ moved _ _ _ _ _ inductionHypothesis =>
      obtain ⟨⟨count, run⟩, _⟩ := inductionHypothesis
      refine ⟨⟨count + 1, .advance run moved⟩, ?_⟩
      rintro held ⟨⟩
      exact ⟨count, .advance run moved⟩

end Reading

/-- A line ends after at least one plain advance. -/
theorem LineEnd.plainRun
    {entry plain : Play σ}
    (lineEnd : LineEnd setup host entry plain)
    (continues : entry.flow.ip.isSome = true) :
    ∃ count, PlainRun setup host (count + 1) entry plain := by
  cases lineEnd with
  | finished reading stopped =>
      obtain ⟨⟨count, run⟩, _⟩ := reading.plainRun
      cases run with
      | refl =>
          obtain ⟨address, here⟩ := Option.isSome_iff_exists.mp continues
          simp [plainAdvance?_of_ip here] at stopped
      | advance run moved =>
          exact ⟨_, .advance run moved⟩
  | cut reading moved =>
      obtain ⟨⟨count, run⟩, _⟩ := reading.plainRun
      exact ⟨count, .advance run moved⟩
  | refused reading | abandoned reading | completed reading =>
      exact reading.plainRun.2 _ rfl

/-! ## The runner follows -/

/-- Where a runner stands beside the plain run that it follows. -/
inductive Tracked
    (setup : Setup)
    (host : Host σ)
    (view : Audience σ → τ)
    (quiet : CallbackId → Prop)
    (entry : Play σ) :
    Option Checkpoint → Play σ → Play σ → Prop where
  | plainly
      {play plain : Play σ}
      (reading : Reading setup host entry none plain)
      (follows : Follows view quiet play plain) :
      Tracked setup host view quiet entry none play plain
  | onTrial
      {saved : Checkpoint}
      {base play plain : Play σ}
      (reading : Reading setup host entry (some base) plain)
      (tries : Tries host view quiet saved base play plain) :
      Tracked setup host view quiet entry (some saved) play plain

/-- The outcome of reading a line, beside the plain run. -/
def Arrived
    (setup : Setup)
    (host : Host σ)
    (view : Audience σ → τ)
    (quiet : CallbackId → Prop)
    (entry : Play σ) :
    Except Error Unit → Play σ → Prop
  | .ok (), play =>
      ∃ plain, LineEnd setup host entry plain ∧ Follows view quiet play plain
  | .error error, play =>
      ∃ plain last,
        Reading setup host entry none plain ∧
          plain.plainAdvance? setup host = some (.error error, last) ∧
          Follows view quiet play last

/--
A runner that goes on makes one plain advance and stays tracked, and one that stops has
arrived.
-/
def Progress.Sound
    (setup : Setup)
    (host : Host σ)
    (view : Audience σ → τ)
    (quiet : CallbackId → Prop)
    (entry plain : Play σ) :
    Progress σ → Prop
  | .going checkpoint play =>
      ∃ next,
        plain.plainAdvance? setup host = some (.ok (), next) ∧
          Tracked setup host view quiet entry checkpoint play next
  | .stopped result play => Arrived setup host view quiet entry result play

/-- After a step outside unfinished texts the runner goes on as it should. -/
theorem proceed_sound
    {entry play plain next : Play σ}
    {base : Option (Play σ)}
    (reading : Reading setup host entry base plain)
    (moved : plain.plainAdvance? setup host = some (.ok (), next))
    (follows : Follows view quiet play next)
    (noMarker : next.flow.output.hasMarker = false)
    (free : Free base next) :
    (play.proceed setup).Sound setup host view quiet entry plain := by
  have proceeding := proceed_proceeding setup play
  have flow := follows.flow
  generalize play.proceed setup = progress at proceeding
  cases proceeding with
  | onward unended =>
      rw [flow] at unended
      exact ⟨next, moved, .plainly (.onward reading moved noMarker free unended) follows⟩
  | cut ended plainly =>
      rw [flow] at ended
      exact ⟨next, .cut reading moved noMarker free ended plainly, follows⟩
  | onTrial ended lookahead continues =>
      rw [flow] at ended continues
      exact
        ⟨next, moved,
          .onTrial (.onTrial reading moved noMarker free ended lookahead continues)
            (.start host follows)⟩

theorem Tracked.entered
    {entry : Play σ}
    (observed : entry.world.ObservedBy quiet) :
    Tracked setup host view quiet entry none entry entry :=
  .plainly .start ⟨rfl, .refl observed⟩

/-- A tracked runner makes sound moves. -/
theorem Tracked.advance
    (discreet : host.Discreet setup view quiet)
    {entry play plain : Play σ}
    {checkpoint : Option Checkpoint}
    (tracked : Tracked setup host view quiet entry checkpoint play plain) :
    (play.advance setup host checkpoint).Sound setup host view quiet entry plain := by
  have move := advance_move setup host checkpoint play
  generalize play.advance setup host checkpoint = progress at move
  cases tracked with
  | plainly reading follows =>
      cases move with
      | fallback stopped taken =>
          obtain ⟨next, moved, after⟩ := follows.fallback host stopped taken
          exact
            ⟨next, moved, .plainly (.fallback reading (follows.flow ▸ stopped) moved) after⟩
      | finished stopped nothing =>
          have ended := plainAdvance?_eq_none host follows.flow stopped nothing
          exact ⟨_, .finished reading ended, follows⟩
      | failed here stepped =>
          obtain ⟨last, moved, after⟩ := follows.failed discreet here stepped
          exact ⟨_, last, reading, moved, after⟩
      | marked here _ stepped marker =>
          obtain ⟨next, moved, after⟩ := follows.moved discreet here stepped
          exact ⟨next, moved, .plainly (.marked reading moved (after.flow ▸ marker)) after⟩
      | plain here stepped noMarker =>
          obtain ⟨next, moved, after⟩ := follows.moved discreet here stepped
          exact proceed_sound reading moved after (after.flow ▸ noMarker)
            (fun held absent => nomatch absent)
  | onTrial reading tries =>
      -- A trial ends at the stop, at what may not be tried, or when the output decides it.
      cases move with
      | fallback stopped taken =>
          obtain ⟨next, moved, after⟩ := tries.fallback discreet stopped taken
          exact
            ⟨next, moved, .onTrial (.fallback reading (tries.flow ▸ stopped) moved) after⟩
      | finished stopped nothing =>
          have ended := plainAdvance?_eq_none host tries.flow stopped nothing
          exact ⟨_, .finished reading ended, tries.commit⟩
      | refused here unsafeCall =>
          exact ⟨_, .refused reading (tries.flow ▸ here) unsafeCall,
            tries.rollback (tries.world.log discreet _ #[])⟩
      | abandoned here safeCall stepped =>
          obtain ⟨last, moved, world⟩ := tries.failed discreet here safeCall stepped
          exact ⟨_, .abandoned reading moved, tries.rollback (world.log discreet _ #[])⟩
      | marked here safeCall stepped marker =>
          obtain ⟨next, moved, after⟩ :=
            tries.moved discreet here (safeCall (by simp)) stepped
          exact ⟨next, moved, .onTrial (.marked reading moved (after.flow ▸ marker)) after⟩
      | undecided here safeCall stepped noMarker grown =>
          obtain ⟨next, moved, after⟩ := tries.moved discreet here safeCall stepped
          rw [tries.outputSize, after.flow] at grown
          exact
            ⟨next, moved,
              .onTrial (.undecided reading moved (after.flow ▸ noMarker) grown) after⟩
      | completed here safeCall stepped noMarker grown =>
          obtain ⟨next, moved, after⟩ := tries.moved discreet here safeCall stepped
          rw [tries.outputSize, after.flow] at grown
          exact ⟨_, .completed reading moved (after.flow ▸ noMarker) grown,
            tries.rollback after.world⟩
      | joined here safeCall stepped noMarker grown =>
          obtain ⟨next, moved, after⟩ := tries.moved discreet here safeCall stepped
          rw [tries.outputSize, after.flow] at grown
          refine proceed_sound reading moved (after.commit) (after.flow ▸ noMarker) ?_
          rintro held ⟨⟩
          exact grown

/-- A tracked runner arrives, unless it runs out of moves. -/
theorem Tracked.advanceLine
    (discreet : host.Discreet setup view quiet)
    {entry play plain : Play σ}
    {checkpoint : Option Checkpoint}
    (fuel : Nat)
    (tracked : Tracked setup host view quiet entry checkpoint play plain) :
    (advanceLine setup host fuel checkpoint play).1 = .error .outOfSteps ∨
      Arrived setup host view quiet entry
        (advanceLine setup host fuel checkpoint play).1
        (advanceLine setup host fuel checkpoint play).2 := by
  induction fuel generalizing checkpoint play plain with
  | zero =>
      exact .inl rfl
  | succ fuel inductionHypothesis =>
      have sound := tracked.advance discreet
      simp only [Play.advanceLine]
      cases progress : play.advance setup host checkpoint with
      | going checkpoint next =>
          rw [progress] at sound
          obtain ⟨_, _, tracked⟩ := sound
          exact inductionHypothesis tracked
      | stopped result last =>
          rw [progress] at sound
          exact .inr sound

/-! ## Reading from a runner -/

theorem canContinue_iff
    {play : Play σ} :
    play.canContinue = true ↔ play.failure = none ∧ play.flow.ip.isSome = true := by
  simp [Runner.canContinue]

/-- A runner that can go on moves to the end of the line. -/
theorem getline_of_canContinue
    {play : Play σ}
    (continues : play.canContinue = true)
    {fuel : Nat} :
    play.getline setup host fuel =
      match advanceLine setup host fuel none play.clearLine with
      | (.error error, after) => (.error error, after.fail error)
      | (.ok (), after) => (.ok (after.takeLine setup).1, (after.takeLine setup).2) := by
  obtain ⟨usable, onward⟩ := canContinue_iff.mp continues
  have present : play.flow.ip.isNone = false := by
    simpa using onward
  rcases advanced : advanceLine setup host fuel none play.clearLine with ⟨_ | _, after⟩ <;>
    simp [getline, Runner.ensureUsable, usable, present, advanced]

/-- A runner that cannot go on stays where it is. -/
theorem getline_of_not_canContinue
    {play : Play σ}
    (idle : play.canContinue = false)
    {fuel : Nat} :
    (play.getline setup host fuel).2 = play := by
  simp only [getline, Runner.ensureUsable]
  cases failure : play.failure with
  | some error =>
      rfl
  | none =>
      have stopped : play.flow.ip = none := by
        simpa [Runner.canContinue, failure] using idle
      simp [stopped]

/-- Reading a line starts at an address without a failure, and moves on from there. -/
theorem getline_usable
    {play after : Play σ}
    {fuel : Nat}
    {result : Except Error String}
    (usable : play.failure = none)
    (continues : play.flow.ip.isSome = true)
    (read : play.getline setup host fuel = (result, after)) :
    match advanceLine setup host fuel none play.clearLine with
    | (.error error, last) => result = .error error ∧ after = last.fail error
    | (.ok (), last) =>
        result = .ok last.flow.output.line ∧ after = (last.takeLine setup).2 := by
  have present : play.flow.ip.isNone = false := by
    cases here : play.flow.ip with
    | none =>
        simp [here] at continues
    | some address =>
        rfl
  simp only [getline, Runner.ensureUsable, usable, present, Bool.false_eq_true,
    ↓reduceIte] at read
  rcases advanced : advanceLine setup host fuel none play.clearLine with ⟨outcome, last⟩
  rw [advanced] at read
  cases outcome with
  | error error =>
      simp only [Prod.mk.injEq] at read
      exact ⟨read.1.symm, read.2.symm⟩
  | ok _ =>
      simp only [Prod.mk.injEq] at read
      exact ⟨read.1.symm, read.2.symm⟩

/-- A line is read only from a runner that can go on. -/
theorem canContinue_of_getline
    {play after : Play σ}
    {fuel : Nat}
    {line : String}
    (read : play.getline setup host fuel = (.ok line, after)) :
    play.failure = none ∧ play.flow.ip.isSome = true := by
  simp only [getline, Runner.ensureUsable] at read
  cases failure : play.failure with
  | some error =>
      simp [failure] at read
  | none =>
      cases here : play.flow.ip with
      | none =>
          simp [failure, here] at read
      | some address =>
          exact ⟨rfl, rfl⟩

/-- A line that is read ends at a line end of the plain runs from its entry. -/
theorem getline_arrived
    (discreet : host.Discreet setup view quiet)
    {play after : Play σ}
    (observed : play.world.ObservedBy quiet)
    {fuel : Nat}
    {line : String}
    (read : play.getline setup host fuel = (.ok line, after)) :
    ∃ plain,
      LineEnd setup host play.clearLine plain ∧
        plain.flow.output.line = line ∧
        after.flow = { plain.flow with output := .empty } ∧
        World.Alike view quiet after.world plain.world := by
  obtain ⟨usable, continues⟩ := canContinue_of_getline read
  have outcome := getline_usable usable continues read
  have observed : play.clearLine.world.ObservedBy quiet := observed
  have arrived := (Tracked.entered observed).advanceLine discreet fuel
  split at outcome
  · next error last advanced =>
      cases outcome.1
  · next last advanced =>
      obtain ⟨text, rest⟩ := outcome
      rw [advanced] at arrived
      rcases arrived with out | ⟨plain, lineEnd, follows⟩
      · cases out
      · have flow : last.flow = plain.flow := follows.flow
        cases text
        subst rest
        refine ⟨plain, lineEnd, by rw [flow], ?_, ?_⟩
        · simp only [takeLine, emit, flow]
        · exact follows.world.log _ plain.world.log

/-- A reading that fails ends where the plain runs from its entry fail. -/
theorem getline_failed
    (discreet : host.Discreet setup view quiet)
    {play after : Play σ}
    (observed : play.world.ObservedBy quiet)
    (usable : play.failure = none)
    (continues : play.flow.ip.isSome = true)
    {fuel : Nat}
    {error : Error}
    (read : play.getline setup host fuel = (.error error, after))
    (stepError : error ≠ .outOfSteps) :
    after.failure = some error ∧
      ∃ plain last,
        Reading setup host play.clearLine none plain ∧
          plain.plainAdvance? setup host = some (.error error, last) ∧
          Follows view quiet after last := by
  have outcome := getline_usable usable continues read
  have observed : play.clearLine.world.ObservedBy quiet := observed
  have arrived := (Tracked.entered observed).advanceLine discreet fuel
  split at outcome
  · next cause stopped advanced =>
      obtain ⟨same, rest⟩ := outcome
      cases same
      subst rest
      rw [advanced] at arrived
      rcases arrived with out | ⟨plain, last, reading, moved, follows⟩
      · cases out
        exact absurd rfl stepError
      · exact
          ⟨rfl, plain, last, reading, moved, follows.flow,
            follows.world.log _ last.world.log⟩
  · next stopped advanced =>
      cases outcome.1

/--
Lookahead never invents a state, as long as observers write nothing and leave nothing that
they have read in the store for unsafe functions to find.  A line that is read is the text of
a plain run of at least one advance from the entry, and the runner is where this run is, with
its output taken; its store is that of the plain run, observers apart, and functions find the
same audience.  An error that ends a reading is the error that plain advances run into, and
stops the runner.
-/
theorem getline_follows_plainRun
    (discreet : host.Discreet setup view quiet)
    (play : Play σ)
    (observed : play.world.ObservedBy quiet)
    (fuel : Nat) :
    (∀ line after,
      play.getline setup host fuel = (.ok line, after) →
      ∃ count plain,
        1 ≤ count ∧
          PlainRun setup host count play.clearLine plain ∧
          render plain.flow.output.pieces = line ∧
          after.flow = { plain.flow with output := .empty } ∧
          after.world.store.values = plain.world.store.values ∧
          after.world.store.unobserved = plain.world.store.unobserved ∧
          view after.world.audience = view plain.world.audience) ∧
    (∀ error after,
      play.failure = none →
      play.flow.ip.isSome = true →
      play.getline setup host fuel = (.error error, after) →
      error ≠ .outOfSteps →
      after.status = .error ∧
        ∃ count plain last,
          PlainRun setup host count play.clearLine plain ∧
            plain.plainAdvance? setup host = some (.error error, last)) := by
  constructor
  · intro line after read
    obtain ⟨plain, lineEnd, text, flow, world⟩ := getline_arrived discreet observed read
    obtain ⟨count, run⟩ := lineEnd.plainRun (canContinue_of_getline read).2
    exact ⟨count + 1, plain, Nat.le_add_left 1 count, run, text, flow, world.values,
      world.store, world.audience⟩
  · intro error after usable continues read stepError
    obtain ⟨failure, plain, last, reading, moved, _⟩ :=
      getline_failed discreet observed usable continues read stepError
    obtain ⟨⟨count, run⟩, _⟩ := reading.plainRun
    refine ⟨?_, count, plain, last, run, moved⟩
    simp only [Runner.status, failure, Option.isSome_some, if_true]

/-! ## An observer that counts -/

/--
A story that fills a purse before a line end and on trial behind it, joins the lines, and asks
on both sides of the line end how often the purse has been filled.
-/
def purseStory : Story :=
  { instructions :=
      #[⟨.startEval, 0, 0⟩, ⟨.int, 0, 3⟩, ⟨.setVariable, 0, 0⟩, ⟨.callExternal, 0, 1⟩,
        ⟨.output, 0, 0⟩, ⟨.endEval, 0, 0⟩, ⟨.newline, 0, 0⟩, ⟨.startEval, 0, 0⟩,
        ⟨.callExternal, 0, 2⟩, ⟨.setVariable, 0, 0⟩, ⟨.endEval, 0, 0⟩, ⟨.glue, 0, 0⟩,
        ⟨.startEval, 0, 0⟩, ⟨.callExternal, 0, 1⟩, ⟨.output, 0, 0⟩, ⟨.endEval, 0, 0⟩,
        ⟨.newline, 0, 0⟩, ⟨.done, 0, 0⟩]
    strings := #["gold", "filled", "found"]
    literals := #[]
    containers := #[]
    declarations := ⟨[⟨"gold", .int 0⟩], ⟨#[]⟩⟩ }

/-- The setup of the purse: what is found is found on trial too, the other function is unsafe. -/
def purseSetup : Setup :=
  ⟨purseStory, ⟨[("found", ⟨0, none, true, true⟩), ("filled", ⟨1, none, false, true⟩)]⟩,
    .standard⟩

/-- A host that always finds seven coins, counts its notices and tells their number. -/
def purseHost : Host Nat :=
  { call := fun callback _ world =>
      (.ok (.int (if callback = 0 then 7 else Int32.ofNat world.host)), world)
    notify := fun _ _ world => (.ok (), { world with host := world.host + 1 }) }

/-- A fresh runner of the purse whose variable has one observer. -/
def purse : Play Nat :=
  ⟨Runner.start purseStory .standard,
    { store :=
        { Store.start purseStory.declarations with
          observers := [⟨0, 0, .changed, 0⟩]
          nextObserver := 1 }
      log := #[]
      host := 0 }⟩

/-- The same runner before an instruction that finds its stack empty. -/
def stuckPurse : Play Nat :=
  { purse with flow := { purse.flow with ip := some 4 } }

/-- The host of the purse is discreet, although a function tells what the observer counts. -/
theorem purseHost_discreet :
    purseHost.Discreet purseSetup id (fun _ => True) where
  silent := fun _ _ _ _ _ => ⟨rfl, fun _ _ => trivial⟩
  heard write _ _ akin := by
    have heedless : purseHost.Heedless := by
      intro _ _ left right same
      exact congrArg (fun audience => { audience with host := audience.host + 1 }) same
    exact heedless.deliver akin.audience write
  safe := by
    intro binding called safe arguments
    have found : binding.callback = 0 := by
      obtain ⟨name, entry⟩ := called.exists_entry
      rcases List.mem_cons.1 entry with found | others
      · cases found
        rfl
      · cases List.mem_singleton.1 others
        cases safe
    refine ⟨.ok (.int 7), fun world _ => ⟨?_, .refl (fun _ _ => trivial)⟩⟩
    simp only [purseHost, found, if_true]
  other := by
    intro binding _ _ arguments left right alike
    have counted : left.host = right.host := congrArg Audience.host alike.audience
    refine ⟨?_, alike⟩
    simp only [purseHost, counted]

/--
A purse is filled before a line end and, with what a pure function finds on trial, behind it.
The observer hears of the second write late, but the number of its notices is the one that the
plain run tells; the error of a later instruction is that of plain advances, too.
-/
theorem getline_follows_plainRun_purse :
    (∃ after count plain,
      purse.getline purseSetup purseHost 30 = (.ok "12\n", after) ∧
        1 ≤ count ∧
        PlainRun purseSetup purseHost count purse.clearLine plain ∧
        render plain.flow.output.pieces = "12\n" ∧
        after.flow = { plain.flow with output := .empty } ∧
        after.world.store.values = plain.world.store.values ∧
        after.world.audience = plain.world.audience) ∧
      ∃ after count plain last,
        stuckPurse.getline purseSetup purseHost 30 =
            (.error (.runtime 4 .stackUnderflow), after) ∧
          after.status = .error ∧
          PlainRun purseSetup purseHost count stuckPurse.clearLine plain ∧
          plain.plainAdvance? purseSetup purseHost =
            some (.error (.runtime 4 .stackUnderflow), last) := by
  have read :
      purse.getline purseSetup purseHost 30 =
        (.ok "12\n", (purse.getline purseSetup purseHost 30).2) :=
    Prod.ext (by rfl) rfl
  have failed :
      stuckPurse.getline purseSetup purseHost 30 =
        (.error (.runtime 4 .stackUnderflow),
          (stuckPurse.getline purseSetup purseHost 30).2) :=
    Prod.ext (by rfl) rfl
  obtain ⟨count, plain, positive, run, text, flow, values, _, audience⟩ :=
    (getline_follows_plainRun purseHost_discreet purse (fun _ _ => trivial) 30).1 _ _ read
  obtain ⟨status, failedCount, failedPlain, last, failedRun, moved⟩ :=
    (getline_follows_plainRun purseHost_discreet stuckPurse (fun _ _ => trivial) 30).2
      _ _ rfl rfl failed (by decide)
  exact
    ⟨⟨_, count, plain, read, positive, run, text, flow, values, audience⟩,
      _, failedCount, failedPlain, last, failed, status, failedRun, moved⟩

/-! ## An observer that reads -/

/--
A story that sets two variables behind a line end, joins the line, sends for news and shows
what they are.
-/
def scoutTables : Tables where
  strings := ["A.", "x", "y", "ring", "z"]
  lists := []
  literals := []
  globals := [(1, .int 0), (2, .int 0), (4, .int 0)]
  containers := []
  instructions :=
    [⟨.str, 0, 0⟩, ⟨.newline, 0, 0⟩, ⟨.startEval, 0, 0⟩, ⟨.int, 0, 1⟩, ⟨.setVariable, 0, 1⟩,
      ⟨.int, 0, 7⟩, ⟨.setVariable, 0, 2⟩, ⟨.endEval, 0, 0⟩, ⟨.glue, 0, 0⟩,
      ⟨.startEval, 0, 0⟩, ⟨.callExternal, 0, 3⟩, ⟨.pop, 0, 0⟩, ⟨.pushVariable, 0, 4⟩,
      ⟨.output, 0, 0⟩, ⟨.endEval, 0, 0⟩, ⟨.newline, 0, 0⟩, ⟨.done, 0, 0⟩]

def scoutStory : Story where
  instructions := scoutTables.instructions.toArray
  strings := scoutTables.strings.toArray
  literals := #[]
  containers := #[]
  declarations := ⟨[⟨"x", .int 0⟩, ⟨"y", .int 0⟩, ⟨"z", .int 0⟩], ⟨#[]⟩⟩

theorem scoutStory_loaded :
    Story.ofOctets (StoryFormat.encode scoutTables) = .ok scoutStory := by
  have fit : StoryFormat.TablesFit scoutTables := by decide +kernel
  rw [StoryFormat.ofOctets_encode fit]
  rfl

def scoutSetup : Setup :=
  ⟨scoutStory, ⟨[("ring", ⟨0, none, false, false⟩)]⟩, .standard⟩

/--
A host whose observer looks at the second variable and writes nothing.  Its function gives the
third variable the value that the observer has seen.
-/
def scoutHost : Host Value :=
  { call := fun _ _ world =>
      let write : Write := ⟨2, world.host, world.store.valueAt 2⟩
      (.ok .void, { world with store := world.store.apply write })
    notify := fun _ _ world => (.ok (), { world with host := world.store.valueAt 1 }) }

/-- A fresh runner of the scout, whose first variable is observed. -/
def scout : Play Value :=
  ⟨Runner.start scoutStory .standard,
    { store :=
        { Store.start scoutStory.declarations with
          observers := [⟨0, 0, .delta, 0⟩]
          nextObserver := 1 }
      log := #[]
      host := .void }⟩

/--
An observer that writes nothing may still read.  The one of the scout hears of a write on trial
when the line is joined, and sees the value of a later write; in the plain run it sees the value
before.  What an unsafe function makes of this ends up in the line, which no plain run shows.
-/
theorem getline_ne_plainRun_scout :
    Story.ofOctets (StoryFormat.encode scoutTables) = .ok scoutSetup.story ∧
      (∀ callback notice world,
        (scoutHost.notify callback notice world).2.store = world.store) ∧
      (∀ binding, scoutSetup.Calls binding → binding.safe = false) ∧
      (scout.getline scoutSetup scoutHost 30).1 = .ok "A.7\n" ∧
      ∀ count plain,
        PlainRun scoutSetup scoutHost count scout.clearLine plain →
        render plain.flow.output.pieces ≠ "A.7\n" := by
  refine ⟨scoutStory_loaded, fun _ _ _ => rfl, ?_, by rfl, ?_⟩
  · intro binding called
    obtain ⟨name, entry⟩ := called.exists_entry
    cases List.mem_singleton.1 entry
    rfl
  · intro count plain run same
    have reached := run.eq_plainRun?
    have ended : plainRun? scoutSetup scoutHost 18 scout.clearLine = none := by rfl
    have early :
        ∀ count < 18,
          (plainRun? scoutSetup scoutHost count scout.clearLine).map
            (fun plain => render plain.flow.output.pieces) ≠ some "A.7\n" := by
      decide +kernel
    rcases Nat.lt_or_ge count 18 with few | many
    · exact early count few (by rw [reached, Option.map_some, same])
    · obtain ⟨more, rfl⟩ := Nat.exists_eq_add_of_le many
      rw [plainRun?_add ended] at reached
      cases reached

end Play

end Fabula
