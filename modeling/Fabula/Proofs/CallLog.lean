import Fabula.Proofs.HostCalls

namespace Fabula.Play

/-!
# The log of unsafe calls

A runner that looks ahead may call safe functions more often than a plain execution
does, but the log of its unsafe calls is that of plain advances that take nothing back.
On trial the log stands still, so a stretch that is taken back adds nothing to it, and
when the stretch is carried out again each of its calls is made for the first time.
-/

open HostCall

variable {σ τ : Type}

/-- One plain advance with its calls; an error stops the story. -/
def plainMove (setup : Setup) (host : Host σ) (play : Play σ) : List HostCall × Play σ :=
  if play.failure.isSome then
    ([], play)
  else
    match play.plainAdvance? setup host with
    | none => ([], play)
    | some (.ok (), next) => (play.nextCalls setup false, next)
    | some (.error error, last) => (play.nextCalls setup false, last.fail error)

/-- A number of plain advances with their calls. -/
def plainMoves (setup : Setup) (host : Host σ) : Nat → Play σ → List HostCall × Play σ
  | 0, play => ([], play)
  | count + 1, play =>
      let before := plainMoves setup host count play
      let last := before.2.plainMove setup host
      (before.1 ++ last.1, last.2)

/-- Do what is asked plainly: a line is what a given number of advances write. -/
def plainPerform (setup : Setup) (host : Host σ) (play : Play σ) :
    Ask → Nat → List HostCall × Play σ
  | .getline _, count =>
      if play.canContinue then
        let moved := plainMoves setup host count play.clearLine
        (moved.1, if moved.2.failure.isSome then moved.2 else (moved.2.takeLine setup).2)
      else
        ([], play)
  | .choose index, _ => ([], (play.choose setup index).2)
  | .moveTo path, _ => ([], (play.moveTo setup path).2)

/-- Do all that is asked plainly, and list the calls of host functions that are made. -/
def plainSession (setup : Setup) (host : Host σ) :
    List (Ask × Nat) → Play σ → List HostCall × Play σ
  | [], play => ([], play)
  | (ask, count) :: rest, play =>
      let first := play.plainPerform setup host ask count
      let later := plainSession setup host rest first.2
      (first.1 ++ later.1, later.2)

section Comparison

variable {view : Audience σ → τ} {quiet : CallbackId → Prop} {host : Host σ} {setup : Setup}

/-! ## Plain advances -/

theorem plainAdvance?_failure
    {play next : Play σ}
    {result : Except Error Unit}
    (moved : play.plainAdvance? setup host = some (result, next)) :
    next.failure = play.failure := by
  cases here : play.flow.ip with
  | none =>
      rw [plainAdvance?_of_stopped here, Option.map_eq_some_iff] at moved
      obtain ⟨continued, taken, same⟩ := moved
      cases same
      exact takeFallback?_failure taken
  | some address =>
      rw [plainAdvance?_of_ip here, Option.some.injEq] at moved
      have kept := step_failure setup host play address
      rwa [moved] at kept

theorem plainMove_of_ok
    {play next : Play σ}
    (usable : play.failure = none)
    (moved : play.plainAdvance? setup host = some (.ok (), next)) :
    play.plainMove setup host = (play.nextCalls setup false, next) := by
  simp [plainMove, usable, moved]

theorem plainMove_of_error
    {play last : Play σ}
    {error : Error}
    (usable : play.failure = none)
    (moved : play.plainAdvance? setup host = some (.error error, last)) :
    play.plainMove setup host = (play.nextCalls setup false, last.fail error) := by
  simp [plainMove, usable, moved]

/-- The unsafe calls of a step depend on the flow and the globals only. -/
theorem unsafeLog_nextCalls
    {play plain : Play σ}
    (flow : play.flow = plain.flow)
    (globals : play.world.store.get = plain.world.store.get)
    (onTrial : Bool) :
    unsafeLog (play.nextCalls setup onTrial) = unsafeLog (plain.nextCalls setup false) := by
  simp only [nextCalls, callsAt, flow, Flow.next_congr globals]
  cases plain.flow.ip with
  | none =>
      rfl
  | some address =>
      simp only
      cases plain.flow.next setup plain.world.store address with
      | error error =>
          rfl
      | ok change =>
          simp only [Change.calls]
          split
          · simp only [unsafeLog, List.filter_cons]
            split <;> rfl
          · rfl

/-- A longer run makes all the calls of a shorter one first. -/
theorem plainMoves_prefix
    (setup : Setup)
    (host : Host σ)
    (entry : Play σ)
    (count more : Nat) :
    (plainMoves setup host count entry).1 <+:
      (plainMoves setup host (count + more) entry).1 := by
  induction more with
  | zero =>
      exact List.prefix_rfl
  | succ more inductionHypothesis =>
      exact inductionHypothesis.trans (List.prefix_append _ _)

/-- A run that has stopped makes no more moves. -/
theorem plainMoves_of_stopped
    {entry : Play σ}
    {count : Nat}
    (stopped : (plainMoves setup host count entry).2.plainAdvance? setup host = none)
    (more : Nat) :
    plainMoves setup host (count + more) entry = plainMoves setup host count entry := by
  induction more with
  | zero =>
      rfl
  | succ more inductionHypothesis =>
      have idle :
          (plainMoves setup host count entry).2.plainMove setup host =
            ([], (plainMoves setup host count entry).2) := by
        simp [plainMove, stopped]
      rw [← Nat.add_assoc, plainMoves, inductionHypothesis, idle, List.append_nil]

/-- A plain run from an entry that makes the same unsafe calls. -/
def Counted
    (setup : Setup)
    (host : Host σ)
    (entry : Play σ)
    (calls : List HostCall)
    (plain : Play σ) :
    Prop :=
  ∃ count made,
    plainMoves setup host count entry = (made, plain) ∧ unsafeLog calls = unsafeLog made

namespace Counted

variable {entry plain : Play σ} {calls new : List HostCall}

theorem start
    (setup : Setup)
    (host : Host σ)
    (entry : Play σ) :
    Counted setup host entry [] entry :=
  ⟨0, [], rfl, rfl⟩

theorem move
    (counted : Counted setup host entry calls plain)
    {made : List HostCall}
    {next : Play σ}
    (moved : plain.plainMove setup host = (made, next))
    (same : unsafeLog new = unsafeLog made) :
    Counted setup host entry (calls ++ new) next := by
  obtain ⟨count, before, run, log⟩ := counted
  refine ⟨count + 1, before ++ made, ?_, ?_⟩
  · simp only [plainMoves, run, moved]
  · simp only [unsafeLog_append, log, same]

/-- Calls of safe functions do not count. -/
theorem safe
    (counted : Counted setup host entry calls plain)
    (none : unsafeLog new = []) :
    Counted setup host entry (calls ++ new) plain := by
  obtain ⟨count, made, run, log⟩ := counted
  refine ⟨count, made, run, ?_⟩
  rw [unsafeLog_append, none, List.append_nil, log]

end Counted

/-! ## A line -/

/-- Where a runner stands beside a plain run with the same unsafe calls. -/
inductive Tallied
    (setup : Setup)
    (host : Host σ)
    (view : Audience σ → τ)
    (quiet : CallbackId → Prop)
    (entry : Play σ)
    (calls : List HostCall) :
    Option Checkpoint → Play σ → Prop where
  | plainly
      {play plain : Play σ}
      (counted : Counted setup host entry calls plain)
      (usable : plain.failure = none)
      (follows : Follows view quiet play plain) :
      Tallied setup host view quiet entry calls none play
  | onTrial
      {saved : Checkpoint}
      {base play plain : Play σ}
      (held : Counted setup host entry calls base)
      (heldUsable : base.failure = none)
      (counted : Counted setup host entry calls plain)
      (usable : plain.failure = none)
      (tries : Tries host view quiet saved base play plain) :
      Tallied setup host view quiet entry calls (some saved) play

/-- The outcome of a line beside a plain run with the same unsafe calls. -/
def Reckoned
    (setup : Setup)
    (host : Host σ)
    (view : Audience σ → τ)
    (quiet : CallbackId → Prop)
    (entry : Play σ)
    (calls : List HostCall)
    (result : Except Error Unit)
    (play : Play σ) :
    Prop :=
  ∃ plain,
    Counted setup host entry calls plain ∧
      Follows view quiet play plain ∧
      match result with
      | .ok () => plain.failure = none
      | .error error => error = .outOfSteps ∨ plain.failure = some error

/-- The log agrees as long as a runner goes on and when it stops. -/
def Progress.Tallied
    (setup : Setup)
    (host : Host σ)
    (view : Audience σ → τ)
    (quiet : CallbackId → Prop)
    (entry : Play σ)
    (calls : List HostCall) :
    Progress σ → Prop
  | .going checkpoint play => Play.Tallied setup host view quiet entry calls checkpoint play
  | .stopped result play => Reckoned setup host view quiet entry calls result play

theorem proceed_tallied
    {entry play plain : Play σ}
    {calls : List HostCall}
    (counted : Counted setup host entry calls plain)
    (usable : plain.failure = none)
    (follows : Follows view quiet play plain) :
    (play.proceed setup).Tallied setup host view quiet entry calls := by
  have proceeding := proceed_proceeding setup play
  generalize play.proceed setup = progress at proceeding
  cases proceeding with
  | onward =>
      exact .plainly counted usable follows
  | cut =>
      exact ⟨plain, counted, follows, usable⟩
  | onTrial =>
      exact .onTrial counted usable counted usable (.start host follows)

/-- Without a step there is no call. -/
theorem moveCalls_of_stopped
    {play : Play σ}
    (checkpoint : Option Checkpoint)
    (stopped : play.flow.ip = none) :
    play.moveCalls setup checkpoint = [] := by
  simp [moveCalls, nextCalls, stopped]

theorem moveCalls_of_accepted
    {play : Play σ}
    {address : Nat}
    {checkpoint : Option Checkpoint}
    (here : play.flow.ip = some address)
    (safeCall : checkpoint ≠ none → setup.isUnsafeCall address = false) :
    play.moveCalls setup checkpoint = play.nextCalls setup checkpoint.isSome := by
  cases checkpoint with
  | none =>
      simp [moveCalls, refuses]
  | some saved =>
      simp [moveCalls, refuses, here, safeCall]

/-- The log stands still on trial. -/
theorem unsafeLog_moveCalls_onTrial
    (setup : Setup)
    (play : Play σ)
    (saved : Checkpoint) :
    unsafeLog (play.moveCalls setup (some saved)) = [] := by
  apply unsafeLog_of_safe
  intro call made
  apply safe_of_mem_moveCalls made
  simp only [moveCalls, nextCalls] at made
  split at made
  · cases made
  · split at made
    · exact (callsAt_bound made).1
    · cases made

/-- A move keeps the logs in step. -/
theorem Tallied.advance
    (discreet : host.Discreet setup view quiet)
    {entry play : Play σ}
    {calls : List HostCall}
    {checkpoint : Option Checkpoint}
    (tallied : Tallied setup host view quiet entry calls checkpoint play) :
    (play.advance setup host checkpoint).Tallied setup host view quiet entry
      (calls ++ play.moveCalls setup checkpoint) := by
  have move := advance_move setup host checkpoint play
  generalize play.advance setup host checkpoint = progress at move
  cases tallied with
  | @plainly _ plain counted usable follows =>
      have globals := (World.alike_bridge discreet.impartial).globals follows.world
      have log : unsafeLog (play.moveCalls setup none) = unsafeLog (plain.nextCalls setup false) :=
        unsafeLog_nextCalls follows.flow globals _
      have onward {next : Play σ}
          (moved : plain.plainAdvance? setup host = some (.ok (), next)) :
          Counted setup host entry (calls ++ play.moveCalls setup none) next ∧
            next.failure = none :=
        ⟨counted.move (plainMove_of_ok usable moved) log,
          (plainAdvance?_failure moved).trans usable⟩
      cases move with
      | fallback stopped taken =>
          obtain ⟨next, moved, after⟩ := follows.fallback host stopped taken
          exact .plainly (onward moved).1 (onward moved).2 after
      | finished stopped nothing =>
          rw [moveCalls_of_stopped _ stopped, List.append_nil]
          exact ⟨plain, counted, follows, usable⟩
      | @failed _ after address error here stepped =>
          obtain ⟨same, last⟩ := follows.step discreet address
          rw [stepped] at same last
          have moved := plainAdvance?_of_result (follows.flow ▸ here) same
          exact
            ⟨_, counted.move (plainMove_of_error usable moved) log,
              ⟨last.flow, last.world.log after.world.log _⟩, .inr rfl⟩
      | marked here _ stepped =>
          obtain ⟨next, moved, after⟩ := follows.moved discreet here stepped
          exact .plainly (onward moved).1 (onward moved).2 after
      | plain here stepped =>
          obtain ⟨next, moved, after⟩ := follows.moved discreet here stepped
          exact proceed_tallied (onward moved).1 (onward moved).2 after
  | @onTrial saved base _ plain held heldUsable counted usable tries =>
      -- The log stands still: nothing has to be made good when the trial is taken back.
      have still := unsafeLog_moveCalls_onTrial setup play saved
      have globals := (World.OnTrial.bridge base.world discreet).globals tries.world
      have back := held.safe still
      have onward
          {address : Nat}
          {next : Play σ}
          (here : play.flow.ip = some address)
          (safeCall : setup.isUnsafeCall address = false)
          (moved : plain.plainAdvance? setup host = some (.ok (), next)) :
          Counted setup host entry (calls ++ play.moveCalls setup (some saved)) next ∧
            next.failure = none := by
        refine ⟨counted.move (plainMove_of_ok usable moved) ?_,
          (plainAdvance?_failure moved).trans usable⟩
        rw [moveCalls_of_accepted here (fun _ => safeCall)]
        exact unsafeLog_nextCalls tries.flow globals _
      cases move with
      | fallback stopped taken =>
          obtain ⟨next, moved, after⟩ := tries.fallback discreet stopped taken
          have none : plain.nextCalls setup false = [] := by
            simp [nextCalls, ← tries.flow, stopped]
          have made := plainMove_of_ok usable moved
          rw [none] at made
          exact
            .onTrial back heldUsable (counted.move made still)
              ((plainAdvance?_failure moved).trans usable) after
      | finished stopped nothing =>
          exact ⟨plain, counted.safe still, tries.commit, usable⟩
      | refused here unsafeCall =>
          exact ⟨base, back, tries.rollback (tries.world.log discreet _ #[]), heldUsable⟩
      | abandoned here safeCall stepped =>
          obtain ⟨last, moved, world⟩ := tries.failed discreet here safeCall stepped
          exact ⟨base, back, tries.rollback (world.log discreet _ #[]), heldUsable⟩
      | marked here safeCall stepped =>
          have safe := safeCall (by simp)
          obtain ⟨next, moved, after⟩ := tries.moved discreet here safe stepped
          obtain ⟨ahead, sound⟩ := onward here safe moved
          exact .onTrial back heldUsable ahead sound after
      | undecided here safeCall stepped =>
          obtain ⟨next, moved, after⟩ := tries.moved discreet here safeCall stepped
          obtain ⟨ahead, sound⟩ := onward here safeCall moved
          exact .onTrial back heldUsable ahead sound after
      | completed here safeCall stepped =>
          obtain ⟨next, moved, after⟩ := tries.moved discreet here safeCall stepped
          exact ⟨base, back, tries.rollback after.world, heldUsable⟩
      | joined here safeCall stepped =>
          obtain ⟨next, moved, after⟩ := tries.moved discreet here safeCall stepped
          obtain ⟨ahead, sound⟩ := onward here safeCall moved
          exact proceed_tallied ahead sound (after.commit)

/-- A line keeps the logs in step, wherever it ends. -/
theorem Tallied.advanceLine
    (discreet : host.Discreet setup view quiet)
    (fuel : Nat)
    {entry play : Play σ}
    {calls : List HostCall}
    {checkpoint : Option Checkpoint}
    (tallied : Tallied setup host view quiet entry calls checkpoint play) :
    Reckoned setup host view quiet entry
      (calls ++ lineCalls setup host fuel checkpoint play)
      (Play.advanceLine setup host fuel checkpoint play).1
      (Play.advanceLine setup host fuel checkpoint play).2 := by
  induction fuel generalizing calls checkpoint play with
  | zero =>
      simp only [lineCalls, Play.advanceLine, List.append_nil]
      cases tallied with
      | plainly counted _ follows =>
          exact ⟨_, counted, follows, .inl rfl⟩
      | onTrial held _ _ _ tries =>
          exact ⟨_, held, tries.rollback tries.world, .inl rfl⟩
  | succ fuel inductionHypothesis =>
      have moved := tallied.advance discreet
      simp only [lineCalls, Play.advanceLine, ← List.append_assoc]
      cases progress : play.advance setup host checkpoint with
      | going checkpoint next =>
          rw [progress] at moved
          exact inductionHypothesis moved
      | stopped result last =>
          rw [progress] at moved
          rw [List.append_nil]
          exact moved

/-! ## A session -/

/-- Two plays at the same place and with the same failure in worlds that are alike. -/
structure Beside
    (view : Audience σ → τ)
    (quiet : CallbackId → Prop)
    (play plain : Play σ) :
    Prop where
  follows : Follows view quiet play plain
  failure : play.failure = plain.failure

/-- A runner that has failed stays where it is. -/
theorem perform_of_failed
    {play : Play σ}
    {error : Error}
    (failed : play.failure = some error)
    (ask : Ask) :
    (play.perform setup host ask.call).2 = play := by
  cases ask with
  | getline fuel =>
      have idle : play.canContinue = false := by
        simp [Runner.canContinue, failed]
      exact getline_of_not_canContinue idle
  | choose index =>
      simp [Ask.call, perform, choose, Runner.ensureUsable, failed]
  | moveTo path =>
      simp [Ask.call, perform, moveTo, Runner.ensureUsable, failed]

/-- A runner that has failed does nothing any more. -/
theorem session_of_failed
    {play : Play σ}
    {error : Error}
    (failed : play.failure = some error)
    (asks : List Ask) :
    session setup host asks play = ([], play) := by
  induction asks with
  | nil =>
      rfl
  | cons ask rest inductionHypothesis =>
      have idle : play.canContinue = false := by
        simp [Runner.canContinue, failed]
      have none : play.askCalls setup host ask = [] := by
        cases ask with
        | getline fuel =>
            simp [askCalls, idle]
        | choose index | moveTo path =>
            rfl
      simp [session, perform_of_failed failed, none, inductionHypothesis]

namespace Beside

variable {play plain : Play σ}

theorem canContinue
    (beside : Beside view quiet play plain) :
    play.canContinue = plain.canContinue := by
  simp only [Runner.canContinue, beside.failure, beside.follows.flow]

theorem clearLine
    (beside : Beside view quiet play plain) :
    Follows view quiet play.clearLine plain.clearLine :=
  ⟨congrArg (fun flow : Flow => { flow with tags := flow.tags.clearLine }) beside.follows.flow,
    beside.follows.world⟩

theorem choose
    (beside : Beside view quiet play plain)
    (setup : Setup)
    (index : Nat) :
    Beside view quiet (play.choose setup index).2 (plain.choose setup index).2 := by
  obtain ⟨⟨flow, world⟩, failure⟩ := beside
  have offers : play.hasChoices = plain.hasChoices := by
    simp only [Runner.hasChoices, flow, failure]
  have choices : play.choices = plain.choices := by
    simp only [Runner.choices, offers, flow]
  simp only [Play.choose, Runner.ensureUsable, failure, choices]
  split
  · exact ⟨⟨flow, world⟩, failure⟩
  · split
    · exact ⟨⟨flow, world⟩, failure⟩
    · next choice _ =>
        have selected := congrArg (fun flow : Flow => flow.select setup.story choice) flow
        exact ⟨⟨selected, world.log _ _⟩, failure⟩

theorem moveTo
    (beside : Beside view quiet play plain)
    (setup : Setup)
    (path : String) :
    Beside view quiet (play.moveTo setup path).2 (plain.moveTo setup path).2 := by
  obtain ⟨⟨flow, world⟩, failure⟩ := beside
  simp only [Play.moveTo, Runner.ensureUsable, failure]
  split
  · exact ⟨⟨flow, world⟩, failure⟩
  · split
    · exact ⟨⟨flow, world⟩, failure⟩
    · next container _ =>
        have moved := congrArg (fun flow : Flow => flow.moveTo setup.story container) flow
        exact ⟨⟨moved, world.log _ _⟩, rfl⟩

/-- A line is read plainly as well, unless the moves run out; the log is the same anyway. -/
theorem getline
    (discreet : host.Discreet setup view quiet)
    (beside : Beside view quiet play plain)
    (fuel : Nat) :
    ∃ count,
      unsafeLog (play.askCalls setup host (.getline fuel)) =
          unsafeLog (plain.plainPerform setup host (.getline fuel) count).1 ∧
        ((play.getline setup host fuel).2.failure = some .outOfSteps ∨
          Beside view quiet (play.getline setup host fuel).2
            (plain.plainPerform setup host (.getline fuel) count).2) := by
  cases continues : play.canContinue with
  | false =>
      have idle := beside.canContinue ▸ continues
      refine ⟨0, ?_, .inr ?_⟩
      · simp [askCalls, plainPerform, continues, idle]
      · rw [getline_of_not_canContinue continues]
        simpa [plainPerform, idle] using beside
  | true =>
      have plainly := beside.canContinue ▸ continues
      have usable := (canContinue_iff.mp plainly).1
      have start :
          Tallied setup host view quiet plain.clearLine [] none play.clearLine :=
        .plainly (.start setup host plain.clearLine) usable beside.clearLine
      obtain ⟨last, ⟨count, made, run, log⟩, follows, outcome⟩ :=
        start.advanceLine discreet fuel
      have kept := advanceLine_failure setup host fuel none play.clearLine
      refine ⟨count, ?_, ?_⟩
      · simpa [askCalls, plainPerform, continues, plainly, run] using log
      · simp only [plainPerform, plainly, if_true, run]
        rw [getline_of_canContinue continues]
        rcases advanced : Play.advanceLine setup host fuel none play.clearLine with
          ⟨result, after⟩
        rw [advanced] at outcome follows kept
        cases result with
        | ok _ =>
            have untouched : after.failure = none :=
              kept.trans (canContinue_iff.mp continues).1
            have present : last.failure.isSome = false := by
              rw [outcome]
              rfl
            simp only [present, Bool.false_eq_true, if_false]
            have taken :=
              congrArg (fun flow : Flow => { flow with output := .empty }) follows.flow
            exact .inr ⟨⟨taken, follows.world.log _ _⟩, untouched.trans outcome.symm⟩
        | error error =>
            rcases outcome with out | stopped
            · exact .inl (congrArg some out)
            · have present : last.failure.isSome = true := by
                rw [stopped]
                rfl
              simp only [present, if_true]
              exact .inr ⟨⟨follows.flow, follows.world.log _ last.world.log⟩, stopped.symm⟩

/-- Whatever is asked for is done plainly with the same unsafe calls. -/
theorem perform
    (discreet : host.Discreet setup view quiet)
    (beside : Beside view quiet play plain)
    (ask : Ask) :
    ∃ count,
      unsafeLog (play.askCalls setup host ask) =
          unsafeLog (plain.plainPerform setup host ask count).1 ∧
        ((play.perform setup host ask.call).2.failure = some .outOfSteps ∨
          Beside view quiet (play.perform setup host ask.call).2
            (plain.plainPerform setup host ask count).2) := by
  cases ask with
  | getline fuel =>
      exact beside.getline discreet fuel
  | choose index =>
      exact ⟨0, rfl, .inr (beside.choose setup index)⟩
  | moveTo path =>
      exact ⟨0, rfl, .inr (beside.moveTo setup path)⟩

/-- A session makes the unsafe calls of a plain session and ends where that one ends. -/
theorem session
    (discreet : host.Discreet setup view quiet)
    (beside : Beside view quiet play plain)
    (asks : List Ask) :
    ∃ counts,
      unsafeLog (Play.session setup host asks play).1 =
          unsafeLog (plainSession setup host (asks.zip counts) plain).1 ∧
        ((Play.session setup host asks play).2.failure ≠ some .outOfSteps →
          counts.length = asks.length ∧
            Beside view quiet (Play.session setup host asks play).2
              (plainSession setup host (asks.zip counts) plain).2) := by
  induction asks generalizing play plain with
  | nil =>
      exact ⟨[], rfl, fun _ => ⟨rfl, beside⟩⟩
  | cons ask rest inductionHypothesis =>
      obtain ⟨count, log, outcome⟩ := beside.perform discreet ask
      rcases outcome with out | next
      · refine ⟨[count], ?_, ?_⟩
        · simp only [Play.session, session_of_failed out, List.append_nil, List.zip_cons_cons,
            List.zip_nil_right, plainSession, log]
        · intro finished
          simp only [Play.session, session_of_failed out] at finished
          exact absurd out finished
      · obtain ⟨counts, later, arrived⟩ := inductionHypothesis next
        refine ⟨count :: counts, ?_, ?_⟩
        · simp only [Play.session, List.zip_cons_cons, plainSession, unsafeLog_append, log, later]
        · intro finished
          obtain ⟨length, last⟩ := arrived finished
          exact ⟨congrArg (· + 1) length, last⟩

end Beside

/-! ## The main statement -/

/--
Unsafe functions are not called on trial.  Whatever the host does, each call that a
session makes while a checkpoint is open is of a safe function, and a host that keeps a
ledger has seen exactly the calls that are listed, those on trial in a store that
speculates one level deeper.  If the safe functions are pure and observers write
nothing, the log of the unsafe calls is that of plain advances that take nothing back.
Unless the moves run out, these plain advances do all that was asked and end in the same
state.
-/
theorem unsafeLog_session_eq_plainSession
    (setup : Setup)
    (host : Host σ)
    (play : Play σ)
    (asks : List Ask) :
    (∀ call ∈ (session setup host asks play).1,
      call.onTrial = true → call.binding.safe = true) ∧
    (∀ ledger : σ → List Receipt,
      host.Keeps ledger →
      ledger (session setup host asks play).2.world.host =
        ledger play.world.host ++
          (session setup host asks play).1.map
            (receipt play.world.store.journals.length)) ∧
    (∀ (view : Audience σ → τ) (quiet : CallbackId → Prop),
      host.Discreet setup view quiet →
      play.world.ObservedBy quiet →
      ∃ counts,
        unsafeLog (session setup host asks play).1 =
            unsafeLog (plainSession setup host (asks.zip counts) play).1 ∧
          ((session setup host asks play).2.failure ≠ some .outOfSteps →
            counts.length = asks.length ∧
              (session setup host asks play).2.flow =
                (plainSession setup host (asks.zip counts) play).2.flow ∧
              (session setup host asks play).2.failure =
                (plainSession setup host (asks.zip counts) play).2.failure ∧
              (session setup host asks play).2.world.store.values =
                (plainSession setup host (asks.zip counts) play).2.world.store.values)) := by
  refine ⟨fun call made onTrial => safe_of_mem_session made onTrial, ?_, ?_⟩
  · intro ledger keeps
    have start :
        Accounted ledger play.world.store.journals.length (ledger play.world.host) none play :=
      ⟨rfl, rfl, fun _ absent => nomatch absent⟩
    exact (start.session keeps asks).entries
  · intro view quiet discreet observed
    have start : Beside view quiet play play := ⟨⟨rfl, .refl observed⟩, rfl⟩
    obtain ⟨counts, log, arrived⟩ := start.session discreet asks
    refine ⟨counts, log, fun finished => ?_⟩
    obtain ⟨length, last⟩ := arrived finished
    exact ⟨length, last.follows.flow, last.failure, last.follows.world.values⟩

/-- A story that glances at a bell on trial and then rings it. -/
def bellSetup : Setup where
  story :=
    { instructions :=
        #[⟨.str, 0, 0⟩, ⟨.newline, 0, 0⟩, ⟨.startEval, 0, 0⟩, ⟨.callExternal, 0, 1⟩,
          ⟨.callExternal, 1, 2⟩, ⟨.pop, 0, 0⟩, ⟨.endEval, 0, 0⟩, ⟨.str, 0, 3⟩,
          ⟨.newline, 0, 0⟩, ⟨.done, 0, 0⟩]
      strings := #["A bell.", "glance", "ring", "It rings."]
      literals := #[]
      containers := #[]
      declarations := ⟨[], ⟨#[]⟩⟩ }
  bindings := ⟨[("glance", ⟨0, none, true, true⟩), ("ring", ⟨1, none, false, true⟩)]⟩
  config := .standard

/-- A host that writes each call down and answers three. -/
def bellHost : Host (List Receipt) :=
  { call := fun callback arguments world =>
      (.ok (.int 3),
        { world with
          host := world.host ++ [⟨callback, arguments, world.store.journals.length⟩] })
    notify := fun _ _ world => (.ok (), world) }

/-- A fresh runner of the bell. -/
def bell : Play (List Receipt) :=
  ⟨Runner.start bellSetup.story bellSetup.config, ⟨Store.start ⟨[], ⟨#[]⟩⟩, #[], []⟩⟩

/-- The bell is glanced at twice, once on trial, and rung once, as in a plain session. -/
theorem unsafeLog_session_eq_plainSession_bell :
    (session bellSetup bellHost [.getline 20, .getline 20] bell).1.map
        (fun call => (call.name, call.onTrial)) =
      [("glance", true), ("glance", false), ("ring", false)] ∧
    (session bellSetup bellHost [.getline 20, .getline 20] bell).2.world.host =
      [⟨0, [], 1⟩, ⟨0, [], 0⟩, ⟨1, [.int 3], 0⟩] ∧
    ∃ counts,
      counts.length = 2 ∧
        unsafeLog
            (plainSession bellSetup bellHost
              ([Ask.getline 20, Ask.getline 20].zip counts) bell).1 =
          [("ring", [.int 3])] := by
  have discreet : bellHost.Discreet bellSetup (fun _ => ()) (fun _ => False) :=
    { silent := fun _ absent => absent.elim
      heard := fun _ _ _ _ => rfl
      safe := fun _ _ _ _ =>
        ⟨.ok (.int 3), fun _ observed => ⟨rfl, rfl, rfl, observed, observed⟩⟩
      other := fun _ _ _ _ _ _ alike =>
        ⟨rfl, alike.store, rfl, alike.leftObserved, alike.rightObserved⟩ }
  have keeps : bellHost.Keeps id :=
    ⟨fun _ _ _ => rfl, fun _ _ _ => rfl, fun _ _ _ => rfl, fun _ _ _ => rfl⟩
  have observed : bell.world.ObservedBy (fun _ => False) := by
    intro _ inside
    cases inside
  obtain ⟨_, seen, plainly⟩ :=
    unsafeLog_session_eq_plainSession bellSetup bellHost bell [.getline 20, .getline 20]
  obtain ⟨counts, log, arrived⟩ := plainly _ _ discreet observed
  exact
    ⟨by rfl, (seen id keeps).trans (by rfl), counts, (arrived (by decide)).1,
      log.symm.trans (by rfl)⟩

/--
A story that sets one variable after a line end, reads another one, joins the line and
then rings a bell with what it has read.
-/
def echoSetup : Setup where
  story :=
    { instructions :=
        #[⟨.str, 0, 0⟩, ⟨.newline, 0, 0⟩, ⟨.startEval, 0, 0⟩, ⟨.int, 0, 1⟩,
          ⟨.setVariable, 0, 1⟩, ⟨.pushVariable, 0, 2⟩, ⟨.defineTemp, 0, 3⟩,
          ⟨.endEval, 0, 0⟩, ⟨.glue, 0, 0⟩, ⟨.str, 0, 4⟩, ⟨.startEval, 0, 0⟩,
          ⟨.pushVariable, 0, 3⟩, ⟨.callExternal, 1, 5⟩, ⟨.pop, 0, 0⟩, ⟨.endEval, 0, 0⟩,
          ⟨.newline, 0, 0⟩, ⟨.done, 0, 0⟩]
      strings := #["A.", "x", "y", "t", "b", "ring"]
      literals := #[]
      containers := #[]
      declarations := ⟨[⟨"x", .int 0⟩, ⟨"y", .int 0⟩], ⟨#[]⟩⟩ }
  bindings := ⟨[("ring", ⟨0, none, false, false⟩)]⟩
  config := .standard

/-- A host whose observer gives the other variable the value seven. -/
def echoHost : Host Unit :=
  { call := fun _ _ world => (.ok .void, world)
    notify := fun _ _ world => (.ok (), (world.assign idleHost "y" (.int 7)).2) }

/-- A fresh runner of the echo whose first variable is observed. -/
def echo : Play Unit :=
  ⟨Runner.start echoSetup.story echoSetup.config,
    { store :=
        { Store.start echoSetup.story.declarations with
          observers := [⟨0, 0, .changed, 0⟩]
          nextObserver := 1 }
      log := #[]
      host := () }⟩

/--
An observer that writes hears of a write on trial only when the line is decided, so the
bell is rung with zero.  Plain advances never do that, whatever their number.
-/
theorem unsafeLog_session_ne_echo :
    unsafeLog (session echoSetup echoHost [.getline 30] echo).1 = [("ring", [.int 0])] ∧
      ∀ count,
        unsafeLog (plainSession echoSetup echoHost [(.getline 30, count)] echo).1 ≠
          [("ring", [.int 0])] := by
  refine ⟨by rfl, fun count => ?_⟩
  have stopped :
      (plainMoves echoSetup echoHost 17 echo.clearLine).2.plainAdvance? echoSetup echoHost =
        none := by
    rfl
  have all :
      unsafeLog (plainMoves echoSetup echoHost 17 echo.clearLine).1 = [("ring", [.int 7])] := by
    rfl
  have part := plainMoves_prefix echoSetup echoHost echo.clearLine count 17
  rw [Nat.add_comm, plainMoves_of_stopped stopped] at part
  have log :
      unsafeLog (plainMoves echoSetup echoHost count echo.clearLine).1 <+:
        [("ring", [.int 7])] :=
    all ▸ (part.filter _).map _
  have session :
      unsafeLog (plainSession echoSetup echoHost [(.getline 30, count)] echo).1 =
        unsafeLog (plainMoves echoSetup echoHost count echo.clearLine).1 :=
    congrArg unsafeLog (List.append_nil _)
  rw [session]
  intro same
  rw [same] at log
  revert log
  decide

end Comparison

end Fabula.Play
