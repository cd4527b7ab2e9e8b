import Fabula.Proofs.CallLog
import Fabula.Proofs.Isolation

namespace Fabula

/-!
# Reports of isolated failures

While a runner looks ahead, failures gather in three places: in its own reports, in those
that its checkpoint keeps, and in the writes whose observers have not been told yet.  What
is taken back takes its failures along, and they come again when the story gets there for
good.  So whatever is asked of a runner and whenever its reports are taken, they are in the
end those of a plain execution: one for each call that fails, and one for each write with
an observer that fails.
-/

/-- The failures that a step adds to the reports of a scene. -/
def Scene.newReports {τ : Type} (hear : Hearing τ) (outcome : Outcome) (scene : Scene τ) :
    List Error :=
  outcome.failures ++
    match outcome.write with
    | none => []
    | some write =>
        if scene.store.isSpeculating then []
        else ((scene.store.apply write).hearing hear write scene.state).1

theorem Scene.reports_follow
    {τ : Type}
    (hear : Hearing τ)
    (outcome : Outcome)
    (scene : Scene τ) :
    (scene.follow hear outcome).reports = scene.reports ++ scene.newReports hear outcome := by
  simp only [Scene.follow, Scene.newReports]
  cases outcome.write with
  | none =>
      simp
  | some write =>
      simp only [Scene.write]
      split <;> simp [*]

namespace Play

variable {σ τ : Type}

/-! ## Failures of a plain execution -/

section Failures

variable (setup : Setup) (host : Host σ) (view : σ → τ) (reply : Replies) (hear : Hearing τ)

/-- The failures of the next plain advance. -/
def moveFailures (play : Play σ) : List Error :=
  if play.failure.isSome then
    []
  else
    match play.flow.ip with
    | none => []
    | some address =>
        (play.scene view).newReports hear
          (Outcome.ofStep setup reply address play.flow play.world.store)

/-- The failures of a number of plain advances, in order. -/
def lineFailures : Nat → Play σ → List Error
  | 0, _ => []
  | count + 1, play =>
      lineFailures count play ++
        (plainMoves setup host count play).2.moveFailures setup view reply hear

/-- The failures of doing what is asked plainly. -/
def askFailures (play : Play σ) : Ask → Nat → List Error
  | .getline _, count =>
      if play.canContinue then
        lineFailures setup host view reply hear count play.clearLine
      else
        []
  | .choose _, _ => []
  | .moveTo _, _ => []

/-- The failures of doing all that is asked plainly. -/
def plainFailures : List (Ask × Nat) → Play σ → List Error
  | [], _ => []
  | (ask, count) :: rest, play =>
      askFailures setup host view reply hear play ask count ++
        plainFailures rest (play.plainPerform setup host ask count).2

end Failures

variable {host : Host σ} {setup : Setup} {view : σ → τ} {reply : Replies} {hear : Hearing τ}

/-- Going on with the fallback changes nothing of a scene but the flow. -/
theorem takeFallback?_scene
    (view : σ → τ)
    {play continued : Play σ}
    (taken : play.takeFallback? setup = some continued) :
    continued.scene view = { play.scene view with flow := continued.flow } := by
  simp only [takeFallback?, Option.map_eq_some_iff] at taken
  obtain ⟨choice, _, rfl⟩ := taken
  rfl

/-- A plain advance reports its failures. -/
theorem plainMove_reports
    (isolated : host.Isolated setup view reply hear)
    (play : Play σ) :
    (play.plainMove setup host).2.reports =
      play.reports ++ play.moveFailures setup view reply hear := by
  simp only [plainMove, moveFailures]
  split
  · simp
  · cases here : play.flow.ip with
    | none =>
        rw [plainAdvance?_of_stopped here]
        cases taken : play.takeFallback? setup with
        | none =>
            simp
        | some continued =>
            have same : continued.reports = play.reports :=
              congrArg Scene.reports (takeFallback?_scene view taken)
            simpa using same
    | some address =>
        obtain ⟨_, follows⟩ := scene_step isolated play address
        have reports := congrArg Scene.reports follows
        rw [Scene.reports_follow] at reports
        rw [plainAdvance?_of_ip here]
        rcases stepped : play.step setup host address with ⟨result, after⟩
        rw [stepped] at reports
        cases result <;> exact reports

theorem plainMoves_reports
    (isolated : host.Isolated setup view reply hear)
    (count : Nat)
    (play : Play σ) :
    (plainMoves setup host count play).2.reports =
      play.reports ++ lineFailures setup host view reply hear count play := by
  induction count with
  | zero =>
      simp [plainMoves, lineFailures]
  | succ count inductionHypothesis =>
      simp only [plainMoves, lineFailures, plainMove_reports isolated, inductionHypothesis,
        List.append_assoc]

theorem plainPerform_reports
    (isolated : host.Isolated setup view reply hear)
    (play : Play σ)
    (ask : Ask)
    (count : Nat) :
    (play.plainPerform setup host ask count).2.reports =
      play.reports ++ askFailures setup host view reply hear play ask count := by
  cases ask with
  | getline fuel =>
      have read := plainMoves_reports isolated count play.clearLine
      simp only [plainPerform, askFailures]
      split
      · split <;> exact read
      · simp
  | choose index =>
      simp only [plainPerform, choose, askFailures, List.append_nil]
      split
      · rfl
      · split <;> rfl
  | moveTo path =>
      simp only [plainPerform, moveTo, askFailures, List.append_nil]
      split
      · rfl
      · split <;> rfl

/-- A plain session reports the failures of its advances. -/
theorem plainSession_reports
    (isolated : host.Isolated setup view reply hear)
    (asks : List (Ask × Nat))
    (play : Play σ) :
    (plainSession setup host asks play).2.reports =
      play.reports ++ plainFailures setup host view reply hear asks play := by
  induction asks generalizing play with
  | nil =>
      simp [plainSession, plainFailures]
  | cons entry rest inductionHypothesis =>
      obtain ⟨ask, count⟩ := entry
      simp only [plainSession, plainFailures, inductionHypothesis,
        plainPerform_reports isolated, List.append_assoc]

/-! ## A line -/

/-- A number of plain advances lead from an entry to a play. -/
def LeadsTo (setup : Setup) (host : Host σ) (entry plain : Play σ) : Prop :=
  ∃ count, (plainMoves setup host count entry).2 = plain

namespace LeadsTo

variable {entry plain : Play σ}

theorem start (setup : Setup) (host : Host σ) (entry : Play σ) :
    LeadsTo setup host entry entry :=
  ⟨0, rfl⟩

theorem move
    (reached : LeadsTo setup host entry plain) :
    LeadsTo setup host entry (plain.plainMove setup host).2 := by
  obtain ⟨count, rfl⟩ := reached
  exact ⟨count + 1, rfl⟩

/-- An advance that succeeds leads on, and the story has not stopped. -/
theorem onward
    (reached : LeadsTo setup host entry plain)
    (usable : plain.failure = none)
    {next : Play σ}
    (moved : plain.plainAdvance? setup host = some (.ok (), next)) :
    LeadsTo setup host entry next ∧ next.failure = none := by
  have further := reached.move
  rw [plainMove_of_ok usable moved] at further
  exact ⟨further, (plainAdvance?_failure moved).trans usable⟩

end LeadsTo

/-- Joined plays make the same step, which fails for a reason of the story only. -/
theorem step_joined
    (isolated : host.Isolated setup view reply hear)
    {drained : List Error}
    {play plain : Play σ}
    (joined : Scene.Joined drained (play.scene view) (plain.scene view))
    (address : Nat) :
    (play.step setup host address).1 = (plain.step setup host address).1 ∧
      Genuine (play.step setup host address).1 ∧
      Scene.Joined drained
        ((play.step setup host address).2.scene view)
        ((plain.step setup host address).2.scene view) := by
  obtain ⟨result, follows⟩ := scene_step isolated play address
  obtain ⟨plainResult, plainFollows⟩ := scene_step isolated plain address
  have flow : play.flow = plain.flow := joined.flow
  have store : play.world.store = plain.world.store := joined.store
  rw [result, plainResult, follows, plainFollows, ← flow, ← store]
  exact ⟨rfl, Outcome.ofStep_genuine _ _ _ _ _, joined.follow hear _⟩

/-- A play on trial makes the step of the plain run. -/
theorem step_pending
    (isolated : host.Isolated setup view reply hear)
    {drained : List Error}
    {saved : Checkpoint}
    {base : Scene τ}
    {play plain : Play σ}
    (pending :
      Scene.Pending hear drained saved base (play.scene view) (plain.scene view))
    (address : Nat) :
    (play.step setup host address).1 = (plain.step setup host address).1 ∧
      Scene.Pending hear drained saved base
        ((play.step setup host address).2.scene view)
        ((plain.step setup host address).2.scene view) := by
  obtain ⟨result, follows⟩ := scene_step isolated play address
  obtain ⟨plainResult, plainFollows⟩ := scene_step isolated plain address
  have same :
      Outcome.ofStep setup reply address play.flow play.world.store =
        Outcome.ofStep setup reply address plain.flow plain.world.store := by
    have flow : play.flow = plain.flow := pending.kept.flow
    rw [flow]
    exact Outcome.ofStep_congr pending.declarations pending.values _ _ _ _
  rw [result, plainResult, follows, plainFollows, ← same]
  exact ⟨rfl, pending.follow fun _ written => Outcome.ofStep_old written⟩

/-- Going on with the fallback is a plain advance that changes the flow only. -/
theorem plainAdvance?_fallback
    (host : Host σ)
    (view : σ → τ)
    {play continued plain : Play σ}
    (flow : play.flow = plain.flow)
    (stopped : play.flow.ip = none)
    (taken : play.takeFallback? setup = some continued) :
    ∃ next,
      plain.plainAdvance? setup host = some (.ok (), next) ∧
        continued.scene view = { play.scene view with flow := next.flow } ∧
        next.scene view = { plain.scene view with flow := next.flow } := by
  obtain ⟨next, _, _, same, goesOn, _⟩ := takeFallback?_world taken flow
  refine ⟨next, ?_, ?_, takeFallback?_scene view same⟩
  · rw [plainAdvance?_of_stopped (flow ▸ stopped), same, Option.map_some]
  · rw [takeFallback?_scene view taken, goesOn]

/-- Where a runner stands beside a plain run with the same failures. -/
inductive Reported
    (setup : Setup)
    (host : Host σ)
    (view : σ → τ)
    (hear : Hearing τ)
    (entry : Play σ)
    (drained : List Error) :
    Option Checkpoint → Play σ → Prop where
  | plainly
      {play plain : Play σ}
      (reached : LeadsTo setup host entry plain)
      (usable : plain.failure = none)
      (joined : Scene.Joined drained (play.scene view) (plain.scene view)) :
      Reported setup host view hear entry drained none play
  | onTrial
      {saved : Checkpoint}
      {base play plain : Play σ}
      (held : LeadsTo setup host entry base)
      (heldUsable : base.failure = none)
      (reached : LeadsTo setup host entry plain)
      (usable : plain.failure = none)
      (pending :
        Scene.Pending hear drained saved (base.scene view) (play.scene view)
          (plain.scene view)) :
      Reported setup host view hear entry drained (some saved) play

/-- The outcome of a line beside a plain run with the same failures. -/
def Concluded
    (setup : Setup)
    (host : Host σ)
    (view : σ → τ)
    (entry : Play σ)
    (drained : List Error)
    (result : Except Error Unit)
    (play : Play σ) :
    Prop :=
  Genuine result ∧
    ∃ plain,
      LeadsTo setup host entry plain ∧
        Scene.Joined drained (play.scene view) (plain.scene view) ∧
        match result with
        | .ok () => plain.failure = none
        | .error error => error = .outOfSteps ∨ plain.failure = some error

/-- The failures agree as long as a runner goes on and when it stops. -/
def Progress.Reported
    (setup : Setup)
    (host : Host σ)
    (view : σ → τ)
    (hear : Hearing τ)
    (entry : Play σ)
    (drained : List Error) :
    Progress σ → Prop
  | .going checkpoint play => Play.Reported setup host view hear entry drained checkpoint play
  | .stopped result play => Concluded setup host view entry drained result play

theorem proceed_reported
    {entry play plain : Play σ}
    {drained : List Error}
    (reached : LeadsTo setup host entry plain)
    (usable : plain.failure = none)
    (joined : Scene.Joined drained (play.scene view) (plain.scene view)) :
    (play.proceed setup).Reported setup host view hear entry drained := by
  have proceeding := proceed_proceeding setup play
  generalize play.proceed setup = progress at proceeding
  cases proceeding with
  | onward =>
      exact .plainly reached usable joined
  | cut =>
      exact ⟨trivial, plain, reached, joined, usable⟩
  | onTrial =>
      exact .onTrial reached usable reached usable (.start joined hear play.flow.output.size)

/-- A move keeps the failures in step. -/
theorem Reported.advance
    (isolated : host.Isolated setup view reply hear)
    {entry play : Play σ}
    {drained : List Error}
    {checkpoint : Option Checkpoint}
    (reported : Reported setup host view hear entry drained checkpoint play) :
    (play.advance setup host checkpoint).Reported setup host view hear entry drained := by
  have move := advance_move setup host checkpoint play
  generalize play.advance setup host checkpoint = progress at move
  cases reported with
  | @plainly _ plain reached usable joined =>
      have moved
          {address : Nat}
          {result : Except Error Unit}
          {after : Play σ}
          (here : play.flow.ip = some address)
          (stepped : play.step setup host address = (result, after)) :
          Genuine result ∧
            ∃ next,
              plain.plainAdvance? setup host = some (result, next) ∧
                Scene.Joined drained (after.scene view) (next.scene view) := by
        obtain ⟨same, genuine, after⟩ := step_joined isolated joined address
        rw [stepped] at same genuine after
        have flow : play.flow = plain.flow := joined.flow
        exact ⟨genuine, _, plainAdvance?_of_result (flow ▸ here) same, after⟩
      cases move with
      | fallback stopped taken =>
          obtain ⟨next, advanced, scene, other⟩ :=
            plainAdvance?_fallback host view joined.flow stopped taken
          obtain ⟨further, sound⟩ := reached.onward usable advanced
          refine .plainly further sound ?_
          rw [scene, other]
          exact ⟨rfl, joined.store, joined.state, joined.reports⟩
      | finished stopped nothing =>
          exact ⟨trivial, plain, reached, joined, usable⟩
      | @failed _ after address error here stepped =>
          obtain ⟨genuine, next, advanced, joined⟩ := moved here stepped
          have further := reached.move
          rw [plainMove_of_error usable advanced] at further
          exact ⟨genuine, _, further, joined, .inr rfl⟩
      | marked here _ stepped =>
          obtain ⟨_, next, advanced, joined⟩ := moved here stepped
          obtain ⟨further, sound⟩ := reached.onward usable advanced
          exact .plainly further sound joined
      | plain here stepped =>
          obtain ⟨_, next, advanced, joined⟩ := moved here stepped
          obtain ⟨further, sound⟩ := reached.onward usable advanced
          exact proceed_reported further sound joined
  | @onTrial saved base _ plain held heldUsable reached usable pending =>
      -- Whatever is taken back leads to the scene of the base, with the reports kept there.
      have moved
          {address : Nat}
          {after : Play σ}
          (here : play.flow.ip = some address)
          (stepped : play.step setup host address = (.ok (), after)) :
          ∃ next,
            (LeadsTo setup host entry next ∧ next.failure = none) ∧
              Scene.Pending hear drained saved (base.scene view) (after.scene view)
                (next.scene view) := by
        obtain ⟨same, after⟩ := step_pending isolated pending address
        rw [stepped] at same after
        have flow : play.flow = plain.flow := pending.kept.flow
        have advanced := plainAdvance?_of_result (flow ▸ here) same
        exact ⟨_, reached.onward usable advanced, after⟩
      cases move with
      | fallback stopped taken =>
          obtain ⟨next, advanced, scene, other⟩ :=
            plainAdvance?_fallback host view pending.kept.flow stopped taken
          obtain ⟨further, sound⟩ := reached.onward usable advanced
          refine .onTrial held heldUsable further sound ?_
          rw [scene, other]
          exact pending.redirect next.flow
      | finished stopped nothing =>
          refine ⟨trivial, plain, reached, ?_, usable⟩
          rw [scene_commit isolated]
          exact pending.kept
      | refused here unsafeCall =>
          exact ⟨trivial, base, held, pending.undone, heldUsable⟩
      | abandoned here safeCall stepped =>
          obtain ⟨_, after⟩ := step_pending isolated pending _
          rw [stepped] at after
          exact ⟨trivial, base, held, after.undone, heldUsable⟩
      | marked here safeCall stepped =>
          obtain ⟨next, ⟨further, sound⟩, after⟩ := moved here stepped
          exact .onTrial held heldUsable further sound after
      | undecided here safeCall stepped =>
          obtain ⟨next, ⟨further, sound⟩, after⟩ := moved here stepped
          exact .onTrial held heldUsable further sound after
      | completed here safeCall stepped =>
          obtain ⟨next, _, after⟩ := moved here stepped
          exact ⟨trivial, base, held, after.undone, heldUsable⟩
      | joined here safeCall stepped =>
          obtain ⟨next, ⟨further, sound⟩, after⟩ := moved here stepped
          refine proceed_reported further sound ?_
          rw [scene_commit isolated]
          exact after.kept

/-- A line keeps the failures in step, wherever it ends. -/
theorem Reported.advanceLine
    (isolated : host.Isolated setup view reply hear)
    (fuel : Nat)
    {entry play : Play σ}
    {drained : List Error}
    {checkpoint : Option Checkpoint}
    (reported : Reported setup host view hear entry drained checkpoint play) :
    Concluded setup host view entry drained
      (Play.advanceLine setup host fuel checkpoint play).1
      (Play.advanceLine setup host fuel checkpoint play).2 := by
  induction fuel generalizing checkpoint play with
  | zero =>
      cases reported with
      | plainly reached _ joined =>
          exact ⟨rfl, _, reached, joined, .inl rfl⟩
      | onTrial held _ _ _ pending =>
          exact ⟨rfl, _, held, pending.undone, .inl rfl⟩
  | succ fuel inductionHypothesis =>
      have moved := reported.advance isolated
      simp only [Play.advanceLine]
      cases progress : play.advance setup host checkpoint with
      | going checkpoint next =>
          rw [progress] at moved
          exact inductionHypothesis moved
      | stopped result last =>
          rw [progress] at moved
          exact moved

/-! ## Errands -/

/-- What a program does with a runner that it reads line by line. -/
inductive Errand where
  | ask (ask : Ask)
  | takeReports
  deriving Repr, DecidableEq

/-- What an errand asks of the story. -/
def Errand.ask? : Errand → Option Ask
  | .ask asked => some asked
  | .takeReports => none

/-- Do all errands, and gather the reports that are taken. -/
def runErrands (setup : Setup) (host : Host σ) : List Errand → Play σ → List Error × Play σ
  | [], play => ([], play)
  | .ask asked :: rest, play => runErrands setup host rest (play.perform setup host asked.call).2
  | .takeReports :: rest, play =>
      let taken := play.takeReports
      let later := runErrands setup host rest { play with toRunner := taken.2 }
      (taken.1 ++ later.1, later.2)

/-- Two plays in the same scene, apart from the order of reports, and with the same failure. -/
structure InStep
    (view : σ → τ)
    (drained : List Error)
    (play plain : Play σ) :
    Prop where
  joined : Scene.Joined drained (play.scene view) (plain.scene view)
  failure : play.failure = plain.failure

namespace InStep

variable {drained : List Error} {play plain : Play σ}

theorem flow
    (inStep : InStep view drained play plain) :
    play.flow = plain.flow :=
  inStep.joined.flow

theorem canContinue
    (inStep : InStep view drained play plain) :
    play.canContinue = plain.canContinue := by
  simp only [Runner.canContinue, inStep.failure, inStep.flow]

/-- Changing the flow alike keeps plays in step. -/
theorem redirect
    (inStep : InStep view drained play plain)
    {next other : Play σ}
    (flow : next.flow = other.flow)
    (nextScene : next.scene view = { play.scene view with flow := next.flow })
    (otherScene : other.scene view = { plain.scene view with flow := other.flow })
    (failure : next.failure = play.failure)
    (otherFailure : other.failure = plain.failure) :
    InStep view drained next other where
  joined := by
    rw [nextScene, otherScene]
    exact ⟨flow, inStep.joined.store, inStep.joined.state, inStep.joined.reports⟩
  failure := failure.trans (inStep.failure.trans otherFailure.symm)

theorem choose
    (inStep : InStep view drained play plain)
    (setup : Setup)
    (index : Nat) :
    InStep view drained (play.choose setup index).2 (plain.choose setup index).2 := by
  have offers : play.hasChoices = plain.hasChoices := by
    simp only [Runner.hasChoices, inStep.flow, inStep.failure]
  have choices : play.choices = plain.choices := by
    simp only [Runner.choices, offers, inStep.flow]
  simp only [Play.choose, Runner.ensureUsable, inStep.failure, choices]
  split
  · exact inStep
  · split
    · exact inStep
    · next choice _ =>
        have selected :=
          congrArg (fun flow : Flow => flow.select setup.story choice) inStep.flow
        exact inStep.redirect selected rfl rfl rfl rfl

theorem moveTo
    (inStep : InStep view drained play plain)
    (setup : Setup)
    (path : String) :
    InStep view drained (play.moveTo setup path).2 (plain.moveTo setup path).2 := by
  simp only [Play.moveTo, Runner.ensureUsable, inStep.failure]
  split
  · exact inStep
  · split
    · exact inStep
    · next container _ =>
        have moved :=
          congrArg (fun flow : Flow => flow.moveTo setup.story container) inStep.flow
        exact inStep.redirect moved rfl rfl inStep.failure.symm rfl

/-- Taking the reports of a runner leaves it in step. -/
theorem takeReports
    (inStep : InStep view drained play plain) :
    InStep view (drained ++ play.reports)
      { play with toRunner := play.toRunner.takeReports.2 } plain where
  joined :=
    { flow := inStep.joined.flow
      store := inStep.joined.store
      state := inStep.joined.state
      reports := by
        have reports := inStep.joined.reports
        simpa [scene, Runner.takeReports] using reports }
  failure := inStep.failure

/--
A line is read plainly as well, unless the moves run out; the reports are the same anyway,
and only an error of the story stops it.
-/
theorem getline
    (isolated : host.Isolated setup view reply hear)
    (inStep : InStep view drained play plain)
    (fuel : Nat) :
    ∃ count,
      (drained ++ (play.getline setup host fuel).2.reports).Perm
          (plain.plainPerform setup host (.getline fuel) count).2.reports ∧
        ((play.getline setup host fuel).2.failure = some .outOfSteps ∨
          InStep view drained (play.getline setup host fuel).2
            (plain.plainPerform setup host (.getline fuel) count).2) ∧
        ∀ error,
          (play.getline setup host fuel).2.failure = some error →
            play.failure = some error ∨ error.isCallback = false := by
  cases continues : play.canContinue with
  | false =>
      have idle := inStep.canContinue ▸ continues
      have same : (plain.plainPerform setup host (.getline fuel) 0).2 = plain := by
        simp [plainPerform, idle]
      refine ⟨0, ?_⟩
      rw [getline_of_not_canContinue continues, same]
      exact ⟨inStep.joined.reports, .inr inStep, fun error failed => .inl failed⟩
  | true =>
      have plainly := inStep.canContinue ▸ continues
      have usable := (canContinue_iff.mp plainly).1
      have cleared : InStep view drained play.clearLine plain.clearLine :=
        inStep.redirect
          (congrArg (fun flow : Flow => { flow with tags := flow.tags.clearLine }) inStep.flow)
          rfl rfl rfl rfl
      have start :
          Reported setup host view hear plain.clearLine drained none play.clearLine :=
        .plainly (.start setup host plain.clearLine) usable cleared.joined
      obtain ⟨genuine, last, ⟨count, run⟩, joined, outcome⟩ := start.advanceLine isolated fuel
      have kept := advanceLine_failure setup host fuel none play.clearLine
      refine ⟨count, ?_⟩
      simp only [plainPerform, plainly, if_true, run]
      rw [getline_of_canContinue continues]
      rcases advanced : Play.advanceLine setup host fuel none play.clearLine with
        ⟨result, after⟩
      rw [advanced] at genuine outcome joined kept
      have untouched : after.failure = none := kept.trans (canContinue_iff.mp continues).1
      cases result with
      | ok _ =>
          have sound : last.failure = none := outcome
          have present : last.failure.isSome = false := by
            rw [sound]
            rfl
          have together : InStep view drained after last := ⟨joined, untouched.trans sound.symm⟩
          have taken :
              InStep view drained (after.takeLine setup).2 (last.takeLine setup).2 :=
            together.redirect
              (congrArg (fun flow : Flow => { flow with output := .empty }) together.flow)
              rfl rfl rfl rfl
          simp only [present, Bool.false_eq_true, if_false]
          refine ⟨taken.joined.reports, .inr taken, fun error failed => ?_⟩
          rw [show (after.takeLine setup).2.failure = after.failure from rfl, untouched]
            at failed
          cases failed
      | error error =>
          have own : error.isCallback = false := genuine
          have reports :
              (drained ++ (after.fail error).reports).Perm
                (if last.failure.isSome then last else (last.takeLine setup).2).reports := by
            split <;> exact joined.reports
          refine ⟨reports, ?_, fun other failed => ?_⟩
          · rcases outcome with out | stopped
            · exact .inl (congrArg some out)
            · have present : last.failure.isSome = true := by
                rw [stopped]
                rfl
              simp only [present, if_true]
              exact
                .inr
                  ⟨⟨joined.flow, joined.store, joined.state, joined.reports⟩, stopped.symm⟩
          · cases failed
            exact .inr own

/-- Whatever is asked for is done plainly with the same reports. -/
theorem perform
    (isolated : host.Isolated setup view reply hear)
    (inStep : InStep view drained play plain)
    (ask : Ask) :
    ∃ count,
      (drained ++ (play.perform setup host ask.call).2.reports).Perm
          (plain.plainPerform setup host ask count).2.reports ∧
        ((play.perform setup host ask.call).2.failure = some .outOfSteps ∨
          InStep view drained (play.perform setup host ask.call).2
            (plain.plainPerform setup host ask count).2) ∧
        ∀ error,
          (play.perform setup host ask.call).2.failure = some error →
            play.failure = some error ∨ error.isCallback = false := by
  cases ask with
  | getline fuel =>
      exact inStep.getline isolated fuel
  | choose index =>
      have chosen := inStep.choose setup index
      refine ⟨0, chosen.joined.reports, .inr chosen, fun error failed => .inl ?_⟩
      have kept : (play.choose setup index).2.failure = play.failure := by
        simp only [Play.choose]
        split
        · rfl
        · split <;> rfl
      exact kept.symm.trans failed
  | moveTo path =>
      have moved := inStep.moveTo setup path
      refine ⟨0, moved.joined.reports, .inr moved, fun error failed => .inl ?_⟩
      have kept : (play.moveTo setup path).2.failure = play.failure := by
        simp only [Play.moveTo]
        split
        · rfl
        · split <;> rfl
      exact kept.symm.trans failed

end InStep

/-- A runner that has failed reports nothing more. -/
theorem runErrands_of_failed
    {play : Play σ}
    {error : Error}
    (failed : play.failure = some error)
    (errands : List Errand) :
    (runErrands setup host errands play).1 ++ (runErrands setup host errands play).2.reports =
        play.reports ∧
      (runErrands setup host errands play).2.failure = some error := by
  induction errands generalizing play with
  | nil =>
      exact ⟨rfl, failed⟩
  | cons errand rest inductionHypothesis =>
      cases errand with
      | ask asked =>
          simp only [Play.runErrands, perform_of_failed failed]
          exact inductionHypothesis failed
      | takeReports =>
          obtain ⟨reports, failure⟩ :=
            @inductionHypothesis { play with toRunner := play.toRunner.takeReports.2 } failed
          refine ⟨?_, failure⟩
          simp only [runErrands, List.append_assoc, reports]
          simp [Runner.takeReports]

/--
A run of errands reports what a plain session reports, and ends where that one ends unless
the moves run out.
-/
theorem InStep.runErrands
    (isolated : host.Isolated setup view reply hear)
    {drained : List Error}
    {play plain : Play σ}
    (inStep : InStep view drained play plain)
    (errands : List Errand) :
    ∃ counts,
      let done := Play.runErrands setup host errands play
      let asks := errands.filterMap Errand.ask?
      let last := (plainSession setup host (asks.zip counts) plain).2
      (drained ++ (done.1 ++ done.2.reports)).Perm last.reports ∧
        (∀ error,
          done.2.failure = some error →
            play.failure = some error ∨ error.isCallback = false) ∧
        (done.2.failure ≠ some .outOfSteps →
          counts.length = asks.length ∧ InStep view (drained ++ done.1) done.2 last) := by
  induction errands generalizing drained play plain with
  | nil =>
      refine ⟨[], inStep.joined.reports, fun error failed => .inl failed, fun _ => ⟨rfl, ?_⟩⟩
      rw [Play.runErrands, List.append_nil]
      exact inStep
  | cons errand rest inductionHypothesis =>
      cases errand with
      | takeReports =>
          obtain ⟨counts, reports, genuine, arrived⟩ := inductionHypothesis inStep.takeReports
          simp only [List.append_assoc] at reports arrived
          refine ⟨counts, ?_, genuine, arrived⟩
          simp only [Play.runErrands, List.append_assoc]
          exact reports
      | ask asked =>
          obtain ⟨count, reports, outcome, genuine⟩ := inStep.perform isolated asked
          rcases outcome with out | next
          · obtain ⟨same, failure⟩ :=
              @runErrands_of_failed σ host setup _ .outOfSteps out rest
            refine ⟨[count], ?_, ?_, ?_⟩
            · simp only [Play.runErrands, same, List.filterMap_cons, Errand.ask?,
                List.zip_cons_cons, List.zip_nil_right, plainSession]
              exact reports
            · intro error failed
              simp only [Play.runErrands, failure, Option.some.injEq] at failed
              exact .inr (failed ▸ rfl)
            · exact fun finished => absurd failure finished
          · obtain ⟨counts, later, laterGenuine, arrived⟩ := inductionHypothesis next
            refine ⟨count :: counts, later, fun error failed => ?_, fun finished => ?_⟩
            · rcases laterGenuine error failed with before | own
              · exact genuine error before
              · exact .inr own
            · obtain ⟨length, last⟩ := arrived finished
              exact ⟨congrArg (· + 1) length, last⟩

/--
Isolated failures are reported exactly once.  Take a host whose functions answer by their
arguments, and whose observers leave the store alone, whether they succeed or fail.
Whatever lines, choices and moves are asked of a runner, and whenever its reports are
taken in between, the reports that were taken and those that are left are in some order
those that it had before and the failures of plain advances that take nothing back: one
for each call that fails, and the first one for each write with observers that fail.  None
of these failures stops the runner.  Unless the moves run out, the plain advances do all
that was asked and end in the same state, and they report the same failures.
-/
theorem reports_perm_plainFailures
    (isolated : host.Isolated setup view reply hear)
    (play : Play σ)
    (errands : List Errand) :
    ∃ counts,
      let done := runErrands setup host errands play
      let asks := errands.filterMap Errand.ask?
      let failures := plainFailures setup host view reply hear (asks.zip counts) play
      let last := (plainSession setup host (asks.zip counts) play).2
      (done.1 ++ done.2.reports).Perm (play.reports ++ failures) ∧
        last.reports = play.reports ++ failures ∧
        (∀ error,
          done.2.failure = some error →
            play.failure = some error ∨ error.isCallback = false) ∧
        (done.2.failure ≠ some .outOfSteps →
          counts.length = asks.length ∧
            done.2.flow = last.flow ∧
            done.2.failure = last.failure ∧
            done.2.world.store = last.world.store ∧
            view done.2.world.host = view last.world.host) := by
  have start : InStep view [] play play := ⟨.refl _, rfl⟩
  obtain ⟨counts, reports, genuine, arrived⟩ := start.runErrands isolated errands
  have plainly :=
    plainSession_reports isolated ((errands.filterMap Errand.ask?).zip counts) play
  refine ⟨counts, plainly ▸ reports, plainly, genuine, fun finished => ?_⟩
  obtain ⟨length, inStep⟩ := arrived finished
  exact
    ⟨length, inStep.flow, inStep.failure, inStep.joined.store, inStep.joined.state⟩

/--
A story that rings a bell behind a line end, and then, behind another one, counts and rings
again before it joins the lines.
-/
def chimeSetup : Setup where
  story :=
    { instructions :=
        #[⟨.str, 0, 0⟩, ⟨.newline, 0, 0⟩, ⟨.startEval, 0, 0⟩, ⟨.callExternal, 0, 1⟩,
          ⟨.pop, 0, 0⟩, ⟨.endEval, 0, 0⟩, ⟨.str, 0, 2⟩, ⟨.newline, 0, 0⟩,
          ⟨.startEval, 0, 0⟩, ⟨.int, 0, 1⟩, ⟨.setVariable, 0, 3⟩, ⟨.callExternal, 0, 1⟩,
          ⟨.pop, 0, 0⟩, ⟨.endEval, 0, 0⟩, ⟨.glue, 0, 0⟩, ⟨.str, 0, 4⟩,
          ⟨.startEval, 0, 0⟩, ⟨.int, 0, 2⟩, ⟨.setVariable, 0, 3⟩, ⟨.endEval, 0, 0⟩,
          ⟨.newline, 0, 0⟩, ⟨.done, 0, 0⟩]
      strings := #["A bell.", "ring", "It rings", "count", " twice."]
      literals := #[]
      containers := #[]
      declarations := ⟨[⟨"count", .int 0⟩], ⟨#[]⟩⟩ }
  bindings := ⟨[("ring", ⟨0, none, true, true⟩)]⟩
  config := .standard

/-- The bell is broken. -/
def brokenReply : Replies :=
  fun _ _ => .error (.ofMessage "broken")

/-- An observer that fails every other time. -/
def drowsyHearing : Hearing Nat :=
  fun _ _ told => (if told % 2 = 0 then .error (.ofMessage "asleep") else .ok (), told + 1)

/-- A host that counts its notices and the calls of its functions. -/
def chimeHost : Host (Nat × Nat) :=
  { call := fun callback arguments world =>
      (brokenReply callback arguments,
        { world with host := (world.host.1, world.host.2 + 1) })
    notify := fun callback notice world =>
      let heard := drowsyHearing callback notice world.host.1
      (heard.1, { world with host := (heard.2, world.host.2) }) }

/-- A fresh runner of the chime whose count is observed. -/
def chime : Play (Nat × Nat) :=
  ⟨Runner.start chimeSetup.story chimeSetup.config,
    { store :=
        { Store.start chimeSetup.story.declarations with
          observers := [⟨0, 0, .ping, 5⟩]
          nextObserver := 1 }
      log := #[]
      host := (0, 0) }⟩

/--
The bell is rung three times, once on trial.  The two calls that count are reported, and of
the two writes the one that the observer sleeps through.
-/
theorem reports_perm_plainFailures_chime :
    let errands : List Errand :=
      [.ask (.getline 30), .takeReports, .ask (.getline 30), .takeReports]
    let ring := Error.callback "ring" (.ofMessage "broken")
    let count := Error.callback "count" (.ofMessage "asleep")
    chimeHost.Isolated chimeSetup Prod.fst brokenReply drowsyHearing ∧
      (runErrands chimeSetup chimeHost [.ask (.getline 30), .takeReports] chime).1 = [] ∧
      (runErrands chimeSetup chimeHost errands chime).1 = [ring, ring, count] ∧
      (runErrands chimeSetup chimeHost errands chime).2.world.host = (2, 3) ∧
      ∃ counts,
        counts.length = 2 ∧
          [ring, ring, count].Perm
            (plainFailures chimeSetup chimeHost Prod.fst brokenReply drowsyHearing
              ([Ask.getline 30, Ask.getline 30].zip counts) chime) := by
  intro errands ring count
  have isolated : chimeHost.Isolated chimeSetup Prod.fst brokenReply drowsyHearing :=
    ⟨fun _ _ _ _ => ⟨rfl, rfl, rfl⟩, fun _ _ _ => ⟨rfl, rfl, rfl⟩⟩
  have taken : (runErrands chimeSetup chimeHost errands chime).1 = [ring, ring, count] := by
    rfl
  have left : (runErrands chimeSetup chimeHost errands chime).2.reports = [] := by
    rfl
  obtain ⟨counts, reports, _, _, arrived⟩ :=
    reports_perm_plainFailures isolated chime errands
  rw [taken, left, List.append_nil] at reports
  exact ⟨isolated, by rfl, taken, by rfl, counts, (arrived (by decide)).1, reports⟩

end Play

end Fabula
