import Fabula.Proofs.Cutting

namespace Fabula.Play

/-!
# Reading line by line

Reading all lines of a story goes through the same plain run as executing it straight to
its stop.  The lines are the uncut output cut at line ends that visible text follows,
each rendered on its own.
-/

variable {σ τ : Type} {view : Audience σ → τ} {quiet : CallbackId → Prop} {host : Host σ}
  {setup : Setup}

/-! ## A failure is not forgotten and none appears -/

theorem takeFallback?_failure
    {play continued : Play σ}
    (taken : play.takeFallback? setup = some continued) :
    continued.failure = play.failure := by
  simp only [takeFallback?, Option.map_eq_some_iff] at taken
  obtain ⟨choice, _, rfl⟩ := taken
  rfl

/-- The play that a move leads to. -/
def Progress.play : Progress σ → Play σ
  | .going _ play => play
  | .stopped _ play => play

theorem proceed_failure
    (setup : Setup)
    (play : Play σ) :
    (play.proceed setup).play.failure = play.failure := by
  have proceeding := proceed_proceeding setup play
  generalize play.proceed setup = progress at proceeding
  cases proceeding with
  | onward | cut | onTrial =>
      rfl

theorem commit_failure
    (host : Host σ)
    (checkpoint : Option Checkpoint)
    (play : Play σ) :
    (play.commit host checkpoint).failure = play.failure := by
  cases checkpoint with
  | none =>
      rfl
  | some saved =>
      rfl

theorem advance_failure
    (setup : Setup)
    (host : Host σ)
    (checkpoint : Option Checkpoint)
    (play : Play σ) :
    (play.advance setup host checkpoint).play.failure = play.failure := by
  have move := advance_move setup host checkpoint play
  generalize play.advance setup host checkpoint = progress at move
  have stepped {address : Nat} {result : Except Error Unit} {after : Play σ}
      (step : play.step setup host address = (result, after)) :
      after.failure = play.failure := by
    have kept := step_failure setup host play address
    rwa [step] at kept
  cases move with
  | fallback _ taken =>
      exact takeFallback?_failure taken
  | finished =>
      exact commit_failure host checkpoint play
  | refused =>
      rfl
  | failed _ step | abandoned _ _ step | marked _ _ step | undecided _ _ step
  | completed _ _ step =>
      have kept := stepped step
      exact kept
  | plain _ step =>
      exact (proceed_failure setup _).trans (stepped step)
  | joined _ _ step =>
      exact (proceed_failure setup _).trans ((commit_failure host _ _).trans (stepped step))

theorem advanceLine_failure
    (setup : Setup)
    (host : Host σ)
    (fuel : Nat)
    (checkpoint : Option Checkpoint)
    (play : Play σ) :
    (advanceLine setup host fuel checkpoint play).2.failure = play.failure := by
  induction fuel generalizing checkpoint play with
  | zero =>
      cases checkpoint with
      | none =>
          rfl
      | some saved =>
          rfl
  | succ fuel inductionHypothesis =>
      have kept := advance_failure setup host checkpoint play
      simp only [advanceLine]
      cases progress : play.advance setup host checkpoint with
      | going checkpoint next =>
          rw [progress] at kept
          exact (inductionHypothesis checkpoint next).trans kept
      | stopped result last =>
          rw [progress] at kept
          exact kept

theorem getline_failure
    {play after : Play σ}
    {fuel : Nat}
    {line : String}
    (read : play.getline setup host fuel = (.ok line, after)) :
    after.failure = none := by
  obtain ⟨usable, continues⟩ := canContinue_of_getline read
  have outcome := getline_usable usable continues read
  have kept := advanceLine_failure setup host fuel none play.clearLine
  rcases advanced : advanceLine setup host fuel none play.clearLine with ⟨result, last⟩
  rw [advanced] at outcome kept
  cases result with
  | error error =>
      cases outcome.1
  | ok _ =>
      obtain ⟨_, rfl⟩ := outcome
      exact kept.trans usable

/-! ## The end of one line -/

/--
Where a line ends when everything may be looked at beyond it: at the stop of the story,
or at a line end that visible text follows or a failure.
-/
theorem LineEnd.outcome
    (discreet : host.Discreet setup view quiet)
    (lookahead : setup.config.lookahead = true)
    (harmless : ∀ address, setup.isUnsafeCall address = false)
    {entry last : Play σ}
    (observed : entry.world.ObservedBy quiet)
    (fresh : entry.flow.output = .empty)
    (lineEnd : LineEnd setup host entry last) :
    (last.plainAdvance? setup host = none ∧
      cutLines last.flow.output.pieces = [last.flow.output.pieces]) ∨
    (last.flow.ip.isSome = true ∧
      ∃ body plain beside,
        EndsLine last.flow.output.pieces body ∧
          Kept setup host view quiet last plain beside ∧
          (showsText beside.flow.output.pieces = true ∨
            ∃ error after,
              beside.plainAdvance? setup host = some (.error error, after))) := by
  cases lineEnd with
  | @finished base _ reading stopped =>
      have shape := reading.shape discreet observed fresh
      refine .inl ⟨stopped, ?_⟩
      cases base with
      | none =>
          exact cutLines_of_unended shape.2
      | some base =>
          obtain ⟨_, ⟨body, ends⟩, beside, kept, hidden⟩ := shape
          rw [kept.pieces, ends.shape]
          exact cutLines_of_hidden ends.plain ends.unended hidden
  | cut _ _ _ _ _ plainly =>
      rw [lookahead] at plainly
      cases plainly
  | @refused _ _ address _ _ unsafeCall =>
      rw [harmless address] at unsafeCall
      cases unsafeCall
  | abandoned reading failed =>
      obtain ⟨continues, ⟨body, ends⟩, beside, kept, _⟩ :=
        reading.shape discreet observed fresh
      obtain ⟨after, failed, _⟩ := kept.abreast.symm.advance discreet failed
      exact .inr ⟨continues, body, _, beside, ends, kept, .inr ⟨_, after, failed⟩⟩
  | completed reading moved noMarker grown =>
      obtain ⟨continues, ⟨body, ends⟩, beside, kept, _⟩ :=
        reading.shape discreet observed fresh
      obtain ⟨other, _, _, _, nextKept | ⟨_, unended⟩⟩ := kept.moved discreet ends moved
      · refine .inr ⟨continues, body, _, other, ends, nextKept, .inl ?_⟩
        rw [nextKept.growth ends] at grown
        rw [← nextKept.hasMarker, Output.hasMarker_eq_false_iff] at noMarker
        rw [showsText, Output.outer_of_plain noMarker]
        split at grown
        · assumption
        · cases grown
      · rw [growth_of_unended _ unended] at grown
        cases grown

/-! ## All lines -/

theorem clearLine_abreast
    {play : Play σ}
    (observed : play.world.ObservedBy quiet) :
    Abreast view quiet play.clearLine play :=
  ⟨rfl, .refl observed⟩

theorem ip_of_stopped
    {play : Play σ}
    (stopped : play.plainAdvance? setup host = none) :
    play.flow.ip = none := by
  cases here : play.flow.ip with
  | none =>
      rfl
  | some address =>
      simp [plainAdvance?_of_ip here] at stopped

/-- A stopped play has no line to read. -/
theorem getLines_of_stopped
    {play after : Play σ}
    {fuel lines : Nat}
    {text result : String}
    (stopped : play.flow.ip = none)
    (read : getLines setup host fuel lines text play = (.ok result, after)) :
    result = text := by
  cases lines with
  | zero =>
      cases read
  | succ lines =>
      simp only [getLines, Runner.canContinue, stopped, Option.isSome_none, Bool.and_false,
        Bool.false_eq_true, if_false, Prod.mk.injEq, Except.ok.injEq] at read
      exact read.1.symm

/-- What follows a line that was cut off follows it in the uncut run as well. -/
theorem Kept.rejoin
    (discreet : host.Discreet setup view quiet)
    {base plain beside rest last : Play σ}
    {body : List Piece}
    (ends : EndsLine base.flow.output.pieces body)
    (kept : Kept setup host view quiet base plain beside)
    (seen :
      showsText beside.flow.output.pieces = true ∨
        ∃ error after, beside.plainAdvance? setup host = some (.error error, after))
    (start : Abreast view quiet rest base.cleared)
    (fresh : rest.flow.output = .empty)
    {count : Nat}
    (run : PlainRun setup host count rest last)
    (ended : last.plainAdvance? setup host = none) :
    ∃ total arrived,
      PlainRun setup host total base arrived ∧
        arrived.plainAdvance? setup host = none ∧
        arrived.flow.output.pieces = base.flow.output.pieces ++ last.flow.output.pieces ∧
        showsText last.flow.output.pieces = true := by
  obtain ⟨other, otherRun, abreast, output⟩ := run.abreast discreet start
  have same : last.flow.output = other.flow.output := output fresh
  have otherEnded := abreast.stopped ended
  obtain ⟨_, besideRun, _⟩ := kept.run
  rcases seen with shown | ⟨error, after, failed⟩
  · obtain ⟨_, _, tail⟩ := besideRun.rest otherRun (.of_stopped otherEnded)
    obtain ⟨arrived, arrivedKept, arrivedShown⟩ := Kept.solid discreet ends tail kept shown
    obtain ⟨total, _, arrivedRun⟩ := arrivedKept.run
    refine ⟨total, arrived, arrivedRun, arrivedKept.abreast.stopped otherEnded, ?_, ?_⟩
    · rw [same]
      exact arrivedKept.pieces
    · rw [same]
      exact arrivedShown
  · exact absurd otherEnded (besideRun.not_stopped_of_failed failed otherRun)

/--
The lines read from a play without output are those that the output of its plain run to
the stop is cut into.
-/
theorem getLines_eq_cutLines
    (discreet : host.Discreet setup view quiet)
    (lookahead : setup.config.lookahead = true)
    (harmless : ∀ address, setup.isUnsafeCall address = false)
    (fuel lines : Nat)
    {text result : String}
    {play after : Play σ}
    (usable : play.failure = none)
    (observed : play.world.ObservedBy quiet)
    (fresh : play.flow.output = .empty)
    (final : play.flow.ip = none → play.plainAdvance? setup host = none)
    (read : getLines setup host fuel lines text play = (.ok result, after)) :
    ∃ count last,
      PlainRun setup host count play last ∧
        last.plainAdvance? setup host = none ∧
        result = text ++ String.join ((cutLines last.flow.output.pieces).map render) := by
  induction lines generalizing text play with
  | zero =>
      cases read
  | succ lines inductionHypothesis =>
      cases here : play.flow.ip with
      | none =>
          refine ⟨0, play, .refl play, final here, ?_⟩
          rw [getLines_of_stopped here read, fresh]
          have blank : render [] = "" := by rfl
          simp [Output.empty, cutLines, blank]
      | some address =>
          have continues : play.canContinue = true := by
            simp [Runner.canContinue, usable, here]
          rcases got : play.getline setup host fuel with ⟨outcome, rest⟩
          simp only [getLines, continues, if_true, got] at read
          cases outcome with
          | error error =>
              cases read
          | ok line =>
              obtain ⟨base, lineEnd, rendered, flow, world⟩ :=
                getline_arrived discreet observed got
              obtain ⟨_, run⟩ := lineEnd.plainRun (canContinue_of_getline got).2
              have clearedObserved : play.clearLine.world.ObservedBy quiet := observed
              have clearedFresh : play.clearLine.flow.output = .empty := fresh
              -- The line was either the last one, or what follows it showed where to cut.
              rcases lineEnd.outcome discreet lookahead harmless clearedObserved clearedFresh with
                ⟨stopped, whole⟩ | ⟨onward, body, plain, beside, ends, kept, seen⟩
              · obtain ⟨last, lastRun, abreast, output⟩ :=
                  run.abreast discreet (clearLine_abreast observed)
                refine ⟨_, last, lastRun, abreast.stopped stopped, ?_⟩
                have ip : rest.flow.ip = none := by
                  rw [flow]
                  exact ip_of_stopped stopped
                rw [← output rfl, whole, getLines_of_stopped ip read, ← rendered]
                simp only [List.map_singleton, String.join_cons, String.join_nil,
                  String.append_empty, Output.line]
              · have start : Abreast view quiet rest base.cleared :=
                  ⟨by rw [flow]; rfl, world⟩
                have later : rest.flow.ip = none → rest.plainAdvance? setup host = none := by
                  intro none
                  rw [flow] at none
                  rw [show base.flow.ip = Option.none from none] at onward
                  cases onward
                obtain ⟨_, second, secondRun, ended, rejoined⟩ :=
                  inductionHypothesis (getline_failure got) world.leftObserved
                    (by rw [flow]) later read
                obtain ⟨_, arrived, arrivedRun, arrivedEnded, pieces, shown⟩ :=
                  kept.rejoin discreet ends seen start (by rw [flow]) secondRun ended
                -- The uncut run goes on from the line with output that was never taken.
                obtain ⟨last, lastRun, abreast, output⟩ :=
                  (run.trans arrivedRun).abreast discreet (clearLine_abreast observed)
                refine ⟨_, last, lastRun, abreast.stopped arrivedEnded, ?_⟩
                rw [← output rfl, pieces, ends.shape,
                  cutLines_of_shown ends.plain ends.unended shown, ← ends.shape, rejoined,
                  ← rendered]
                simp [Output.line, String.append_assoc]

/-- A runner at the start of a story, in a world. -/
def starting
    (setup : Setup)
    (world : World σ) :
    Play σ :=
  ⟨Runner.start setup.story setup.config, world⟩

/--
Reading all lines of a story that calls no function of the host, while observers write
nothing, runs it straight to its stop and gives the lines that its uncut output falls into.
Their text is that of the uncut output exactly when these lines are seamless.
-/
theorem getall_eq_line_iff_seamless
    (silent : host.Silent quiet)
    (lookahead : setup.config.lookahead = true)
    (uncalled :
      ∀ address instruction,
        setup.story.instruction? address = some instruction →
        instruction.command ≠ .callExternal)
    {world : World σ}
    (observed : world.ObservedBy quiet)
    (fuel : Nat)
    {text : String}
    {after : Play σ}
    (read : (starting setup world).getall setup host fuel = (.ok text, after)) :
    ∃ count last,
      PlainRun setup host count (starting setup world) last ∧
        last.plainAdvance? setup host = none ∧
        text = String.join ((cutLines last.flow.output.pieces).map render) ∧
        (text = last.flow.output.line ↔
          seamless (cutLines last.flow.output.pieces) = true) := by
  have harmless (address : Nat) : setup.isUnsafeCall address = false := by
    simp only [Setup.isUnsafeCall]
    split
    · next found =>
        exact absurd rfl (uncalled address _ found)
    · rfl
  have discreet : host.Discreet setup (fun _ => ()) quiet := by
    refine .of_uncalled silent ?_
    rintro binding ⟨address, flag, payload, found, _⟩
    exact uncalled address _ found rfl
  have final (stopped : (starting setup world).flow.ip = none) :
      (starting setup world).plainAdvance? setup host = none := by
    rw [plainAdvance?_of_stopped stopped]
    rfl
  obtain ⟨count, last, run, ended, joined⟩ :=
    getLines_eq_cutLines discreet lookahead harmless fuel fuel rfl observed rfl final read
  rw [String.empty_append] at joined
  refine ⟨count, last, run, ended, joined, ?_⟩
  rw [joined]
  exact join_cutLines_eq_render_iff last.flow.output.pieces

/-- A story that glues a line end to the text before it. -/
def gluedSetup : Setup where
  story :=
    { instructions :=
        #[⟨.str, 0, 0⟩, ⟨.glue, 0, 0⟩, ⟨.newline, 0, 0⟩, ⟨.str, 0, 1⟩, ⟨.done, 0, 0⟩]
      strings := #["a ", "x"]
      literals := #[]
      containers := #[]
      declarations := ⟨[], ⟨#[]⟩⟩ }
  bindings := ⟨[]⟩
  config := .standard

/-- A world without variables. -/
def bareWorld : World Unit :=
  ⟨Store.start ⟨[], ⟨#[]⟩⟩, #[], ()⟩

/-- The line end after glue is cut, and the space before it is lost. -/
theorem getall_eq_line_iff_seamless_glued :
    ∃ after count last,
      (starting gluedSetup bareWorld).getall gluedSetup idleHost 20 = (.ok "ax", after) ∧
        PlainRun gluedSetup idleHost count (starting gluedSetup bareWorld) last ∧
        last.plainAdvance? gluedSetup idleHost = none ∧
        last.flow.output.line = "a x" ∧
        seamless (cutLines last.flow.output.pieces) = false := by
  have read :
      (starting gluedSetup bareWorld).getall gluedSetup idleHost 20 =
        (.ok "ax", ((starting gluedSetup bareWorld).getall gluedSetup idleHost 20).2) :=
    Prod.ext (by rfl) rfl
  have silent : idleHost.Silent (fun _ => True) := fun _ _ _ _ observed => ⟨rfl, observed⟩
  have uncalled (address : Nat) (instruction : Instruction)
      (found : gluedSetup.story.instruction? address = some instruction) :
      instruction.command ≠ .callExternal := by
    have inside := Array.mem_of_getElem? found
    simp only [gluedSetup, List.mem_toArray, List.mem_cons, List.not_mem_nil, or_false] at inside
    rcases inside with rfl | rfl | rfl | rfl | rfl <;> simp
  obtain ⟨count, last, run, ended, _, whole⟩ :=
    getall_eq_line_iff_seamless silent rfl uncalled (by intro _ inside; cases inside) 20 read
  obtain ⟨arrived, straight, stop, text⟩ :
      ∃ arrived,
        PlainRun gluedSetup idleHost 5 (starting gluedSetup bareWorld) arrived ∧
          arrived.plainAdvance? gluedSetup idleHost = none ∧
          arrived.flow.output.line = "a x" :=
    ⟨_,
      .advance (.advance (.advance (.advance (.advance (.refl _) rfl) rfl) rfl) rfl) rfl,
      rfl, by rfl⟩
  have same := run.last_unique (.of_stopped ended) straight (.of_stopped stop)
  subst same
  refine ⟨_, count, last, read, run, ended, text, ?_⟩
  rw [← Bool.not_eq_true, ← whole, text]
  decide

end Fabula.Play
