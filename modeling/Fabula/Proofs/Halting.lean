import Fabula.Proofs.Lines

namespace Fabula.Play

/-!
# Readings that come to an end

Every move of a runner on the way to the end of a line is a plain advance, also while it
looks ahead, and every line takes at least one advance for good.  So a reader comes to an
end whenever the plain run from its start does, and is given more moves than that run has
advances.  What it answers then does not depend on how many moves it is given.
-/

variable {σ τ : Type} {view : Audience σ → τ} {quiet : CallbackId → Prop} {host : Host σ}
  {setup : Setup}

/-! ## More moves -/

/-- More moves do not change where a line ends. -/
theorem advanceLine_of_le
    {fuel more : Nat}
    (enough : fuel ≤ more)
    {checkpoint : Option Checkpoint}
    {play : Play σ}
    (finished : (advanceLine setup host fuel checkpoint play).1 ≠ .error .outOfSteps) :
    advanceLine setup host more checkpoint play = advanceLine setup host fuel checkpoint play := by
  induction fuel generalizing more checkpoint play with
  | zero =>
      exact absurd rfl finished
  | succ fuel inductionHypothesis =>
      obtain ⟨more, rfl⟩ : ∃ fewer, more = fewer + 1 := ⟨more - 1, by omega⟩
      simp only [advanceLine] at finished ⊢
      split
      · next next after moved =>
          rw [moved] at finished
          exact inductionHypothesis (by omega) finished
      · rfl

theorem getline_of_le
    {fuel more : Nat}
    (enough : fuel ≤ more)
    {play : Play σ}
    (finished : (play.getline setup host fuel).1 ≠ .error .outOfSteps) :
    play.getline setup host more = play.getline setup host fuel := by
  simp only [getline] at finished ⊢
  split
  · rfl
  · next usable =>
      rw [usable] at finished
      split
      · rfl
      · next present =>
          have ended :
              (advanceLine setup host fuel none play.clearLine).1 ≠ .error .outOfSteps := by
            intro out
            apply finished
            simp only [present, Bool.false_eq_true, if_false]
            rcases advanced : advanceLine setup host fuel none play.clearLine with ⟨result, after⟩
            rw [advanced] at out
            subst out
            rfl
          rw [advanceLine_of_le enough ended]

/-- More moves and more lines do not change what is read. -/
theorem getLines_of_le
    {fuel more lines moreLines : Nat}
    (enough : fuel ≤ more)
    (enoughLines : lines ≤ moreLines)
    {text : String}
    {play : Play σ}
    (finished : (getLines setup host fuel lines text play).1 ≠ .error .outOfSteps) :
    getLines setup host more moreLines text play = getLines setup host fuel lines text play := by
  induction lines generalizing moreLines text play with
  | zero =>
      exact absurd rfl finished
  | succ lines inductionHypothesis =>
      obtain ⟨moreLines, rfl⟩ : ∃ fewer, moreLines = fewer + 1 := ⟨moreLines - 1, by omega⟩
      simp only [getLines] at finished ⊢
      split
      · next continues =>
          simp only [continues, if_true] at finished
          have ended : (play.getline setup host fuel).1 ≠ .error .outOfSteps := by
            intro out
            apply finished
            rcases read : play.getline setup host fuel with ⟨result, after⟩
            rw [read] at out
            subst out
            rfl
          rw [getline_of_le enough ended]
          split
          · rfl
          · next line after read =>
              rw [read] at finished
              exact inductionHypothesis (by omega) finished
      · rfl

/-! ## Plain runs to their end -/

/-- A plain run to the stop of the story or to a failure of its own. -/
structure Finish
    (setup : Setup)
    (host : Host σ)
    (count : Nat)
    (play last : Play σ) :
    Prop where
  run : PlainRun setup host count play last
  halted : last.Halted setup host
  genuine : ∀ after, last.plainAdvance? setup host ≠ some (.error .outOfSteps, after)

namespace Finish

variable {play last : Play σ} {count : Nat}

theorem of_stopped
    (run : PlainRun setup host count play last)
    (stopped : last.plainAdvance? setup host = none) :
    Finish setup host count play last :=
  ⟨run, .of_stopped stopped, by simp [stopped]⟩

theorem of_failed
    (run : PlainRun setup host count play last)
    {error : Error}
    {after : Play σ}
    (failed : last.plainAdvance? setup host = some (.error error, after))
    (genuine : error ≠ .outOfSteps) :
    Finish setup host count play last :=
  ⟨run, .of_failed failed, by simp [failed, genuine]⟩

/-- From every play that is passed the rest of the run leads to the same end. -/
theorem rest
    (finish : Finish setup host count play last)
    {before : Nat}
    {middle : Play σ}
    (run : PlainRun setup host before play middle) :
    ∃ after, before + after = count ∧ Finish setup host after middle last := by
  obtain ⟨after, length, rest⟩ := run.rest finish.run finish.halted
  exact ⟨after, length, rest, finish.halted, finish.genuine⟩

theorem last_unique
    (finish : Finish setup host count play last)
    {total : Nat}
    {other : Play σ}
    (otherFinish : Finish setup host total play other) :
    last = other :=
  finish.run.last_unique finish.halted otherFinish.run otherFinish.halted

/-- Plays that are abreast come to an end together. -/
theorem abreast
    (discreet : host.Discreet setup view quiet)
    (finish : Finish setup host count play last)
    {beside : Play σ}
    (start : Abreast view quiet play beside) :
    ∃ other, Finish setup host count beside other ∧ Abreast view quiet last other := by
  obtain ⟨other, run, abreast, _⟩ := finish.run.abreast discreet start
  refine ⟨other, ⟨run, ?_, ?_⟩, abreast⟩
  · intro next moved
    obtain ⟨_, moved, _⟩ := abreast.symm.advance discreet moved
    exact finish.halted _ moved
  · intro after failed
    obtain ⟨_, failed, _⟩ := abreast.symm.advance discreet failed
    exact finish.genuine _ failed

end Finish

/-! ## Enough moves -/

/-- A tracked runner arrives if it has more moves than the plain run has advances left. -/
theorem Tracked.arrives
    (discreet : host.Discreet setup view quiet)
    {entry play plain last : Play σ}
    {total : Nat}
    (whole : Finish setup host total entry last)
    {checkpoint : Option Checkpoint}
    (tracked : Tracked setup host view quiet entry checkpoint play plain)
    {count fuel : Nat}
    (finish : Finish setup host count plain last)
    (enough : count < fuel) :
    (Play.advanceLine setup host fuel checkpoint play).1 ≠ .error .outOfSteps := by
  induction fuel generalizing checkpoint play plain count with
  | zero =>
      omega
  | succ fuel inductionHypothesis =>
      have sound := tracked.advance discreet
      simp only [Play.advanceLine]
      cases progress : play.advance setup host checkpoint with
      | going checkpoint after =>
          rw [progress] at sound
          obtain ⟨next, moved, tracked⟩ := sound
          obtain ⟨remaining, length, finish⟩ := finish.rest (.one moved)
          exact inductionHypothesis tracked finish (by omega)
      | stopped result after =>
          rw [progress] at sound
          rintro rfl
          -- A runner that stops with an error does so where the plain run fails.
          obtain ⟨arrived, _, reading, failed, _⟩ := sound
          obtain ⟨⟨_, run⟩, _⟩ := reading.plainRun
          have same := run.last_unique (.of_failed failed) whole.run whole.halted
          exact whole.genuine _ (same ▸ failed)

theorem getline_arrives
    (discreet : host.Discreet setup view quiet)
    {play last : Play σ}
    (observed : play.world.ObservedBy quiet)
    (usable : play.failure = none)
    (continues : play.flow.ip.isSome = true)
    {count fuel : Nat}
    (finish : Finish setup host count play last)
    (enough : count < fuel) :
    (play.getline setup host fuel).1 ≠ .error .outOfSteps := by
  obtain ⟨_, finish, _⟩ := finish.abreast discreet (clearLine_abreast observed).symm
  have observed : play.clearLine.world.ObservedBy quiet := observed
  have arrives := (Tracked.entered observed).arrives discreet finish finish enough
  rw [getline_of_canContinue (canContinue_iff.mpr ⟨usable, continues⟩)]
  split
  · next error after advanced =>
      rw [advanced] at arrives
      simpa using arrives
  · simp

/-- A line ends at the stop of the story, or at a line end from where it goes on. -/
theorem LineEnd.stopped_or_endsLine
    (discreet : host.Discreet setup view quiet)
    {entry last : Play σ}
    (observed : entry.world.ObservedBy quiet)
    (fresh : entry.flow.output = .empty)
    (lineEnd : LineEnd setup host entry last) :
    last.plainAdvance? setup host = none ∨
      (last.flow.ip.isSome = true ∧ ∃ body, EndsLine last.flow.output.pieces body) := by
  cases lineEnd with
  | finished _ stopped =>
      exact .inl stopped
  | cut reading moved noMarker free ended =>
      have shape := reading.shape discreet observed fresh
      obtain ⟨_, absent | onward⟩ := shape.proceeds discreet moved noMarker free
      · rw [Output.endsWithNewline, beq_iff_eq] at ended
        exact absurd (List.mem_of_getLast? ended) absent
      · exact .inr onward
  | refused reading | abandoned reading | completed reading =>
      obtain ⟨continues, ends, _⟩ := reading.shape discreet observed fresh
      exact .inr ⟨continues, ends⟩

/-- Where a line was cut off, the story goes on as it would have with the line in front. -/
theorem EndsLine.abreast
    {base rest : Play σ}
    {body : List Piece}
    (ends : EndsLine base.flow.output.pieces body)
    (flow : rest.flow = { base.flow with output := .empty })
    (world : World.Alike view quiet rest.world base.world) :
    Abreast view quiet rest base := by
  refine ⟨?_, world⟩
  have none : base.flow.output.inner = [] := Output.inner_of_plain ends.whole
  rw [flow]
  simp only [Flow.core, none]
  rfl

/-- Lines are read to the end if there are more moves and lines than plain advances. -/
theorem getLines_arrives
    (discreet : host.Discreet setup view quiet)
    {fuel lines : Nat}
    {play last : Play σ}
    (observed : play.world.ObservedBy quiet)
    (fresh : play.flow.output = .empty)
    {count : Nat}
    (finish : Finish setup host count play last)
    (enough : count < fuel)
    (enoughLines : count < lines)
    (text : String) :
    (getLines setup host fuel lines text play).1 ≠ .error .outOfSteps := by
  induction lines generalizing text play last count with
  | zero =>
      omega
  | succ lines inductionHypothesis =>
      simp only [getLines]
      split
      · next continues =>
          obtain ⟨usable, continues⟩ := canContinue_iff.mp continues
          have arrives := getline_arrives discreet observed usable continues finish enough
          split
          · next error after read =>
              rw [read] at arrives
              simpa using arrives
          · next line rest read =>
              obtain ⟨base, lineEnd, _, flow, world⟩ := getline_arrived discreet observed read
              obtain ⟨before, run⟩ := lineEnd.plainRun continues
              obtain ⟨_, finish, _⟩ :=
                finish.abreast discreet (clearLine_abreast observed).symm
              obtain ⟨after, length, finish⟩ := finish.rest run
              have clearedObserved : play.clearLine.world.ObservedBy quiet := observed
              rcases lineEnd.stopped_or_endsLine discreet clearedObserved fresh with
                stopped | ⟨_, body, ends⟩
              · have ip : rest.flow.ip = none := by
                  rw [flow]
                  exact ip_of_stopped stopped
                obtain ⟨lines, rfl⟩ : ∃ fewer, lines = fewer + 1 := ⟨lines - 1, by omega⟩
                simp [getLines, Runner.canContinue, ip]
              · obtain ⟨_, finish, _⟩ := finish.abreast discreet (ends.abreast flow world).symm
                exact inductionHypothesis world.leftObserved (by rw [flow]) finish
                  (by omega) (by omega) _
      · simp

end Fabula.Play
