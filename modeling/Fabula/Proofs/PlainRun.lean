import Fabula.Proofs.Step

namespace Fabula.Play

/-!
# Plain runs

A plain advance carries out the next instruction, or takes the fallback when the flow
has stopped.  It keeps no checkpoint and takes nothing back, so a run of plain advances is
decided by where it starts.  The moves of a runner on the way to the end of a line are plain
advances with bookkeeping around them; `Move` lists everything that such a move can do.
-/

variable {σ : Type}

/-- One plain advance; nothing when the flow has stopped and offers no fallback. -/
def plainAdvance?
    (setup : Setup)
    (host : Host σ)
    (play : Play σ) :
    Option (Except Error Unit × Play σ) :=
  match play.flow.ip with
  | some address => some (play.step setup host address)
  | none => (play.takeFallback? setup).map fun continued => (.ok (), continued)

/-- A run of plain advances that all succeed. -/
inductive PlainRun
    (setup : Setup)
    (host : Host σ) :
    Nat → Play σ → Play σ → Prop where
  | refl (play : Play σ) :
      PlainRun setup host 0 play play
  | advance
      {count : Nat}
      {first middle last : Play σ}
      (run : PlainRun setup host count first middle)
      (moved : middle.plainAdvance? setup host = some (.ok (), last)) :
      PlainRun setup host (count + 1) first last

namespace PlainRun

variable {setup : Setup} {host : Host σ} {first middle last : Play σ}

/-- Runs are composed. -/
theorem trans
    {before after : Nat}
    (run : PlainRun setup host before first middle)
    (rest : PlainRun setup host after middle last) :
    PlainRun setup host (before + after) first last := by
  induction rest with
  | refl =>
      exact run
  | advance _ moved inductionHypothesis =>
      exact .advance (inductionHypothesis run) moved

/-- One advance is a run. -/
theorem one
    (moved : first.plainAdvance? setup host = some (.ok (), last)) :
    PlainRun setup host 1 first last :=
  .advance (.refl first) moved

end PlainRun

/-! ## Where runs end -/

/-- No plain advance succeeds: the story has stopped, or it fails. -/
def Halted
    (setup : Setup)
    (host : Host σ)
    (play : Play σ) :
    Prop :=
  ∀ next, play.plainAdvance? setup host ≠ some (.ok (), next)

theorem Halted.of_stopped
    {setup : Setup}
    {host : Host σ}
    {play : Play σ}
    (stopped : play.plainAdvance? setup host = none) :
    play.Halted setup host := by
  intro next moved
  rw [stopped] at moved
  cases moved

theorem Halted.of_failed
    {setup : Setup}
    {host : Host σ}
    {play last : Play σ}
    {error : Error}
    (failed : play.plainAdvance? setup host = some (.error error, last)) :
    play.Halted setup host := by
  intro next moved
  rw [failed] at moved
  cases moved

namespace PlainRun

variable {setup : Setup} {host : Host σ} {first middle last : Play σ}

/-- A run that is not empty starts with an advance. -/
theorem uncons
    {count : Nat}
    (run : PlainRun setup host (count + 1) first last) :
    ∃ middle,
      first.plainAdvance? setup host = some (.ok (), middle) ∧
        PlainRun setup host count middle last := by
  induction count generalizing last with
  | zero =>
      cases run with
      | advance start moved =>
          cases start with
          | refl =>
              exact ⟨last, moved, .refl last⟩
  | succ count inductionHypothesis =>
      cases run with
      | advance start moved =>
          obtain ⟨middle, first, rest⟩ := inductionHypothesis start
          exact ⟨middle, first, .advance rest moved⟩

/-- A run to its end passes through every play that is reached from its start. -/
theorem rest
    {before total : Nat}
    (run : PlainRun setup host before first middle)
    (whole : PlainRun setup host total first last)
    (halted : last.Halted setup host) :
    ∃ count, before + count = total ∧ PlainRun setup host count middle last := by
  induction before generalizing first total with
  | zero =>
      cases run with
      | refl =>
          exact ⟨total, Nat.zero_add total, whole⟩
  | succ before inductionHypothesis =>
      obtain ⟨second, moved, run⟩ := run.uncons
      cases total with
      | zero =>
          cases whole with
          | refl =>
              exact absurd moved (halted second)
      | succ total =>
          obtain ⟨_, wholeMoved, whole⟩ := whole.uncons
          rw [moved] at wholeMoved
          cases wholeMoved
          obtain ⟨count, length, rest⟩ := inductionHypothesis run whole
          exact ⟨count, by omega, rest⟩

/-- All runs from a play to an end end in the same play. -/
theorem last_unique
    {count total : Nat}
    {other : Play σ}
    (run : PlainRun setup host count first last)
    (halted : last.Halted setup host)
    (otherRun : PlainRun setup host total first other)
    (otherHalted : other.Halted setup host) :
    last = other := by
  obtain ⟨rest, _, onward⟩ := run.rest otherRun otherHalted
  cases rest with
  | zero =>
      cases onward with
      | refl =>
          rfl
  | succ rest =>
      obtain ⟨_, moved, _⟩ := onward.uncons
      exact absurd moved (halted _)

/-- A run that leads to a failure leads to no stop. -/
theorem not_stopped_of_failed
    {before total : Nat}
    (run : PlainRun setup host before first middle)
    {error : Error}
    {after : Play σ}
    (failure : middle.plainAdvance? setup host = some (.error error, after))
    (whole : PlainRun setup host total first last) :
    last.plainAdvance? setup host ≠ none := by
  intro ended
  have same := run.last_unique (.of_failed failure) whole (.of_stopped ended)
  rw [← same, failure] at ended
  cases ended

end PlainRun

/-- Make a number of plain advances, as long as they succeed. -/
def plainRun? (setup : Setup) (host : Host σ) : Nat → Play σ → Option (Play σ)
  | 0, play => some play
  | count + 1, play =>
      match play.plainAdvance? setup host with
      | some (.ok (), next) => plainRun? setup host count next
      | _ => none

/-- A plain run comes to where its advances lead. -/
theorem PlainRun.eq_plainRun?
    {setup : Setup}
    {host : Host σ}
    {count : Nat}
    {first last : Play σ}
    (run : PlainRun setup host count first last) :
    plainRun? setup host count first = some last := by
  induction count generalizing first with
  | zero =>
      cases run with
      | refl =>
          rfl
  | succ count inductionHypothesis =>
      obtain ⟨middle, moved, rest⟩ := run.uncons
      simp only [plainRun?, moved]
      exact inductionHypothesis rest

theorem plainRun?_add
    {setup : Setup}
    {host : Host σ}
    {count : Nat}
    {first : Play σ}
    (ended : plainRun? setup host count first = none)
    (more : Nat) :
    plainRun? setup host (count + more) first = none := by
  induction count generalizing first with
  | zero =>
      cases ended
  | succ count inductionHypothesis =>
      rw [Nat.add_right_comm]
      simp only [plainRun?] at ended ⊢
      split
      · next next moved =>
          rw [moved] at ended
          exact inductionHypothesis ended
      · rfl

/-! ## The moves of a runner -/

/-- A plain advance at an address is a step. -/
theorem plainAdvance?_of_ip
    {setup : Setup}
    {host : Host σ}
    {play : Play σ}
    {address : Nat}
    (here : play.flow.ip = some address) :
    play.plainAdvance? setup host = some (play.step setup host address) := by
  simp only [plainAdvance?, here]

/-- A plain advance at an address has the result of the step. -/
theorem plainAdvance?_of_result
    {setup : Setup}
    {host : Host σ}
    {play : Play σ}
    {address : Nat}
    {result : Except Error Unit}
    (here : play.flow.ip = some address)
    (stepped : result = (play.step setup host address).1) :
    play.plainAdvance? setup host = some (result, (play.step setup host address).2) := by
  rw [plainAdvance?_of_ip here, stepped]

/-- A plain advance of a stopped flow takes the fallback. -/
theorem plainAdvance?_of_stopped
    {setup : Setup}
    {host : Host σ}
    {play : Play σ}
    (stopped : play.flow.ip = none) :
    play.plainAdvance? setup host =
      (play.takeFallback? setup).map fun continued => (.ok (), continued) := by
  simp only [plainAdvance?, stopped]

/-- Everything that a move on the way to the end of a line can do. -/
inductive Move
    (setup : Setup)
    (host : Host σ) :
    Option Checkpoint → Play σ → Progress σ → Prop where
  /-- The flow has stopped and goes on with its fallback. -/
  | fallback
      {checkpoint : Option Checkpoint}
      {play continued : Play σ}
      (stopped : play.flow.ip = none)
      (taken : play.takeFallback? setup = some continued) :
      Move setup host checkpoint play (.going checkpoint continued)
  /-- The flow has stopped for good, and what was on trial is kept. -/
  | finished
      {checkpoint : Option Checkpoint}
      {play : Play σ}
      (stopped : play.flow.ip = none)
      (nothing : play.takeFallback? setup = none) :
      Move setup host checkpoint play (.stopped (.ok ()) (play.commit host checkpoint))
  /-- A function that may not be called on trial comes next. -/
  | refused
      {saved : Checkpoint}
      {play : Play σ}
      {address : Nat}
      (here : play.flow.ip = some address)
      (unsafeCall : setup.isUnsafeCall address = true) :
      Move setup host (some saved) play
        (.stopped (.ok ()) ((play.emit setup [.unsafeCall address]).rollback setup saved))
  /-- A step fails for good. -/
  | failed
      {play after : Play σ}
      {address : Nat}
      {error : Error}
      (here : play.flow.ip = some address)
      (stepped : play.step setup host address = (.error error, after)) :
      Move setup host none play (.stopped (.error error) after)
  /-- A step fails on trial. -/
  | abandoned
      {saved : Checkpoint}
      {play after : Play σ}
      {address : Nat}
      {error : Error}
      (here : play.flow.ip = some address)
      (safeCall : setup.isUnsafeCall address = false)
      (stepped : play.step setup host address = (.error error, after)) :
      Move setup host (some saved) play
        (.stopped (.ok ())
          ((after.emit setup [.lookaheadFailed error]).rollback setup saved))
  /-- A step inside an unfinished text. -/
  | marked
      {checkpoint : Option Checkpoint}
      {play after : Play σ}
      {address : Nat}
      (here : play.flow.ip = some address)
      (safeCall : checkpoint ≠ none → setup.isUnsafeCall address = false)
      (stepped : play.step setup host address = (.ok (), after))
      (marker : after.flow.output.hasMarker = true) :
      Move setup host checkpoint play (.going checkpoint after)
  /-- A step without a checkpoint. -/
  | plain
      {play after : Play σ}
      {address : Nat}
      (here : play.flow.ip = some address)
      (stepped : play.step setup host address = (.ok (), after))
      (noMarker : after.flow.output.hasMarker = false) :
      Move setup host none play (after.proceed setup)
  /-- A step on trial that leaves the line undecided. -/
  | undecided
      {saved : Checkpoint}
      {play after : Play σ}
      {address : Nat}
      (here : play.flow.ip = some address)
      (safeCall : setup.isUnsafeCall address = false)
      (stepped : play.step setup host address = (.ok (), after))
      (noMarker : after.flow.output.hasMarker = false)
      (grown : growth saved.outputSize after.flow.output = .none) :
      Move setup host (some saved) play (.going (some saved) after)
  /-- A step on trial that adds text after the line. -/
  | completed
      {saved : Checkpoint}
      {play after : Play σ}
      {address : Nat}
      (here : play.flow.ip = some address)
      (safeCall : setup.isUnsafeCall address = false)
      (stepped : play.step setup host address = (.ok (), after))
      (noMarker : after.flow.output.hasMarker = false)
      (grown : growth saved.outputSize after.flow.output = .textAdded) :
      Move setup host (some saved) play (.stopped (.ok ()) (after.rollback setup saved))
  /-- A step on trial that joins the line to what follows. -/
  | joined
      {saved : Checkpoint}
      {play after : Play σ}
      {address : Nat}
      (here : play.flow.ip = some address)
      (safeCall : setup.isUnsafeCall address = false)
      (stepped : play.step setup host address = (.ok (), after))
      (noMarker : after.flow.output.hasMarker = false)
      (grown : growth saved.outputSize after.flow.output = .newlineRemoved) :
      Move setup host (some saved) play ((after.commit host (some saved)).proceed setup)

/-- A move does one of the things listed. -/
theorem advance_move
    (setup : Setup)
    (host : Host σ)
    (checkpoint : Option Checkpoint)
    (play : Play σ) :
    Move setup host checkpoint play (play.advance setup host checkpoint) := by
  cases here : play.flow.ip with
  | none =>
      simp only [advance, here]
      cases taken : play.takeFallback? setup with
      | none =>
          exact .finished here taken
      | some continued =>
          exact .fallback here taken
  | some address =>
      cases stepped : play.step setup host address with
      | mk result after =>
          cases checkpoint with
          | none =>
              simp only [advance, here, attempt, stepped]
              cases result with
              | error error =>
                  exact .failed here stepped
              | ok _ =>
                  simp only [settle]
                  split
                  · next marker =>
                      exact .marked here (fun present => absurd rfl present) stepped marker
                  · next noMarker =>
                      exact .plain here stepped (Bool.not_eq_true _ ▸ noMarker)
          | some saved =>
              simp only [advance, here, attempt, stepped]
              split
              · next unsafeCall =>
                  exact .refused here unsafeCall
              · next safeCall =>
                  have safeCall : setup.isUnsafeCall address = false :=
                    Bool.not_eq_true _ ▸ safeCall
                  cases result with
                  | error error =>
                      exact .abandoned here safeCall stepped
                  | ok _ =>
                      simp only [settle]
                      split
                      · next marker =>
                          exact .marked here (fun _ => safeCall) stepped marker
                      · next noMarker =>
                          have noMarker : after.flow.output.hasMarker = false :=
                            Bool.not_eq_true _ ▸ noMarker
                          split
                          · next grown =>
                              exact .completed here safeCall stepped noMarker grown
                          · next grown =>
                              exact .joined here safeCall stepped noMarker grown
                          · next grown =>
                              exact .undecided here safeCall stepped noMarker grown

/-- Everything that can happen after a step outside unfinished texts. -/
inductive Proceeding
    (setup : Setup)
    (play : Play σ) :
    Progress σ → Prop where
  /-- There is no line to end, or nothing that could follow it at once. -/
  | onward
      (unended : play.flow.output.endsWithNewline = false ∨ play.flow.ip = none) :
      Proceeding setup play (.going none play)
  /-- Without lookahead the line is complete. -/
  | cut
      (ended : play.flow.output.endsWithNewline = true)
      (plain : setup.config.lookahead = false) :
      Proceeding setup play (.stopped (.ok ()) play)
  /-- With lookahead what follows is on trial. -/
  | onTrial
      (ended : play.flow.output.endsWithNewline = true)
      (lookahead : setup.config.lookahead = true)
      (continues : play.flow.ip.isSome = true) :
      Proceeding setup play (.going (some (play.save setup).1) (play.save setup).2)

/-- After a step one of these things happens. -/
theorem proceed_proceeding
    (setup : Setup)
    (play : Play σ) :
    Proceeding setup play (play.proceed setup) := by
  simp only [proceed]
  split
  · next ended =>
      split
      · next plain =>
          exact .cut ended (by simpa using plain)
      · next lookahead =>
        split
        · next continues =>
            exact .onTrial ended (by simpa using lookahead) continues
        · next stopped =>
            exact .onward (.inr (by simpa using stopped))
  · next unended =>
      exact .onward (.inl (by simpa using unended))

end Fabula.Play
