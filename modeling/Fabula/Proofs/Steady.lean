import Fabula.Proofs.Lines

namespace Fabula

/-!
# What a runner leaves alone

Whatever a runner is asked to do, it does to its world by logging, writing variables,
calling bound functions, and opening and closing speculations.  A property of worlds that
each of these keeps is kept by reading and by choosing.  One such property is that nobody
observes the store, if the story calls no function of the host.
-/

/-- A property of worlds that nothing that a runner does can break. -/
structure World.Steady
    {σ : Type}
    (setup : Setup)
    (host : Host σ)
    (Property : World σ → Prop) :
    Prop where
  log :
    ∀ {world} log,
      Property world →
      Property { world with log := log }
  assign :
    ∀ {world} name value,
      Property world →
      Property (world.assign host name value).2
  call :
    ∀ {world binding} arguments,
      setup.Calls binding →
      Property world →
      Property (host.call binding.callback arguments world).2
  beginSpeculation :
    ∀ {world},
      Property world →
      Property world.beginSpeculation.2
  rollback :
    ∀ {world} id,
      Property world →
      Property (world.rollback id)
  commit :
    ∀ {world} id,
      Property world →
      Property (world.commit host id).2

namespace World.Steady

variable {σ : Type} {setup : Setup} {host : Host σ} {Property : World σ → Prop}
  {play : Play σ}

theorem step
    (steady : Steady setup host Property)
    (kept : Property play.world)
    (address : Nat) :
    Property (play.step setup host address).2.world := by
  rw [Play.step_eq]
  split
  · exact kept
  · next change made =>
      have carried : Property (play.carry setup change).world := steady.log _ kept
      cases asked : change.request with
      | none =>
          exact carried
      | some request =>
          cases request with
          | write name value =>
              simp only [Play.answer, Play.assign_world]
              exact steady.assign name value carried
          | call name binding arguments =>
              obtain ⟨flag, payload, here, bound⟩ := Flow.next_call made asked
              have called :=
                steady.call arguments ⟨address, flag, payload, here, bound⟩ carried
              simp only [Play.answer, Play.callHost]
              split
              · split <;> exact steady.log _ called
              · exact steady.log _ (steady.log _ called)

theorem takeFallback?
    (steady : Steady setup host Property)
    (kept : Property play.world)
    {continued : Play σ}
    (taken : play.takeFallback? setup = some continued) :
    Property continued.world := by
  simp only [Play.takeFallback?, Option.map_eq_some_iff] at taken
  obtain ⟨choice, _, rfl⟩ := taken
  exact steady.log _ (steady.log _ kept)

theorem back
    (steady : Steady setup host Property)
    (kept : Property play.world)
    (checkpoint : Play.Checkpoint) :
    Property (play.rollback setup checkpoint).world :=
  steady.rollback _ (steady.log _ kept)

theorem keep
    (steady : Steady setup host Property)
    (kept : Property play.world)
    (checkpoint : Option Play.Checkpoint) :
    Property (play.commit host checkpoint).world := by
  cases checkpoint with
  | none =>
      exact kept
  | some saved =>
      exact steady.commit _ kept

theorem proceed
    (steady : Steady setup host Property)
    (kept : Property play.world) :
    Property (play.proceed setup).play.world := by
  have proceeding := Play.proceed_proceeding setup play
  generalize play.proceed setup = progress at proceeding
  cases proceeding with
  | onward | cut =>
      exact kept
  | onTrial =>
      exact steady.beginSpeculation (steady.log _ kept)

/-- A move keeps the property. -/
theorem advance
    (steady : Steady setup host Property)
    (kept : Property play.world)
    (checkpoint : Option Play.Checkpoint) :
    Property (play.advance setup host checkpoint).play.world := by
  have move := Play.advance_move setup host checkpoint play
  generalize play.advance setup host checkpoint = progress at move
  have stepped {address : Nat} {result : Except Error Unit} {after : Play σ}
      (step : play.step setup host address = (result, after)) :
      Property after.world := by
    have after := steady.step kept address
    rwa [step] at after
  cases move with
  | fallback _ taken =>
      exact steady.takeFallback? kept taken
  | finished =>
      exact steady.keep kept checkpoint
  | refused =>
      exact steady.rollback _ (steady.log _ (steady.log _ kept))
  | failed _ step | marked _ _ step | undecided _ _ step =>
      exact stepped step
  | abandoned _ _ step =>
      exact steady.rollback _ (steady.log _ (steady.log _ (stepped step)))
  | completed _ _ step =>
      exact steady.back (stepped step) _
  | plain _ step =>
      exact steady.proceed (stepped step)
  | joined _ _ step =>
      exact steady.proceed (steady.keep (stepped step) _)

theorem advanceLine
    (steady : Steady setup host Property)
    (fuel : Nat)
    (checkpoint : Option Play.Checkpoint)
    (kept : Property play.world) :
    Property (Play.advanceLine setup host fuel checkpoint play).2.world := by
  induction fuel generalizing checkpoint play with
  | zero =>
      cases checkpoint with
      | none =>
          exact kept
      | some saved =>
          exact steady.back kept saved
  | succ fuel inductionHypothesis =>
      have after := steady.advance kept checkpoint
      simp only [Play.advanceLine]
      cases progress : play.advance setup host checkpoint with
      | going checkpoint next =>
          rw [progress] at after
          exact inductionHypothesis checkpoint after
      | stopped result last =>
          rw [progress] at after
          exact after

theorem getline
    (steady : Steady setup host Property)
    (fuel : Nat)
    (kept : Property play.world) :
    Property (play.getline setup host fuel).2.world := by
  cases continues : play.canContinue with
  | false =>
      rw [Play.getline_of_not_canContinue continues]
      exact kept
  | true =>
      have entered : Property play.clearLine.world := kept
      have after := steady.advanceLine fuel none entered
      rw [Play.getline_of_canContinue continues]
      split
      · next error last advanced =>
          rw [advanced] at after
          exact steady.log _ after
      · next last advanced =>
          rw [advanced] at after
          exact steady.log _ after

/-- Reading all lines keeps the property. -/
theorem getLines
    (steady : Steady setup host Property)
    (fuel lines : Nat)
    (text : String)
    (kept : Property play.world) :
    Property (Play.getLines setup host fuel lines text play).2.world := by
  induction lines generalizing text play with
  | zero =>
      exact kept
  | succ lines inductionHypothesis =>
      have after := steady.getline fuel kept
      simp only [Play.getLines]
      split
      · rcases read : play.getline setup host fuel with ⟨_ | line, rest⟩
        · rw [read] at after
          exact after
        · rw [read] at after
          exact inductionHypothesis _ after
      · exact kept

theorem choose
    (steady : Steady setup host Property)
    (index : Nat)
    (kept : Property play.world) :
    Property (play.choose setup index).2.world := by
  simp only [Play.choose]
  split
  · exact kept
  · split
    · exact kept
    · exact steady.log _ (steady.log _ kept)

end World.Steady

/-- Nobody observes a world, and its next observer would have the given number. -/
def World.Unwatched
    {σ : Type}
    (number : Nat)
    (world : World σ) :
    Prop :=
  world.store.observers = [] ∧ world.store.nextObserver = number

namespace World.Unwatched

variable {σ : Type} {host : Host σ} {number : Nat} {world : World σ}

theorem deliver
    (unwatched : world.Unwatched number)
    (write : Write) :
    world.deliver host write = (none, world) := by
  simp [World.deliver, Store.observersOf, unwatched.1, World.tellAll]

theorem deliverAll
    (unwatched : world.Unwatched number)
    (writes : List Write) :
    (World.deliverAll host writes world).2 = world := by
  induction writes with
  | nil =>
      rfl
  | cons write rest inductionHypothesis =>
      simp only [World.deliverAll, unwatched.deliver, inductionHypothesis]

theorem commit
    (unwatched : world.Unwatched number)
    (id : Nat) :
    Unwatched number { world with store := (world.store.commit id).2 } := by
  simp only [Unwatched, Store.commit] at unwatched ⊢
  split <;> exact unwatched

/-- A story that calls no function of the host never gets observers. -/
theorem steady
    {setup : Setup}
    (uncalled : ∀ binding, ¬ setup.Calls binding)
    (host : Host σ)
    (number : Nat) :
    World.Steady setup host (Unwatched number) where
  log _ unwatched := unwatched
  assign {world} name value unwatched := by
    simp only [World.assign]
    split
    · exact unwatched
    · next write _ =>
        have written : Unwatched number { world with store := world.store.apply write } :=
          unwatched
        split
        · exact written
        · rw [written.deliver]
          exact written
  call _ called _ := absurd called (uncalled _)
  beginSpeculation unwatched := unwatched
  rollback _ unwatched := unwatched
  commit id unwatched := by
    simp only [World.commit, (unwatched.commit id).deliverAll]
    exact unwatched.commit id

end World.Unwatched

end Fabula
