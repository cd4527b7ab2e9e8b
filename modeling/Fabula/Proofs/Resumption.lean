import Fabula.Proofs.Abreast
import Fabula.Proofs.Restoration

namespace Fabula

/-!
# Going on after a restart

A restored runner differs from the one that was saved in the number of its fallback,
and its store has no observers.  Nothing that a story does depends on either, so both
runners answer every sequence of calls alike and look alike after each of them.
-/

namespace Flow

variable {a b p q : Flow}

theorem core_unnumbered
    (flow : Flow) :
    flow.unnumbered.core = flow.core := by
  obtain ⟨_, _, _, _, _, _, _, _, fallback, _, _, _, _, _, _⟩ := flow
  cases fallback <;> rfl

theorem unnumbered_unnumbered
    (flow : Flow) :
    flow.unnumbered.unnumbered = flow.unnumbered := by
  obtain ⟨_, _, _, _, _, _, _, _, fallback, _, _, _, _, _, _⟩ := flow
  cases fallback <;> rfl

/-- What does not look at the number of the fallback is the same. -/
theorem reads_of_unnumbered
    {α : Type}
    (same : a.unnumbered = b.unnumbered)
    (read : Flow → α)
    (apart : ∀ flow : Flow, read flow.unnumbered = read flow) :
    read a = read b := by
  rw [← apart a, same, apart]

theorem core_eq_of_unnumbered
    (same : a.unnumbered = b.unnumbered) :
    a.core = b.core :=
  reads_of_unnumbered same core core_unnumbered

/-- Parallel flows that started with the same output and tags end with the same. -/
theorem Parallel.unnumbered
    (same : a.unnumbered = b.unnumbered)
    (parallel : Parallel a b p q) :
    p.unnumbered = q.unnumbered := by
  have outputs : a.output = b.output := reads_of_unnumbered same Flow.output fun _ => rfl
  have lines : a.tags.line = b.tags.line :=
    reads_of_unnumbered same (fun flow => flow.tags.line) fun _ => rfl
  obtain ⟨stroke, leftStroke, rightStroke, _⟩ := parallel.stroke
  obtain ⟨tagging, leftLine, rightLine⟩ := parallel.line
  have output : p.output = q.output := by
    rw [leftStroke, rightStroke, outputs]
  have line : p.tags.line = q.tags.line := by
    rw [leftLine, rightLine, lines]
  have restored (flow : Flow) :
      flow.unnumbered =
        { flow.core with
          output := flow.output
          tags := { flow.core.tags with line := flow.tags.line } } :=
    rfl
  rw [restored p, restored q, parallel.core, output, line]

end Flow

namespace World.Alike

variable {σ τ : Type} {view : Audience σ → τ} {quiet : CallbackId → Prop} {host : Host σ}
  {setup : Setup} {left right : World σ}

theorem beginSpeculation
    (alike : Alike view quiet left right) :
    left.beginSpeculation.1 = right.beginSpeculation.1 ∧
      Alike view quiet left.beginSpeculation.2 right.beginSpeculation.2 := by
  refine ⟨congrArg List.length alike.journals, ?_, alike.audience, alike.leftObserved,
    alike.rightObserved⟩
  exact congrArg (fun store => store.beginSpeculation.2) alike.store

theorem rollback
    (alike : Alike view quiet left right)
    (id : Nat) :
    Alike view quiet (left.rollback id) (right.rollback id) :=
  ⟨congrArg (fun store => store.rollback id) alike.store, alike.audience, alike.leftObserved,
    alike.rightObserved⟩

end World.Alike

namespace Play

variable {σ τ : Type} {view : Audience σ → τ} {quiet : CallbackId → Prop} {host : Host σ}
  {setup : Setup} {left right : Play σ}

/-- Plays that differ in the numbers of their fallbacks, their reports and observers only. -/
structure Twins
    (view : Audience σ → τ)
    (quiet : CallbackId → Prop)
    (left right : Play σ) :
    Prop where
  flow : left.flow.unnumbered = right.flow.unnumbered
  world : World.Alike view quiet left.world right.world
  failure : left.failure = right.failure

/-- Checkpoints that bring plays back to twins. -/
structure Checkpoint.Twins (left right : Checkpoint) : Prop where
  flow : left.flow.unnumbered = right.flow.unnumbered
  outputSize : left.outputSize = right.outputSize
  speculation : left.speculation = right.speculation

/-- A checkpoint on both sides or on neither. -/
inductive Checkpoint.Both : Option Checkpoint → Option Checkpoint → Prop where
  | none :
      Checkpoint.Both none none
  | some
      {left right : Checkpoint}
      (twins : Checkpoint.Twins left right) :
      Checkpoint.Both (some left) (some right)

/-- Moves of plays that differ as twins do. -/
inductive Progress.Twins
    (view : Audience σ → τ)
    (quiet : CallbackId → Prop) :
    Progress σ → Progress σ → Prop where
  | going
      {leftSaved rightSaved : Option Checkpoint}
      {left right : Play σ}
      (saved : Checkpoint.Both leftSaved rightSaved)
      (twins : Play.Twins view quiet left right) :
      Progress.Twins view quiet (.going leftSaved left) (.going rightSaved right)
  | stopped
      (result : Except Error Unit)
      {left right : Play σ}
      (twins : Play.Twins view quiet left right) :
      Progress.Twins view quiet (.stopped result left) (.stopped result right)

namespace Twins

theorem ip
    (twins : Twins view quiet left right) :
    left.flow.ip = right.flow.ip :=
  Flow.reads_of_unnumbered twins.flow Flow.ip fun _ => rfl

theorem output
    (twins : Twins view quiet left right) :
    left.flow.output = right.flow.output :=
  Flow.reads_of_unnumbered twins.flow Flow.output fun _ => rfl

theorem emit
    (twins : Twins view quiet left right)
    (leftEvents rightEvents : List Event) :
    Twins view quiet (left.emit setup leftEvents) (right.emit setup rightEvents) :=
  ⟨twins.flow, twins.world.log _ _, twins.failure⟩

/-- A step has the same result on both sides, and twins it leaves. -/
theorem step
    (impartial : host.Impartial setup view quiet)
    (twins : Twins view quiet left right)
    (address : Nat) :
    (left.step setup host address).1 = (right.step setup host address).1 ∧
      Twins view quiet (left.step setup host address).2 (right.step setup host address).2 := by
  have abreast : Abreast view quiet left right :=
    ⟨Flow.core_eq_of_unnumbered twins.flow, twins.world⟩
  obtain ⟨same, world, flow⟩ := abreast.step impartial address
  refine ⟨same, flow.unnumbered twins.flow, world, ?_⟩
  rw [step_failure, step_failure, twins.failure]

theorem save
    (twins : Twins view quiet left right) :
    Checkpoint.Twins (left.save setup).1 (right.save setup).1 ∧
      Twins view quiet (left.save setup).2 (right.save setup).2 := by
  obtain ⟨number, world⟩ := (twins.world.log _ _).beginSpeculation
  have size : left.flow.output.size = right.flow.output.size := by
    rw [twins.output]
  exact ⟨⟨twins.flow, size, number⟩, twins.flow, world, twins.failure⟩

theorem rollback
    {leftSaved rightSaved : Checkpoint}
    (saved : Checkpoint.Twins leftSaved rightSaved)
    (twins : Twins view quiet left right) :
    Twins view quiet (left.rollback setup leftSaved) (right.rollback setup rightSaved) := by
  refine ⟨saved.flow, ?_, twins.failure⟩
  simp only [Play.rollback, saved.speculation]
  exact (twins.world.log _ _).rollback _

theorem commit
    (impartial : host.Impartial setup view quiet)
    {leftSaved rightSaved : Option Checkpoint}
    (saved : Checkpoint.Both leftSaved rightSaved)
    (twins : Twins view quiet left right) :
    Twins view quiet (left.commit host leftSaved) (right.commit host rightSaved) := by
  cases saved with
  | none =>
      exact twins
  | some saved =>
      refine ⟨twins.flow, ?_, twins.failure⟩
      simp only [Play.commit, saved.speculation]
      exact impartial.commit twins.world _

theorem abandon
    {leftSaved rightSaved : Option Checkpoint}
    (saved : Checkpoint.Both leftSaved rightSaved)
    (twins : Twins view quiet left right) :
    Twins view quiet (left.abandon setup leftSaved) (right.abandon setup rightSaved) := by
  cases saved with
  | none => exact twins
  | some saved => exact twins.rollback saved

theorem proceed
    (twins : Twins view quiet left right) :
    Progress.Twins view quiet (left.proceed setup) (right.proceed setup) := by
  simp only [Play.proceed, ← twins.output, ← twins.ip]
  split
  · split
    · exact .stopped _ twins
    · split
      · obtain ⟨saved, after⟩ := twins.save
        exact .going (.some saved) after
      · exact .going .none twins
  · exact .going .none twins

theorem settle
    (impartial : host.Impartial setup view quiet)
    {leftSaved rightSaved : Option Checkpoint}
    (saved : Checkpoint.Both leftSaved rightSaved)
    (twins : Twins view quiet left right) :
    Progress.Twins view quiet
      (left.settle setup host leftSaved) (right.settle setup host rightSaved) := by
  have committed := twins.commit impartial saved
  simp only [Play.settle, ← twins.output]
  split
  · exact .going saved twins
  · cases saved with
    | none =>
        exact twins.proceed
    | @some mine other saved =>
        simp only [← saved.outputSize]
        cases growth mine.outputSize left.flow.output with
        | textAdded => exact .stopped _ (twins.rollback saved)
        | newlineRemoved => exact committed.proceed
        | none => exact .going (.some saved) twins

theorem attempt
    (impartial : host.Impartial setup view quiet)
    {leftSaved rightSaved : Option Checkpoint}
    (saved : Checkpoint.Both leftSaved rightSaved)
    (twins : Twins view quiet left right)
    (address : Nat) :
    Progress.Twins view quiet
      (left.attempt setup host leftSaved address)
      (right.attempt setup host rightSaved address) := by
  obtain ⟨same, after⟩ := twins.step impartial address
  simp only [Play.attempt]
  generalize left.step setup host address = leftStep at same after
  generalize right.step setup host address = rightStep at same after
  obtain ⟨result, leftAfter⟩ := leftStep
  obtain ⟨_, rightAfter⟩ := rightStep
  cases same
  cases result with
  | ok _ =>
      exact after.settle impartial saved
  | error error =>
      cases saved with
      | none => exact .stopped _ after
      | some saved => exact .stopped _ ((after.emit _ _).rollback saved)

/-- The fallback is taken on both sides or on neither. -/
theorem takeFallback?
    (setup : Setup)
    (twins : Twins view quiet left right) :
    (left.takeFallback? setup = none ∧ right.takeFallback? setup = none) ∨
      ∃ leftNext rightNext,
        left.takeFallback? setup = some leftNext ∧
          right.takeFallback? setup = some rightNext ∧
          Twins view quiet leftNext rightNext := by
  have core := Flow.core_eq_of_unnumbered twins.flow
  have abreast : Abreast view quiet left right := ⟨core, twins.world⟩
  have offered := abreast.fallback
  simp only [Play.takeFallback?]
  cases leftTaken : left.flow.fallback? with
  | none =>
      rw [leftTaken, Option.map_none, eq_comm, Option.map_eq_none_iff] at offered
      exact .inl ⟨rfl, by simp [offered]⟩
  | some choice =>
      rw [leftTaken, Option.map_some, eq_comm, Option.map_eq_some_iff] at offered
      obtain ⟨other, rightTaken, numbered⟩ := offered
      have selected := Flow.select_parallel core setup.story numbered.symm
      refine .inr ⟨_, _, rfl, congrArg _ rightTaken, ?_⟩
      exact ⟨selected.unnumbered twins.flow, twins.world.log _ _, twins.failure⟩

theorem advance
    (impartial : host.Impartial setup view quiet)
    {leftSaved rightSaved : Option Checkpoint}
    (saved : Checkpoint.Both leftSaved rightSaved)
    (twins : Twins view quiet left right) :
    Progress.Twins view quiet
      (left.advance setup host leftSaved) (right.advance setup host rightSaved) := by
  simp only [Play.advance, ← twins.ip]
  cases left.flow.ip with
  | none =>
      rcases twins.takeFallback? setup with
        ⟨leftNone, rightNone⟩ | ⟨_, _, leftTaken, rightTaken, after⟩
      · simp only [leftNone, rightNone]
        exact .stopped _ (twins.commit impartial saved)
      · simp only [leftTaken, rightTaken]
        exact .going saved after
  | some address =>
      have attempted := twins.attempt impartial saved address
      cases saved with
      | none =>
          exact attempted
      | some saved =>
          simp only
          split
          · exact .stopped _ ((twins.emit _ _).rollback saved)
          · exact attempted

/-- The search for the end of a line ends alike. -/
theorem advanceLine
    (impartial : host.Impartial setup view quiet)
    (fuel : Nat)
    {leftSaved rightSaved : Option Checkpoint}
    (saved : Checkpoint.Both leftSaved rightSaved)
    (twins : Twins view quiet left right) :
    (Play.advanceLine setup host fuel leftSaved left).1 =
        (Play.advanceLine setup host fuel rightSaved right).1 ∧
      Twins view quiet
        (Play.advanceLine setup host fuel leftSaved left).2
        (Play.advanceLine setup host fuel rightSaved right).2 := by
  induction fuel generalizing leftSaved rightSaved left right with
  | zero =>
      exact ⟨rfl, twins.abandon saved⟩
  | succ fuel inductionHypothesis =>
      have moved := twins.advance impartial saved
      simp only [Play.advanceLine]
      generalize left.advance setup host leftSaved = leftMoved at moved
      generalize right.advance setup host rightSaved = rightMoved at moved
      cases moved with
      | going saved after => exact inductionHypothesis saved after
      | stopped result after => exact ⟨rfl, after⟩

theorem getline
    (impartial : host.Impartial setup view quiet)
    (fuel : Nat)
    (twins : Twins view quiet left right) :
    (left.getline setup host fuel).1 = (right.getline setup host fuel).1 ∧
      Twins view quiet
        (left.getline setup host fuel).2 (right.getline setup host fuel).2 := by
  have cleared : Twins view quiet left.clearLine right.clearLine :=
    ⟨congrArg (fun flow : Flow => { flow with tags := flow.tags.clearLine }) twins.flow,
      twins.world, twins.failure⟩
  obtain ⟨same, after⟩ := cleared.advanceLine impartial fuel .none
  simp only [Play.getline, Runner.ensureUsable, ← twins.failure, ← twins.ip]
  cases left.failure with
  | some error =>
      exact ⟨rfl, twins⟩
  | none =>
      simp only
      split
      · exact ⟨rfl, twins⟩
      · generalize Play.advanceLine setup host fuel none left.clearLine = leftRead at same after
        generalize Play.advanceLine setup host fuel none right.clearLine = rightRead at same after
        obtain ⟨result, leftAfter⟩ := leftRead
        obtain ⟨_, rightAfter⟩ := rightRead
        cases same
        cases result with
        | error error =>
            exact ⟨rfl, after.flow, after.world.log _ _, rfl⟩
        | ok _ =>
            have line : leftAfter.flow.output.line = rightAfter.flow.output.line := by
              rw [after.output]
            refine ⟨congrArg Except.ok line, ?_, after.world.log _ _, after.failure⟩
            exact congrArg (fun flow : Flow => { flow with output := .empty }) after.flow

theorem canContinue
    (twins : Twins view quiet left right) :
    left.canContinue = right.canContinue := by
  simp only [Runner.canContinue, twins.failure, twins.ip]

theorem getLines
    (impartial : host.Impartial setup view quiet)
    (fuel lines : Nat)
    (text : String)
    (twins : Twins view quiet left right) :
    (Play.getLines setup host fuel lines text left).1 =
        (Play.getLines setup host fuel lines text right).1 ∧
      Twins view quiet
        (Play.getLines setup host fuel lines text left).2
        (Play.getLines setup host fuel lines text right).2 := by
  induction lines generalizing text left right with
  | zero =>
      exact ⟨rfl, twins⟩
  | succ lines inductionHypothesis =>
      obtain ⟨same, after⟩ := twins.getline impartial fuel
      simp only [Play.getLines, ← twins.canContinue]
      split
      · generalize left.getline setup host fuel = leftRead at same after
        generalize right.getline setup host fuel = rightRead at same after
        obtain ⟨result, leftAfter⟩ := leftRead
        obtain ⟨_, rightAfter⟩ := rightRead
        cases same
        cases result with
        | error error => exact ⟨rfl, after⟩
        | ok line => exact inductionHypothesis (text ++ line) after
      · exact ⟨rfl, twins⟩

theorem hasChoices
    (twins : Twins view quiet left right) :
    left.hasChoices = right.hasChoices := by
  have offered : left.flow.choices = right.flow.choices :=
    Flow.reads_of_unnumbered twins.flow Flow.choices fun _ => rfl
  simp only [Runner.hasChoices, twins.failure, twins.ip, offered]

theorem choices
    (twins : Twins view quiet left right) :
    left.choices = right.choices := by
  have offered : left.flow.choices = right.flow.choices :=
    Flow.reads_of_unnumbered twins.flow Flow.choices fun _ => rfl
  simp only [Runner.choices, twins.hasChoices, offered]

theorem choose
    (setup : Setup)
    (twins : Twins view quiet left right)
    (index : Nat) :
    (left.choose setup index).1 = (right.choose setup index).1 ∧
      Twins view quiet (left.choose setup index).2 (right.choose setup index).2 := by
  simp only [Play.choose, Runner.ensureUsable, ← twins.failure, ← twins.choices]
  cases left.failure with
  | some error =>
      exact ⟨rfl, twins⟩
  | none =>
      simp only
      cases left.choices[index]? with
      | none =>
          exact ⟨rfl, twins⟩
      | some choice =>
          have core := Flow.core_eq_of_unnumbered twins.flow
          have same : choice.unnumbered = choice.unnumbered := rfl
          have selected := Flow.select_parallel core setup.story same
          exact ⟨rfl, selected.unnumbered twins.flow, twins.world.log _ _, twins.failure⟩

theorem moveTo
    (setup : Setup)
    (twins : Twins view quiet left right)
    (path : String) :
    (left.moveTo setup path).1 = (right.moveTo setup path).1 ∧
      Twins view quiet (left.moveTo setup path).2 (right.moveTo setup path).2 := by
  simp only [Play.moveTo, Runner.ensureUsable, ← twins.failure]
  cases left.failure with
  | some error =>
      exact ⟨rfl, twins⟩
  | none =>
      simp only
      cases setup.story.containerAt? path with
      | none =>
          exact ⟨rfl, twins⟩
      | some container =>
          have moved := congrArg (fun flow : Flow => flow.moveTo setup.story container) twins.flow
          exact ⟨rfl, moved, twins.world.log _ _, rfl⟩

end Twins

/-! ## Transcripts -/

/-- What can be asked of a play. -/
inductive Call where
  | getline (fuel : Nat)
  | getall (fuel : Nat)
  | choose (index : Nat)
  | moveTo (path : String)
  deriving Repr, DecidableEq

/-- Do what is asked.  Making a choice and moving give no text. -/
def perform (setup : Setup) (host : Host σ) (play : Play σ) :
    Call → Except Error String × Play σ
  | .getline fuel => play.getline setup host fuel
  | .getall fuel => play.getall setup host fuel
  | .choose index =>
      let made := play.choose setup index
      (made.1.map fun _ => "", made.2)
  | .moveTo path =>
      let moved := play.moveTo setup path
      (moved.1.map fun _ => "", moved.2)

/-- What a play shows. -/
structure Appearance where
  status : Status
  ended : Bool
  choices : List Choice
  tags : List (List String)
  knot : Option String
  turn : UInt32
  visits : List UInt32
  globals : List (String × Value)
  deriving Repr, DecidableEq

/-- What a play of a story shows. -/
def appearance (story : Story) (play : Play σ) : Appearance where
  status := play.status
  ended := play.flow.ended
  choices := play.choices
  tags := play.flow.tags.scopes
  knot := play.flow.currentKnot story
  turn := play.flow.turn
  visits := play.flow.visits
  globals := play.world.store.entries

/-- The results of calls made in turn, with what the play shows after each of them. -/
def transcript (setup : Setup) (host : Host σ) :
    List Call → Play σ → List (Except Error String × Appearance)
  | [], _ => []
  | call :: rest, play =>
      let after := play.perform setup host call
      (after.1, after.2.appearance setup.story) :: transcript setup host rest after.2

namespace Twins

theorem perform
    (impartial : host.Impartial setup view quiet)
    (twins : Twins view quiet left right)
    (call : Call) :
    (left.perform setup host call).1 = (right.perform setup host call).1 ∧
      Twins view quiet
        (left.perform setup host call).2 (right.perform setup host call).2 := by
  cases call with
  | getline fuel =>
      exact twins.getline impartial fuel
  | getall fuel =>
      exact twins.getLines impartial fuel fuel ""
  | choose index =>
      obtain ⟨same, after⟩ := twins.choose setup index
      exact ⟨congrArg (Except.map fun _ => "") same, after⟩
  | moveTo path =>
      obtain ⟨same, after⟩ := twins.moveTo setup path
      exact ⟨congrArg (Except.map fun _ => "") same, after⟩

theorem appearance
    (twins : Twins view quiet left right)
    (story : Story) :
    left.appearance story = right.appearance story := by
  have status : left.status = right.status := by
    simp only [Runner.status, twins.failure, twins.canContinue, twins.hasChoices]
  have globals : left.world.store.entries = right.world.store.entries := by
    simp only [Store.entries, twins.world.declarations, twins.world.values]
  have shown
      {α : Type}
      (read : Flow → α)
      (apart : ∀ flow : Flow, read flow.unnumbered = read flow) :
      read left.flow = read right.flow :=
    Flow.reads_of_unnumbered twins.flow read apart
  simp only [Play.appearance, status, twins.choices, globals,
    shown Flow.ended fun _ => rfl, shown (fun flow => flow.tags.scopes) fun _ => rfl,
    shown (Flow.currentKnot · story) fun _ => rfl, shown Flow.turn fun _ => rfl,
    shown Flow.visits fun _ => rfl]

/-- Twins answer every sequence of calls alike. -/
theorem transcript
    (impartial : host.Impartial setup view quiet)
    (twins : Twins view quiet left right)
    (calls : List Call) :
    left.transcript setup host calls = right.transcript setup host calls := by
  induction calls generalizing left right with
  | nil =>
      rfl
  | cons call rest inductionHypothesis =>
      obtain ⟨same, after⟩ := twins.perform impartial call
      simp only [Play.transcript, same, after.appearance setup.story,
        inductionHypothesis after]

end Twins

/-! ## Restored runners -/

/-- A restored runner over a restored store. -/
def resume (flow : Flow) (store : Store) (log : Array LogRecord) (host : σ) : Play σ :=
  ⟨.ofFlow flow, ⟨store, log, host⟩⟩

/-- A play in a world without speculations goes on as its restored copy does. -/
theorem resume_twins
    {story : Story}
    {play : Play σ}
    (native : play.Native story 0)
    (usable : play.failure = none)
    (observed : play.world.ObservedBy quiet)
    (log : Array LogRecord)
    {state : σ}
    (same : view ⟨[], 0, state⟩ = view play.world.audience) :
    Twins view quiet
      (resume play.flow.unnumbered
        (.ofValues story.declarations play.world.store.values) log state)
      play where
  flow := Flow.unnumbered_unnumbered play.flow
  world := by
    have journals : play.world.store.journals = [] :=
      List.length_eq_zero_iff.mp native.world.depth
    refine ⟨?_, same, by simp [World.ObservedBy, resume, Store.ofValues], observed⟩
    simp only [resume, Store.unobserved, Store.ofValues, native.world.store.declarations,
      journals]
  failure := usable.symm

/--
Saving and restoring a runner and its store is invisible: both are restored as they
were, apart from the number of the fallback and from observers, and the restored runner
answers every later sequence of calls as the other one does.
-/
theorem resume_transcript_eq
    {octets : List UInt8}
    {story : Story}
    (loaded : Story.ofOctets octets = .ok story)
    (distinct : story.declarations.lists.Distinct)
    (hostNative : host.Native story)
    {play : Play σ}
    (reached : Reachable story host play)
    (usable : play.failure = none)
    (refers : ∀ value ∈ play.flow.values ++ play.world.store.values, value.Refers story) :
    ∃ flow store,
      SavedFlow.restore story (.ofFlow play.flow) = .ok flow ∧
        flow = play.flow.unnumbered ∧
        Store.restore story play.world.store.saved = .ok store ∧
        store.entries = play.world.store.entries ∧
        ∀ bindings config (view : Audience σ → τ) quiet,
          host.Impartial ⟨story, bindings, config⟩ view quiet →
          play.world.ObservedBy quiet →
          ∀ log state,
            view ⟨[], 0, state⟩ = view play.world.audience →
            (resume flow store log state).appearance story = play.appearance story ∧
              ∀ calls,
                (resume flow store log state).transcript ⟨story, bindings, config⟩ host calls =
                  play.transcript ⟨story, bindings, config⟩ host calls := by
  have sound := Story.ofOctets_sound loaded
  have native := reached.native sound hostNative
  have flowRestored :=
    SavedFlow.restore_ofFlow distinct sound native.flow fun value held =>
      refers value (List.mem_append_left _ held)
  have storeRestored :=
    Store.restore_saved distinct sound native.world.store fun value held =>
      refers value (List.mem_append_right _ held)
  refine ⟨_, _, flowRestored, rfl, storeRestored, ?_, ?_⟩
  · simp only [Store.entries, Store.ofValues, native.world.store.declarations]
  · intro bindings config view quiet impartial observed log state same
    have twins := resume_twins native usable observed log same
    exact ⟨twins.appearance story, fun calls => twins.transcript impartial calls⟩

/-! ## A market -/

/-- A story that offers to leave a market, counts coins and shows an echo of the count. -/
def marketTables : Tables where
  strings := ["A market.", "mood", "mine", "Go", "coins", "echo", "moods", "calm", "wild"]
  lists := [⟨6, [(7, 1), (8, 2)]⟩]
  literals := [⟨[0], [⟨0, 0⟩]⟩]
  globals := [(1, .list 0), (4, .int 0), (5, .int 0)]
  containers := []
  instructions :=
    [⟨.startEval, 0, 0⟩, ⟨.valuePointer, 1, 1⟩, ⟨.defineTemp, 0, 2⟩, ⟨.startStr, 0, 0⟩,
      ⟨.str, 0, 3⟩, ⟨.endStr, 0, 0⟩, ⟨.endEval, 0, 0⟩,
      ⟨.choice, ChoiceFlag.choiceOnlyContent, 19⟩, ⟨.choice, ChoiceFlag.invisibleDefault, 22⟩,
      ⟨.str, 0, 0⟩, ⟨.newline, 0, 0⟩, ⟨.startEval, 0, 0⟩, ⟨.int, 0, 3⟩, ⟨.setVariable, 0, 4⟩,
      ⟨.pushVariable, 0, 5⟩, ⟨.output, 0, 0⟩, ⟨.endEval, 0, 0⟩, ⟨.newline, 0, 0⟩,
      ⟨.done, 0, 0⟩, ⟨.startEval, 0, 0⟩, ⟨.pushVariable, 0, 2⟩, ⟨.output, 0, 0⟩,
      ⟨.endEval, 0, 0⟩, ⟨.done, 0, 0⟩]

/-- The list of the market's moods. -/
def marketLists : Definitions :=
  ⟨#[⟨"moods", #[("calm", 1), ("wild", 2)]⟩]⟩

def marketStory : Story where
  instructions := marketTables.instructions.toArray
  strings := marketTables.strings.toArray
  literals := #[.ofParts marketLists [⟨0, 0⟩] [0]]
  containers := #[]
  declarations :=
    ⟨[⟨"mood", .list (.ofParts marketLists [⟨0, 0⟩] [0])⟩, ⟨"coins", .int 0⟩,
      ⟨"echo", .int 0⟩], marketLists⟩

/-- A host whose observers write: whatever they hear of, they raise the echo. -/
def marketHost : Host Unit where
  call _ _ world := (.ok .void, world)
  notify _ _ world :=
    match world.store.prepare "echo" (.int 7) with
    | .ok write => (.ok (), { world with store := world.store.apply write })
    | .error _ => (.ok (), world)

def marketSetup : Setup :=
  ⟨marketStory, .empty, .standard⟩

/-- The market after its first line, with observers of the store. -/
def market (observers : List Observer) : Play Unit :=
  (Play.getline marketSetup marketHost 40
    ⟨.start marketStory .standard,
      ⟨{ Store.start marketStory.declarations with observers := observers }, #[], ()⟩⟩).2

theorem marketStory_loaded :
    Story.ofOctets (StoryFormat.encode marketTables) = .ok marketStory := by
  have decoded :
      (StoryFormat.decode (StoryFormat.encode marketTables)).toOption = some marketTables := by
    decide +kernel
  have ascending :
      [("calm", (1 : Int32)), ("wild", 2)].Pairwise (fun a b => decide (a.2 ≤ b.2) = true) := by
    decide
  have defs :
      Loader.definitions marketTables.strings.toArray marketTables.lists = .ok marketLists := by
    have stored :
        Loader.definitions marketTables.strings.toArray marketTables.lists =
          .ok (.ofLists [⟨"moods", #[("calm", 1), ("wild", 2)]⟩]) := by
      rfl
    rw [stored]
    simp only [Definitions.ofLists, List.map_cons, List.map_nil, FlagList.sorted,
      List.mergeSort_of_pairwise ascending]
    rfl
  have built : Story.ofTables marketTables = .ok marketStory := by
    simp only [Story.ofTables, defs, bind, Except.bind]
    rfl
  cases read : StoryFormat.decode (StoryFormat.encode marketTables) with
  | error error =>
      simp [read, Except.toOption] at decoded
  | ok tables =>
      simp only [read, Except.toOption, Option.some.injEq] at decoded
      simp only [Story.ofOctets, read, decoded, built, bind, Except.bind]

theorem marketLists_distinct :
    marketStory.declarations.lists.Distinct where
  lists := by decide
  flags := by
    intro list member
    simp only [marketStory, marketLists, List.mem_toArray, List.mem_singleton] at member
    subst member
    decide

theorem marketHost_native :
    marketHost.Native marketStory where
  call _ _ _ _ _ native := ⟨.ok trivial, native⟩
  notify := by
    intro _ _ depth world _ native
    have sound := Story.ofOctets_sound marketStory_loaded
    have within : world.Within (.native sound) depth := World.within_native.mpr native
    have prepares :=
      within.store.prepare "echo" (show Value.Within (.native sound) (.int 7) from trivial)
    simp only [marketHost]
    cases prepared : world.store.prepare "echo" (.int 7) with
    | error error =>
        exact native
    | ok write =>
        exact World.within_native.mp
          ⟨within.store.apply (prepares write prepared),
            (Store.length_journal _ _).trans native.depth⟩

theorem market_reachable
    (observers : List Observer) :
    Reachable marketStory marketHost (market observers) := by
  have started := Store.start_native (Story.ofOctets_sound marketStory_loaded)
  refine .getline .empty .standard 40 (.start .standard ⟨?_, rfl⟩)
  exact ⟨started.declarations, started.length, started.values, started.journals⟩

/-- Without observers all that the market's host does is to answer calls alike. -/
theorem marketHost_impartial :
    marketHost.Impartial marketSetup (fun _ => ()) (fun _ => False) where
  silent := fun _ absent => absent.elim
  told _ _ _ _ := rfl
  call _ _ _ _ _ alike := ⟨rfl, alike⟩

/--
The fallback of the market is its second choice, a temporary refers to a variable and
a variable holds a flag; all are restored, and the market goes on alike.
-/
theorem resume_transcript_eq_market :
    (market []).flow.fallback.map Choice.index = some 1 ∧
      ∃ flow store,
        SavedFlow.restore marketStory (.ofFlow (market []).flow) = .ok flow ∧
          Store.restore marketStory (market []).world.store.saved = .ok store ∧
          (resume flow store #[] ()).transcript marketSetup marketHost
              [.getline 40, .choose 0, .getall 40] =
            (market []).transcript marketSetup marketHost
              [.getline 40, .choose 0, .getall 40] := by
  obtain ⟨flow, store, flowRestored, _, storeRestored, _, resumed⟩ :=
    resume_transcript_eq marketStory_loaded marketLists_distinct marketHost_native
      (market_reachable []) (by decide +kernel) (by decide +kernel)
  have unobserved : (market []).world.store.observers = [] := by decide +kernel
  have quiet : (market []).world.ObservedBy (fun _ => False) := by
    intro observer member
    rw [unobserved] at member
    cases member
  obtain ⟨_, alike⟩ :=
    resumed .empty .standard (fun _ => ()) (fun _ => False) marketHost_impartial quiet #[] () rfl
  exact ⟨by decide +kernel, flow, store, flowRestored, storeRestored, alike _⟩

/-- An observer of the coins that raises the echo. -/
def coinObserver : Observer :=
  ⟨0, 1, .changed, 0⟩

/--
With an observer that writes the market does not go on alike: the next line shows the
raised echo, but in the restored store nobody raises it.
-/
theorem resume_transcript_ne_market :
    Story.ofOctets (StoryFormat.encode marketTables) = .ok marketStory ∧
      marketStory.declarations.lists.Distinct ∧
      marketHost.Native marketStory ∧
      Reachable marketStory marketHost (market [coinObserver]) ∧
      (market [coinObserver]).failure = none ∧
      (∀ value ∈ (market [coinObserver]).flow.values ++ (market [coinObserver]).world.store.values,
        value.Refers marketStory) ∧
      ∃ flow store,
        SavedFlow.restore marketStory (.ofFlow (market [coinObserver]).flow) = .ok flow ∧
          Store.restore marketStory (market [coinObserver]).world.store.saved = .ok store ∧
          (resume flow store #[] ()).transcript marketSetup marketHost [.getline 40] ≠
            (market [coinObserver]).transcript marketSetup marketHost [.getline 40] := by
  have sound := Story.ofOctets_sound marketStory_loaded
  have reached := market_reachable [coinObserver]
  have native := reached.native sound marketHost_native
  have refers :
      ∀ value ∈ (market [coinObserver]).flow.values ++ (market [coinObserver]).world.store.values,
        value.Refers marketStory := by
    decide +kernel
  refine ⟨marketStory_loaded, marketLists_distinct, marketHost_native, reached,
    by decide +kernel, refers, _, _,
    SavedFlow.restore_ofFlow marketLists_distinct sound native.flow fun value held =>
      refers value (List.mem_append_left _ held),
    Store.restore_saved marketLists_distinct sound native.world.store fun value held =>
      refers value (List.mem_append_right _ held), ?_⟩
  intro same
  have lines := congrArg (List.map fun entry => entry.1.toOption) same
  revert lines
  decide +kernel

end Play

end Fabula
