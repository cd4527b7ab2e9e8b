import Fabula.Proofs.Courses
import Fabula.Proofs.Lines
import Fabula.Proofs.Resumption
import Fabula.Proofs.Safety
import Fabula.Proofs.Telling

namespace Fabula

/-!
# Runners at rest

What a runner is after a call, whichever way the call went.  A line may end because the
flow has stopped, because a line end was reached without lookahead, or because what was on
trial is taken back for one of three reasons; in each case the checkpoint is gone, the
store speculates as deeply as before, and what waits, what is offered and whether the story
is over fit together.
-/

/-! ## Flows that fit together -/

/-- What holds of the flow of a runner at all times. -/
structure Flow.Coherent (flow : Flow) : Prop where
  alone : flow.ip = none → flow.threads = []
  atEnd :
    flow.ended = true →
    flow.ip = none ∧ flow.choices = [] ∧ flow.fallback = none ∧ flow.callStack = .start
  numbered :
    ∀ index (choice : Choice), flow.choices[index]? = some choice → choice.index = index
  /-- Every call stack stands on the frame of the story itself. -/
  grounded : ∀ stack ∈ flow.callStacks, stack.ground = Frame.root

/-- What holds of the flow of a runner between calls. -/
structure Flow.Settled (flow : Flow) : Prop where
  coherent : flow.Coherent
  output : flow.output = .empty
  nothing : flow.ip = none → flow.fallback? = none

/-- A flow that waits for a call of its runner. -/
structure Flow.Rests (flow : Flow) : Prop where
  output : flow.output = .empty
  alone : flow.ip = none → flow.threads = []
  atEnd :
    flow.ended = true →
    flow.ip = none ∧ flow.choices = [] ∧ flow.fallback = none ∧ flow.callStack = .start
  nothing : flow.ip = none → flow.ended = false → flow.choices = [] → flow.fallback = none
  numbered :
    ∀ index (choice : Choice), flow.choices[index]? = some choice → choice.index = index

namespace Flow

namespace Coherent

variable {story : Story} {flow before after : Flow}

theorem start
    (story : Story)
    (seed : UInt64) :
    (Flow.start story seed).Coherent where
  alone _ := rfl
  atEnd ended := nomatch ended
  numbered index choice found := by
    simp [Flow.start] at found
  grounded stack among := by
    rw [mem_callStacks] at among
    simp only [Flow.start, offers, Option.toList_none, List.append_nil, List.not_mem_nil,
      false_and, exists_false, or_false] at among
    rw [among]
    rfl

/-- A flow that goes on has not ended. -/
theorem continues
    (coherent : flow.Coherent)
    (going : flow.ip.isSome = true) :
    flow.ended = false := by
  cases ended : flow.ended with
  | false =>
      rfl
  | true =>
      simp [(coherent.atEnd ended).1] at going

theorem callStack
    (coherent : flow.Coherent) :
    flow.callStack.ground = Frame.root :=
  coherent.grounded _ (mem_callStacks.mpr (.inl rfl))

theorem waiting
    (coherent : flow.Coherent)
    {suspended : SuspendedFlow}
    (waits : suspended ∈ flow.threads) :
    suspended.callStack.ground = Frame.root :=
  coherent.grounded _ (mem_callStacks.mpr (.inr (.inl ⟨suspended, waits, rfl⟩)))

theorem offered
    (coherent : flow.Coherent)
    {choice : Choice}
    (offered : choice ∈ flow.offers) :
    choice.callStack.ground = Frame.root :=
  coherent.grounded _ (mem_callStacks.mpr (.inr (.inr ⟨choice, offered, rfl⟩)))

/-- A flow is grounded if its calls, what waits and what is offered are. -/
theorem grounded_of
    (callStack : flow.callStack.ground = Frame.root)
    (waiting : ∀ suspended ∈ flow.threads, suspended.callStack.ground = Frame.root)
    (offered : ∀ choice ∈ flow.offers, choice.callStack.ground = Frame.root) :
    ∀ stack ∈ flow.callStacks, stack.ground = Frame.root := by
  intro stack among
  rcases mem_callStacks.mp among with rfl | ⟨suspended, waits, rfl⟩ | ⟨choice, offers, rfl⟩
  · exact callStack
  · exact waiting suspended waits
  · exact offered choice offers

/-- Whatever course a step takes, it keeps a flow coherent. -/
theorem course
    (coherent : before.Coherent)
    (here : before.ip.isSome = true)
    {address : Nat}
    (course : Course story address before after) :
    after.Coherent := by
  have lasting := coherent.continues here
  have onward {flow : Flow}
      (going : flow.ip.isSome = true)
      (ended : flow.ended = before.ended) :
      (flow.ip = none → flow.threads = []) ∧
        (flow.ended = true →
          flow.ip = none ∧ flow.choices = [] ∧ flow.fallback = none ∧
            flow.callStack = .start) := by
    refine ⟨fun stopped => ?_, fun finished => ?_⟩
    · simp [stopped] at going
    · simp [ended, lasting] at finished
  cases course with
  | onward going ground threads offers =>
      obtain ⟨alone, atEnd⟩ := onward going offers.ended
      refine ⟨alone, atEnd, offers.choices ▸ coherent.numbered, grounded_of ?_ ?_ ?_⟩
      · exact ground.trans coherent.callStack
      · exact threads ▸ fun _ => coherent.waiting
      · exact offers.offers ▸ fun _ => coherent.offered
  | @offered choice _ going callStack threads gathers carries ended =>
      obtain ⟨alone, atEnd⟩ := onward going ended
      refine ⟨alone, atEnd, ?_, grounded_of ?_ ?_ ?_⟩
      · cases gathers with
        | fallback choices _ =>
            exact choices ▸ coherent.numbered
        | choice number choices _ =>
            intro index found held
            rw [choices, List.getElem?_append] at held
            split at held
            · exact coherent.numbered index found held
            · obtain ⟨rfl, rfl⟩ : index = before.choices.length ∧ found = choice := by
                obtain ⟨bound, same⟩ := List.getElem?_eq_some_iff.mp held
                simp only [List.length_singleton] at bound
                exact ⟨by omega, by simpa using same.symm⟩
              exact number
      · exact callStack ▸ coherent.callStack
      · exact threads ▸ fun _ => coherent.waiting
      · intro other among
        rcases gathers.offers among with older | rfl
        · exact coherent.offered older
        · exact carries ▸ coherent.callStack
  | forked _ going callStack threads offers =>
      obtain ⟨alone, atEnd⟩ := onward going offers.ended
      refine ⟨alone, atEnd, offers.choices ▸ coherent.numbered, grounded_of ?_ ?_ ?_⟩
      · exact callStack ▸ coherent.callStack
      · rw [threads]
        intro suspended among
        rcases List.mem_cons.mp among with rfl | older
        · exact coherent.callStack
        · exact coherent.waiting older
      · exact offers.offers ▸ fun _ => coherent.offered
  | @resumed parent _ waiting ip _ callStack offers =>
      have going : after.ip.isSome = true := by
        rw [ip]
        rfl
      obtain ⟨alone, atEnd⟩ := onward going offers.ended
      refine ⟨alone, atEnd, offers.choices ▸ coherent.numbered, grounded_of ?_ ?_ ?_⟩
      · exact callStack ▸ coherent.waiting (waiting ▸ List.mem_cons_self)
      · intro suspended among
        exact coherent.waiting (waiting ▸ List.mem_cons_of_mem _ among)
      · exact offers.offers ▸ fun _ => coherent.offered
  | stopped _ _ threads ip callStack offers =>
      refine
        ⟨fun _ => threads, fun finished => ?_, offers.choices ▸ coherent.numbered,
          grounded_of ?_ ?_ ?_⟩
      · simp [offers.ended, lasting] at finished
      · exact callStack ▸ coherent.callStack
      · simp [threads]
      · exact offers.offers ▸ fun _ => coherent.offered
  | finished _ ip callStack threads choices fallback _ =>
      have cleared : before.callStack.clear = .start :=
        CallStack.clear_eq_start coherent.callStack
      refine
        ⟨fun _ => threads, fun _ => ⟨ip, choices, fallback, callStack.trans cleared⟩, ?_,
          grounded_of ?_ ?_ ?_⟩
      · simp [choices]
      · rw [callStack]
        exact coherent.callStack
      · simp [threads]
      · simp [Flow.offers, choices, fallback]

/-- Going on with a choice that is offered. -/
theorem select
    (coherent : flow.Coherent)
    (lasting : flow.ended = false)
    (story : Story)
    {choice : Choice}
    (offered : choice ∈ flow.offers) :
    (flow.select story choice).Coherent where
  alone stopped := nomatch stopped
  atEnd ended := by
    simp [Flow.select, Flow.jump, lasting] at ended
  numbered index choice found := by
    simp [Flow.select, Flow.jump] at found
  grounded := grounded_of (coherent.offered offered) (by simp [Flow.select, Flow.jump])
    (by simp [Flow.select, Flow.jump, Flow.offers])

theorem moveTo
    (coherent : flow.Coherent)
    (story : Story)
    (container : Container) :
    (flow.moveTo story container).Coherent where
  alone stopped := nomatch stopped
  atEnd ended := nomatch ended
  numbered index choice found := by
    simp [Flow.moveTo, Flow.jump] at found
  grounded := grounded_of coherent.callStack (by simp [Flow.moveTo, Flow.jump])
    (by simp [Flow.moveTo, Flow.jump, Flow.offers])

/-- Neither output nor tags matter. -/
theorem retagged
    (coherent : flow.Coherent)
    (output : Output)
    (tags : Tags) :
    { flow with output := output, tags := tags }.Coherent :=
  ⟨coherent.alone, coherent.atEnd, coherent.numbered, coherent.grounded⟩

end Coherent

theorem Settled.rests
    {flow : Flow}
    (settled : flow.Settled) :
    flow.Rests where
  output := settled.output
  alone := settled.coherent.alone
  atEnd := settled.coherent.atEnd
  nothing stopped lasting none := by
    have nothing := settled.nothing stopped
    simpa [fallback?, lasting, none] using nothing
  numbered := settled.coherent.numbered

end Flow

/-! ## How deeply a store speculates -/

/-- The number of open speculations. -/
def World.depth {σ : Type} (world : World σ) : Nat :=
  world.store.journals.length

/-- A host whose functions close the speculations that they open. -/
structure Host.Balanced {σ : Type} (host : Host σ) : Prop where
  call :
    ∀ callback arguments (world : World σ),
      (host.call callback arguments world).2.depth = world.depth
  notify :
    ∀ callback notice (world : World σ),
      (host.notify callback notice world).2.depth = world.depth

namespace Host.Balanced

variable {σ : Type} {host : Host σ}

theorem deliver
    (balanced : host.Balanced)
    (write : Write)
    (world : World σ) :
    (world.deliver host write).2.depth = world.depth := by
  refine World.tellAll_keeps (motive := fun after => after.depth = world.depth)
    (fun observer _ after same => ?_) (fun _ _ same => same) rfl
  simp only [World.tell]
  split
  · exact (balanced.notify _ _ _).trans same
  · exact same

theorem deliverAll
    (balanced : host.Balanced)
    (writes : List Write)
    (world : World σ) :
    (World.deliverAll host writes world).2.depth = world.depth :=
  World.deliverAll_keeps (motive := fun after => after.depth = world.depth)
    (fun write _ after same => (balanced.deliver write after).trans same) rfl

theorem assign
    (balanced : host.Balanced)
    (name : String)
    (value : Value)
    (world : World σ) :
    (world.assign host name value).2.depth = world.depth := by
  refine World.assign_keeps (motive := fun after => after.depth = world.depth)
    (fun write _ => ?_) rfl
  have written : World.depth { world with store := world.store.apply write } = world.depth :=
    Store.length_journal _ _
  exact ⟨written, (balanced.deliver write _).trans written⟩

/-- Keeping a speculation leaves those around it. -/
theorem commit
    (balanced : host.Balanced)
    {world : World σ}
    {id : Nat}
    (inside : id ≤ world.depth) :
    (world.commit host id).2.depth = id :=
  (balanced.deliverAll _ _).trans (Store.length_journals_commit inside)

end Host.Balanced

namespace Play

variable {σ : Type} {story : Story} {setup : Setup} {host : Host σ} {depth : Nat}
  {checkpoint : Option Checkpoint} {play : Play σ}

/-- A step opens and closes no speculation. -/
theorem step_depth
    (balanced : host.Balanced)
    (setup : Setup)
    (address : Nat)
    (play : Play σ) :
    (play.step setup host address).2.world.depth = play.world.depth := by
  rw [step_eq]
  split
  · rfl
  · next change made =>
      cases change.request with
      | none =>
          rfl
      | some request =>
          cases request with
          | write name value =>
              simp only [answer, assign_world]
              exact balanced.assign name value _
          | call name binding arguments =>
              simp only [answer, callHost]
              split
              · split <;> exact balanced.call _ _ _
              · exact balanced.call _ _ _

/-! ## One move -/

/-- A step draws one stroke, and one that ends a line leads to an address. -/
theorem step_stroke
    {address : Nat}
    {after : Play σ}
    (stepped : play.step setup host address = (.ok (), after)) :
    ∃ stroke : Stroke,
      after.flow.output = stroke.apply play.flow.output ∧
        (stroke = .newline → after.flow.ip.isSome = true) := by
  have alike := Flow.next_parallel (rfl : play.flow.core = play.flow.core) setup
    play.world.store address
  cases made : play.flow.next setup play.world.store address with
  | error error =>
      simp [step_eq, made] at stepped
  | ok change =>
      obtain ⟨eval, flow⟩ := step_flow host made
      rw [stepped] at flow
      rw [made] at alike
      cases alike with
      | ok related =>
          obtain ⟨stroke, drawn, _, continues⟩ := related.2.stroke
          rw [flow]
          exact ⟨stroke, drawn, continues⟩

/--
What holds of a runner that looks for the end of a line in a store that speculated as
deeply as given before.
-/
structure Seeks
    (setup : Setup)
    (depth : Nat)
    (checkpoint : Option Checkpoint)
    (play : Play σ) :
    Prop where
  coherent : play.flow.Coherent
  settled : checkpoint = none → play.world.depth = depth
  onTrial :
    ∀ saved,
      checkpoint = some saved →
      saved.flow.Coherent ∧ saved.flow.ip.isSome = true ∧ saved.speculation = depth ∧
        play.world.depth = depth + 1
  /-- Without lookahead nothing is on trial, and no line has ended. -/
  plain :
    setup.config.lookahead = false →
    checkpoint = none ∧ .newline ∉ play.flow.output.outer

/-- What holds of a runner that has found the end of a line. -/
structure Finds
    (depth : Nat)
    (play : Play σ) :
    Prop where
  coherent : play.flow.Coherent
  nothing : play.flow.ip = none → play.flow.fallback? = none
  depth : play.world.depth = depth

/-- A runner looks on, has found the end of the line, or has failed outside of any trial. -/
def Progress.Sought (setup : Setup) (depth : Nat) : Progress σ → Prop
  | .going checkpoint play => Seeks setup depth checkpoint play
  | .stopped (.ok ()) play => Finds depth play
  | .stopped (.error _) play => play.world.depth = depth

namespace Seeks

theorem rollback
    (seeks : Seeks setup depth (some saved) play)
    (other : Play σ)
    (same : other.world.depth = play.world.depth) :
    Finds depth (other.rollback setup saved) := by
  obtain ⟨coherent, continues, speculation, deeper⟩ := seeks.onTrial saved rfl
  refine ⟨coherent, fun stopped => ?_, ?_⟩
  · simp only [Play.rollback] at stopped
    simp [stopped] at continues
  · refine (Store.length_journalsAround ?_).trans speculation
    have deep : other.world.depth = depth + 1 := same.trans deeper
    simp only [World.depth] at deep
    simp only [emit, deep, speculation]
    omega

/-- What was on trial is kept, and the store speculates as before. -/
theorem commit_depth
    (balanced : host.Balanced)
    (seeks : Seeks setup depth checkpoint play) :
    (play.commit host checkpoint).world.depth = depth := by
  cases checkpoint with
  | none =>
      exact seeks.settled rfl
  | some saved =>
      obtain ⟨_, _, speculation, deeper⟩ := seeks.onTrial saved rfl
      refine (balanced.commit ?_).trans speculation
      omega

theorem commit_flow
    (host : Host σ)
    (checkpoint : Option Checkpoint)
    (play : Play σ) :
    (play.commit host checkpoint).flow = play.flow := by
  cases checkpoint <;> rfl

/--
After a step outside unfinished texts the line goes on or has ended.  Without lookahead it
ends at a line end only, and a line end leads to an address.
-/
theorem proceed
    (coherent : play.flow.Coherent)
    (settled : play.world.depth = depth)
    (plain :
      setup.config.lookahead = false →
      .newline ∉ play.flow.output.pieces ∨
        (play.flow.ip.isSome = true ∧ play.flow.output.endsWithNewline = true)) :
    (play.proceed setup).Sought setup depth := by
  have proceeding := proceed_proceeding setup play
  generalize play.proceed setup = progress at proceeding
  cases proceeding with
  | onward unended =>
      refine ⟨coherent, fun _ => settled, by simp, fun off => ⟨rfl, ?_⟩⟩
      rcases plain off with absent | ⟨continues, ended⟩
      · exact fun inside => absent ((List.takeWhile_prefix _).mem inside)
      · rcases unended with unended | stopped
        · simp [unended] at ended
        · simp [stopped] at continues
  | cut ended off =>
      refine ⟨coherent, fun stopped => ?_, settled⟩
      rcases plain off with absent | ⟨continues, _⟩
      · rw [Output.endsWithNewline, beq_iff_eq] at ended
        exact absurd (List.mem_of_getLast? ended) absent
      · simp [stopped] at continues
  | onTrial _ lookahead continues =>
      refine ⟨coherent, by simp, ?_, fun off => ?_⟩
      · rintro _ ⟨⟩
        refine ⟨coherent, continues, settled, ?_⟩
        exact congrArg (· + 1) settled
      · simp [lookahead] at off

theorem step
    (balanced : host.Balanced)
    (seeks : Seeks setup depth checkpoint play)
    {address : Nat}
    {result : Except Error Unit}
    {after : Play σ}
    (here : play.flow.ip = some address)
    (stepped : play.step setup host address = (result, after)) :
    after.flow.Coherent ∧ after.world.depth = play.world.depth := by
  have depth := step_depth balanced setup address play
  rw [stepped] at depth
  exact ⟨seeks.coherent.course (by simp [here]) (step_turn stepped).course, depth⟩

/-- Without lookahead a step adds no line end but the one that ends the line. -/
theorem step_plain
    (seeks : Seeks setup depth checkpoint play)
    {address : Nat}
    {after : Play σ}
    (stepped : play.step setup host address = (.ok (), after))
    (noMarker : after.flow.output.hasMarker = false)
    (off : setup.config.lookahead = false) :
    .newline ∉ after.flow.output.pieces ∨
      (after.flow.ip.isSome = true ∧ after.flow.output.endsWithNewline = true) := by
  obtain ⟨stroke, drawn, continues⟩ := step_stroke stepped
  rw [drawn] at noMarker ⊢
  rcases unended_or_endsLine stroke (seeks.plain off).2 noMarker with absent | ⟨newline, ends⟩
  · exact .inl absent
  · exact .inr ⟨continues newline, by simp [Output.endsWithNewline, ends.shape]⟩

/-- One move keeps what holds of a runner that looks for the end of a line. -/
theorem advance
    (balanced : host.Balanced)
    (seeks : Seeks setup depth checkpoint play) :
    (play.advance setup host checkpoint).Sought setup depth := by
  have move := advance_move setup host checkpoint play
  generalize play.advance setup host checkpoint = progress at move
  cases move with
  | fallback _ taken =>
      simp only [takeFallback?, Option.map_eq_some_iff] at taken
      obtain ⟨choice, offered, rfl⟩ := taken
      obtain ⟨lasting, among⟩ := Flow.fallback?_eq_some offered
      exact ⟨seeks.coherent.select lasting setup.story among, seeks.settled, seeks.onTrial,
        seeks.plain⟩
  | finished stopped nothing =>
      simp only [takeFallback?, Option.map_eq_none_iff] at nothing
      exact ⟨commit_flow host checkpoint play ▸ seeks.coherent,
        fun _ => commit_flow host checkpoint play ▸ nothing, seeks.commit_depth balanced⟩
  | refused =>
      exact seeks.rollback _ rfl
  | failed here stepped =>
      exact (seeks.step balanced here stepped).2.trans (seeks.settled rfl)
  | abandoned here _ stepped | completed here _ stepped =>
      exact seeks.rollback _ (seeks.step balanced here stepped).2
  | marked here _ stepped marker =>
      obtain ⟨coherent, same⟩ := seeks.step balanced here stepped
      obtain ⟨stroke, drawn, _⟩ := step_stroke stepped
      rw [drawn] at marker
      refine ⟨coherent, same ▸ seeks.settled, same ▸ seeks.onTrial, fun off => ?_⟩
      rw [drawn, stroke.outer_apply_of_hasMarker marker]
      exact seeks.plain off
  | plain here stepped noMarker =>
      obtain ⟨coherent, same⟩ := seeks.step balanced here stepped
      exact proceed coherent (same.trans (seeks.settled rfl)) (seeks.step_plain stepped noMarker)
  | undecided here _ stepped =>
      obtain ⟨coherent, same⟩ := seeks.step balanced here stepped
      exact ⟨coherent, same ▸ seeks.settled, same ▸ seeks.onTrial,
        fun off => absurd (seeks.plain off).1 (Option.some_ne_none _)⟩
  | joined here _ stepped =>
      obtain ⟨coherent, same⟩ := seeks.step balanced here stepped
      have joining : Seeks setup depth (some _) _ :=
        ⟨coherent, same ▸ seeks.settled, same ▸ seeks.onTrial,
          fun off => absurd (seeks.plain off).1 (Option.some_ne_none _)⟩
      exact proceed coherent (joining.commit_depth balanced)
        fun off => absurd (seeks.plain off).1 (Option.some_ne_none _)

/-- The end of a line is found, or the runner fails with its speculation closed. -/
theorem advanceLine
    (balanced : host.Balanced)
    (fuel : Nat)
    (seeks : Seeks setup depth checkpoint play) :
    match Play.advanceLine setup host fuel checkpoint play with
    | (.ok (), after) => Finds depth after
    | (.error _, after) => after.world.depth = depth := by
  induction fuel generalizing checkpoint play with
  | zero =>
      simp only [Play.advanceLine, abandon]
      cases checkpoint with
      | none =>
          exact seeks.settled rfl
      | some saved =>
          exact (seeks.rollback play rfl).depth
  | succ fuel inductionHypothesis =>
      have advanced := seeks.advance balanced
      simp only [Play.advanceLine]
      cases moved : play.advance setup host checkpoint with
      | going next after =>
          rw [moved] at advanced
          exact inductionHypothesis advanced
      | stopped result after =>
          rw [moved] at advanced
          cases result <;> exact advanced

end Seeks

/-! ## Calls -/

/-- A call leaves the store as deep as it was and a runner that has not failed at rest. -/
def Leaves (depth : Nat) (play : Play σ) : Prop :=
  play.world.depth = depth ∧ (play.failure = none → play.flow.Settled)

/-- A runner that can go on reads a line from where it rests. -/
theorem Leaves.getline
    (balanced : host.Balanced)
    (setup : Setup)
    (fuel : Nat)
    (leaves : Leaves depth play) :
    Leaves depth (play.getline setup host fuel).2 := by
  cases continues : play.canContinue with
  | false =>
      rw [getline_of_not_canContinue continues]
      exact leaves
  | true =>
      have settled := leaves.2 (canContinue_iff.mp continues).1
      have seeks : Seeks setup depth none play.clearLine := by
        refine ⟨?_, fun _ => leaves.1, by simp, fun _ => ⟨rfl, ?_⟩⟩
        · exact settled.coherent.retagged _ _
        · simp [clearLine, settled.output, Output.empty, Output.outer]
      have found := seeks.advanceLine balanced fuel
      rw [getline_of_canContinue continues]
      rcases advanced : advanceLine setup host fuel none play.clearLine with ⟨_ | _, after⟩
      · rw [advanced] at found
        exact ⟨found, fun usable => absurd usable (Option.some_ne_none _)⟩
      · rw [advanced] at found
        exact ⟨found.depth, fun _ => ⟨found.coherent.retagged _ _, rfl, found.nothing⟩⟩

theorem Leaves.getLines
    (balanced : host.Balanced)
    (setup : Setup)
    (fuel lines : Nat)
    (text : String)
    (leaves : Leaves depth play) :
    Leaves depth (play.getLines setup host fuel lines text).2 := by
  induction lines generalizing text play with
  | zero =>
      exact leaves
  | succ lines inductionHypothesis =>
      simp only [Play.getLines]
      split
      · have read := leaves.getline balanced setup fuel
        split
        · next failed =>
            rw [failed] at read
            exact read
        · next succeeded =>
            rw [succeeded] at read
            exact inductionHypothesis _ read
      · exact leaves

theorem Leaves.choose
    (setup : Setup)
    (index : Nat)
    (leaves : Leaves depth play) :
    Leaves depth (play.choose setup index).2 := by
  simp only [Play.choose]
  split
  · exact leaves
  · split
    · exact leaves
    · next choice chosen =>
        refine ⟨leaves.1, fun usable => ?_⟩
        have settled := leaves.2 usable
        simp only [Runner.choices] at chosen
        split at chosen
        · have offered := List.mem_of_getElem? chosen
          have lasting : play.flow.ended = false := by
            cases ended : play.flow.ended with
            | false =>
                rfl
            | true =>
                simp [(settled.coherent.atEnd ended).2.1] at offered
          exact
            ⟨settled.coherent.select lasting setup.story (Flow.mem_offers.mpr (.inl offered)),
              settled.output, fun stopped => absurd stopped (Option.some_ne_none _)⟩
        · simp at chosen

theorem Leaves.moveTo
    (setup : Setup)
    (path : String)
    (leaves : Leaves depth play) :
    Leaves depth (play.moveTo setup path).2 := by
  simp only [Play.moveTo]
  split
  · exact leaves
  · split
    · exact leaves
    · next container _ =>
        refine ⟨leaves.1, fun usable => ?_⟩
        have settled := leaves.2 usable
        exact ⟨settled.coherent.moveTo setup.story container, rfl,
          fun stopped => absurd stopped (Option.some_ne_none _)⟩

theorem Leaves.perform
    (balanced : host.Balanced)
    (setup : Setup)
    (call : Call)
    (leaves : Leaves depth play) :
    Leaves depth (play.perform setup host call).2 := by
  cases call with
  | getline fuel =>
      exact leaves.getline balanced setup fuel
  | getall fuel =>
      exact leaves.getLines balanced setup fuel fuel ""
  | choose index =>
      exact leaves.choose setup index
  | moveTo path =>
      exact leaves.moveTo setup path

/--
The runners of a story between calls, whether these succeeded or not.  Bindings and
settings may change between calls, and so may the world.
-/
inductive Called
    (story : Story)
    (host : Host σ) :
    Play σ → Prop where
  | start
      (config : Config)
      (world : World σ) :
      Called story host ⟨.start story config, world⟩
  | meanwhile
      {play : Play σ}
      (world : World σ)
      (called : Called story host play) :
      Called story host { play with world := world }
  | call
      (bindings : Bindings)
      (config : Config)
      (call : Call)
      {play : Play σ}
      (called : Called story host play) :
      Called story host (play.perform ⟨story, bindings, config⟩ host call).2

theorem Called.leaves
    (balanced : host.Balanced)
    (called : Called story host play) :
    Leaves play.world.depth play := by
  refine ⟨rfl, ?_⟩
  induction called with
  | start config world =>
      exact fun _ => ⟨.start story config.initialSeed, rfl, fun _ => rfl⟩
  | meanwhile _ _ inductionHypothesis =>
      exact inductionHypothesis
  | call bindings config call _ inductionHypothesis =>
      exact (Leaves.perform balanced _ call ⟨rfl, inductionHypothesis⟩).2

/--
After every call the store speculates as deeply as before: the checkpoint of a line does
not outlive the call that read it.  A runner that has not failed rests: nothing is left of
the output, a flow that has stopped keeps no others waiting and has taken its fallback if
it offers nothing else, a story that is over has nothing left, and the choices are numbered
in order.
-/
theorem perform_rests
    (balanced : host.Balanced)
    (called : Called story host play)
    {bindings : Bindings}
    {config : Config}
    {call : Call}
    {result : Except Error String}
    {after : Play σ}
    (performed : play.perform ⟨story, bindings, config⟩ host call = (result, after)) :
    after.world.depth = play.world.depth ∧ (after.failure = none → after.flow.Rests) := by
  have leaves := (called.leaves balanced).perform balanced ⟨story, bindings, config⟩ call
  rw [performed] at leaves
  exact ⟨leaves.1, fun usable => (leaves.2 usable).rests⟩

/-! ## A crossing -/

/-- A story that offers its only choice from a thread and ends after it. -/
def crossingStory : Story where
  instructions :=
    #[⟨.thread, 0, 5⟩, ⟨.str, 0, 0⟩, ⟨.newline, 0, 0⟩, ⟨.str, 0, 1⟩, ⟨.done, 0, 0⟩,
      ⟨.startStr, 0, 0⟩, ⟨.str, 0, 2⟩, ⟨.endStr, 0, 0⟩, ⟨.choice, 2, 10⟩, ⟨.done, 0, 0⟩,
      ⟨.str, 0, 3⟩, ⟨.newline, 0, 0⟩, ⟨.finish, 0, 0⟩]
  strings := #["Two roads.", "They part.", "Left", "To the left."]
  literals := #[]
  containers := #[]
  declarations := ⟨[], ⟨#[]⟩⟩

def crossingSetup : Setup :=
  ⟨crossingStory, .empty, .standard⟩

/-- A runner at the start of the story. -/
def crossingStart : Play Unit :=
  ⟨.start crossingStory .standard, bareWorld⟩

/-- The runner after its first line, behind which text was tried and taken back. -/
def crossingRead : Play Unit :=
  (crossingStart.perform crossingSetup idleHost (.getline 20)).2

/-- The runner after all that can be read, and after its choice. -/
def crossingChosen : Play Unit :=
  ((crossingRead.perform crossingSetup idleHost (.getall 20)).2.perform crossingSetup idleHost
    (.choose 0)).2

theorem perform_rests_crossing :
    idleHost.Balanced ∧
      Called crossingStory idleHost crossingChosen ∧
      crossingRead.flow.ip = some 3 ∧
      (crossingChosen.perform crossingSetup idleHost (.getline 20)).1 = .ok "To the left.\n" ∧
      (crossingChosen.perform crossingSetup idleHost (.getline 20)).2.flow.ended = true ∧
      (crossingChosen.perform crossingSetup idleHost (.getline 20)).2.flow.Rests := by
  have balanced : idleHost.Balanced := ⟨fun _ _ _ => rfl, fun _ _ _ => rfl⟩
  have called : Called crossingStory idleHost crossingChosen :=
    .call .empty .standard (.choose 0) (.call .empty .standard (.getall 20)
      (.call .empty .standard (.getline 20) (.start .standard bareWorld)))
  obtain ⟨_, rests⟩ :=
    perform_rests balanced called
      (Prod.ext rfl rfl : crossingChosen.perform crossingSetup idleHost (.getline 20) = (_, _))
  exact
    ⟨balanced, called, by decide +kernel, by rfl, by decide +kernel, rests (by decide +kernel)⟩

end Play

end Fabula
