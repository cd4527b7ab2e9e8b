import Fabula.Proofs.Courses
import Fabula.Proofs.Lines
import Fabula.Proofs.Resumption

namespace Fabula

/-!
# Threads

A thread runs on a copy of the calls of the flow that forked it.  Whatever happens while
that flow waits, it goes on as it was when the thread is done.  What was done and has not
been taken back is told by a chronicle; a rollback forgets all that came after its
checkpoint, so a fork in a chronicle is one that still stands.
-/

namespace Play

variable {σ : Type} {story : Story} {setup : Setup} {host : Host σ} {play after : Play σ}

/-! ## Forking and resuming -/

/-- The flow that forked a thread goes on behind the fork as it was. -/
structure Resumes (address : Nat) (before after : Flow) : Prop where
  ip : after.ip = some (address + 1)
  callStack : after.callStack = before.callStack
  evalMode : after.evalMode = before.evalMode
  threads : after.threads = before.threads

/-- A flow goes on with a choice, and no other waits. -/
structure Pursues (choice : Choice) (after : Flow) : Prop where
  ip : after.ip = some choice.target
  callStack : after.callStack = choice.callStack
  threads : after.threads = []

/-- What a flow leaves behind when it forks a thread at an address. -/
def suspendedAt (address : Nat) (flow : Flow) : SuspendedFlow :=
  ⟨flow.callStack, address + 1, flow.evalMode⟩

/-- A thread is forked by letting the flow wait as it is. -/
theorem threads_of_fork
    {address : Nat}
    (forking : Flow.Commands setup.story address .thread)
    (stepped : play.step setup host address = (.ok (), after)) :
    after.flow.threads = suspendedAt address play.flow :: play.flow.threads := by
  obtain ⟨instruction, here, thread⟩ := forking
  have made :
      play.flow.next setup play.world.store address =
        (do
          let entered := { play.flow with ip := some (address + 1) }
          let target ← entered.destination setup.story play.world.store instruction address
          pure (entered.fork setup.story target (address + 1))) := by
    simp only [Flow.next, here, Flow.execute, thread]
  cases found :
      Flow.destination { play.flow with ip := some (address + 1) } setup.story play.world.store
        instruction address with
  | error error =>
      simp [step_eq, made, found, bind, Except.bind] at stepped
  | ok target =>
      simp only [found, bind, Except.bind, pure, Except.pure] at made
      obtain ⟨eval, flow⟩ := step_flow host made
      rw [stepped] at flow
      rw [flow]
      rfl

/-- A thread that is done gives way to the flow that waits for it. -/
theorem step_resumes
    {address stop : Nat}
    {before : Flow}
    (completes : Flow.Completes setup.story stop)
    (waiting : play.flow.threads = suspendedAt address before :: before.threads) :
    (play.step setup host stop).1 = .ok () ∧
      Resumes address before (play.step setup host stop).2.flow := by
  rcases completes with fallen | ⟨instruction, here, done⟩
  · simp only [step, fallen, Flow.done, waiting]
    exact ⟨trivial, rfl, rfl, rfl, rfl⟩
  · simp only [step, here, Flow.execute, done, Flow.done, waiting]
    exact ⟨rfl, rfl, rfl, rfl, rfl⟩

/-- A choice is refused without consequences, or made. -/
theorem choose_eq
    (setup : Setup)
    (index : Nat)
    (play : Play σ) :
    (∃ error, play.choose setup index = (.error error, play)) ∨
      ∃ after, play.choose setup index = (.ok (), after) ∧ after.failure = play.failure := by
  simp only [choose]
  split
  · exact .inl ⟨_, rfl⟩
  · split
    · exact .inl ⟨_, rfl⟩
    · exact .inr ⟨_, rfl, rfl⟩

theorem moveTo_eq
    (setup : Setup)
    (path : String)
    (play : Play σ) :
    (∃ error, play.moveTo setup path = (.error error, play)) ∨
      ∃ after, play.moveTo setup path = (.ok (), after) ∧ after.failure = play.failure := by
  simp only [moveTo]
  split
  · exact .inl ⟨_, rfl⟩
  · split
    · exact .inl ⟨_, rfl⟩
    · exact .inr ⟨_, rfl, rfl⟩

/-- A choice that is offered can be made, and leads to where it was gathered. -/
theorem choose_pursues
    {index : Nat}
    {choice : Choice}
    (offered : play.choices[index]? = some choice) :
    (play.choose setup index).1 = .ok () ∧ Pursues choice (play.choose setup index).2.flow := by
  have usable : play.failure = none := by
    simp only [Runner.choices] at offered
    split at offered
    · next chooses =>
        simp only [Runner.hasChoices, Bool.and_eq_true, Option.isNone_iff_eq_none] at chooses
        exact chooses.1.1
    · simp at offered
  simp only [choose, Runner.ensureUsable, usable, offered]
  exact ⟨trivial, rfl, rfl, rfl⟩

/-- The fallback leads to where it was gathered. -/
theorem takeFallback?_pursues
    {continued : Play σ}
    (taken : play.takeFallback? setup = some continued) :
    ∃ choice, play.flow.fallback? = some choice ∧ Pursues choice continued.flow := by
  simp only [takeFallback?, Option.map_eq_some_iff] at taken
  obtain ⟨choice, offered, rfl⟩ := taken
  exact ⟨choice, offered, rfl, rfl, rfl⟩

/-! ## Chronicles -/

/--
What the runners of a story do, as far as it has not been taken back: the flows at which
an instruction was carried out, the latest first, what can be come back to, and the present
flow.  Bindings, settings and the world may be others at every step.
-/
inductive Chronicle
    (story : Story)
    (host : Host σ) :
    List Flow → Option (List Flow × Flow) → Flow → Prop where
  | start
      (seed : UInt64) :
      Chronicle story host [] none (.start story seed)
  | step
      {past : List Flow}
      {saved : Option (List Flow × Flow)}
      {bindings : Bindings}
      {config : Config}
      {play after : Play σ}
      {address : Nat}
      (here : play.flow.ip = some address)
      (stepped : play.step ⟨story, bindings, config⟩ host address = (.ok (), after))
      (chronicle : Chronicle story host past saved play.flow) :
      Chronicle story host (play.flow :: past) saved after.flow
  | fallback
      {past : List Flow}
      {saved : Option (List Flow × Flow)}
      {bindings : Bindings}
      {config : Config}
      {play continued : Play σ}
      (taken : play.takeFallback? ⟨story, bindings, config⟩ = some continued)
      (chronicle : Chronicle story host past saved play.flow) :
      Chronicle story host past saved continued.flow
  | choose
      {past : List Flow}
      {saved : Option (List Flow × Flow)}
      {bindings : Bindings}
      {config : Config}
      {index : Nat}
      {play after : Play σ}
      (chosen : play.choose ⟨story, bindings, config⟩ index = (.ok (), after))
      (chronicle : Chronicle story host past saved play.flow) :
      Chronicle story host past saved after.flow
  | moveTo
      {past : List Flow}
      {saved : Option (List Flow × Flow)}
      {bindings : Bindings}
      {config : Config}
      {path : String}
      {play after : Play σ}
      (moved : play.moveTo ⟨story, bindings, config⟩ path = (.ok (), after))
      (chronicle : Chronicle story host past saved play.flow) :
      Chronicle story host past saved after.flow
  /-- A line begins, and the tags of the one before are forgotten. -/
  | read
      {past : List Flow}
      {saved : Option (List Flow × Flow)}
      {flow : Flow}
      (chronicle : Chronicle story host past saved flow) :
      Chronicle story host past saved { flow with tags := flow.tags.clearLine }
  /-- The text of a line is taken. -/
  | take
      {past : List Flow}
      {saved : Option (List Flow × Flow)}
      {flow : Flow}
      (chronicle : Chronicle story host past saved flow) :
      Chronicle story host past saved { flow with output := .empty }
  | save
      {past : List Flow}
      {saved : Option (List Flow × Flow)}
      {flow : Flow}
      (chronicle : Chronicle story host past saved flow) :
      Chronicle story host past (some (past, flow)) flow
  /-- What was done since the checkpoint is taken back. -/
  | rollback
      {past earlier : List Flow}
      {saved flow : Flow}
      (chronicle : Chronicle story host past (some (earlier, saved)) flow) :
      Chronicle story host earlier none saved
  /-- What was done since the checkpoint is kept. -/
  | commit
      {past : List Flow}
      {saved : Option (List Flow × Flow)}
      {flow : Flow}
      (chronicle : Chronicle story host past saved flow) :
      Chronicle story host past none flow

namespace Chronicle

variable {past : List Flow} {saved : Option (List Flow × Flow)} {flow : Flow}

/--
What holds at the start and is kept by everything that a runner does holds of every
chronicle, and of every checkpoint in one.
-/
theorem invariant
    {motive : List Flow → Flow → Prop}
    (start : ∀ seed, motive [] (.start story seed))
    (step :
      ∀ {past : List Flow} {setup : Setup} {play after : Play σ} {address : Nat},
        setup.story = story →
        play.flow.ip = some address →
        play.step setup host address = (.ok (), after) →
        motive past play.flow →
        motive (play.flow :: past) after.flow)
    (alone :
      ∀ {past : List Flow} {before after : Flow},
        after.threads = [] →
        after.offers = [] →
        motive past before →
        motive past after)
    (steady :
      ∀ {past : List Flow} (before : Flow) {after : Flow},
        after.threads = before.threads →
        after.offers = before.offers →
        motive past before →
        motive past after)
    (chronicle : Chronicle story host past saved flow) :
    motive past flow ∧
      ∀ earlier before, saved = some (earlier, before) → motive earlier before := by
  induction chronicle with
  | start seed =>
      exact ⟨start seed, fun _ _ absent => nomatch absent⟩
  | step here stepped _ inductionHypothesis =>
      exact ⟨step rfl here stepped inductionHypothesis.1, inductionHypothesis.2⟩
  | fallback taken _ inductionHypothesis =>
      simp only [takeFallback?, Option.map_eq_some_iff] at taken
      obtain ⟨choice, _, rfl⟩ := taken
      exact ⟨alone rfl rfl inductionHypothesis.1, inductionHypothesis.2⟩
  | choose chosen _ inductionHypothesis =>
      simp only [Play.choose] at chosen
      split at chosen
      · cases chosen
      · split at chosen
        · cases chosen
        · cases chosen
          exact ⟨alone rfl rfl inductionHypothesis.1, inductionHypothesis.2⟩
  | moveTo moved _ inductionHypothesis =>
      simp only [Play.moveTo] at moved
      split at moved
      · cases moved
      · split at moved
        · cases moved
        · cases moved
          exact ⟨alone rfl rfl inductionHypothesis.1, inductionHypothesis.2⟩
  | @read _ _ flow _ inductionHypothesis | @take _ _ flow _ inductionHypothesis =>
      exact ⟨steady flow rfl rfl inductionHypothesis.1, inductionHypothesis.2⟩
  | save _ inductionHypothesis =>
      refine ⟨inductionHypothesis.1, ?_⟩
      rintro _ _ ⟨⟩
      exact inductionHypothesis.1
  | @rollback _ earlier saved _ _ inductionHypothesis =>
      exact ⟨inductionHypothesis.2 earlier saved rfl, fun _ _ absent => nomatch absent⟩
  | commit _ inductionHypothesis =>
      exact ⟨inductionHypothesis.1, fun _ _ absent => nomatch absent⟩

/-! ## Flows that wait -/

/-- A thread that was forked at an address stands: more have waited than before ever since. -/
structure Stands
    (story : Story)
    (address : Nat)
    (before : Flow)
    (past : List Flow) :
    Prop where
  forking : Flow.Commands story address .thread
  here : before.ip = some address
  since :
    ∃ later earlier,
      past = later ++ before :: earlier ∧
        ∀ moment ∈ later, before.threads.length < moment.threads.length

/-- A flow that waits stays where it is while more wait than before it. -/
theorem waits_of_course
    {address other : Nat}
    {before middle last : Flow}
    (course : Flow.Course story address middle last)
    (waits : suspendedAt other before :: before.threads <:+ middle.threads)
    (deeper : before.threads.length < last.threads.length) :
    suspendedAt other before :: before.threads <:+ last.threads := by
  cases course with
  | onward _ _ threads _ | offered _ _ _ threads _ _ _ =>
      exact threads ▸ waits
  | forked _ _ _ threads _ =>
      exact threads ▸ waits.trans (List.suffix_cons _ _)
  | resumed _ waiting _ _ _ _ =>
      rw [waiting] at waits
      rcases List.suffix_cons_iff.mp waits with same | inside
      · rw [(List.cons.inj same).2] at deeper
        exact absurd deeper (Nat.lt_irrefl _)
      · exact inside
  | stopped _ _ threads _ _ _ | finished _ _ _ threads _ _ _ =>
      simp [threads] at deeper

/-- While a thread stands, the flow that forked it waits. -/
theorem waits
    (chronicle : Chronicle story host past saved flow)
    {address : Nat}
    {before : Flow}
    (stands : Stands story address before past)
    (deeper : before.threads.length < flow.threads.length) :
    suspendedAt address before :: before.threads <:+ flow.threads := by
  refine (chronicle.invariant (motive := fun past flow =>
    Stands story address before past →
    before.threads.length < flow.threads.length →
    suspendedAt address before :: before.threads <:+ flow.threads) ?_ ?_ ?_ ?_).1 stands deeper
  · rintro _ ⟨_, _, later, earlier, none, _⟩
    simp at none
  · intro past setup play after other ofStory here stepped waits ⟨forking, there, since⟩ deeper
    obtain ⟨later, earlier, split, above⟩ := since
    cases later with
    | nil =>
        obtain ⟨rfl, rfl⟩ := List.cons.inj split
        rw [here, Option.some.injEq] at there
        subst there ofStory
        exact threads_of_fork forking stepped ▸ List.suffix_rfl
    | cons moment later =>
        obtain ⟨rfl, rfl⟩ := List.cons.inj split
        have stands : Stands story address before (later ++ before :: earlier) :=
          ⟨forking, there, later, earlier, rfl, fun moment inside =>
            above moment (List.mem_cons_of_mem _ inside)⟩
        exact waits_of_course (step_turn stepped).course (waits stands (above _ List.mem_cons_self))
          deeper
  · intro _ _ after alone _ _ _ deeper
    simp [alone] at deeper
  · intro _ before after same _ waits stands deeper
    rw [same] at deeper ⊢
    exact waits stands deeper

/-! ## Choices -/

/-- A step at a flow gathers a choice in the name of the calls that are open there. -/
def GatheredAt (story : Story) (host : Host σ) (moment : Flow) (choice : Choice) : Prop :=
  choice.callStack = moment.callStack ∧
    ∃ (setup : Setup) (play after : Play σ) (address : Nat),
      setup.story = story ∧
        play.flow = moment ∧
        moment.ip = some address ∧
        Flow.Commands story address .choice ∧
        play.step setup host address = (.ok (), after) ∧
        Flow.Gathers choice moment after.flow

/-- Whatever is offered was gathered at a moment that has not been taken back. -/
theorem gathered
    (chronicle : Chronicle story host past saved flow)
    {choice : Choice}
    (offered : choice ∈ flow.offers) :
    ∃ moment ∈ past, GatheredAt story host moment choice := by
  refine (chronicle.invariant (motive := fun past flow =>
    choice ∈ flow.offers →
    ∃ moment ∈ past, GatheredAt story host moment choice) ?_ ?_ ?_ ?_).1 offered
  · intro seed offered
    simp [Flow.offers, Flow.start] at offered
  · intro past setup play after address ofStory here stepped gathered offered
    have before (older : choice ∈ play.flow.offers) :
        ∃ moment ∈ play.flow :: past, GatheredAt story host moment choice := by
      obtain ⟨moment, inside, found⟩ := gathered older
      exact ⟨moment, List.mem_cons_of_mem _ inside, found⟩
    cases (step_turn stepped).course with
    | onward _ _ _ offers | forked _ _ _ _ offers | resumed _ _ _ _ _ offers
    | stopped _ _ _ _ _ offers =>
        exact before (offers.offers ▸ offered)
    | offered offering _ _ _ gathers carries _ =>
        rcases gathers.offers offered with older | rfl
        · exact before older
        · exact ⟨play.flow, List.mem_cons_self, carries, setup, play, after, address, ofStory,
            rfl, here, ofStory ▸ offering, stepped, gathers⟩
    | finished _ _ _ _ choices fallback _ =>
        simp [Flow.offers, choices, fallback] at offered
  · intro _ _ after _ none _ offered
    simp [none] at offered
  · intro _ before after _ same gathered offered
    exact gathered (same ▸ offered)

end Chronicle

/-! ## What runners do is told -/

/-- A chronicle tells of a runner and its checkpoint, and goes on from an older one. -/
def Told
    (story : Story)
    (host : Host σ)
    (base : List Flow)
    (checkpoint : Option Checkpoint)
    (play : Play σ) :
    Prop :=
  ∃ past saved,
    Chronicle story host past saved play.flow ∧
      base <:+ past ∧
      ∀ kept,
        checkpoint = some kept →
        ∃ earlier, saved = some (earlier, kept.flow) ∧ base <:+ earlier

/-- The chronicle goes on as long as the runner does not fail. -/
def Progress.Told (story : Story) (host : Host σ) (base : List Flow) : Progress σ → Prop
  | .going checkpoint play => Play.Told story host base checkpoint play
  | .stopped (.ok ()) play => Play.Told story host base none play
  | .stopped (.error _) _ => True

namespace Told

variable {base : List Flow} {checkpoint : Option Checkpoint} {bindings : Bindings}
  {config : Config}

/-- Without a checkpoint only the flow is told of. -/
theorem plain
    (told : Told story host base checkpoint play)
    {other : Play σ}
    (same : other.flow = play.flow) :
    Told story host base none other := by
  obtain ⟨past, saved, chronicle, longer, _⟩ := told
  exact ⟨past, saved, same ▸ chronicle, longer, fun _ absent => nomatch absent⟩

theorem rollback
    {kept : Checkpoint}
    (told : Told story host base (some kept) play)
    (setup : Setup)
    (other : Play σ) :
    Told story host base none (other.rollback setup kept) := by
  obtain ⟨past, saved, chronicle, _, onTrial⟩ := told
  obtain ⟨earlier, rfl, longer⟩ := onTrial kept rfl
  exact ⟨earlier, none, chronicle.rollback, longer, fun _ absent => nomatch absent⟩

theorem step
    (told : Told story host base checkpoint play)
    {address : Nat}
    (here : play.flow.ip = some address)
    (stepped : play.step ⟨story, bindings, config⟩ host address = (.ok (), after)) :
    Told story host base checkpoint after := by
  obtain ⟨past, saved, chronicle, longer, onTrial⟩ := told
  exact
    ⟨play.flow :: past, saved, chronicle.step here stepped, longer.trans (List.suffix_cons _ _),
      onTrial⟩

theorem proceed
    (told : Told story host base none play)
    (setup : Setup) :
    (play.proceed setup).Told story host base := by
  have proceeding := proceed_proceeding setup play
  generalize play.proceed setup = progress at proceeding
  cases proceeding with
  | onward | cut =>
      exact told
  | onTrial =>
      obtain ⟨past, saved, chronicle, longer, _⟩ := told
      refine ⟨past, some (past, play.flow), chronicle.save, longer, ?_⟩
      rintro _ ⟨⟩
      exact ⟨past, rfl, longer⟩

/-- One move of a runner goes on with the chronicle, or takes back a part of it. -/
theorem advance
    (told : Told story host base checkpoint play) :
    (play.advance ⟨story, bindings, config⟩ host checkpoint).Told story host base := by
  have move := advance_move ⟨story, bindings, config⟩ host checkpoint play
  generalize play.advance ⟨story, bindings, config⟩ host checkpoint = progress at move
  cases move with
  | fallback _ taken =>
      obtain ⟨past, saved, chronicle, longer, onTrial⟩ := told
      exact ⟨past, saved, chronicle.fallback taken, longer, onTrial⟩
  | finished =>
      exact told.plain (by cases checkpoint <;> rfl)
  | refused | abandoned | completed =>
      exact told.rollback _ _
  | failed =>
      trivial
  | marked here _ stepped | undecided here _ stepped =>
      exact told.step here stepped
  | plain here stepped =>
      exact (told.step here stepped).proceed _
  | joined here _ stepped =>
      refine proceed ?_ _
      exact (told.step here stepped).plain rfl

theorem advanceLine
    (fuel : Nat)
    (told : Told story host base checkpoint play)
    (found :
      Play.advanceLine ⟨story, bindings, config⟩ host fuel checkpoint play = (.ok (), after)) :
    Told story host base none after := by
  induction fuel generalizing checkpoint play with
  | zero =>
      simp [Play.advanceLine] at found
  | succ fuel inductionHypothesis =>
      have advanced :
          (play.advance ⟨story, bindings, config⟩ host checkpoint).Told story host base :=
        told.advance
      simp only [Play.advanceLine] at found
      cases moved : play.advance ⟨story, bindings, config⟩ host checkpoint with
      | going next middle =>
          rw [moved] at advanced found
          exact inductionHypothesis advanced found
      | stopped result last =>
          rw [moved] at advanced found
          cases found
          exact advanced

end Told

/-- A chronicle tells of a runner between calls unless it has failed. -/
def Tells (story : Story) (host : Host σ) (base : List Flow) (play : Play σ) : Prop :=
  play.failure = none → Told story host base none play

namespace Tells

variable {base : List Flow}

theorem getline
    (tells : Tells story host base play)
    (bindings : Bindings)
    (config : Config)
    (fuel : Nat) :
    Tells story host base (play.getline ⟨story, bindings, config⟩ host fuel).2 := by
  cases continues : play.canContinue with
  | false =>
      rw [getline_of_not_canContinue continues]
      exact tells
  | true =>
      have reading : Told story host base none play.clearLine := by
        obtain ⟨past, saved, chronicle, longer, onTrial⟩ :=
          tells (canContinue_iff.mp continues).1
        exact ⟨past, saved, chronicle.read, longer, onTrial⟩
      rw [getline_of_canContinue continues]
      rcases advanced :
        Play.advanceLine ⟨story, bindings, config⟩ host fuel none play.clearLine with
        ⟨_ | _, last⟩
      · exact fun usable => nomatch usable
      · obtain ⟨past, saved, chronicle, longer, onTrial⟩ := reading.advanceLine fuel advanced
        exact fun _ => ⟨past, saved, chronicle.take, longer, onTrial⟩

theorem getLines
    (tells : Tells story host base play)
    (bindings : Bindings)
    (config : Config)
    (fuel lines : Nat)
    (text : String) :
    Tells story host base
      (play.getLines ⟨story, bindings, config⟩ host fuel lines text).2 := by
  induction lines generalizing text play with
  | zero =>
      exact tells
  | succ lines inductionHypothesis =>
      simp only [Play.getLines]
      split
      · have read := tells.getline bindings config fuel
        split
        · next failed =>
            rw [failed] at read
            exact read
        · next succeeded =>
            rw [succeeded] at read
            exact inductionHypothesis read _
      · exact tells

theorem choose
    (tells : Tells story host base play)
    (bindings : Bindings)
    (config : Config)
    (index : Nat) :
    Tells story host base (play.choose ⟨story, bindings, config⟩ index).2 := by
  rcases choose_eq ⟨story, bindings, config⟩ index play with
    ⟨error, refused⟩ | ⟨after, chosen, same⟩
  · rw [refused]
    exact tells
  · rw [chosen]
    intro usable
    obtain ⟨past, saved, chronicle, longer, onTrial⟩ := tells (same ▸ usable)
    exact ⟨past, saved, chronicle.choose chosen, longer, onTrial⟩

theorem moveTo
    (tells : Tells story host base play)
    (bindings : Bindings)
    (config : Config)
    (path : String) :
    Tells story host base (play.moveTo ⟨story, bindings, config⟩ path).2 := by
  rcases moveTo_eq ⟨story, bindings, config⟩ path play with
    ⟨error, refused⟩ | ⟨after, moved, same⟩
  · rw [refused]
    exact tells
  · rw [moved]
    intro usable
    obtain ⟨past, saved, chronicle, longer, onTrial⟩ := tells (same ▸ usable)
    exact ⟨past, saved, chronicle.moveTo moved, longer, onTrial⟩

/-- Every call goes on with the chronicle, unless the runner fails. -/
theorem perform
    (tells : Tells story host base play)
    (bindings : Bindings)
    (config : Config)
    (call : Call) :
    Tells story host base (play.perform ⟨story, bindings, config⟩ host call).2 := by
  cases call with
  | getline fuel =>
      exact tells.getline bindings config fuel
  | getall fuel =>
      exact tells.getLines bindings config fuel fuel ""
  | choose index =>
      exact tells.choose bindings config index
  | moveTo path =>
      exact tells.moveTo bindings config path

end Tells

/--
Threads are kept apart: what is known of a flow that a chronicle tells of, whatever its
threads have done and whatever was taken back meanwhile.
-/
structure Isolated
    (story : Story)
    (host : Host σ)
    (past : List Flow)
    (flow : Flow) :
    Prop where
  /--
  When a thread that stands is done, the flow that forked it goes on behind the fork with
  the calls, the temporaries and the mode that it had.
  -/
  resumes :
    ∀ (setup : Setup) (play : Play σ) address stop before,
      setup.story = story →
      play.flow = flow →
      flow.ip = some stop →
      Flow.Completes story stop →
      Chronicle.Stands story address before past →
      flow.threads.length = before.threads.length + 1 →
      (play.step setup host stop).1 = .ok () ∧
        Resumes address before (play.step setup host stop).2.flow
  /-- A choice carries the calls that were open when it was gathered. -/
  gathered :
    ∀ choice ∈ flow.offers, ∃ moment ∈ past, Chronicle.GatheredAt story host moment choice
  /-- Who makes a choice goes on with the calls that it carries. -/
  chosen :
    ∀ (setup : Setup) (play : Play σ) index choice,
      play.flow = flow →
      play.choices[index]? = some choice →
      choice ∈ flow.offers ∧
        (play.choose setup index).1 = .ok () ∧
        Pursues choice (play.choose setup index).2.flow
  /-- So does who takes the fallback. -/
  fallback :
    ∀ (setup : Setup) (play continued : Play σ),
      play.flow = flow →
      play.takeFallback? setup = some continued →
      ∃ choice ∈ flow.offers, Pursues choice continued.flow
  /-- Every call goes on with the chronicle, unless the runner fails. -/
  told :
    ∀ (play : Play σ) bindings config call,
      play.flow = flow →
      (play.perform ⟨story, bindings, config⟩ host call).2.failure = none →
      ∃ later,
        past <:+ later ∧
          Chronicle story host later none
            (play.perform ⟨story, bindings, config⟩ host call).2.flow

theorem threads_isolated
    {past : List Flow}
    {saved : Option (List Flow × Flow)}
    {flow : Flow}
    (chronicle : Chronicle story host past saved flow) :
    Isolated story host past flow where
  resumes := by
    rintro setup play address stop before rfl rfl _ completes stands one
    have waits := chronicle.waits stands (by omega)
    exact step_resumes completes (waits.eq_of_length (by simp [one])).symm
  gathered _ offered :=
    chronicle.gathered offered
  chosen := by
    rintro setup play index choice rfl offered
    have among : choice ∈ play.flow.choices := by
      simp only [Runner.choices] at offered
      split at offered
      · exact List.mem_of_getElem? offered
      · simp at offered
    exact ⟨Flow.mem_offers.mpr (.inl among), choose_pursues offered⟩
  fallback := by
    rintro setup play continued rfl taken
    obtain ⟨choice, offered, pursues⟩ := takeFallback?_pursues taken
    exact ⟨choice, (Flow.fallback?_eq_some offered).2, pursues⟩
  told := by
    rintro play bindings config call rfl usable
    have tells : Tells story host past play := fun _ =>
      ⟨past, none, chronicle.commit, List.suffix_rfl, by simp⟩
    obtain ⟨later, kept, told, longer, _⟩ := tells.perform bindings config call usable
    exact ⟨later, longer, told.commit⟩

/-! ## A yard -/

/-- A thread writes a temporary, offers a choice and forks a thread before it is done. -/
def yardStory : Story where
  instructions :=
    #[⟨.startEval, 0, 0⟩, ⟨.thread, 0, 4⟩, ⟨.endEval, 0, 0⟩, ⟨.done, 0, 0⟩, ⟨.int, 0, 9⟩,
      ⟨.defineTemp, 0, 0⟩, ⟨.choice, 0, 3⟩, ⟨.thread, 0, 9⟩, ⟨.done, 0, 0⟩, ⟨.done, 0, 0⟩]
  strings := #["sheep"]
  literals := #[]
  containers := #[]
  declarations := ⟨[], ⟨#[]⟩⟩

def yardSetup : Setup :=
  ⟨yardStory, .empty, .standard⟩

/-- The runner after a number of steps. -/
def yard : Nat → Play Unit
  | 0 => ⟨.start yardStory .standard, bareWorld⟩
  | count + 1 => ((yard count).step yardSetup idleHost ((yard count).flow.ip.getD 0)).2

/-- The flows at the first steps, the latest first. -/
def yardPast : Nat → List Flow
  | 0 => []
  | count + 1 => (yard count).flow :: yardPast count

/-- The first steps of the runner all succeed, and a chronicle tells of them. -/
theorem yard_told
    (count : Nat)
    (within : count ≤ 7) :
    Chronicle yardStory idleHost (yardPast count) none (yard count).flow := by
  have moves :
      ∀ count < 7,
        (yard count).flow.ip = some ((yard count).flow.ip.getD 0) ∧
          (yard count).step yardSetup idleHost ((yard count).flow.ip.getD 0) =
            (.ok (), yard (count + 1)) := by
    intro count within
    match count with
    | 0 | 1 | 2 | 3 | 4 | 5 | 6 => exact ⟨by rfl, by rfl⟩
  induction count with
  | zero =>
      exact .start _
  | succ count inductionHypothesis =>
      obtain ⟨here, stepped⟩ := moves count within
      exact (inductionHypothesis (Nat.le_of_succ_le within)).step here stepped

theorem threads_isolated_yard :
    Chronicle yardStory idleHost (yardPast 7) none (yard 7).flow ∧
      Chronicle.Stands yardStory 1 (yard 1).flow (yardPast 7) ∧
      (yard 7).flow.callStack.top.temp? "sheep" = some (.int 9) ∧
      (yard 8).flow.callStack.top.temp? "sheep" = none ∧
      Resumes 1 (yard 1).flow (yard 8).flow ∧
      ∃ choice ∈ (yard 7).flow.offers,
        choice.callStack.top.temp? "sheep" = some (.int 9) ∧
          ∃ moment ∈ yardPast 7, Chronicle.GatheredAt yardStory idleHost moment choice := by
  have chronicle := yard_told 7 (Nat.le_refl 7)
  have isolated := threads_isolated chronicle
  have stands : Chronicle.Stands yardStory 1 (yard 1).flow (yardPast 7) := by
    refine ⟨⟨_, rfl, rfl⟩, by rfl, ?_⟩
    refine ⟨[(yard 6).flow, (yard 5).flow, (yard 4).flow, (yard 3).flow, (yard 2).flow],
      [(yard 0).flow], rfl, ?_⟩
    decide +kernel
  have completes : Flow.Completes yardStory 8 := .inr ⟨_, rfl, rfl⟩
  obtain ⟨_, resumes⟩ :=
    isolated.resumes yardSetup (yard 7) 1 8 (yard 1).flow rfl rfl (by rfl) completes stands
      (by decide +kernel)
  have offered : ⟨0, "", [], 3, ⟨[], ⟨.root, 0, false, [("sheep", .int 9)]⟩⟩⟩ ∈
      (yard 7).flow.offers := by
    decide +kernel
  exact
    ⟨chronicle, stands, by decide +kernel, by decide +kernel, resumes, _, offered, by rfl,
      isolated.gathered _ offered⟩

end Play

end Fabula
