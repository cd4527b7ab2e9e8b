import Fabula.Proofs.Alongside
import Fabula.Proofs.Canonical
import Fabula.Proofs.Resumption
import Fabula.Proofs.Steady

namespace Fabula

/-!
# Lookahead is transparent without glue

With lookahead a runner finds the end of a line by looking at what follows it; without, it
stops at the first line end.  So the two take an ordinary story apart at different places.
What is read up to the next choice is still the same, because it is what the run that keeps
its output ends with, and every line is rendered on its own wherever it is cut off.
-/

/-- The same setup, with or without lookahead. -/
def Setup.reading
    (setup : Setup)
    (lookahead : Bool) :
    Setup :=
  { setup with config := { setup.config with lookahead := lookahead } }

namespace Play

variable {σ τ : Type} {view : Audience σ → τ} {quiet : CallbackId → Prop} {host : Host σ}
  {setup : Setup}

/-! ## Plain runs do not look ahead -/

theorem plainAdvance?_reading
    (setup : Setup)
    (left right : Bool)
    (play : Play σ) :
    play.plainAdvance? (setup.reading left) host = play.plainAdvance? (setup.reading right) host :=
  rfl

theorem PlainRun.reading
    {left : Bool}
    {count : Nat}
    {play last : Play σ}
    (run : PlainRun (setup.reading left) host count play last)
    (right : Bool) :
    PlainRun (setup.reading right) host count play last := by
  induction run with
  | refl play =>
      exact .refl play
  | advance _ moved inductionHypothesis =>
      exact .advance inductionHypothesis moved

theorem Finish.reading
    {left : Bool}
    {count : Nat}
    {play last : Play σ}
    (finish : Finish (setup.reading left) host count play last)
    (right : Bool) :
    Finish (setup.reading right) host count play last :=
  ⟨finish.run.reading right, finish.halted, finish.genuine⟩

/-! ## Readings beside the same run -/

/-- Two readings beside the same run give the same, and leave two runners alongside. -/
theorem ReadsTo.agree
    {left right : Bool}
    (discreet : host.Discreet (setup.reading right) view quiet)
    (story : setup.story.Ordinary)
    {far after other : Play σ}
    {result otherResult : Except Error String}
    (reads : ReadsTo (setup.reading left) host view quiet far result after)
    (otherReads : ReadsTo (setup.reading right) host view quiet far otherResult other) :
    result = otherResult ∧
      Alongside view quiet [] after other ∧
      after.failure = other.failure := by
  cases reads with
  | stopped stopped usable taken =>
      cases otherReads with
      | stopped _ otherUsable otherTaken =>
          exact ⟨rfl, taken.trans otherTaken.symm, usable.trans otherUsable.symm⟩
      | failed settled alongside _ moved =>
          obtain ⟨_, failed, _⟩ := alongside.failed discreet story settled moved
          rw [plainAdvance?_reading setup left right] at stopped
          rw [stopped] at failed
          cases failed
  | failed settled alongside unended moved failure follows =>
      rw [plainAdvance?_reading setup left right] at moved
      obtain ⟨far, farFailed, _⟩ := alongside.failed discreet story settled moved
      cases otherReads with
      | stopped stopped =>
          rw [stopped] at farFailed
          cases farFailed
      | failed otherSettled otherAlongside otherUnended otherMoved otherFailure otherFollows =>
          have middles :=
            alongside.of_unended settled otherSettled otherAlongside unended otherUnended
          obtain ⟨_, sameFailed, lasts⟩ := middles.failed discreet story .nil moved
          rw [otherMoved] at sameFailed
          cases sameFailed
          have before := Alongside.of_follows follows lasts.ordinary_left
          have after := Alongside.of_follows otherFollows lasts.ordinary
          exact ⟨rfl, (before.trans lasts).trans after.symm, failure.trans otherFailure.symm⟩

/-! ## Two runners -/

/-- Runners that are equal, the tags of the line apart, over equal stores. -/
structure Level (left right : Play σ) : Prop where
  flow :
    { left.flow with tags := left.flow.tags.clearLine } =
      { right.flow with tags := right.flow.tags.clearLine }
  failure : left.failure = right.failure
  store : left.world.store = right.world.store

/-- Two runners between two calls that have read the same. -/
structure Paired
    (setup : Setup)
    (host : Host σ)
    (left right : Play σ) :
    Prop where
  alongside : Alongside (fun _ => ()) (fun _ => False) [] left right
  failure : left.failure = right.failure
  unwatched :
    ∃ number, left.world.Unwatched number ∧ right.world.Unwatched number
  /-- Unless the story has failed. -/
  rested :
    left.failure = none →
    left.Rested setup host ∧ right.Rested setup host

namespace Paired

variable {left right : Play σ}

theorem level
    (paired : Paired setup host left right) :
    Level left right where
  flow := by
    have output : left.flow.output = right.flow.output :=
      congrArg Output.mk paired.alongside.pieces.symm
    calc { left.flow with tags := left.flow.tags.clearLine }
        = { left.flow.core with
            output := left.flow.output, fallback := left.flow.fallback } := rfl
      _ = { right.flow.core with
            output := right.flow.output, fallback := right.flow.fallback } := by
          rw [paired.alongside.abreast.flow, output, paired.alongside.fallback]
      _ = { right.flow with tags := right.flow.tags.clearLine } := rfl
  failure := paired.failure
  store := by
    obtain ⟨number, leftUnwatched, rightUnwatched⟩ := paired.unwatched
    have same := paired.alongside.abreast.world.store
    have whole {world : World σ} (unwatched : world.Unwatched number) :
        world.store = { world.store.unobserved with nextObserver := number } := by
      obtain ⟨none, next⟩ := unwatched
      rw [← next, Store.unobserved, ← none]
    rw [whole leftUnwatched, whole rightUnwatched, same]

/-- Both runners offer the same choices, and making one leaves them paired. -/
theorem choose
    (paired : Paired setup host left right)
    (index : Nat) :
    (left.choose setup index).1 = (right.choose setup index).1 ∧
      Paired setup host (left.choose setup index).2 (right.choose setup index).2 := by
  have still := Flow.Still.start paired.alongside.abreast.flow
  have flowChoices : left.flow.choices = right.flow.choices :=
    still.reads Flow.choices fun _ => rfl
  have offers : left.hasChoices = right.hasChoices := by
    simp only [Runner.hasChoices, paired.failure, paired.alongside.abreast.ip, flowChoices]
  have choices : left.choices = right.choices := by
    rw [Runner.choices, Runner.choices, offers, flowChoices]
  simp only [Play.choose, Runner.ensureUsable, ← paired.failure, ← choices]
  cases failure : left.failure with
  | some error =>
      exact ⟨rfl, paired⟩
  | none =>
      cases found : left.choices[index]? with
      | none =>
          exact ⟨rfl, paired⟩
      | some choice =>
          have offered : choice ∈ right.flow.choices := by
            have inside := List.mem_of_getElem? found
            simp only [Runner.choices] at inside
            split at inside
            · exact flowChoices ▸ inside
            · cases inside
          have parallel :=
            Flow.select_parallel paired.alongside.abreast.flow setup.story
              (rfl : choice.unnumbered = choice.unnumbered)
          have ordinary : (right.select setup choice).Ordinary :=
            paired.alongside.ordinary.select
              (paired.alongside.ordinary.flow.choices choice offered)
          refine ⟨rfl, ?_, paired.failure, paired.unwatched, fun usable => ?_⟩
          · exact
              ⟨⟨parallel.core, paired.alongside.abreast.world.log _ _⟩,
                parallel.fallback paired.alongside.fallback, paired.alongside.pieces,
                ordinary.flow, ordinary.globals⟩
          · obtain ⟨leftRested, rightRested⟩ := paired.rested usable
            exact
              ⟨⟨leftRested.fresh, fun absent => absurd absent (Option.some_ne_none _)⟩,
                ⟨rightRested.fresh, fun absent => absurd absent (Option.some_ne_none _)⟩⟩

/--
Whatever one runner reads up to the next choice, the other one reads too if it is given
enough moves, and it stays paired.
-/
theorem getall
    (story : setup.story.Ordinary)
    (paired : Paired setup host left right)
    {leftMode : Bool}
    (rightMode : Bool)
    {fuel : Nat}
    {result : Except Error String}
    {after : Play σ}
    (read : left.getall (setup.reading leftMode) host fuel = (result, after))
    (finished : result ≠ .error .outOfSteps) :
    ∃ enough other,
      (∀ more,
        enough ≤ more →
        right.getall (setup.reading rightMode) host more = (result, other)) ∧
        Paired setup host after other := by
  have uncalled (mode : Bool) (binding : Binding) : ¬ (setup.reading mode).Calls binding :=
    story.uncalled binding
  have discreet (mode : Bool) :
      host.Discreet (setup.reading mode) (fun _ => ()) (fun _ => False) :=
    .of_uncalled (fun _ absent => absent.elim) (uncalled mode)
  cases failure : left.failure with
  | some error =>
      have idle : left.canContinue = false := by
        simp [Runner.canContinue, failure]
      have otherIdle : right.canContinue = false := by
        simp [Runner.canContinue, ← paired.failure, failure]
      obtain ⟨rfl, rfl⟩ := getLines_of_not_canContinue idle read finished
      refine ⟨1, right, fun more enough => ?_, paired⟩
      obtain ⟨more, rfl⟩ : ∃ fewer, more = fewer + 1 := ⟨more - 1, by omega⟩
      simp only [Play.getall, getLines, otherIdle, Bool.false_eq_true, if_false]
  | none =>
      obtain ⟨leftRested, rightRested⟩ := paired.rested failure
      obtain ⟨count, far, finish, reads⟩ :=
        getLines_readsTo (discreet leftMode) story .nil paired.alongside failure
          ⟨leftRested.fresh, leftRested.final⟩ read finished
      -- The run that keeps its output ends, so the other runner has enough moves as well.
      have arrives :=
        getLines_arrives (discreet rightMode) paired.alongside.abreast.world.rightObserved
          rightRested.fresh (finish.reading rightMode) (Nat.lt_succ_self count)
          (Nat.lt_succ_self count) ""
      rcases otherRead :
        getLines (setup.reading rightMode) host (count + 1) (count + 1) "" right with
        ⟨otherResult, other⟩
      rw [otherRead] at arrives
      obtain ⟨_, otherFar, otherFinish, otherReads⟩ :=
        getLines_readsTo (discreet rightMode) story .nil
          (paired.alongside.symm.trans paired.alongside) (paired.failure ▸ failure)
          ⟨rightRested.fresh, rightRested.final⟩ otherRead arrives
      cases (finish.reading rightMode).last_unique otherFinish
      obtain ⟨rfl, alongside, sameFailure⟩ := reads.agree (discreet rightMode) story otherReads
      refine ⟨count + 1, other, fun more enough => ?_, alongside, sameFailure, ?_, ?_⟩
      · have same := getLines_of_le enough enough (by rw [otherRead]; exact arrives)
        exact same.trans otherRead
      · obtain ⟨number, leftUnwatched, rightUnwatched⟩ := paired.unwatched
        have steady (mode : Bool) :
            World.Steady (setup.reading mode) host (World.Unwatched number) :=
          World.Unwatched.steady (uncalled mode) host number
        have leftAfter := (steady leftMode).getLines fuel fuel "" leftUnwatched
        have rightAfter :=
          (steady rightMode).getLines (count + 1) (count + 1) "" rightUnwatched
        rw [otherRead] at rightAfter
        rw [show getLines _ host fuel fuel "" left = _ from read] at leftAfter
        exact ⟨number, leftAfter, rightAfter⟩
      · intro usable
        have rested := reads.rested usable
        have otherRested := otherReads.rested (sameFailure ▸ usable)
        exact ⟨⟨rested.fresh, rested.final⟩, ⟨otherRested.fresh, otherRested.final⟩⟩

end Paired

/-! ## Playing -/

/-- What is asked of a runner that reads up to each choice and makes it. -/
inductive Demand where
  | getall
  | choose (index : Nat)
  deriving Repr, DecidableEq

/-- The call of the runner, with a number of moves. -/
def Demand.call (fuel : Nat) : Demand → Call
  | .getall => .getall fuel
  | .choose index => .choose index

/-- What a runner answers to a demand when it is given enough moves. -/
structure Answers
    (setup : Setup)
    (host : Host σ)
    (play : Play σ)
    (demand : Demand)
    (result : Except Error String)
    (after : Play σ) :
    Prop where
  finished : result ≠ .error .outOfSteps
  settles :
    ∃ enough,
      ∀ fuel,
        enough ≤ fuel →
        play.perform setup host (demand.call fuel) = (result, after)

/-- An answer that is given once is given whenever there are more moves. -/
theorem Answers.of_perform
    {play after : Play σ}
    {demand : Demand}
    (fuel : Nat)
    {result : Except Error String}
    (performed : play.perform setup host (demand.call fuel) = (result, after))
    (finished : result ≠ .error .outOfSteps) :
    Answers setup host play demand result after := by
  refine ⟨finished, fuel, fun more enough => ?_⟩
  cases demand with
  | choose index =>
      exact performed
  | getall =>
      have read : getLines setup host fuel fuel "" play = (result, after) := performed
      have same := getLines_of_le enough enough (by rw [read]; exact finished)
      exact same.trans read

/-- A transcript of demands and answers leads from one play to another. -/
inductive Plays
    (setup : Setup)
    (host : Host σ) :
    Play σ → List (Demand × Except Error String) → Play σ → Prop where
  | nil (play : Play σ) :
      Plays setup host play [] play
  | cons
      {play next last : Play σ}
      {demand : Demand}
      {result : Except Error String}
      {transcript : List (Demand × Except Error String)}
      (answers : Answers setup host play demand result next)
      (rest : Plays setup host next transcript last) :
      Plays setup host play ((demand, result) :: transcript) last

namespace Paired

variable {left right : Play σ}

/-- Paired runners answer a demand alike. -/
theorem answers
    (story : setup.story.Ordinary)
    (paired : Paired setup host left right)
    {leftMode : Bool}
    (rightMode : Bool)
    {demand : Demand}
    {result : Except Error String}
    {after : Play σ}
    (answers : Answers (setup.reading leftMode) host left demand result after) :
    ∃ other,
      Answers (setup.reading rightMode) host right demand result other ∧
        Paired setup host after other := by
  obtain ⟨finished, enough, settles⟩ := answers
  have performed := settles enough (Nat.le_refl enough)
  cases demand with
  | getall =>
      obtain ⟨more, other, reads, paired⟩ :=
        paired.getall story rightMode performed finished
      exact ⟨other, ⟨finished, more, reads⟩, paired⟩
  | choose index =>
      obtain ⟨same, paired⟩ := paired.choose index
      simp only [perform, Demand.call, Prod.mk.injEq] at performed
      obtain ⟨rfl, rfl⟩ := performed
      refine ⟨_, ⟨finished, 0, fun fuel _ => ?_⟩, paired⟩
      exact Prod.ext (congrArg (Except.map fun _ => "") same.symm) rfl

/-- Paired runners play the same transcripts. -/
theorem plays
    (story : setup.story.Ordinary)
    (paired : Paired setup host left right)
    {leftMode : Bool}
    (rightMode : Bool)
    {transcript : List (Demand × Except Error String)}
    {after : Play σ}
    (plays : Plays (setup.reading leftMode) host left transcript after) :
    ∃ other,
      Plays (setup.reading rightMode) host right transcript other ∧
        Paired setup host after other := by
  induction plays generalizing right with
  | nil =>
      exact ⟨right, .nil right, paired⟩
  | cons answers _ inductionHypothesis =>
      obtain ⟨_, otherAnswers, paired⟩ := paired.answers story rightMode answers
      obtain ⟨last, rest, paired⟩ := inductionHypothesis paired
      exact ⟨last, .cons otherAnswers rest, paired⟩

/-- Two runners at the start of an ordinary story over equal stores that nobody observes. -/
theorem starting
    {leftWorld rightWorld : World σ}
    (stores : leftWorld.store = rightWorld.store)
    (unobserved : leftWorld.store.observers = [])
    (globals : ∀ value ∈ leftWorld.store.values, value.Ordinary) :
    Paired setup host (starting setup leftWorld) (starting setup rightWorld) where
  alongside :=
    { abreast :=
        { flow := rfl
          world :=
            { store := congrArg Store.unobserved stores
              audience := rfl
              leftObserved := by
                intro observer inside
                rw [show (Play.starting setup leftWorld).world.store.observers = [] from
                  unobserved] at inside
                cases inside
              rightObserved := by
                intro observer inside
                rw [show (Play.starting setup rightWorld).world.store.observers = [] from
                  stores ▸ unobserved] at inside
                cases inside } }
      fallback := rfl
      pieces := rfl
      ordinary := ⟨Flow.start_ordinary _ _, stores ▸ globals⟩ }
  failure := rfl
  unwatched := ⟨_, ⟨unobserved, rfl⟩, ⟨stores ▸ unobserved, congrArg _ stores.symm⟩⟩
  rested _ := by
    have final (world : World σ) (stopped : (Play.starting setup world).flow.ip = none) :
        (Play.starting setup world).plainAdvance? setup host = none := by
      rw [plainAdvance?_of_stopped stopped]
      rfl
    exact ⟨⟨rfl, final leftWorld⟩, ⟨rfl, final rightWorld⟩⟩

end Paired

/--
Lookahead is transparent.  Take a loaded story without glue and without calls of functions,
whose texts have no blanks but spaces, tabs and line ends, and two worlds with equal stores
that nobody observes and whose values have no other blanks either.  Whatever a runner
answers with lookahead to demands for text and to choices, a runner without lookahead
answers as well, and the other way round; and at every point the two are equal, the tags of
the line apart, over equal stores.
-/
theorem lookahead_transparent
    {octets : List UInt8}
    {story : Story}
    (loaded : Story.ofOctets octets = .ok story)
    (strings : ∀ text ∈ story.strings, Text.Ordinary text)
    (commands :
      ∀ instruction ∈ story.instructions,
        instruction.command ≠ .glue ∧
          instruction.command ≠ .function ∧
          instruction.command ≠ .callExternal)
    (bindings : Bindings)
    (config : Config)
    (host : Host σ)
    {left right : World σ}
    (stores : left.store = right.store)
    (unobserved : left.store.observers = [])
    (globals : ∀ value ∈ left.store.values, value.Ordinary)
    (lookahead : Bool)
    {transcript : List (Demand × Except Error String)}
    {after : Play σ}
    (plays :
      Plays (Setup.reading ⟨story, bindings, config⟩ lookahead) host
        (starting (Setup.reading ⟨story, bindings, config⟩ lookahead) left) transcript after) :
    ∃ other,
      Plays (Setup.reading ⟨story, bindings, config⟩ !lookahead) host
          (starting (Setup.reading ⟨story, bindings, config⟩ !lookahead) right)
          transcript other ∧
        Level after other := by
  have ordinary := Story.ordinary_of_loaded loaded strings commands
  have start : Paired ⟨story, bindings, config⟩ host _ _ :=
    .starting stores unobserved globals
  obtain ⟨other, otherPlays, paired⟩ := start.plays ordinary (!lookahead) plays
  exact ⟨other, otherPlays, paired.level⟩

/-! ## A ferry -/

/-- A story that writes its news behind a line end and then offers a choice. -/
def ferryTables : Tables where
  strings := ["Rain.", "news", "The ferry lands.", "Board", "Aboard."]
  lists := []
  literals := []
  globals := [(1, .str 0)]
  containers := []
  instructions :=
    [⟨.str, 0, 2⟩, ⟨.newline, 0, 0⟩, ⟨.startEval, 0, 0⟩, ⟨.pushVariable, 0, 1⟩,
      ⟨.output, 0, 0⟩, ⟨.endEval, 0, 0⟩, ⟨.startEval, 0, 0⟩, ⟨.startStr, 0, 0⟩,
      ⟨.str, 0, 3⟩, ⟨.endStr, 0, 0⟩, ⟨.endEval, 0, 0⟩, ⟨.choice, 4, 13⟩, ⟨.done, 0, 0⟩,
      ⟨.str, 0, 4⟩, ⟨.newline, 0, 0⟩, ⟨.finish, 0, 0⟩]

def ferryStory : Story where
  instructions := ferryTables.instructions.toArray
  strings := ferryTables.strings.toArray
  literals := #[]
  containers := #[]
  declarations := ⟨[⟨"news", .str "Rain."⟩], ⟨#[]⟩⟩

theorem ferryStory_loaded :
    Story.ofOctets (StoryFormat.encode ferryTables) = .ok ferryStory := by
  have fit : StoryFormat.TablesFit ferryTables := by decide +kernel
  rw [StoryFormat.ofOctets_encode fit]
  rfl

/-- The texts of the ferry are ordinary, and it glues nothing and calls no function. -/
theorem ferryStory_texts :
    (∀ text ∈ ferryStory.strings, Text.Ordinary text) ∧
      ∀ instruction ∈ ferryStory.instructions,
        instruction.command ≠ .glue ∧
          instruction.command ≠ .function ∧
          instruction.command ≠ .callExternal := by
  decide

def ferrySetup : Setup :=
  ⟨ferryStory, .empty, .standard⟩

/-- The ferry's variables, with some news. -/
def ferryWorld (news : String) : World Unit :=
  (World.assign idleHost "news" (.str news)
    ⟨Store.start ferryStory.declarations, #[], ()⟩).2

/-- The news are looked at behind the line end, and are not lost. -/
theorem lookahead_transparent_ferry :
    ∃ after other,
      Plays (ferrySetup.reading true) idleHost
          (starting (ferrySetup.reading true) (ferryWorld "\tFog."))
          [(.getall, .ok "The ferry lands.\nFog."), (.choose 0, .ok ""),
            (.getall, .ok "Aboard.\n")]
          after ∧
        Plays (ferrySetup.reading false) idleHost
          (starting (ferrySetup.reading false) (ferryWorld "\tFog."))
          [(.getall, .ok "The ferry lands.\nFog."), (.choose 0, .ok ""),
            (.getall, .ok "Aboard.\n")]
          other ∧
        Level after other := by
  have plays :
      Plays (ferrySetup.reading true) idleHost
        (starting (ferrySetup.reading true) (ferryWorld "\tFog."))
        [(.getall, .ok "The ferry lands.\nFog."), (.choose 0, .ok ""),
          (.getall, .ok "Aboard.\n")] _ :=
    .cons (.of_perform 20 (Prod.ext (by rfl) rfl) (by simp)) <|
      .cons (.of_perform 20 (Prod.ext (by rfl) rfl) (by simp)) <|
        .cons (.of_perform 20 (Prod.ext (by rfl) rfl) (by simp)) <|
          .nil _
  have globals : ∀ value ∈ (ferryWorld "\tFog.").store.values, value.Ordinary := by
    intro value inside
    cases List.mem_singleton.mp inside
    have ordinary : Text.Ordinary "\tFog." := by decide
    exact ordinary
  obtain ⟨other, otherPlays, level⟩ :=
    lookahead_transparent ferryStory_loaded ferryStory_texts.1 ferryStory_texts.2 .empty
      .standard idleHost rfl rfl globals true plays
  exact ⟨_, other, plays, otherPlays, level⟩

/--
News of a blank that is neither a space nor a tab are read differently: with lookahead they
follow the line end and hide it, without they are a line of their own.
-/
theorem not_lookahead_transparent_of_blank :
    Story.ofOctets (StoryFormat.encode ferryTables) = .ok ferryStory ∧
      (∀ text ∈ ferryStory.strings, Text.Ordinary text) ∧
      (∀ instruction ∈ ferryStory.instructions,
        instruction.command ≠ .glue ∧
          instruction.command ≠ .function ∧
          instruction.command ≠ .callExternal) ∧
      (ferryWorld "\u00a0").store.observers = [] ∧
      ∃ after other,
        Plays (ferrySetup.reading true) idleHost
            (starting (ferrySetup.reading true) (ferryWorld "\u00a0"))
            [(.getall, .ok "The ferry lands.")]
            after ∧
          Plays (ferrySetup.reading false) idleHost
            (starting (ferrySetup.reading false) (ferryWorld "\u00a0"))
            [(.getall, .ok "The ferry lands.\n")]
            other := by
  have joined :
      Plays (ferrySetup.reading true) idleHost
        (starting (ferrySetup.reading true) (ferryWorld "\u00a0"))
        [(.getall, .ok "The ferry lands.")] _ :=
    .cons (.of_perform 20 (Prod.ext (by rfl) rfl) (by simp)) (.nil _)
  have apart :
      Plays (ferrySetup.reading false) idleHost
        (starting (ferrySetup.reading false) (ferryWorld "\u00a0"))
        [(.getall, .ok "The ferry lands.\n")] _ :=
    .cons (.of_perform 20 (Prod.ext (by rfl) rfl) (by simp)) (.nil _)
  exact
    ⟨ferryStory_loaded, ferryStory_texts.1, ferryStory_texts.2, rfl, _, _, joined, apart⟩

end Play

end Fabula
