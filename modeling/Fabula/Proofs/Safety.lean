import Fabula.Proofs.Canonical
import Fabula.Proofs.RealmRun

namespace Fabula

/-!
# Safe runs

A loaded story runs safely whatever its host does, as long as the host supplies no address
beyond the end of the story.  In every state between calls and inside them, looking ahead
included, there is a count and a turn for each container, call stacks start with the frame
of the story itself, addresses lie inside the story and no turn is remembered that has not
come yet.
-/

/-- The address that a value leads to. -/
def Value.address? : Value → Option Nat
  | .divert target => some target.toNat
  | _ => none

/-- The addresses that a call stack leads to: where it returns to, and what it holds. -/
def CallStack.addresses (stack : CallStack) : List Nat :=
  stack.frames.flatMap fun frame =>
    frame.returnTo :: frame.temps.filterMap fun entry => entry.2.address?

/-- The choices of a flow and its fallback. -/
def Flow.offers (flow : Flow) : List Choice :=
  flow.choices ++ flow.fallback.toList

/-- The call stacks of a flow, of those that wait for it and of its choices. -/
def Flow.callStacks (flow : Flow) : List CallStack :=
  flow.callStack ::
    (flow.threads.map SuspendedFlow.callStack ++ flow.offers.map Choice.callStack)

theorem Flow.mem_callStacks
    {flow : Flow}
    {stack : CallStack} :
    stack ∈ flow.callStacks ↔
      stack = flow.callStack ∨
        (∃ waiting ∈ flow.threads, waiting.callStack = stack) ∨
        ∃ choice ∈ flow.offers, choice.callStack = stack := by
  simp [callStacks]

/-- All addresses that a flow can lead to. -/
def Flow.addresses (flow : Flow) : List Nat :=
  flow.ip.toList ++ flow.threads.map SuspendedFlow.resumeAt ++ flow.offers.map Choice.target ++
    flow.callStacks.flatMap CallStack.addresses ++ flow.eval.filterMap Value.address?

/-- All addresses in a store, those that may come back when writes are undone included. -/
def Store.addresses (store : Store) : List Nat :=
  (store.values ++ store.journals.flatten.flatMap fun write => [write.new, write.old]).filterMap
    Value.address?

/-- A call stack with the frame of the story itself at its start and nowhere else. -/
structure CallStack.Rooted (stack : CallStack) : Prop where
  nonempty : stack.frames ≠ []
  root :
    ∀ index frame,
      stack.frame? index = some frame →
      (frame.kind = .root ↔ index = 0)

/-- The payload of an instruction is the position of a text. -/
def Instruction.ReadsText (instruction : Instruction) : Prop :=
  instruction.command ∈
      [.str, .tag, .divertToVariable, .defineTemp, .setVariable, .pushVariable, .valuePointer,
        .callExternal] ∨
    instruction.command ∈ [.tunnel, .function, .thread] ∧
      instruction.hasFlag DivertFlag.toVariable = true

/-- The payload of an instruction is the number of a container. -/
def Instruction.NamesContainer (instruction : Instruction) : Prop :=
  instruction.command ∈ [.startContainer, .endContainer, .readCount]

/-- A flow that can be run without leaving the story or its own tables. -/
structure Flow.Safe (story : Story) (flow : Flow) : Prop where
  visits : flow.visits.length = story.containerCount
  turnVisited : flow.turnVisited.length = story.containerCount
  containers : ∀ id ∈ flow.containers, id.toNat < story.containerCount
  callStacks : ∀ stack ∈ flow.callStacks, stack.Rooted
  addresses : ∀ address ∈ flow.addresses, address ≤ story.instructionCount
  dates : ∀ date, some date ∈ flow.turnVisited → date ≤ flow.turn
  texts :
    ∀ address instruction,
      story.instruction? address = some instruction →
      instruction.ReadsText →
      instruction.payload.toNat < story.strings.size
  literals :
    ∀ address instruction,
      story.instruction? address = some instruction →
      instruction.command = .list →
      instruction.payload.toNat < story.literals.size
  /-- A container that an instruction names exists, and has a count and a turn. -/
  entries :
    ∀ address instruction,
      story.instruction? address = some instruction →
      instruction.NamesContainer →
      instruction.payload.toNat < story.containerCount ∧
        instruction.payload.toNat < flow.visits.length ∧
        instruction.payload.toNat < flow.turnVisited.length
  /-- So has a container that a divert leads to. -/
  targets :
    ∀ address id,
      story.containerStartingAt? address = some id →
      id < flow.visits.length ∧ id < flow.turnVisited.length
  /-- The number of turns since a visit does not wrap around. -/
  elapsed :
    ∀ date,
      some date ∈ flow.turnVisited →
      (flow.turn - date).toNat = flow.turn.toNat - date.toNat

/-! ## What the loader admits -/

theorem Loader.Bounds.text_of_admits
    {bounds : Loader.Bounds}
    {instruction : Instruction}
    (admitted : bounds.admits instruction = true)
    (reads : instruction.ReadsText) :
    instruction.payload.toNat < bounds.strings := by
  simp only [Instruction.ReadsText, List.mem_cons, List.not_mem_nil, or_false] at reads
  rcases reads with always | ⟨divert, toVariable⟩
  · rcases always with here | here | here | here | here | here | here | here <;>
      simpa [Loader.Bounds.admits, here] using admitted
  · rcases divert with here | here | here <;>
      simpa [Loader.Bounds.admits, here, toVariable] using admitted

theorem Loader.Bounds.container_of_admits
    {bounds : Loader.Bounds}
    {instruction : Instruction}
    (admitted : bounds.admits instruction = true)
    (names : instruction.NamesContainer) :
    instruction.payload.toNat < bounds.containers := by
  simp only [Instruction.NamesContainer, List.mem_cons, List.not_mem_nil, or_false] at names
  rcases names with here | here | here <;>
    simpa [Loader.Bounds.admits, here] using admitted

/-! ## The realm of a loaded story -/

/-- The realm of any sets of flags and any store, in which turns of the past are remembered. -/
def Realm.ofLoaded
    {octets : List UInt8}
    {story : Story}
    (loaded : Story.ofOctets octets = .ok story) :
    Realm story where
  sound := Story.ofOctets_sound loaded
  Allowed _ := True
  closed := by constructor <;> intros <;> trivial
  literals _ _ := trivial
  Declares _ _ := True
  Dated date turn := date ≤ turn
  today turn := UInt32.le_refl turn

section Loaded

variable {octets : List UInt8} {story : Story} {loaded : Story.ofOctets octets = .ok story}

/-- Turns of the past stay in the past while turns can be counted. -/
theorem Realm.ofLoaded_passes
    {turn : UInt32}
    (counts : turn.toNat + 1 < UInt32.size) :
    (Realm.ofLoaded loaded).Passes turn := by
  intro date past
  have before : date.toNat ≤ turn.toNat := UInt32.le_iff_toNat_le.mp past
  have next : (turn + 1).toNat = turn.toNat + 1 :=
    (UInt32.toNat_add turn 1).trans (Nat.mod_eq_of_lt counts)
  refine UInt32.le_iff_toNat_le.mpr ?_
  rw [next]
  exact Nat.le_succ_of_le before

theorem Value.Within.address
    {realm : Realm story}
    {value : Value}
    (within : value.Within realm)
    {address : Nat}
    (leads : value.address? = some address) :
    address ≤ story.instructionCount := by
  cases value with
  | divert target =>
      obtain rfl := Option.some.inj leads
      exact within
  | _ => cases leads

theorem CallStack.Within.rooted
    {realm : Realm story}
    {stack : CallStack}
    (within : stack.Within realm) :
    stack.Rooted where
  nonempty := List.cons_ne_nil _ _
  root index frame found := by
    cases index with
    | zero =>
        obtain rfl := Option.some.inj found
        exact iff_of_true within.root rfl
    | succ index =>
        have called : frame ∈ stack.calls :=
          List.mem_reverse.mp (List.mem_of_getElem? found)
        exact iff_of_false (within.calls frame called) (Nat.succ_ne_zero index)

theorem CallStack.Within.addresses
    {realm : Realm story}
    {stack : CallStack}
    (within : stack.Within realm)
    {address : Nat}
    (member : address ∈ stack.addresses) :
    address ≤ story.instructionCount := by
  obtain ⟨frame, inside, leads⟩ := List.mem_flatMap.mp member
  have frameWithin := within.frames frame inside
  rcases List.mem_cons.mp leads with rfl | held
  · exact frameWithin.returnTo
  · obtain ⟨entry, stored, leads⟩ := List.mem_filterMap.mp held
    exact (frameWithin.temps entry stored).address leads

theorem Flow.Within.offers
    {realm : Realm story}
    {flow : Flow}
    (within : flow.Within realm)
    {choice : Choice}
    (offered : choice ∈ flow.offers) :
    choice.Within realm := by
  rcases List.mem_append.mp offered with shown | fallback
  · exact within.choices choice shown
  · exact within.fallback choice (Option.mem_toList.mp fallback)

theorem Flow.Within.callStacks
    {realm : Realm story}
    {flow : Flow}
    (within : flow.Within realm)
    {stack : CallStack}
    (member : stack ∈ flow.callStacks) :
    stack.Within realm := by
  rcases List.mem_cons.mp member with rfl | others
  · exact within.callStack
  rcases List.mem_append.mp others with waits | offered
  · obtain ⟨waiting, inside, rfl⟩ := List.mem_map.mp waits
    exact (within.threads waiting inside).callStack
  · obtain ⟨choice, inside, rfl⟩ := List.mem_map.mp offered
    exact (within.offers inside).callStack

theorem Flow.Within.addresses
    {realm : Realm story}
    {flow : Flow}
    (within : flow.Within realm)
    {address : Nat}
    (member : address ∈ flow.addresses) :
    address ≤ story.instructionCount := by
  simp only [Flow.addresses, List.mem_append, List.mem_map, List.mem_flatMap, List.mem_filterMap,
    Option.mem_toList] at member
  rcases member with (((next | ⟨waiting, inside, rfl⟩) | ⟨choice, offered, rfl⟩) |
    ⟨stack, inside, leads⟩) | ⟨value, pushed, leads⟩
  · exact within.ip address next
  · exact (within.threads waiting inside).resumeAt
  · exact (within.offers offered).target
  · exact (within.callStacks inside).addresses leads
  · exact (within.eval value pushed).address leads

theorem Store.Within.addresses
    {realm : Realm story}
    {store : Store}
    (within : store.Within realm)
    {address : Nat}
    (member : address ∈ store.addresses) :
    address ≤ story.instructionCount := by
  obtain ⟨value, held, leads⟩ := List.mem_filterMap.mp member
  suffices value.Within realm from this.address leads
  rcases List.mem_append.mp held with present | undone
  · exact within.values value present
  · obtain ⟨write, written, either⟩ := List.mem_flatMap.mp undone
    obtain ⟨journal, kept, inside⟩ := List.mem_flatten.mp written
    have writeWithin := within.journals journal kept write inside
    rcases List.mem_cons.mp either with rfl | old
    · exact writeWithin.new
    · exact List.mem_singleton.mp old ▸ writeWithin.old

/-- The values that a story declares belong to its realm, and so does a new store. -/
theorem Store.start_within :
    (Store.start story.declarations).Within (.ofLoaded loaded) where
  declares := trivial
  values value member := by
    have native := (Story.ofOctets_sound loaded).initialValues value member
    cases value with
    | divert target => exact native
    | _ => trivial
  journals := by simp [Store.start, Store.ofValues]

/-- What instructions refer to exists in a loaded story, so it is enough that the flow fits. -/
theorem Flow.Safe.of_loaded
    (loaded : Story.ofOctets octets = .ok story)
    {flow : Flow}
    (visits : flow.visits.length = story.containerCount)
    (turnVisited : flow.turnVisited.length = story.containerCount)
    (containers : ∀ id ∈ flow.containers, id.toNat < story.containerCount)
    (callStacks : ∀ stack ∈ flow.callStacks, stack.Rooted)
    (addresses : ∀ address ∈ flow.addresses, address ≤ story.instructionCount)
    (dates : ∀ date, some date ∈ flow.turnVisited → date ≤ flow.turn) :
    flow.Safe story where
  visits := visits
  turnVisited := turnVisited
  containers := containers
  callStacks := callStacks
  addresses := addresses
  dates := dates
  texts address instruction here reads :=
    Loader.Bounds.text_of_admits ((Story.ofOctets_sound loaded).admitted _ _ here) reads
  literals address instruction here list := by
    simpa [Loader.Bounds.admits, list] using (Story.ofOctets_sound loaded).admitted _ _ here
  entries address instruction here names := by
    have inside : instruction.payload.toNat < story.containerCount :=
      Loader.Bounds.container_of_admits ((Story.ofOctets_sound loaded).admitted _ _ here) names
    rw [visits, turnVisited]
    exact ⟨inside, inside, inside⟩
  targets address id starts := by
    have inside : id < story.containerCount :=
      (Array.findIdx?_eq_some_iff_findIdx_eq.mp starts).1
    rw [visits, turnVisited]
    exact ⟨inside, inside⟩
  elapsed date member :=
    UInt32.toNat_sub_of_le _ _ (dates date member)

/-- Flows of the realm of a loaded story are safe. -/
theorem Flow.Within.safe
    {flow : Flow}
    (within : flow.Within (.ofLoaded loaded)) :
    flow.Safe story :=
  .of_loaded loaded within.visits within.turnVisited within.containers
    (fun _ member => (within.callStacks member).rooted) (fun _ member => within.addresses member)
    within.dates

end Loaded

/-! ## Reached states -/

namespace Play

variable {σ : Type} {story : Story} {realm : Realm story} {host : Host σ} {depth : Nat}

/-- What a runner is doing. -/
inductive Phase where
  /-- Nothing: it waits for a call. -/
  | resting
  /-- It looks for the end of a line, and is about to make a move. -/
  | reading (bindings : Bindings) (config : Config) (checkpoint : Option Checkpoint)
  /-- It is in the middle of a move. -/
  | moving (bindings : Bindings) (config : Config) (checkpoint : Option Checkpoint)

/-- What can be come back to. -/
def Phase.checkpoint? : Phase → Option Checkpoint
  | .resting => none
  | .reading _ _ checkpoint => checkpoint
  | .moving _ _ checkpoint => checkpoint

/-- Turns can be counted when another one passes. -/
def Counts (play : Play σ) : Prop :=
  play.flow.turn.toNat + 1 < UInt32.size

/--
The states of the runners of a story, between calls and inside them, with what they are
doing and the number of speculations around it.  Bindings and settings may change between
calls, and so may the world when the host writes to the store, or when a runner that shares it
looks ahead.  Turns that could no longer be counted are left out.
-/
inductive Reached
    (realm : Realm story)
    (host : Host σ) :
    Nat → Phase → Play σ → Prop where
  | start
      (config : Config)
      {depth : Nat}
      {world : World σ}
      (within : world.Within realm depth) :
      Reached realm host depth .resting ⟨.start story config, world⟩
  | meanwhile
      {before depth : Nat}
      {play : Play σ}
      {world : World σ}
      (within : world.Within realm depth)
      (reached : Reached realm host before .resting play) :
      Reached realm host depth .resting { play with world := world }
  | choose
      (bindings : Bindings)
      (config : Config)
      (index : Nat)
      {depth : Nat}
      {play : Play σ}
      (counts : play.Counts)
      (reached : Reached realm host depth .resting play) :
      Reached realm host depth .resting (play.choose ⟨story, bindings, config⟩ index).2
  | moveTo
      (bindings : Bindings)
      (config : Config)
      (path : String)
      {depth : Nat}
      {play : Play σ}
      (reached : Reached realm host depth .resting play) :
      Reached realm host depth .resting (play.moveTo ⟨story, bindings, config⟩ path).2
  /-- A call that reads a line begins. -/
  | read
      (bindings : Bindings)
      (config : Config)
      {depth : Nat}
      {play : Play σ}
      (usable : play.failure = none)
      (more : play.flow.ip.isSome = true)
      (reached : Reached realm host depth .resting play) :
      Reached realm host depth (.reading bindings config none) play.clearLine
  /-- A move that does not end the line. -/
  | advance
      {bindings : Bindings}
      {config : Config}
      {checkpoint next : Option Checkpoint}
      {depth : Nat}
      {play after : Play σ}
      (counts : play.FallsBack → play.Counts)
      (moved : play.advance ⟨story, bindings, config⟩ host checkpoint = .going next after)
      (reached : Reached realm host depth (.reading bindings config checkpoint) play) :
      Reached realm host depth (.reading bindings config next) after
  | line
      {bindings : Bindings}
      {config : Config}
      {checkpoint : Option Checkpoint}
      {depth : Nat}
      {play after : Play σ}
      (moved : play.advance ⟨story, bindings, config⟩ host checkpoint = .stopped (.ok ()) after)
      (reached : Reached realm host depth (.reading bindings config checkpoint) play) :
      Reached realm host depth .resting (after.takeLine ⟨story, bindings, config⟩).2
  | failure
      {bindings : Bindings}
      {config : Config}
      {checkpoint : Option Checkpoint}
      {depth : Nat}
      {play after : Play σ}
      {error : Error}
      (moved :
        play.advance ⟨story, bindings, config⟩ host checkpoint = .stopped (.error error) after)
      (reached : Reached realm host depth (.reading bindings config checkpoint) play) :
      Reached realm host depth .resting (after.fail error)
  | move
      {bindings : Bindings}
      {config : Config}
      {checkpoint : Option Checkpoint}
      {depth : Nat}
      {play : Play σ}
      (reached : Reached realm host depth (.reading bindings config checkpoint) play) :
      Reached realm host depth (.moving bindings config checkpoint) play
  /-- The instruction of a move has been carried out. -/
  | step
      {bindings : Bindings}
      {config : Config}
      {checkpoint : Option Checkpoint}
      {depth : Nat}
      {play : Play σ}
      {address : Nat}
      (here : play.flow.ip = some address)
      (reached : Reached realm host depth (.moving bindings config checkpoint) play) :
      Reached realm host depth (.moving bindings config checkpoint)
        (play.step ⟨story, bindings, config⟩ host address).2
  | rollback
      {bindings : Bindings}
      {config : Config}
      {saved : Checkpoint}
      {depth : Nat}
      {play : Play σ}
      (reached : Reached realm host depth (.moving bindings config (some saved)) play) :
      Reached realm host depth (.moving bindings config none)
        (play.rollback ⟨story, bindings, config⟩ saved)
  | commit
      {bindings : Bindings}
      {config : Config}
      {saved : Checkpoint}
      {depth : Nat}
      {play : Play σ}
      (reached : Reached realm host depth (.moving bindings config (some saved)) play) :
      Reached realm host depth (.moving bindings config none) (play.commit host (some saved))

/-- A play on its way and the flow that it can come back to belong to the realm. -/
theorem Underway.parts
    {checkpoint : Option Checkpoint}
    {play : Play σ}
    (underway : Underway realm depth checkpoint play) :
    (∃ inner, play.Within realm inner) ∧
      ∀ saved ∈ checkpoint, saved.flow.Within realm := by
  cases checkpoint with
  | none =>
      exact ⟨⟨depth, underway⟩, by simp⟩
  | some saved =>
      obtain ⟨flow, _, play⟩ := underway
      exact ⟨⟨depth + 1, play⟩, by simpa using flow⟩

/-- A move that takes the fallback does not end the line. -/
theorem advance_of_fallsBack
    (setup : Setup)
    (host : Host σ)
    (checkpoint : Option Checkpoint)
    {play : Play σ}
    (falls : play.FallsBack) :
    ∃ continued, play.advance setup host checkpoint = .going checkpoint continued := by
  obtain ⟨stopped, offered⟩ := falls
  obtain ⟨choice, held⟩ := Option.isSome_iff_exists.mp offered
  refine ⟨(play.emit setup [.fallbackChosen choice.target]).select setup choice, ?_⟩
  simp [Play.advance, stopped, Play.takeFallback?, held]

/-- The end of a line does not take a turn. -/
theorem Underway.stopped
    (setup : Setup)
    {realm : Realm setup.story}
    (hostWithin : host.Within realm)
    {checkpoint : Option Checkpoint}
    {play after : Play σ}
    {result : Except Error Unit}
    (underway : Underway realm depth checkpoint play)
    (moved : play.advance setup host checkpoint = .stopped result after) :
    after.Within realm depth := by
  have advanced := underway.advance setup hostWithin fun falls => by
    obtain ⟨continued, going⟩ := advance_of_fallsBack setup host checkpoint falls
    rw [going] at moved
    cases moved
  rw [moved] at advanced
  exact advanced

/-- Whatever a runner is doing, it stays in the realm. -/
theorem Reached.underway
    (passes : ∀ {turn : UInt32}, turn.toNat + 1 < UInt32.size → realm.Passes turn)
    (hostWithin : host.Within realm)
    {phase : Phase}
    {play : Play σ}
    (reached : Reached realm host depth phase play) :
    Underway realm depth phase.checkpoint? play := by
  induction reached with
  | start config within =>
      exact ⟨Flow.start_within realm _, within⟩
  | meanwhile within _ inductionHypothesis =>
      exact ⟨inductionHypothesis.flow, within⟩
  | choose bindings config index counts _ inductionHypothesis =>
      exact Play.Within.choose ⟨story, bindings, config⟩ inductionHypothesis (passes counts) index
  | moveTo bindings config path _ inductionHypothesis =>
      exact Play.Within.moveTo ⟨story, bindings, config⟩ inductionHypothesis path
  | read bindings config _ _ _ inductionHypothesis =>
      exact ⟨inductionHypothesis.flow.dressed _ _ _ _, inductionHypothesis.world⟩
  | @advance bindings config checkpoint _ depth play _ counts moved _ inductionHypothesis =>
      have before : Underway realm depth checkpoint play := inductionHypothesis
      have advanced :=
        Underway.advance ⟨story, bindings, config⟩ hostWithin before fun falls =>
          passes (counts falls)
      rw [moved] at advanced
      exact advanced
  | @line bindings config _ _ _ _ moved _ inductionHypothesis =>
      have ended :=
        Underway.stopped ⟨story, bindings, config⟩ hostWithin inductionHypothesis moved
      exact ⟨ended.flow.dressed _ _ _ _, ended.world.log _⟩
  | @failure bindings config _ _ _ _ _ moved _ inductionHypothesis =>
      have ended :=
        Underway.stopped ⟨story, bindings, config⟩ hostWithin inductionHypothesis moved
      exact ⟨ended.flow, ended.world.log _⟩
  | move _ inductionHypothesis =>
      exact inductionHypothesis
  | @step bindings config _ _ _ address _ _ inductionHypothesis =>
      exact Underway.step ⟨story, bindings, config⟩ hostWithin inductionHypothesis address
  | @rollback bindings config _ _ _ _ inductionHypothesis =>
      exact Underway.rollback ⟨story, bindings, config⟩ inductionHypothesis
  | commit _ inductionHypothesis =>
      exact Underway.commit hostWithin inductionHypothesis

/-- The states on the way to the end of a line, from a first one on. -/
inductive Along
    (setup : Setup)
    (host : Host σ)
    (checkpoint : Option Checkpoint)
    (play : Play σ) :
    Option Checkpoint → Play σ → Prop where
  | here : Along setup host checkpoint play checkpoint play
  | move
      {last next : Option Checkpoint}
      {before after : Play σ}
      (along : Along setup host checkpoint play last before)
      (moved : before.advance setup host last = .going next after) :
      Along setup host checkpoint play next after

theorem Along.uncons
    {setup : Setup}
    {checkpoint next last : Option Checkpoint}
    {play after later : Play σ}
    (moved : play.advance setup host checkpoint = .going next after)
    (along : Along setup host next after last later) :
    Along setup host checkpoint play last later := by
  induction along with
  | here => exact .move .here moved
  | move _ further inductionHypothesis => exact .move inductionHypothesis further

/-- The last move on the way to the end of a line is made from a reached state. -/
theorem Reached.advanceLine
    {bindings : Bindings}
    {config : Config}
    {checkpoint : Option Checkpoint}
    {play : Play σ}
    (fuel : Nat)
    (reached : Reached realm host depth (.reading bindings config checkpoint) play)
    (counts :
      ∀ last later,
        Along ⟨story, bindings, config⟩ host checkpoint play last later →
        later.FallsBack →
        later.Counts)
    {result : Except Error Unit}
    {after : Play σ}
    (read : Play.advanceLine ⟨story, bindings, config⟩ host fuel checkpoint play = (result, after))
    (finished : result ≠ .error .outOfSteps) :
    ∃ last before,
      Reached realm host depth (.reading bindings config last) before ∧
        before.advance ⟨story, bindings, config⟩ host last = .stopped result after := by
  induction fuel generalizing checkpoint play with
  | zero =>
      simp only [Play.advanceLine, Prod.mk.injEq] at read
      exact absurd read.1.symm finished
  | succ fuel inductionHypothesis =>
      simp only [Play.advanceLine] at read
      cases moved : play.advance ⟨story, bindings, config⟩ host checkpoint with
      | stopped ended stopped =>
          rw [moved] at read
          obtain ⟨rfl, rfl⟩ := Prod.mk.inj read
          exact ⟨checkpoint, play, reached, moved⟩
      | going next continued =>
          rw [moved] at read
          refine inductionHypothesis (.advance (counts _ _ .here) moved reached) ?_ read
          exact fun last later along => counts last later (along.uncons moved)

/-- A call that reads a line leads from a reached state to a reached state. -/
theorem Reached.getline
    {bindings : Bindings}
    {config : Config}
    {play : Play σ}
    (fuel : Nat)
    (reached : Reached realm host depth .resting play)
    (counts :
      ∀ last later,
        Along ⟨story, bindings, config⟩ host none play.clearLine last later →
        later.FallsBack →
        later.Counts)
    (finished :
      (play.getline ⟨story, bindings, config⟩ host fuel).1 ≠ .error .outOfSteps) :
    Reached realm host depth .resting (play.getline ⟨story, bindings, config⟩ host fuel).2 := by
  simp only [Play.getline] at finished ⊢
  cases broken : play.failure with
  | some error =>
      simpa [Runner.ensureUsable, broken] using reached
  | none =>
      cases more : play.flow.ip with
      | none =>
          simpa [Runner.ensureUsable, broken, more] using reached
      | some address =>
          have reading := Reached.read bindings config broken (by simp [more]) reached
          rcases read :
            Play.advanceLine ⟨story, bindings, config⟩ host fuel none play.clearLine with
            ⟨result, after⟩
          simp only [Runner.ensureUsable, broken, more, read, Option.isNone_some] at finished ⊢
          cases result with
          | error error =>
              obtain ⟨last, before, still, moved⟩ :=
                reading.advanceLine fuel counts read (by simpa using finished)
              exact .failure moved still
          | ok _ =>
              obtain ⟨last, before, still, moved⟩ :=
                reading.advanceLine fuel counts read (by simp)
              exact .line moved still

/--
A loaded story runs safely: in every state that its runners reach, between calls or inside
them, whatever the number of speculations around it, the flow is safe, so is the flow that it
can come back to, and the store holds no address beyond the end of the story.  A new runner over
a new store is reached, and calls that read lines lead from reached states to reached states, as
those that choose and move do, as long as turns can be counted.
-/
theorem reached_safe
    {octets : List UInt8}
    {story : Story}
    (loaded : Story.ofOctets octets = .ok story)
    (host : Host σ)
    (keeps : host.Within (.ofLoaded loaded)) :
    (∀ depth phase play,
      Reached (.ofLoaded loaded) host depth phase play →
      play.flow.Safe story ∧
        (∀ saved ∈ phase.checkpoint?, saved.flow.Safe story) ∧
        ∀ address ∈ play.world.store.addresses, address ≤ story.instructionCount) ∧
      (∀ config state,
        Reached (.ofLoaded loaded) host 0 .resting
          ⟨.start story config, ⟨Store.start story.declarations, #[], state⟩⟩) ∧
      ∀ depth bindings config fuel play,
        Reached (.ofLoaded loaded) host depth .resting play →
        (∀ last later,
          Along ⟨story, bindings, config⟩ host none play.clearLine last later →
          later.FallsBack →
          later.Counts) →
        (play.getline ⟨story, bindings, config⟩ host fuel).1 ≠ .error .outOfSteps →
        Reached (.ofLoaded loaded) host depth .resting
          (play.getline ⟨story, bindings, config⟩ host fuel).2 := by
  refine
    ⟨fun _ phase play reached => ?_,
      fun config state => .start config ⟨Store.start_within, rfl⟩,
      fun _ _ _ fuel _ reached => reached.getline fuel⟩
  have underway := reached.underway Realm.ofLoaded_passes keeps
  obtain ⟨⟨_, playWithin⟩, savedWithin⟩ := underway.parts
  refine ⟨playWithin.flow.safe, fun saved held => (savedWithin saved held).safe, ?_⟩
  exact fun address member => playWithin.world.store.addresses member

/-! ## A town -/

/-- A story of one knot, which counts its visits and keeps their turns. -/
def townTables : Tables where
  strings := ["town", "Quiet."]
  lists := []
  literals := []
  globals := [(0, .divert 5)]
  containers := [⟨0, 0, 4, 7⟩]
  instructions :=
    [⟨.startContainer, 0, 0⟩, ⟨.str, 0, 1⟩, ⟨.newline, 0, 0⟩, ⟨.done, 0, 0⟩,
      ⟨.endContainer, 0, 0⟩]

def townStory : Story where
  instructions := townTables.instructions.toArray
  strings := townTables.strings.toArray
  literals := #[]
  containers := #[⟨some "town", 0, 4, 7⟩]
  declarations := ⟨[⟨"town", .divert 5⟩], ⟨#[]⟩⟩

/-- A host whose functions lead to the end of the town. -/
def townHost : Host Unit where
  call _ _ world := (.ok (.divert 5), world)
  notify _ _ world := (.ok (), world)

def townSetup : Setup :=
  ⟨townStory, .empty, .standard⟩

/-- A runner at the start of the town, over a new store. -/
def townStart : Play Unit :=
  ⟨.start townStory .standard, ⟨Store.start townStory.declarations, #[], ()⟩⟩

/-- The town after its first instruction, which enters the knot. -/
def townEntered : Play Unit :=
  (Play.step townSetup townHost 0 townStart.clearLine).2

theorem townStory_loaded :
    Story.ofOctets (StoryFormat.encode townTables) = .ok townStory := by
  have fit : StoryFormat.TablesFit townTables := by decide +kernel
  rw [StoryFormat.ofOctets_encode fit]
  rfl

theorem reached_safe_town :
    townHost.Within (.ofLoaded townStory_loaded) ∧
      Reached (.ofLoaded townStory_loaded) townHost 0 (.moving .empty .standard none)
        townEntered ∧
      townEntered.flow.visits = [1] ∧
      townEntered.flow.turnVisited = [some 0] ∧
      townEntered.flow.Safe townStory := by
  have inside : Value.Within (.ofLoaded townStory_loaded) (.divert 5) := by
    change 5 ≤ townStory.instructionCount
    decide
  have keeps : townHost.Within (.ofLoaded townStory_loaded) :=
    ⟨fun _ _ _ _ _ within => ⟨.ok inside, within⟩, fun _ _ _ _ _ within => within⟩
  obtain ⟨safe, fresh, _⟩ := reached_safe townStory_loaded townHost keeps
  have reading :
      Reached (.ofLoaded townStory_loaded) townHost 0 (.reading .empty .standard none)
        townStart.clearLine :=
    .read .empty .standard rfl (by decide) (fresh .standard ())
  have first : townStart.clearLine.flow.ip = some 0 := by decide
  have reached :
      Reached (.ofLoaded townStory_loaded) townHost 0 (.moving .empty .standard none)
        townEntered :=
    .step first (.move reading)
  refine ⟨keeps, reached, by decide +kernel, by decide +kernel, ?_⟩
  exact (safe _ _ _ reached).1

end Play

end Fabula
