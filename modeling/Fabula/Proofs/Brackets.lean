import Fabula.Proofs.Courses
import Fabula.Proofs.References

namespace Fabula

/-!
# Brackets

A call opens a frame, and a return of the same kind closes it.  Between the two the frames
further out stay as they are, apart from temporaries that are written through references,
and other calls may be opened and closed.  What a single step can make of the frames is
listed by `Flow.Movement`.
-/

namespace Flow

variable {setup : Setup} {story : Story} {address : Nat} {kind : FrameKind}

/-- The instruction at an address calls; an unbound name stands for a function of the story. -/
inductive Calls (setup : Setup) (address : Nat) : FrameKind → Prop where
  | function
      (commands : Commands setup.story address .function) :
      Calls setup address .function
  | tunnel
      (commands : Commands setup.story address .tunnel) :
      Calls setup address .tunnel
  | fallback
      {flag : UInt8}
      {payload : UInt32}
      (here : setup.story.instruction? address = some ⟨.callExternal, flag, payload⟩)
      (unbound : setup.bindings.get? (setup.story.string payload) = none) :
      Calls setup address .function

theorem call_callStack
    (story : Story)
    (flow : Flow)
    (kind : FrameKind)
    (target returnTo : Nat) :
    (flow.call story kind target returnTo).flow.callStack =
      flow.callStack.push kind returnTo flow.evalMode := by
  simp only [call, Change.after]
  split <;> rfl

/-- A call that is made opens a frame that returns behind it. -/
theorem next_calls
    (store : Store)
    (calls : Calls setup address kind)
    (flow : Flow) :
    Yields
      (fun change =>
        change.flow.callStack = flow.callStack.push kind (address + 1) flow.evalMode)
      (flow.next setup store address) := by
  cases calls with
  | function commands | tunnel commands =>
      obtain ⟨instruction, here, commanded⟩ := commands
      simp only [next, here, execute, commanded]
      exact Yields.bind (fun _ _ => trivial) fun _ _ => .ok (call_callStack _ _ _ _ _)
  | fallback here unbound =>
      simp only [next, here, execute, callExternal, unbound]
      split
      · exact .error _
      · split
        · exact .ok (call_callStack _ _ _ _ _)
        · exact .error _

end Flow

namespace Play

variable {σ : Type} {story : Story} {setup : Setup} {host : Host σ} {play after : Play σ}

theorem step_calls
    {address : Nat}
    {kind : FrameKind}
    (calls : Flow.Calls setup address kind)
    (stepped : play.step setup host address = (.ok (), after)) :
    after.flow.callStack =
      play.flow.callStack.push kind (address + 1) play.flow.evalMode := by
  obtain rfl : (play.step setup host address).2 = after := by
    rw [stepped]
  cases made : play.flow.next setup play.world.store address with
  | error error =>
      simp [step_eq, made] at stepped
  | ok change =>
      obtain ⟨eval, flow⟩ := step_flow host made
      rw [flow]
      exact Flow.next_calls play.world.store calls play.flow change made

/-! ## Stretches -/

/-- An instruction that was carried out: its address and the flow that came to it. -/
structure Moment where
  address : Nat
  flow : Flow

/--
What runners do from a flow on without making a choice, and the moments of it, the latest
first.  Lines may begin and be taken on the way, and bindings, settings and the world may
be others at every step.
-/
inductive Stretch
    (story : Story)
    (host : Host σ)
    (first : Flow) :
    List Moment → Flow → Prop where
  | refl :
      Stretch story host first [] first
  | step
      {moments : List Moment}
      {bindings : Bindings}
      {config : Config}
      {play after : Play σ}
      {address : Nat}
      (here : play.flow.ip = some address)
      (stepped : play.step ⟨story, bindings, config⟩ host address = (.ok (), after))
      (stretch : Stretch story host first moments play.flow) :
      Stretch story host first (⟨address, play.flow⟩ :: moments) after.flow
  /-- A line begins, and the tags of the one before are forgotten. -/
  | read
      {moments : List Moment}
      {flow : Flow}
      (stretch : Stretch story host first moments flow) :
      Stretch story host first moments { flow with tags := flow.tags.clearLine }
  /-- The text of a line is taken. -/
  | take
      {moments : List Moment}
      {flow : Flow}
      (stretch : Stretch story host first moments flow) :
      Stretch story host first moments { flow with output := .empty }

/-- Frames that were open before keep their temporaries, unless one is written by reference. -/
def KeepsTemps
    (story : Story)
    (before : Flow)
    (moments : List Moment)
    (after : Flow) :
    Prop :=
  ∀ index name,
    index < before.callStack.depth →
    after.callStack.temp? index name ≠ before.callStack.temp? index name →
    ∃ moment ∈ moments, Flow.WritesThrough story moment.address moment.flow index name

/-- A call that was made at an address of a flow is open. -/
structure Awaiting
    (story : Story)
    (kind : FrameKind)
    (address : Nat)
    (before : Flow)
    (moments : List Moment)
    (flow : Flow) :
    Prop where
  frames :
    before.callStack.frames.map Frame.bare ++ [⟨kind, address + 1, before.evalMode, []⟩] <+:
      flow.callStack.frames.map Frame.bare
  temps : KeepsTemps story before moments flow

/-- A call has been returned from, by the instruction at another address. -/
structure Bracketed
    (story : Story)
    (kind : FrameKind)
    (address stop : Nat)
    (before : Flow)
    (moments : List Moment)
    (after : Flow) :
    Prop where
  returns : Flow.Returns story stop kind
  ip : after.ip = some (address + 1)
  evalMode : after.evalMode = before.evalMode
  /-- Kinds, return addresses and modes of the frames are those before the call. -/
  frames : after.callStack.frames.map Frame.bare = before.callStack.frames.map Frame.bare
  temps : KeepsTemps story before moments after

section Frames

variable {kind : FrameKind} {address stop : Nat} {before flow last : Flow} {moments : List Moment}

/-- Temporaries that are kept stay kept as long as frames are only opened or closed. -/
theorem KeepsTemps.mono
    (keeps : KeepsTemps story before moments flow)
    (same :
      ∀ index name,
        index < before.callStack.depth →
        last.callStack.temp? index name = flow.callStack.temp? index name)
    (moment : Moment) :
    KeepsTemps story before (moment :: moments) last := by
  intro index name inside changed
  rw [same index name inside] at changed
  obtain ⟨earlier, among, writes⟩ := keeps index name inside changed
  exact ⟨earlier, List.mem_cons_of_mem _ among, writes⟩

/-- A write outside the innermost frame is one through a reference. -/
theorem KeepsTemps.setTempAt
    (keeps : KeepsTemps story before moments flow)
    (deeper : before.callStack.depth < flow.callStack.depth)
    {index : Nat}
    {name : String}
    {value : Value}
    (near :
      index = flow.callStack.topIndex ∨ Flow.WritesThrough story address flow index name)
    (callStack : last.callStack = flow.callStack.setTempAt index name value) :
    KeepsTemps story before (⟨address, flow⟩ :: moments) last := by
  intro other otherName inside changed
  rw [callStack] at changed
  by_cases same : (index, name) = (other, otherName)
  · obtain ⟨rfl, rfl⟩ := Prod.mk.inj same
    rcases near with rfl | writes
    · exact absurd deeper (by simp only [CallStack.depth, CallStack.topIndex] at *; omega)
    · exact ⟨_, List.mem_cons_self, writes⟩
  · rw [CallStack.temp?_setTempAt_of_ne _ _ _ _ same] at changed
    obtain ⟨earlier, among, writes⟩ := keeps other otherName inside changed
    exact ⟨earlier, List.mem_cons_of_mem _ among, writes⟩

/-- While more frames are open than before a call, every step lets the call stand. -/
theorem Awaiting.step
    (awaiting : Awaiting story kind address before moments flow)
    (deeper : before.callStack.depth < flow.callStack.depth)
    (calm : ¬ Flow.Interrupts story stop flow)
    (movement : Flow.Movement story stop flow last)
    (still : before.callStack.depth < last.callStack.depth) :
    Awaiting story kind address before (⟨stop, flow⟩ :: moments) last := by
  cases movement with
  | still callStack =>
      refine ⟨callStack ▸ awaiting.frames, awaiting.temps.mono (fun _ _ _ => ?_) _⟩
      rw [callStack]
  | wrote index name value near callStack =>
      refine ⟨?_, awaiting.temps.setTempAt deeper near callStack⟩
      rw [callStack, CallStack.bare_setTempAt]
      exact awaiting.frames
  | @called opened callStack =>
      have shared := CallStack.frames_push flow.callStack opened (stop + 1) flow.evalMode
      rw [← callStack] at shared
      constructor
      · rw [shared, List.map_append]
        exact awaiting.frames.trans (List.prefix_append _ _)
      · exact awaiting.temps.mono
          (fun index name inside => CallStack.temp?_of_frames shared (by omega) name) _
  | returned _ popped _ _ =>
      have shared := CallStack.frames_of_pop? popped
      constructor
      · refine List.prefix_of_prefix_length_le awaiting.frames ?_ ?_
        · rw [shared, List.map_append]
          exact List.prefix_append _ _
        · simp only [List.length_append, List.length_map, CallStack.length_frames]
          exact still
      · exact awaiting.temps.mono
          (fun index name inside => (CallStack.temp?_of_frames shared (by omega) name).symm) _
  | interrupted interrupts =>
      exact absurd interrupts calm

/-- A step that closes the frame of a call returns from it. -/
theorem Awaiting.returns
    (awaiting : Awaiting story kind address before moments flow)
    (deeper : before.callStack.depth < flow.callStack.depth)
    (calm : ¬ Flow.Interrupts story stop flow)
    (movement : Flow.Movement story stop flow last)
    (closed : last.callStack.depth ≤ before.callStack.depth) :
    Bracketed story kind address stop before (⟨stop, flow⟩ :: moments) last := by
  cases movement with
  | still callStack =>
      rw [callStack] at closed
      omega
  | wrote _ _ _ _ callStack =>
      rw [callStack, CallStack.depth_setTempAt] at closed
      omega
  | called callStack =>
      rw [callStack] at closed
      simp only [CallStack.push, CallStack.depth, List.length_cons] at closed deeper
      omega
  | @returned closing frame returns popped ip evalMode =>
      have closes := (CallStack.of_pop? popped).1
      have shared := CallStack.frames_of_pop? popped
      have lengths : flow.callStack.depth = last.callStack.depth + 1 := by
        simpa using congrArg List.length shared
      -- No deeper than before the call: the frame that is closed is the one it opened.
      have whole := awaiting.frames
      rw [shared, List.map_append] at whole
      obtain ⟨outer, innermost⟩ :=
        List.append_inj' (whole.eq_of_length (by simp; omega)) rfl
      obtain ⟨opened, returnTo, mode, _⟩ :=
        Frame.mk.inj (show _ = frame.bare from List.singleton_inj.mp innermost)
      refine ⟨?_, ?_, ?_, outer.symm, ?_⟩
      · rw [opened]
        exact closes ▸ returns
      · rw [ip, returnTo]
      · rw [evalMode, mode]
      · exact awaiting.temps.mono
          (fun index name inside => (CallStack.temp?_of_frames shared (by omega) name).symm) _
  | interrupted interrupts =>
      exact absurd interrupts calm

end Frames

/-- A call that is made stands. -/
theorem step_awaiting
    {address : Nat}
    {kind : FrameKind}
    (calls : Flow.Calls setup address kind)
    (stepped : play.step setup host address = (.ok (), after)) :
    Awaiting setup.story kind address play.flow [] after.flow := by
  have shared : after.flow.callStack.frames = play.flow.callStack.frames ++ _ :=
    step_calls calls stepped ▸ CallStack.frames_push _ _ _ _
  constructor
  · rw [shared, List.map_append]
    exact List.prefix_rfl
  · intro index name inside changed
    exact absurd (CallStack.temp?_of_frames shared inside name) changed

/-- More frames are open than before, and neither the story nor a thread ends. -/
def Undisturbed (story : Story) (depth : Nat) (moments : List Moment) : Prop :=
  ∀ moment ∈ moments,
    depth < moment.flow.callStack.depth ∧
      ¬ Flow.Interrupts story moment.address moment.flow

/-- A call stands through every stretch in which no fewer frames are open. -/
theorem Stretch.awaiting
    {kind : FrameKind}
    {address : Nat}
    {before first flow : Flow}
    {moments : List Moment}
    (stretch : Stretch story host first moments flow)
    (awaiting : Awaiting story kind address before [] first)
    (undisturbed : Undisturbed story before.callStack.depth moments)
    (still : before.callStack.depth < flow.callStack.depth) :
    Awaiting story kind address before moments flow := by
  induction stretch with
  | refl =>
      exact awaiting
  | step _ stepped _ inductionHypothesis =>
      obtain ⟨⟨deeper, calm⟩, earlier⟩ := List.forall_mem_cons.mp undisturbed
      exact (inductionHypothesis earlier deeper).step deeper calm (step_turn stepped).movement still
  | read _ inductionHypothesis | take _ inductionHypothesis =>
      obtain ⟨frames, temps⟩ := inductionHypothesis undisturbed still
      exact ⟨frames, temps⟩

/--
Calls are well bracketed.  Whatever happens in a call, when for the first time no more
frames are open than before it, that is by a return of its kind.  The flow goes on behind
the call in the mode that it had, and the frames that were open are as they were, apart
from temporaries that were written through references.
-/
theorem calls_bracketed
    {kind : FrameKind}
    {address : Nat}
    (calls : Flow.Calls setup address kind)
    {before entered : Play σ}
    (called : before.step setup host address = (.ok (), entered))
    {inside : List Moment}
    {last : Play σ}
    (stretch : Stretch setup.story host entered.flow inside last.flow)
    {stop : Nat}
    (undisturbed :
      Undisturbed setup.story before.flow.callStack.depth (⟨stop, last.flow⟩ :: inside))
    {bindings : Bindings}
    {config : Config}
    {after : Play σ}
    (stepped : last.step ⟨setup.story, bindings, config⟩ host stop = (.ok (), after))
    (closed : after.flow.callStack.depth ≤ before.flow.callStack.depth) :
    Bracketed setup.story kind address stop before.flow (⟨stop, last.flow⟩ :: inside)
      after.flow := by
  obtain ⟨⟨deeper, calm⟩, earlier⟩ := List.forall_mem_cons.mp undisturbed
  have awaiting := stretch.awaiting (step_awaiting calls called) earlier deeper
  have movement := (step_turn stepped).movement
  exact awaiting.returns deeper calm movement closed

/-! ## A ledger -/

/--
A function is called with a reference to a temporary.  It calls a tunnel, and then writes
through the reference before it returns.
-/
def ledgerStory : Story where
  instructions :=
    #[⟨.startEval, 0, 0⟩, ⟨.int, 0, 5⟩, ⟨.defineTemp, 0, 0⟩, ⟨.valuePointer, 0, 0⟩,
      ⟨.function, 0, 7⟩, ⟨.endEval, 0, 0⟩, ⟨.done, 0, 0⟩, ⟨.defineTemp, 0, 1⟩,
      ⟨.tunnel, 0, 13⟩, ⟨.startEval, 0, 0⟩, ⟨.int, 0, 9⟩, ⟨.setVariable, 0, 1⟩,
      ⟨.functionReturn, 0, 0⟩, ⟨.tunnelReturn, 0, 0⟩]
  strings := #["balance", "entry"]
  literals := #[]
  containers := #[]
  declarations := ⟨[], ⟨#[]⟩⟩

def ledgerSetup : Setup :=
  ⟨ledgerStory, .empty, .standard⟩

/-- The runner after a number of steps. -/
def ledger : Nat → Play Unit
  | 0 => ⟨.start ledgerStory .standard, bareWorld⟩
  | count + 1 => ((ledger count).step ledgerSetup idleHost ((ledger count).flow.ip.getD 0)).2

/-- The moments of the call, the latest first. -/
def ledgerMoments : Nat → List Moment
  | 0 => []
  | count + 1 =>
      ⟨(ledger (count + 5)).flow.ip.getD 0, (ledger (count + 5)).flow⟩ :: ledgerMoments count

theorem ledger_stretch
    (count : Nat)
    (within : count ≤ 6) :
    Stretch ledgerStory idleHost (ledger 5).flow (ledgerMoments count)
      (ledger (count + 5)).flow := by
  have moves :
      ∀ count < 6,
        (ledger (count + 5)).flow.ip = some ((ledger (count + 5)).flow.ip.getD 0) ∧
          (ledger (count + 5)).step ledgerSetup idleHost ((ledger (count + 5)).flow.ip.getD 0) =
            (.ok (), ledger (count + 6)) := by
    intro count within
    match count with
    | 0 | 1 | 2 | 3 | 4 | 5 => exact ⟨by rfl, by rfl⟩
  induction count with
  | zero =>
      exact .refl
  | succ count inductionHypothesis =>
      obtain ⟨here, stepped⟩ := moves count within
      exact (inductionHypothesis (Nat.le_of_succ_le within)).step here stepped

/-- The call is undisturbed: no instruction of the story ends it, and no flow waits. -/
theorem ledger_undisturbed :
    Undisturbed ledgerStory (ledger 4).flow.callStack.depth (ledgerMoments 7) := by
  have deeper :
      ∀ moment ∈ ledgerMoments 7,
        (ledger 4).flow.callStack.depth < moment.flow.callStack.depth ∧
          moment.flow.threads = [] := by
    decide +kernel
  have endless :
      ∀ instruction ∈ ledgerStory.instructions, instruction.command ≠ .finish := by
    decide +kernel
  intro moment among
  obtain ⟨deep, alone⟩ := deeper moment among
  refine ⟨deep, ?_⟩
  rintro (⟨instruction, here, finish⟩ | ⟨_, waiting⟩)
  · exact endless instruction (Array.mem_of_getElem? here) finish
  · exact waiting alone

theorem calls_bracketed_ledger :
    Flow.Calls ledgerSetup 4 .function ∧
      (ledger 4).step ledgerSetup idleHost 4 = (.ok (), ledger 5) ∧
      Stretch ledgerStory idleHost (ledger 5).flow (ledgerMoments 6) (ledger 11).flow ∧
      Undisturbed ledgerStory (ledger 4).flow.callStack.depth (ledgerMoments 7) ∧
      (ledger 11).step ledgerSetup idleHost 12 = (.ok (), ledger 12) ∧
      (ledger 4).flow.callStack.temp? 0 "balance" = some (.int 5) ∧
      (ledger 12).flow.callStack.temp? 0 "balance" = some (.int 9) ∧
      Bracketed ledgerStory .function 4 12 (ledger 4).flow (ledgerMoments 7)
        (ledger 12).flow := by
  have calls : Flow.Calls ledgerSetup 4 .function := .function ⟨_, rfl, rfl⟩
  have called : (ledger 4).step ledgerSetup idleHost 4 = (.ok (), ledger 5) := by rfl
  have stretch := ledger_stretch 6 (Nat.le_refl 6)
  have stepped : (ledger 11).step ledgerSetup idleHost 12 = (.ok (), ledger 12) := by rfl
  exact
    ⟨calls, called, stretch, ledger_undisturbed, stepped, by decide +kernel, by decide +kernel,
      calls_bracketed calls called stretch ledger_undisturbed stepped (by decide +kernel)⟩

end Play

end Fabula
