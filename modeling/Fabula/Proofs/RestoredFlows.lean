import Fabula.Proofs.Safety
import Fabula.Proofs.Snapshots

namespace Fabula

/-!
# Restored flows

Restoring checks a saved flow against its story: there must be a count and a turn for each
container, addresses must lie inside the story, and every call stack must start with the frame of
the story itself.  It does not look at the other frames for another frame of the story, and it
does not compare the remembered turns with the turn that the flow is in.  So a restored flow is
one that runs safely if and only if the saved flow was lawful in these two respects.
-/

/-! ## Saved flows -/

/-- The choices of a saved flow and its fallback. -/
def SavedFlow.offers (saved : SavedFlow) : List SavedChoice :=
  saved.choices ++ saved.fallback.toList

/-- The saved call stacks of a flow, of those that wait for it and of its choices. -/
def SavedFlow.callStacks (saved : SavedFlow) : List (List SavedFrame) :=
  saved.frames :: (saved.threads.map SavedThread.frames ++ saved.offers.map SavedChoice.frames)

theorem SavedFlow.mem_callStacks
    {saved : SavedFlow}
    {frames : List SavedFrame} :
    frames ∈ saved.callStacks ↔
      frames = saved.frames ∨
        (∃ thread ∈ saved.threads, thread.frames = frames) ∨
        ∃ offer ∈ saved.offers, offer.frames = frames := by
  simp [callStacks]

/-- What a saved flow must keep to, but restoring does not check. -/
structure SavedFlow.Lawful (saved : SavedFlow) : Prop where
  /-- The frame of the story itself is nowhere but at the start of a stack. -/
  roots : ∀ frames ∈ saved.callStacks, ∀ frame ∈ frames.tail, frame.kind ≠ .root
  /-- No turn is remembered that has not come yet. -/
  dates : ∀ date, some date ∈ saved.turnVisited → date ≤ saved.turn

/-- What restoring makes sure of. -/
structure Flow.Fits (story : Story) (flow : Flow) : Prop where
  visits : flow.visits.length = story.containerCount
  turnVisited : flow.turnVisited.length = story.containerCount
  containers : ∀ id ∈ flow.containers, id.toNat < story.containerCount
  roots : ∀ stack ∈ flow.callStacks, stack.outermost.kind = .root
  addresses : ∀ address ∈ flow.addresses, address ≤ story.instructionCount

/-! ## Call stacks -/

/-- A call stack with the frames of a saved one and with addresses inside a story. -/
structure CallStack.Restores
    (story : Story)
    (saved : List SavedFrame)
    (stack : CallStack) :
    Prop where
  root : stack.outermost.kind = .root
  kinds : stack.frames.map Frame.kind = saved.map SavedFrame.kind
  addresses : ∀ address ∈ stack.addresses, address ≤ story.instructionCount

namespace CallStack.Restores

variable {story : Story} {saved : List SavedFrame} {stack : CallStack}

theorem calls
    (restores : stack.Restores story saved) :
    stack.calls.reverse.map Frame.kind = saved.tail.map SavedFrame.kind := by
  have kinds := congrArg List.tail restores.kinds
  simpa [CallStack.frames, List.map_tail] using kinds

/-- A restored stack is rooted if no other frame was saved as that of the story. -/
theorem rooted_iff
    (restores : stack.Restores story saved) :
    stack.Rooted ↔ ∀ frame ∈ saved.tail, frame.kind ≠ .root := by
  have calls : (∀ frame ∈ stack.calls.reverse, frame.kind ≠ .root) ↔
      ∀ frame ∈ saved.tail, frame.kind ≠ .root := by
    have alike :=
      List.forall_mem_map (f := Frame.kind) (l := stack.calls.reverse) (P := (· ≠ .root))
    rw [← alike, restores.calls, List.forall_mem_map]
  rw [← calls]
  constructor
  · intro rooted frame member root
    obtain ⟨index, here⟩ := List.mem_iff_getElem?.mp member
    have start := (rooted.root (index + 1) frame here).mp root
    cases start
  · intro others
    refine ⟨List.cons_ne_nil _ _, fun index frame found => ?_⟩
    cases index with
    | zero =>
        obtain rfl := Option.some.inj found
        exact iff_of_true restores.root rfl
    | succ index =>
        exact iff_of_false (others frame (List.mem_of_getElem? found)) (Nat.succ_ne_zero index)

end CallStack.Restores

/-! ## Restoring step by step -/

section Restoring

variable (story : Story)

theorem Story.checkAddress_inside
    (role : AddressRole)
    (address : UInt64) :
    Yields (fun found => found ≤ story.instructionCount) (story.checkAddress role address) := by
  simp only [checkAddress]
  split
  · next inside => exact .ok inside
  · exact .error _

theorem SavedValue.restore_inside
    (saved : SavedValue) :
    Yields (fun value => ∀ address ∈ value.address?, address ≤ story.instructionCount)
      (saved.restore story) := by
  cases saved with
  | list items origins =>
      have any {α : Type} (result : Except Error α) : Yields (fun _ => True) result :=
        fun _ _ => trivial
      exact (any _).bind fun _ _ => (any _).bind fun _ _ => .ok (by rintro _ ⟨⟩)
  | divert target =>
      simp only [restore]
      split
      · next inside => exact .ok fun _ leads => Option.some.inj leads ▸ inside
      · exact .error _
  | pointer name frame =>
      cases frame with
      | none =>
          simp only [restore]
          split
          · exact .ok (by rintro _ ⟨⟩)
          · exact .error _
      | some frame => exact .ok (by rintro _ ⟨⟩)
  | _ => exact .ok (by rintro _ ⟨⟩)

/-- What restoring a frame makes sure of. -/
theorem SavedFrame.restore_inside
    (saved : SavedFrame) :
    Yields
      (fun frame =>
        frame.kind = saved.kind ∧
          frame.returnTo ≤ story.instructionCount ∧
          ∀ entry ∈ frame.temps, ∀ address ∈ entry.2.address?, address ≤ story.instructionCount)
      (saved.restore story) := by
  refine (story.checkAddress_inside _ _).bind fun returnTo inside => ?_
  have each : ∀ entry ∈ saved.temps,
      Yields
        (fun restored : String × Value =>
          ∀ address ∈ restored.2.address?, address ≤ story.instructionCount)
        (restoreTemp story entry) := fun entry _ =>
    (entry.2.restore_inside story).bind fun value leads => .ok leads
  refine (Yields.mapM each).bind fun temps made => .ok ⟨rfl, inside, fun entry member => ?_⟩
  obtain ⟨_, _, leads⟩ := made.2.1 entry member
  exact leads

theorem CallStack.restore_restores
    (saved : List SavedFrame) :
    Yields (CallStack.Restores story saved) (CallStack.restore story saved) := by
  intro stack restored
  obtain ⟨frames, made, restored⟩ := exists_of_bind_eq_ok restored
  have kinds : frames.map Frame.kind = saved.map SavedFrame.kind :=
    Yields.mapM_map (fun frame _ value done => (frame.restore_inside story value done).1)
      frames made
  have inside := (Yields.mapM fun frame _ => frame.restore_inside story) frames made
  cases frames with
  | nil =>
      cases restored
  | cons outermost calls =>
      simp only [List.head?_cons, Option.map_some, Option.some.injEq] at restored
      split at restored
      · next root =>
          obtain rfl := Except.ok.inj restored
          have whole : (ofFrames (outermost :: calls)).frames = outermost :: calls := by
            simp [ofFrames, CallStack.frames]
          have named := (congrArg (List.map Frame.kind) whole).trans kinds
          refine ⟨root, named, fun address member => ?_⟩
          rw [addresses, whole] at member
          obtain ⟨frame, held, leads⟩ := List.mem_flatMap.mp member
          obtain ⟨_, _, _, returns, temps⟩ := inside.2.1 frame held
          rcases List.mem_cons.mp leads with rfl | stored
          · exact returns
          · obtain ⟨entry, defined, leads⟩ := List.mem_filterMap.mp stored
            exact temps entry defined address leads
      · cases restored

/-- What restoring a choice makes sure of. -/
theorem SavedChoice.restore_restores
    (saved : SavedChoice)
    (index : Nat) :
    Yields
      (fun choice =>
        choice.target ≤ story.instructionCount ∧ choice.callStack.Restores story saved.frames)
      (saved.restore story index) := by
  refine (story.checkAddress_inside _ _).bind fun target inside => ?_
  exact (CallStack.restore_restores story _).bind fun stack restores => .ok ⟨inside, restores⟩

theorem SavedThread.restore_restores
    (saved : SavedThread) :
    Yields
      (fun waiting =>
        waiting.resumeAt ≤ story.instructionCount ∧
          waiting.callStack.Restores story saved.frames)
      (saved.restore story) := by
  refine (story.checkAddress_inside _ _).bind fun resumeAt inside => ?_
  exact (CallStack.restore_restores story _).bind fun stack restores => .ok ⟨inside, restores⟩

theorem SavedFlow.checkContainers_eq_ok
    {saved : SavedFlow}
    (checked : saved.checkContainers story = .ok ()) :
    saved.visits.length = story.containerCount ∧
      saved.turnVisited.length = story.containerCount ∧
      ∀ id ∈ saved.containers, id.toNat < story.containerCount := by
  simp only [checkContainers] at checked
  split at checked
  · next counted =>
      split at checked
      · cases checked
      · next missing =>
          refine ⟨counted.1, counted.2, fun id member => ?_⟩
          simpa using List.find?_eq_none.mp missing id member
  · cases checked

end Restoring

/-! ## Flows -/

/-- The parts of a flow that was restored, each with the part that it was restored from. -/
structure Flow.RestoredFrom
    (story : Story)
    (saved : SavedFlow)
    (flow : Flow) :
    Prop where
  checked : saved.checkContainers story = .ok ()
  ip : saved.ip.mapM (story.checkAddress .instructionPointer) = .ok flow.ip
  choices :
    saved.choices.zipIdx.mapM (fun entry => entry.1.restore story entry.2) = .ok flow.choices
  fallback : saved.fallback.mapM (fun choice => choice.restore story 0) = .ok flow.fallback
  eval : saved.eval.mapM (SavedValue.restore story) = .ok flow.eval.reverse
  callStack : CallStack.restore story saved.frames = .ok flow.callStack
  threads : saved.threads.mapM (SavedThread.restore story) = .ok flow.threads.reverse
  containers : flow.containers = saved.containers
  visits : flow.visits = saved.visits
  turnVisited : flow.turnVisited = saved.turnVisited
  turn : flow.turn = saved.turn

theorem SavedFlow.restoredFrom
    {story : Story}
    {saved : SavedFlow}
    {flow : Flow}
    (restored : saved.restore story = .ok flow) :
    flow.RestoredFrom story saved := by
  obtain ⟨_, checked, restored⟩ := exists_of_bind_eq_ok restored
  obtain ⟨ip, next, restored⟩ := exists_of_bind_eq_ok restored
  obtain ⟨choices, offered, restored⟩ := exists_of_bind_eq_ok restored
  obtain ⟨fallback, held, restored⟩ := exists_of_bind_eq_ok restored
  obtain ⟨eval, pushed, restored⟩ := exists_of_bind_eq_ok restored
  obtain ⟨callStack, running, restored⟩ := exists_of_bind_eq_ok restored
  obtain ⟨threads, waiting, restored⟩ := exists_of_bind_eq_ok restored
  obtain rfl := Except.ok.inj restored
  refine ⟨checked, next, offered, held, ?_, running, ?_, rfl, rfl, rfl, rfl⟩
  · rw [pushed, List.reverse_reverse]
  · rw [waiting, List.reverse_reverse]

namespace Flow.RestoredFrom

variable {story : Story} {saved : SavedFlow} {flow : Flow}

theorem ip_inside
    (source : flow.RestoredFrom story saved)
    {address : Nat}
    (next : flow.ip = some address) :
    address ≤ story.instructionCount := by
  have restored := source.ip
  rw [next] at restored
  cases here : saved.ip with
  | none =>
      rw [here] at restored
      cases restored
  | some word =>
      rw [here] at restored
      obtain ⟨found, checked, same⟩ := exists_of_bind_eq_ok restored
      obtain rfl := Option.some.inj (Except.ok.inj same)
      exact story.checkAddress_inside _ _ _ checked

theorem eval_inside
    (source : flow.RestoredFrom story saved)
    {value : Value}
    (pushed : value ∈ flow.eval) :
    ∀ address ∈ value.address?, address ≤ story.instructionCount := by
  obtain ⟨-, values, -⟩ := (Yields.mapM fun value _ => value.restore_inside story) _ source.eval
  obtain ⟨_, _, bounded⟩ := values value (List.mem_reverse.mpr pushed)
  exact bounded

/-- The choices and the fallback are restored one after another. -/
theorem restores_offers
    (source : flow.RestoredFrom story saved) :
    (∀ choice ∈ flow.offers, ∃ offer ∈ saved.offers,
        choice.target ≤ story.instructionCount ∧ choice.callStack.Restores story offer.frames) ∧
      ∀ offer ∈ saved.offers, ∃ choice ∈ flow.offers,
        choice.target ≤ story.instructionCount ∧
          choice.callStack.Restores story offer.frames := by
  let entries := saved.choices.zipIdx ++ saved.fallback.toList.map fun choice => (choice, 0)
  have names : entries.map Prod.fst = saved.offers := by
    simp [entries, SavedFlow.offers, Function.comp_def]
  have last : (saved.fallback.toList.map fun choice => (choice, 0)).mapM
      (fun entry => entry.1.restore story entry.2) = .ok flow.fallback.toList := by
    have held := source.fallback
    cases here : saved.fallback with
    | none =>
        rw [here] at held
        rw [← Except.ok.inj held]
        rfl
    | some choice =>
        rw [here] at held
        obtain ⟨_, done, same⟩ := exists_of_bind_eq_ok held
        rw [← Except.ok.inj same]
        simp [done, bind, Except.bind, pure, Except.pure]
  have made : entries.mapM (fun entry => entry.1.restore story entry.2) = .ok flow.offers := by
    simp [entries, Flow.offers, List.mapM_append, source.choices, last, bind, Except.bind, pure,
      Except.pure]
  obtain ⟨-, back, forth⟩ :=
    (Yields.mapM fun entry _ => entry.1.restore_restores story entry.2) _ made
  rw [← names]
  refine ⟨fun choice member => ?_, List.forall_mem_map.mpr forth⟩
  obtain ⟨entry, inside, restores⟩ := back choice member
  exact ⟨entry.1, List.mem_map_of_mem inside, restores⟩

theorem restores_threads
    (source : flow.RestoredFrom story saved) :
    (∀ waiting ∈ flow.threads, ∃ thread ∈ saved.threads,
        waiting.resumeAt ≤ story.instructionCount ∧
          waiting.callStack.Restores story thread.frames) ∧
      ∀ thread ∈ saved.threads, ∃ waiting ∈ flow.threads,
        waiting.resumeAt ≤ story.instructionCount ∧
          waiting.callStack.Restores story thread.frames := by
  have made := (Yields.mapM fun thread _ => thread.restore_restores story) _ source.threads
  simp only [List.mem_reverse] at made
  exact made.2

/-- Every call stack is restored from a saved one, -/
theorem restores_callStack
    (source : flow.RestoredFrom story saved)
    {stack : CallStack}
    (member : stack ∈ flow.callStacks) :
    ∃ frames ∈ saved.callStacks, stack.Restores story frames := by
  simp only [SavedFlow.mem_callStacks]
  rcases Flow.mem_callStacks.mp member with rfl | ⟨waiting, inside, rfl⟩ | ⟨choice, inside, rfl⟩
  · exact ⟨_, .inl rfl, CallStack.restore_restores story _ _ source.callStack⟩
  · obtain ⟨thread, held, -, restores⟩ := source.restores_threads.1 waiting inside
    exact ⟨_, .inr (.inl ⟨thread, held, rfl⟩), restores⟩
  · obtain ⟨offer, held, -, restores⟩ := source.restores_offers.1 choice inside
    exact ⟨_, .inr (.inr ⟨offer, held, rfl⟩), restores⟩

/-- and every saved one is restored. -/
theorem callStack_restored
    (source : flow.RestoredFrom story saved)
    {frames : List SavedFrame}
    (member : frames ∈ saved.callStacks) :
    ∃ stack ∈ flow.callStacks, stack.Restores story frames := by
  simp only [Flow.mem_callStacks]
  rcases SavedFlow.mem_callStacks.mp member with rfl | ⟨thread, inside, rfl⟩ | ⟨offer, inside, rfl⟩
  · exact ⟨_, .inl rfl, CallStack.restore_restores story _ _ source.callStack⟩
  · obtain ⟨waiting, held, -, restores⟩ := source.restores_threads.2 thread inside
    exact ⟨_, .inr (.inl ⟨waiting, held, rfl⟩), restores⟩
  · obtain ⟨choice, held, -, restores⟩ := source.restores_offers.2 offer inside
    exact ⟨_, .inr (.inr ⟨choice, held, rfl⟩), restores⟩

theorem fits
    (source : flow.RestoredFrom story saved) :
    flow.Fits story := by
  obtain ⟨visits, turnVisited, containers⟩ :=
    SavedFlow.checkContainers_eq_ok story source.checked
  refine ⟨source.visits ▸ visits, source.turnVisited ▸ turnVisited, source.containers ▸ containers,
    fun stack member => ?_, fun address member => ?_⟩
  · obtain ⟨_, _, restores⟩ := source.restores_callStack member
    exact restores.root
  · simp only [Flow.addresses, List.mem_append, List.mem_map, List.mem_flatMap,
      List.mem_filterMap, Option.mem_toList] at member
    rcases member with (((next | ⟨waiting, inside, rfl⟩) | ⟨choice, inside, rfl⟩) |
      ⟨stack, inside, leads⟩) | ⟨value, pushed, leads⟩
    · exact source.ip_inside next
    · obtain ⟨_, _, resumes, -⟩ := source.restores_threads.1 waiting inside
      exact resumes
    · obtain ⟨_, _, targets, -⟩ := source.restores_offers.1 choice inside
      exact targets
    · obtain ⟨_, _, restores⟩ := source.restores_callStack inside
      exact restores.addresses address leads
    · exact source.eval_inside pushed address leads

end Flow.RestoredFrom

namespace Snapshot

/--
What can be said of a runner that is restored from a snapshot, whoever wrote it.  Its flow fits
the story: there is a count and a turn for each container, containers exist, call stacks start
with the frame of the story itself and addresses lie inside the story.  It can be run without
leaving the story or its own tables if and only if the saved flow had that frame nowhere else and
remembered no turn that has not come yet.
-/
theorem restoreRunner_safe_iff
    {octets : List UInt8}
    {story : Story}
    (loaded : Story.ofOctets octets = .ok story)
    {snapshot : Snapshot}
    {given : Option Store}
    {index : Nat}
    {runner : Runner}
    {store : Store}
    (restored : snapshot.restoreRunner story given index = .ok (runner, store)) :
    ∃ saved,
      snapshot.body.flows[index]? = some saved ∧
      runner.flow.Fits story ∧
      (runner.flow.Safe story ↔ saved.Lawful) := by
  obtain ⟨saved, flow, here, -, done, rfl⟩ := restoreRunner_eq_ok restored
  have parts := SavedFlow.restoredFrom done
  have fits := parts.fits
  refine ⟨saved, here, fits, fun safe => ⟨fun frames member => ?_, ?_⟩, fun lawful => ?_⟩
  · obtain ⟨stack, inside, restores⟩ := parts.callStack_restored member
    exact restores.rooted_iff.mp (safe.callStacks stack inside)
  · rw [← parts.turnVisited, ← parts.turn]
    exact safe.dates
  · refine .of_loaded loaded fits.visits fits.turnVisited fits.containers
      (fun stack member => ?_) fits.addresses ?_
    · obtain ⟨frames, inside, restores⟩ := parts.restores_callStack member
      exact restores.rooted_iff.mpr (lawful.roots frames inside)
    · change ∀ date, some date ∈ flow.turnVisited → date ≤ flow.turn
      rw [parts.turnVisited, parts.turn]
      exact lawful.dates

/-! ## A forecast -/

open Play in
/-- A snapshot of the town in its first turn that remembers a visit in the fifth turn after it. -/
def forecast : Snapshot where
  kind := .runnersOnly
  fingerprint := townStory.declarations.fingerprint
  body := ⟨none, [{ SavedFlow.ofFlow (.start townStory 0) with turnVisited := [some 5] }]⟩

open Play in
/-- The forecast is accepted and restored, though no run of the town leads there. -/
theorem restoreRunner_safe_iff_forecast :
    ∃ octets runner store,
      ofOctets octets = .ok forecast ∧
        forecast.restoreRunner townStory none 0 = .ok (runner, store) ∧
        runner.flow.Fits townStory ∧
        runner.flow.turnVisited = [some 5] ∧
        runner.flow.turn = 0 ∧
        ¬ runner.flow.Safe townStory := by
  have consistent : forecast.Consistent := ⟨Declarations.length_fingerprint _, rfl⟩
  obtain ⟨octets, read⟩ := consistent.accepted (by decide +kernel) (by decide +kernel)
  have restored : forecast.restoreRunner townStory none 0 =
      .ok (.ofFlow { Flow.start townStory 0 with turnVisited := [some 5] },
        .start townStory.declarations) := by
    simp only [restoreRunner, checkStory, forecast, if_true]
    rfl
  obtain ⟨saved, here, fits, safe⟩ := restoreRunner_safe_iff townStory_loaded restored
  obtain rfl := Option.some.inj here
  refine ⟨octets, _, _, read, restored, fits, rfl, rfl, fun holds => ?_⟩
  exact absurd ((safe.mp holds).dates 5 List.mem_cons_self) (by decide)

end Snapshot

end Fabula
