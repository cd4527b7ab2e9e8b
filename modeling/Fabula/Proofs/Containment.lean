import Fabula.Proofs.Assembly
import Fabula.Proofs.HostCalls
import Fabula.Proofs.Whereabouts
import Mathlib.Data.List.Basic

namespace Fabula

/-!
# The containers of a runner

Whatever a runner of an assembled story does, between calls and inside them, looking
ahead or not, the containers that its flow keeps are those around its address.  So no
container is left that was not entered, and the knot that a runner shows is the innermost
one around it.
-/

/-- The innermost of the knots around an address. -/
structure Story.InnermostKnot
    (story : Story)
    (address : Nat)
    (knot : Container) :
    Prop where
  member : knot ∈ story.containers
  isKnot : knot.isKnot = true
  around : knot.encloses address = true
  innermost :
    ∀ other ∈ story.containers,
      other.isKnot = true →
      other.encloses address = true →
      other.start ≤ knot.start ∧ knot.stop ≤ other.stop

namespace Flow

theorem encloses_iff
    {container : Container}
    {address : Nat} :
    container.encloses address = true ↔ container.start < address ∧ address ≤ container.stop := by
  simp [Container.encloses]

/-- The kept containers, the innermost first. -/
theorem filterMap_container?
    {story : Story}
    (nested : story.Nested)
    (address : Nat) :
    (story.enclosing address).reverse.filterMap story.container? =
      ((story.around address).map Prod.fst).reverse := by
  rw [Story.enclosing_eq, List.filterMap_reverse, List.filterMap_map]
  congr 1
  rw [← List.filterMap_eq_map]
  refine List.filterMap_congr fun entry around => ?_
  obtain ⟨inside, _⟩ := Story.mem_around.mp around
  obtain ⟨_, payload, _, number⟩ := nested.startMarker inside
  have small : (UInt32.ofNat entry.2).toNat = entry.2 := by
    rw [← number]
    simp
  simp only [Function.comp_apply, Story.container?, small, inside]

/-- The knot that a flow shows is the innermost one around its address. -/
theorem currentKnot_eq
    {story : Story}
    (nested : story.Nested)
    {flow : Flow}
    {address : Nat}
    (around : flow.containers = story.enclosing address) :
    (∃ knot, story.InnermostKnot address knot ∧ flow.currentKnot story = knot.name) ∨
      ((∀ container ∈ story.containers,
          container.isKnot = true → container.encloses address = false) ∧
        flow.currentKnot story = none) := by
  have listed {container : Container}
      (member : container ∈ story.containers)
      (encloses : container.encloses address = true) :
      container ∈ ((story.around address).map Prod.fst).reverse := by
    obtain ⟨id, found⟩ := Array.mem_iff_getElem?.mp member
    rw [List.mem_reverse, List.mem_map]
    exact ⟨(container, id), Story.mem_around.mpr ⟨found, encloses_iff.mp encloses⟩, rfl⟩
  rw [currentKnot, around, filterMap_container? nested]
  cases found : ((story.around address).map Prod.fst).reverse.find? Container.isKnot with
  | none =>
      refine .inr ⟨fun container member isKnot => ?_, rfl⟩
      cases encloses : container.encloses address with
      | false =>
          rfl
      | true =>
          exact absurd isKnot (List.find?_eq_none.mp found container (listed member encloses))
  | some knot =>
      refine .inl ⟨knot, ?_, rfl⟩
      obtain ⟨isKnot, inner, outer, shape, others⟩ := List.find?_eq_some_iff_append.mp found
      have sorted :
          ((story.around address).map Prod.fst).reverse.Pairwise fun a b => b.start < a.start := by
        rw [List.pairwise_reverse, List.pairwise_map]
        exact nested.around_sorted address
      have inside : knot ∈ ((story.around address).map Prod.fst).reverse := by
        rw [shape]
        simp
      rw [List.mem_reverse, List.mem_map] at inside
      obtain ⟨entry, member, rfl⟩ := inside
      obtain ⟨stored, after, before⟩ := Story.mem_around.mp member
      refine
        ⟨Array.mem_of_getElem? stored, isKnot, encloses_iff.mpr ⟨after, before⟩, ?_⟩
      intro other otherMember otherKnot otherAround
      have place := listed otherMember otherAround
      rw [shape, List.mem_append, List.mem_cons] at place
      rcases place with deeper | rfl | further
      · have no := others other deeper
        rw [otherKnot] at no
        cases no
      · exact ⟨Nat.le_refl _, Nat.le_refl _⟩
      · rw [shape] at sorted
        have earlier :=
          (List.pairwise_cons.mp (List.pairwise_append.mp sorted).2.1).1 other further
        have beyond := (encloses_iff.mp otherAround).2
        have ends :=
          nested.inside other otherMember entry.1 (Array.mem_of_getElem? stored) earlier
            (Nat.lt_of_lt_of_le after beyond)
        exact ⟨Nat.le_of_lt earlier, Nat.le_of_lt ends⟩

end Flow

namespace Play

variable {σ : Type} {story : Story}

/-! ## Steps -/

theorem assign_fares
    (host : Host σ)
    (name : String)
    (value : Value)
    (play : Play σ) :
    Fares Error.isStray (fun _ => True) (play.assign host name value).1 := by
  rw [assign_result]
  cases prepared : play.world.store.prepare name value with
  | error error =>
      rw [World.hushed_of_refused prepared]
      rcases Store.prepare_eq_error prepared with rfl | ⟨_, rfl⟩ <;> rfl
  | ok write =>
      rw [World.hushed_of_prepared prepared]
      trivial

/-- A step leads to the containers around the next address, and leaves none that was not entered. -/
theorem step_placed
    {setup : Setup}
    (nested : setup.story.Nested)
    (host : Host σ)
    {play : Play σ}
    (placed : play.flow.Placed setup.story)
    {address : Nat}
    (here : play.flow.ip = some address) :
    Fares Error.isStray
      (fun _ => (play.step setup host address).2.flow.Placed setup.story)
      (play.step setup host address).1 := by
  have next := Flow.next_placed nested play.world.store placed here
  rw [step_eq]
  cases made : play.flow.next setup play.world.store address with
  | error error =>
      rw [made] at next
      exact next
  | ok change =>
      rw [made] at next
      simp only
      cases change.request with
      | none =>
          exact next
      | some request =>
          cases request with
          | write name value =>
              obtain ⟨_, flow⟩ := (play.carry setup change).assign_world host name value
              refine (assign_fares host name value (play.carry setup change)).imp fun _ _ => ?_
              simp only [answer, flow]
              exact next
          | call name binding arguments =>
              simp only [answer, callHost]
              split
              · split
                · rfl
                · exact next
              · exact next

/-! ## Runs -/

/-- A flow, and one to come back to, keep the containers around them. -/
structure Standing
    (story : Story)
    (checkpoint : Option Checkpoint)
    (play : Play σ) :
    Prop where
  flow : play.flow.Placed story
  saved : ∀ saved, checkpoint = some saved → saved.flow.Placed story

/-- A runner keeps the containers around it as long as it goes on and when it stops. -/
def Progress.Standing (story : Story) : Progress σ → Prop
  | .going checkpoint play => Play.Standing story checkpoint play
  | .stopped (.ok ()) play => Play.Standing story none play
  | .stopped (.error error) _ => error.isStray = false

namespace Standing

variable {setup : Setup} {host : Host σ} {checkpoint : Option Checkpoint} {play : Play σ}

theorem of_placed
    (placed : play.flow.Placed story) :
    Standing story none play :=
  ⟨placed, fun _ absent => nomatch absent⟩

theorem rollback
    {saved : Checkpoint}
    (standing : Standing story (some saved) play)
    (setup : Setup)
    (other : Play σ) :
    Standing story none (other.rollback setup saved) :=
  of_placed (standing.saved saved rfl)

theorem commit
    (standing : Standing story checkpoint play)
    (host : Host σ) :
    Standing story none (play.commit host checkpoint) := by
  cases checkpoint with
  | none =>
      exact standing
  | some saved =>
      exact of_placed standing.flow

theorem proceed
    (standing : Standing story none play)
    (setup : Setup) :
    (play.proceed setup).Standing story := by
  have proceeding := proceed_proceeding setup play
  generalize play.proceed setup = progress at proceeding
  cases proceeding with
  | onward | cut =>
      exact standing
  | onTrial =>
      refine ⟨standing.flow, ?_⟩
      rintro _ ⟨⟩
      exact standing.flow

theorem step
    (nested : setup.story.Nested)
    (standing : Standing setup.story checkpoint play)
    {address : Nat}
    {after : Play σ}
    (here : play.flow.ip = some address)
    (stepped : play.step setup host address = (.ok (), after)) :
    Standing setup.story checkpoint after := by
  have placed := step_placed nested host standing.flow here
  rw [stepped] at placed
  exact ⟨placed, standing.saved⟩

theorem advance
    (nested : setup.story.Nested)
    (host : Host σ)
    (standing : Standing setup.story checkpoint play) :
    (play.advance setup host checkpoint).Standing setup.story := by
  have move := advance_move setup host checkpoint play
  generalize play.advance setup host checkpoint = progress at move
  cases move with
  | fallback _ taken =>
      simp only [takeFallback?, Option.map_eq_some_iff] at taken
      obtain ⟨choice, _, rfl⟩ := taken
      exact ⟨Flow.jump_placed _ _ _, standing.saved⟩
  | finished =>
      exact standing.commit host
  | refused | abandoned | completed =>
      exact standing.rollback setup _
  | failed here stepped =>
      have placed := step_placed nested host standing.flow here
      rw [stepped] at placed
      exact placed
  | marked here _ stepped | undecided here _ stepped =>
      exact standing.step nested here stepped
  | plain here stepped =>
      exact (standing.step nested here stepped).proceed setup
  | joined here _ stepped =>
      exact ((standing.step nested here stepped).commit host).proceed setup

end Standing

/--
The states of the runners of a story that have not failed, between calls and inside them,
with the checkpoint that they can come back to.  Bindings, settings, the host and the
world may change at any time between calls.
-/
inductive Ongoing
    (story : Story) :
    Option Checkpoint → Play σ → Prop where
  | start
      (config : Config)
      (world : World σ) :
      Ongoing story none ⟨.start story config, world⟩
  | meanwhile
      {play : Play σ}
      (world : World σ)
      (ongoing : Ongoing story none play) :
      Ongoing story none { play with world := world }
  | choose
      (bindings : Bindings)
      (config : Config)
      (index : Nat)
      {play : Play σ}
      (ongoing : Ongoing story none play) :
      Ongoing story none (play.choose ⟨story, bindings, config⟩ index).2
  | moveTo
      (bindings : Bindings)
      (config : Config)
      (path : String)
      {play : Play σ}
      (ongoing : Ongoing story none play) :
      Ongoing story none (play.moveTo ⟨story, bindings, config⟩ path).2
  /-- A call that reads a line begins. -/
  | read
      {play : Play σ}
      (ongoing : Ongoing story none play) :
      Ongoing story none play.clearLine
  /-- An instruction has been carried out, and the output has not been looked at yet. -/
  | step
      {bindings : Bindings}
      {config : Config}
      {host : Host σ}
      {checkpoint : Option Checkpoint}
      {play after : Play σ}
      {address : Nat}
      (here : play.flow.ip = some address)
      (stepped : play.step ⟨story, bindings, config⟩ host address = (.ok (), after))
      (ongoing : Ongoing story checkpoint play) :
      Ongoing story checkpoint after
  /-- A move that does not end the line. -/
  | advance
      {bindings : Bindings}
      {config : Config}
      {host : Host σ}
      {checkpoint next : Option Checkpoint}
      {play after : Play σ}
      (moved : play.advance ⟨story, bindings, config⟩ host checkpoint = .going next after)
      (ongoing : Ongoing story checkpoint play) :
      Ongoing story next after
  /-- A move that ends the line. -/
  | line
      {bindings : Bindings}
      {config : Config}
      {host : Host σ}
      {checkpoint : Option Checkpoint}
      {play after : Play σ}
      (moved :
        play.advance ⟨story, bindings, config⟩ host checkpoint = .stopped (.ok ()) after)
      (ongoing : Ongoing story checkpoint play) :
      Ongoing story none after
  /-- The text of the line is taken. -/
  | take
      (bindings : Bindings)
      (config : Config)
      {play : Play σ}
      (ongoing : Ongoing story none play) :
      Ongoing story none (play.takeLine ⟨story, bindings, config⟩).2

namespace Ongoing

variable {checkpoint : Option Checkpoint} {play : Play σ}

/-- Whatever a runner is doing, it keeps the containers around it. -/
theorem standing
    (nested : story.Nested)
    (ongoing : Ongoing story checkpoint play) :
    Standing story checkpoint play := by
  induction ongoing with
  | start config world =>
      refine .of_placed fun address here => ?_
      have first : address = 0 := by
        simp only [Runner.start, Runner.ofFlow, Flow.start] at here
        split at here
        · exact (Option.some.inj here).symm
        · cases here
      subst first
      have none : story.around 0 = [] := by
        refine List.eq_nil_iff_forall_not_mem.mpr fun entry around => ?_
        exact Nat.not_lt_zero _ (Story.mem_around.mp around).2.1
      rw [Story.enclosing_eq, none]
      rfl
  | meanwhile _ _ inductionHypothesis =>
      exact .of_placed inductionHypothesis.flow
  | choose bindings config index _ inductionHypothesis =>
      simp only [Play.choose]
      split
      · exact inductionHypothesis
      · split
        · exact inductionHypothesis
        · exact .of_placed (Flow.jump_placed _ _ _)
  | moveTo bindings config path _ inductionHypothesis =>
      simp only [Play.moveTo]
      split
      · exact inductionHypothesis
      · split
        · exact inductionHypothesis
        · exact .of_placed (Flow.jump_placed _ _ _)
  | read _ inductionHypothesis | take _ _ _ inductionHypothesis =>
      exact .of_placed inductionHypothesis.flow
  | @step bindings config host _ _ _ _ here stepped _ inductionHypothesis =>
      have inside : Standing (Setup.mk story bindings config).story _ _ := inductionHypothesis
      exact inside.step nested here stepped
  | @advance bindings config host _ _ _ _ moved _ inductionHypothesis
  | @line bindings config host _ _ _ moved _ inductionHypothesis =>
      have inside : Standing (Setup.mk story bindings config).story _ _ := inductionHypothesis
      have advanced := inside.advance nested host
      rw [moved] at advanced
      exact advanced

/-- A line that is read leads on, and a reading that fails leaves no container by mistake. -/
theorem advanceLine
    (nested : story.Nested)
    (bindings : Bindings)
    (config : Config)
    (host : Host σ)
    (fuel : Nat)
    (ongoing : Ongoing story checkpoint play) :
    Fares Error.isStray
      (fun _ =>
        Ongoing story none
          (Play.advanceLine ⟨story, bindings, config⟩ host fuel checkpoint play).2)
      (Play.advanceLine ⟨story, bindings, config⟩ host fuel checkpoint play).1 := by
  induction fuel generalizing checkpoint play with
  | zero =>
      rfl
  | succ fuel inductionHypothesis =>
      have inside : Standing (Setup.mk story bindings config).story checkpoint play :=
        ongoing.standing nested
      have advanced := inside.advance nested host
      simp only [Play.advanceLine]
      cases moved : play.advance ⟨story, bindings, config⟩ host checkpoint with
      | going next after =>
          exact inductionHypothesis (ongoing.advance moved)
      | stopped result after =>
          rw [moved] at advanced
          cases result with
          | error error =>
              exact advanced
          | ok _ =>
              exact ongoing.line moved

theorem getline
    (nested : story.Nested)
    (bindings : Bindings)
    (config : Config)
    (host : Host σ)
    (fuel : Nat)
    (ongoing : Ongoing story none play) :
    Fares Error.isStray
      (fun _ =>
        Ongoing story none (play.getline ⟨story, bindings, config⟩ host fuel).2)
      (play.getline ⟨story, bindings, config⟩ host fuel).1 := by
  have read := ongoing.read.advanceLine nested bindings config host fuel
  cases continues : play.canContinue with
  | true =>
      rw [getline_of_canContinue continues]
      rcases advanced :
        Play.advanceLine ⟨story, bindings, config⟩ host fuel none play.clearLine with
        ⟨result, after⟩
      rw [advanced] at read
      cases result with
      | error error =>
          exact read
      | ok _ =>
          exact read.take bindings config
  | false =>
      simp only [Play.getline, Runner.ensureUsable]
      cases failure : play.failure with
      | some error =>
          rfl
      | none =>
          have stopped : play.flow.ip = none := by
            simpa [Runner.canContinue, failure] using continues
          simp only [stopped, Option.isNone_none, if_true]
          rfl

end Ongoing

theorem ne_of_fares
    {α : Type}
    {Property : α → Prop}
    {result : Except Error α}
    (fares : Fares Error.isStray Property result)
    (place : Nat)
    (id : UInt32) :
    result ≠ .error (.runtime place (.containerNotEntered id)) := by
  rintro rfl
  cases fares

/--
The containers that a runner keeps are those around its address.  Take a story that was
assembled without raw markers, and any runner of it that has not failed, between calls or
inside one, with or without a checkpoint.  Its containers are those around its address,
the outermost first; the knot that it shows is the innermost one around the address; and
its next step does not leave a container that was not entered.  Nor does reading a line,
which leads to such a runner again.
-/
theorem containers_eq_enclosing
    {orders : List Assembler.Order}
    (plain : ∀ order ∈ orders, order.isPlain = true)
    (fit :
      ∀ tables,
        (Assembler.assemble orders).finish = .ok tables →
        StoryFormat.TablesFit tables)
    {octets : List UInt8}
    (built : (Assembler.assemble orders).build = .ok octets)
    (loaded : Story.ofOctets octets = .ok story)
    {checkpoint : Option Checkpoint}
    {play : Play σ}
    (ongoing : Ongoing story checkpoint play) :
    (∀ address,
      play.flow.ip = some address →
      play.flow.containers = story.enclosing address ∧
        ((∃ knot,
            story.InnermostKnot address knot ∧ play.flow.currentKnot story = knot.name) ∨
          ((∀ container ∈ story.containers,
              container.isKnot = true → container.encloses address = false) ∧
            play.flow.currentKnot story = none)) ∧
        ∀ bindings config (host : Host σ) place id,
          (play.step ⟨story, bindings, config⟩ host address).1 ≠
            .error (.runtime place (.containerNotEntered id))) ∧
    (checkpoint = none →
      ∀ bindings config (host : Host σ) fuel,
        (∀ place id,
          (play.getline ⟨story, bindings, config⟩ host fuel).1 ≠
            .error (.runtime place (.containerNotEntered id))) ∧
        ∀ line after,
          play.getline ⟨story, bindings, config⟩ host fuel = (.ok line, after) →
          Ongoing story none after) := by
  have nested := Assembler.build_nested plain fit built loaded
  have standing := ongoing.standing nested
  constructor
  · intro address here
    have around := standing.flow address here
    refine ⟨around, Flow.currentKnot_eq nested around, fun bindings config host => ?_⟩
    have placed : play.flow.Placed (Setup.mk story bindings config).story := standing.flow
    exact ne_of_fares (step_placed nested host placed here)
  · rintro rfl bindings config host fuel
    have read := ongoing.getline nested bindings config host fuel
    refine ⟨ne_of_fares read, fun line after result => ?_⟩
    rw [result] at read
    exact read

/-! ## An inn -/

/-- What is told to assemble a town with an inn. -/
def innOrders : List Assembler.Order :=
  [.beginKnot "town", .line "A town.", .beginKnot "inn", .line "An inn.", .line "A room.",
    .op .done, .endContainer, .endContainer]

def innTables : Tables where
  strings := ["town", "A town.", "inn", "An inn.", "A room."]
  lists := []
  literals := []
  globals := []
  containers := [⟨0, 0, 10, 7⟩, ⟨2, 3, 9, 7⟩]
  instructions :=
    [⟨.startContainer, 0, 0⟩, ⟨.str, 0, 1⟩, ⟨.newline, 0, 0⟩, ⟨.startContainer, 0, 1⟩,
      ⟨.str, 0, 3⟩, ⟨.newline, 0, 0⟩, ⟨.str, 0, 4⟩, ⟨.newline, 0, 0⟩, ⟨.done, 0, 0⟩,
      ⟨.endContainer, 0, 1⟩, ⟨.endContainer, 0, 0⟩]

def innStory : Story where
  instructions := innTables.instructions.toArray
  strings := innTables.strings.toArray
  literals := #[]
  containers := #[⟨some "town", 0, 10, 7⟩, ⟨some "inn", 3, 9, 7⟩]
  declarations := ⟨[], ⟨#[]⟩⟩

/-- A runner at the start of the town. -/
def innStart : Play Unit :=
  ⟨.start innStory .standard, bareWorld⟩

/-- The runner after two lines, the second of which is read inside the inn. -/
def innEntered : Play Unit :=
  ((innStart.getline ⟨innStory, .empty, .standard⟩ idleHost 20).2.getline
    ⟨innStory, .empty, .standard⟩ idleHost 20).2

theorem containers_eq_enclosing_inn :
    Ongoing innStory none innEntered ∧
      innEntered.flow.ip = some 6 ∧
      innEntered.flow.containers = [0, 1] ∧
      innStory.enclosing 6 = [0, 1] ∧
      ∃ knot, innStory.InnermostKnot 6 knot ∧ knot.name = some "inn" := by
  have finished : (Assembler.assemble innOrders).finish = .ok innTables := by rfl
  have fit : StoryFormat.TablesFit innTables := by decide +kernel
  have fits :
      ∀ tables,
        (Assembler.assemble innOrders).finish = .ok tables →
        StoryFormat.TablesFit tables := by
    intro tables same
    rw [finished] at same
    cases same
    exact fit
  have built : (Assembler.assemble innOrders).build = .ok (StoryFormat.encode innTables) := by
    simp only [Assembler.build, finished]
    rfl
  have loaded : Story.ofOctets (StoryFormat.encode innTables) = .ok innStory := by
    rw [StoryFormat.ofOctets_encode fit]
    rfl
  have plain : ∀ order ∈ innOrders, order.isPlain = true := by decide
  have first : Ongoing innStory none innStart := .start _ _
  have second :
      Ongoing innStory none (innStart.getline ⟨innStory, .empty, .standard⟩ idleHost 20).2 :=
    ((containers_eq_enclosing plain fits built loaded first).2 rfl _ _ _ _).2 _ _
      (Prod.ext (by rfl) rfl)
  have third : Ongoing innStory none innEntered :=
    ((containers_eq_enclosing plain fits built loaded second).2 rfl _ _ _ _).2 _ _
      (Prod.ext (by rfl) rfl)
  have here : innEntered.flow.ip = some 6 := by rfl
  have kept : innEntered.flow.containers = [0, 1] := by rfl
  have shown : innEntered.flow.currentKnot innStory = some "inn" := by rfl
  obtain ⟨around, knot, _⟩ := (containers_eq_enclosing plain fits built loaded third).1 6 here
  refine ⟨third, here, kept, around.symm.trans kept, ?_⟩
  rcases knot with ⟨knot, innermost, same⟩ | ⟨_, none⟩
  · exact ⟨knot, innermost, same.symm.trans shown⟩
  · rw [shown] at none
    cases none

end Play

end Fabula
