import Fabula.Proofs.Fidelity
import Fabula.Runner.Line

namespace Fabula

/-!
# What paths stand for

A path is looked up in two ways.  An assembler gives a jump the first container of a name,
and a running story takes the last one.  Nothing keeps two containers from having one name,
so a jump leads to where a path stands exactly when the name is not given twice.
-/

namespace Story

variable {story : Story} {path : String} {id first last : Nat}

def HasName (story : Story) (path : String) (id : Nat) : Prop :=
  ∃ container, story.containers[id]? = some container ∧ container.name = some path

/-- No two containers have a name. -/
def IsSole (story : Story) (path : String) : Prop :=
  ∀ id other, story.HasName path id → story.HasName path other → id = other

theorem mem_numbered_filter_iff :
    (∃ container,
        (container, id) ∈ story.numbered.filter fun entry => entry.1.name == some path) ↔
      story.HasName path id := by
  simp only [numbered, List.mem_filter, List.mem_zipIdx_iff_getElem?, Array.getElem?_toList,
    beq_iff_eq, HasName]

theorem firstNamed?_eq_some_iff :
    story.firstNamed? path = some id ↔
      story.HasName path id ∧ ∀ other, story.HasName path other → id ≤ other := by
  have named (id : Nat) :
      story.HasName path id ↔
        ∃ inside : id < story.containers.toList.length,
          (story.containers.toList[id].name == some path) = true := by
    simp only [HasName, ← Array.getElem?_toList, List.getElem?_eq_some_iff, beq_iff_eq]
    constructor
    · rintro ⟨_, ⟨inside, rfl⟩, told⟩
      exact ⟨inside, told⟩
    · rintro ⟨inside, told⟩
      exact ⟨_, ⟨inside, rfl⟩, told⟩
  rw [firstNamed?, List.findIdx?_eq_some_iff_getElem, named]
  constructor
  · rintro ⟨inside, told, least⟩
    refine ⟨⟨inside, told⟩, fun other another => ?_⟩
    obtain ⟨_, told⟩ := (named other).mp another
    by_contra smaller
    exact least other (Nat.lt_of_not_le smaller) told
  · rintro ⟨⟨inside, told⟩, least⟩
    refine ⟨inside, told, fun other smaller another => ?_⟩
    have within := Nat.lt_trans smaller inside
    exact Nat.not_le_of_lt smaller (least other ((named other).mpr ⟨within, another⟩))

/-- Numbers ascend, so the last container of a name has the greatest one. -/
theorem greatest_of_findPath?
    (found : story.findPath? path = some id) :
    story.HasName path id ∧ ∀ other, story.HasName path other → other ≤ id := by
  obtain ⟨⟨container, _⟩, isLast, rfl⟩ := Option.map_eq_some_iff.mp found
  obtain ⟨earlier, shape⟩ := List.getLast?_eq_some_iff.mp isLast
  refine ⟨mem_numbered_filter_iff.mp ⟨container, by simp [shape]⟩, fun other another => ?_⟩
  obtain ⟨_, inside⟩ := mem_numbered_filter_iff.mpr another
  have ascending : story.numbered.Pairwise fun a b => a.2 < b.2 := by
    rw [numbered, ← List.pairwise_map (f := Prod.snd) (R := (· < ·)), List.zipIdx_map_snd]
    exact List.pairwise_lt_range'
  have kept := ascending.filter fun entry => entry.1.name == some path
  rw [shape] at inside kept
  rcases List.mem_append.mp inside with before | isLast
  · exact Nat.le_of_lt ((List.pairwise_append.mp kept).2.2 _ before _ List.mem_cons_self)
  · cases List.mem_singleton.mp isLast
    exact Nat.le_refl _

theorem exists_findPath?
    (named : story.HasName path id) :
    ∃ last, story.findPath? path = some last := by
  obtain ⟨_, inside⟩ := mem_numbered_filter_iff.mpr named
  rw [findPath?, List.getLast?_eq_some_getLast (List.ne_nil_of_mem inside), Option.map_some]
  exact ⟨_, rfl⟩

theorem findPath?_eq_some_iff :
    story.findPath? path = some id ↔
      story.HasName path id ∧ ∀ other, story.HasName path other → other ≤ id := by
  refine ⟨greatest_of_findPath?, fun ⟨named, greatest⟩ => ?_⟩
  obtain ⟨last, found⟩ := exists_findPath? named
  obtain ⟨lastNamed, greater⟩ := greatest_of_findPath? found
  rw [found, Nat.le_antisymm (greatest last lastNamed) (greater id named)]

theorem first_eq_last_iff
    (isFirst : story.firstNamed? path = some first)
    (isLast : story.findPath? path = some last) :
    first = last ↔ story.IsSole path := by
  obtain ⟨firstNamed, least⟩ := firstNamed?_eq_some_iff.mp isFirst
  obtain ⟨lastNamed, greatest⟩ := findPath?_eq_some_iff.mp isLast
  constructor
  · rintro rfl
    have same {id : Nat} (named : story.HasName path id) : id = first :=
      Nat.le_antisymm (greatest id named) (least id named)
    exact fun _ _ one another => (same one).trans (same another).symm
  · exact fun sole => sole first last firstNamed lastNamed

/--
What an instruction that names a container carries: the number of the container whose visits
it reads, or else the address where the container starts.
-/
def RefersTo (story : Story) (instruction : Instruction) (id : Nat) : Prop :=
  ∃ container, story.containers[id]? = some container ∧
    instruction.payload.toNat =
      if instruction.command = .readCount then id else container.start

/--
What a path stands for while a story runs: where a move leads, whose visits are counted and
which function may stand in for one of the host.
-/
structure Stands (story : Story) (path : String) (id : Nat) (container : Container) : Prop where
  found : story.findPath? path = some id
  held : story.containers[id]? = some container
  moves :
    ∀ {σ : Type} {setup : Setup} {play : Play σ},
      setup.story = story → play.ensureUsable = .ok () →
      (play.moveTo setup path).2.flow = play.flow.moveTo story container
  visits : ∀ runner : Runner, runner.visitCount? story path = runner.flow.visits[id]?
  fallback :
    story.fallbackFunction? path = if container.isFunction then some container.start else none

theorem exists_stands
    (named : story.HasName path id) :
    ∃ last container, story.Stands path last container := by
  obtain ⟨last, found⟩ := exists_findPath? named
  obtain ⟨⟨container, held, _⟩, _⟩ := greatest_of_findPath? found
  have leads : story.containerAt? path = some container := by
    rw [containerAt?, found, Option.bind_some, held]
  refine ⟨last, container, found, held, ?_, ?_, ?_⟩
  · rintro σ setup play rfl usable
    simp only [Play.moveTo, usable, leads]
    rfl
  · intro runner
    rw [Runner.visitCount?, found, Option.bind_some]
  · rw [fallbackFunction?, leads, Option.bind_some]

end Story

namespace Tables

variable {tables : Tables} {id other : Nat} {container another : Container}

theorem exists_of_container_story
    (held : tables.story.containers[id]? = some container) :
    ∃ stored, tables.containers[id]? = some stored ∧ tables.container stored = container := by
  rwa [story, List.getElem?_toArray, List.getElem?_map, Option.map_eq_some_iff] at held

/-- A marker has room for one number, so no two containers start at one address. -/
theorem Acceptable.number_of_start
    (acceptable : tables.Acceptable)
    (held : tables.story.containers[id]? = some container)
    (there : tables.story.containers[other]? = some another)
    (same : container.start = another.start) :
    id = other := by
  obtain ⟨stored, here, rfl⟩ := exists_of_container_story held
  obtain ⟨otherStored, otherHere, rfl⟩ := exists_of_container_story there
  obtain ⟨marker, marked, _, number⟩ := (acceptable.containers here).start
  obtain ⟨otherMarker, otherMarked, _, otherNumber⟩ := (acceptable.containers otherHere).start
  have address : stored.start.toNat = otherStored.start.toNat := same
  rw [address, otherMarked] at marked
  cases marked
  exact number.symm.trans otherNumber

/-- An instruction refers to one container at most. -/
theorem Acceptable.referent
    (acceptable : tables.Acceptable)
    {instruction : Instruction}
    (refers : tables.story.RefersTo instruction id) :
    tables.story.RefersTo instruction other ↔ other = id := by
  refine ⟨?_, fun same => same ▸ refers⟩
  rintro ⟨another, there, payload⟩
  obtain ⟨container, held, own⟩ := refers
  rw [own] at payload
  split at payload
  · exact payload.symm
  · exact (acceptable.number_of_start held there payload).symm

end Tables

namespace Assembler

variable {acts before after : List Act} {act : Act} {path : String}

/-- The instruction of an act that leads somewhere, with the payload that it gets. -/
def Act.leading? (payload : UInt32) : Act → Option Instruction
  | .jump kind _ => some ⟨kind.command, kind.flag, payload⟩
  | .readCount _ => some ⟨.readCount, 0, payload⟩
  | _ => none

/-- The instruction of an act that names a path refers to the first container of that name. -/
theorem refersTo_first
    (shape : acts = before ++ act :: after)
    (used : act.target? = some (.path path))
    (acceptable : (tell acts).finished.Acceptable)
    (resolves : (tell acts).Resolves (.path path)) :
    ∃ instruction first,
      (tell acts).finished.story.instruction? (addressAfter before) = some instruction ∧
        act.leading? instruction.payload = some instruction ∧
        (tell acts).finished.story.firstNamed? path = some first ∧
        (tell acts).finished.story.RefersTo instruction first := by
  have named (c : StoredContainer) (inside : c ∈ (tell acts).tables.containers) :
      c.name ≠ noName → (tell acts).tables.HasText c.name := by
    obtain ⟨id, here⟩ := List.mem_iff_getElem?.mp inside
    exact (acceptable.containers here).name
  obtain ⟨id, stored, first, found, held, leads⟩ := payload_path named resolves
  -- An accepted container has a number that its marker can hold.
  have number : (UInt32.ofNat id).toNat = id := by
    obtain ⟨marker, _, _, number⟩ := (acceptable.containers found).start
    rw [← number, UInt32.ofNat_toNat]
  have carries {command : Command} {flag : UInt8} :
      (tell acts).finished.story.RefersTo
        ⟨command, flag, (tell acts).payload command (.path path)⟩ id := by
    refine ⟨_, held, ?_⟩
    rw [leads]
    split
    · exact number
    · rfl
  cases act with
  | jump kind target =>
      cases used
      exact ⟨_, id, instruction?_finished shape rfl, rfl, first, carries⟩
  | readCount name =>
      cases used
      exact ⟨_, id, instruction?_finished shape rfl, rfl, first, carries⟩
  | _ =>
      cases used

/--
A jump and a read count go to the first container of a name, a running story to the last.
The two agree on names that are not given twice, and on no others.
-/
theorem paths_agree_iff
    {orders : List Order}
    {octets : List UInt8}
    {story : Story}
    (fit : StoryFormat.TablesFit (assemble orders).tables)
    (built : (assemble orders).build = .ok octets)
    (loaded : Story.ofOctets octets = .ok story)
    (shape : actsOf orders = before ++ act :: after)
    (used : act.target? = some (.path path)) :
    ∃ instruction first last container,
      story.instruction? (addressAfter before) = some instruction ∧
        act.leading? instruction.payload = some instruction ∧
        story.firstNamed? path = some first ∧ story.Stands path last container ∧
        (∀ id, story.RefersTo instruction id ↔ id = first) ∧
        (story.RefersTo instruction last ↔ story.IsSole path) := by
  have told : assemble orders = tell (actsOf orders) := assemble_eq_tell orders
  rw [told] at fit built
  obtain ⟨⟨_, _, resolves⟩, rfl⟩ := (build_gives (spread_tell (actsOf orders)) octets).mp built
  obtain ⟨acceptable, rfl⟩ := (ofOctets_gives fit story).mp loaded
  have leads := forall_fixups_iff.mp resolves act (by simp [shape]) _ used
  obtain ⟨instruction, first, here, leading, isFirst, refers⟩ :=
    refersTo_first shape used acceptable leads
  obtain ⟨last, container, stands⟩ :=
    Story.exists_stands (Story.firstNamed?_eq_some_iff.mp isFirst).1
  refine ⟨instruction, first, last, container, here, leading, isFirst, stands, ?_, ?_⟩
  · exact fun _ => acceptable.referent refers
  · rw [acceptable.referent refers, eq_comm]
    exact Story.first_eq_last_iff isFirst stands.found

/-- A story with two knots of one name. -/
def townOrders : List Order :=
  [.jump .divert (.path "town"), .beginKnot "town", .line "A market.", .op .done, .endContainer,
    .beginKnot "town", .line "A harbour.", .op .done, .endContainer]

def townTables : Tables where
  strings := ["town", "A market.", "A harbour."]
  lists := []
  literals := []
  globals := []
  containers := [⟨0, 1, 5, 7⟩, ⟨0, 6, 10, 7⟩]
  instructions :=
    [⟨.divert, 0, 1⟩, ⟨.startContainer, 0, 0⟩, ⟨.str, 0, 1⟩, ⟨.newline, 0, 0⟩, ⟨.done, 0, 0⟩,
      ⟨.endContainer, 0, 0⟩, ⟨.startContainer, 0, 1⟩, ⟨.str, 0, 2⟩, ⟨.newline, 0, 0⟩,
      ⟨.done, 0, 0⟩, ⟨.endContainer, 0, 1⟩]

/-- The jump leads to the first town, but its path stands for the second. -/
theorem paths_agree_iff_town :
    ∃ octets story act after instruction,
      StoryFormat.TablesFit (assemble townOrders).tables ∧
        (assemble townOrders).build = .ok octets ∧ Story.ofOctets octets = .ok story ∧
        actsOf townOrders = [] ++ act :: after ∧ act.target? = some (.path "town") ∧
        story.instruction? 0 = some instruction ∧ instruction.command = .divert ∧
        story.findPath? "town" = some 1 ∧
        story.RefersTo instruction 0 ∧ ¬story.RefersTo instruction 1 := by
  have finished : (assemble townOrders).finish = .ok townTables := by rfl
  have fit : StoryFormat.TablesFit townTables := by decide +kernel
  have told : StoryFormat.TablesFit (assemble townOrders).tables :=
    { fit with instructions := by decide }
  have built : (assemble townOrders).build = .ok (StoryFormat.encode townTables) := by
    rw [build, finished]
    rfl
  have loaded : Story.ofOctets (StoryFormat.encode townTables) = .ok townTables.story := by
    rw [StoryFormat.ofOctets_encode fit]
    rfl
  have shape : actsOf townOrders = [] ++ .jump .divert (.path "town") :: _ := rfl
  obtain ⟨instruction, first, last, container, here, leading, isFirst, stands, refers, _⟩ :=
    paths_agree_iff told built loaded shape rfl
  cases isFirst
  cases stands.found
  have command : instruction.command = .divert :=
    congrArg Instruction.command (Option.some.inj leading).symm
  refine ⟨_, _, _, _, instruction, told, built, loaded, shape, rfl, here, command, rfl,
    (refers 0).mpr rfl, ?_⟩
  rw [refers]
  decide

end Assembler

end Fabula
