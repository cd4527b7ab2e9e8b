import Fabula.Proofs.Native
import Fabula.Story.Loader

namespace Fabula

/-!
# Loaded stories

What loading a story checks once holds for every run of it: the payload of every
instruction is in range, containers start at instructions, literals and first values
are native and no two variables share a name.  Positions fit the words that a stored
story writes them with.
-/

namespace StoryFormat

/-- Every value that a reader gives back has a property. -/
def Reads
    {α : Type}
    (Property : α → Prop)
    (reader : Reader α) :
    Prop :=
  ∀ cursor, Yields (fun result => Property result.1) (reader.run cursor)

namespace Reads

variable {α β : Type} {Property : α → Prop} {Other : β → Prop}

theorem pure
    {value : α}
    (holds : Property value) :
    Reads Property (pure value) :=
  fun _ => .ok holds

theorem fault
    (cause : FormatFault) :
    Reads Property (fault cause) :=
  fun _ => .error _

theorem bind
    {reader : Reader α}
    {continuation : α → Reader β}
    (first : Reads Property reader)
    (rest : ∀ value, Property value → Reads Other (continuation value)) :
    Reads Other (reader >>= continuation) := by
  intro cursor
  rw [StateT.run_bind]
  exact (first cursor).bind fun result holds => rest result.1 holds result.2

/-- Nothing is known of what was read. -/
theorem anything
    (reader : Reader α) :
    Reads (fun _ => True) reader :=
  fun _ _ _ => trivial

/-- Read something that does not matter for what follows. -/
theorem skip
    {reader : Reader α}
    {continuation : α → Reader β}
    (rest : ∀ value, Reads Other (continuation value)) :
    Reads Other (reader >>= continuation) :=
  (anything reader).bind fun value _ => rest value

end Reads

/-- The number of entries of a table is a 32-bit word. -/
theorem readCount_lt
    (least : Nat) :
    Reads (· < UInt32.size) (readCount least) := by
  refine .skip fun count => .skip fun cursor => ?_
  simp only
  split
  · exact .fault _
  · exact .pure count.toNat_lt

theorem readMany_length
    {α : Type}
    (read : Nat → Reader α)
    (position count : Nat) :
    Reads (fun entries => entries.length = count) (readMany read position count) := by
  induction count generalizing position with
  | zero =>
      exact .pure rfl
  | succ count inductionHypothesis =>
      refine .skip fun entry => ?_
      refine (inductionHypothesis (position + 1)).bind fun rest counted => .pure ?_
      simp [counted]

theorem decode_instructions
    (octets : List UInt8) :
    Yields (fun tables => tables.instructions.length < UInt32.size) (decode octets) := by
  have read :
      Reads (fun tables : Tables => tables.instructions.length < UInt32.size) readTables := by
    refine .skip fun _ => .skip fun _ => .skip fun _ => .skip fun _ => .skip fun _ =>
      .skip fun _ => ?_
    have counted :
        Reads (fun entries : List Instruction => entries.length < UInt32.size)
          (readIndexed 6 readInstruction) := by
      refine (readCount_lt 6).bind fun count bounded cursor entries made => ?_
      have sameCount : entries.1.length = count := readMany_length _ _ _ cursor entries made
      simpa only [sameCount] using bounded
    exact counted.bind fun _ bounded => .skip fun _ => .pure bounded
  exact (read _).map fun _ holds => holds

end StoryFormat

/-- What loading makes sure of. -/
structure Story.Sound (story : Story) : Prop where
  instructionCount : story.instructionCount < UInt32.size
  /-- Payloads are in range. -/
  admitted :
    ∀ address instruction,
      story.instruction? address = some instruction →
      Loader.Bounds.admits
        ⟨story.strings.size, story.literals.size, story.containerCount,
          story.instructionCount⟩
        instruction = true
  containerCount : story.containerCount ≤ UInt32.size
  starts : ∀ container ∈ story.containers, container.start < story.instructionCount
  literals : ∀ set ∈ story.literals, set.Over story.declarations.lists
  names : story.declarations.names.Nodup
  initialValues : ∀ value ∈ story.declarations.initialValues, value.Native story

namespace Loader

/-- A literal is built over the lists of the story. -/
theorem literal_over
    (defs : Definitions)
    (stored : StoredFlags) :
    Yields (FlagSet.Over defs) (literal defs stored) := by
  simp only [literal]
  split
  · next declared =>
      simp only [Bool.and_eq_true, List.all_eq_true] at declared
      obtain ⟨origins, items⟩ := declared
      refine .ok ⟨rfl, fun item member => ?_, fun list member => ?_⟩
      · have named := items item (SortedSet.mem_ofList.mp member)
        have listed : item.list ∈ stored.items.map FlagId.list :=
          List.mem_map_of_mem (SortedSet.mem_ofList.mp member)
        refine ⟨by simpa [Definitions.flagName?] using named, ?_⟩
        exact SortedSet.mem_ofList.mpr (List.mem_append_right _ listed)
      · rcases List.mem_append.mp (SortedSet.mem_ofList.mp member) with origin | listed
        · exact origins list origin
        · obtain ⟨item, inside, rfl⟩ := List.mem_map.mp listed
          exact Definitions.list?_isSome_of_flagName? (items item inside)
  · exact .error _

theorem value_native
    {story : Story}
    {strings : Array String}
    {literals : Array FlagSet}
    (built : ∀ set ∈ literals, set.Over story.declarations.lists)
    (stored : StoredValue) :
    Yields (Value.Native story) (value strings literals story.instructionCount stored) := by
  cases stored with
  | str index =>
      have any : Yields (fun _ => True) (string strings index) := fun _ _ => trivial
      exact any.bind fun _ _ => .ok trivial
  | list index =>
      simp only [value]
      cases here : literals[index.toNat]? with
      | none => exact .error _
      | some set => exact .ok (built set (Array.mem_of_getElem? here))
  | divert target =>
      simp only [value]
      split
      · next inside => exact .ok inside
      · exact .error _
  | _ =>
      exact .ok trivial

/-- Variables have different names. -/
theorem globals_distinct
    (strings : Array String)
    (literals : Array FlagSet)
    (instructionCount : Nat)
    (seen : List String)
    (stored : List (UInt32 × StoredValue)) :
    Yields
      (fun declarations =>
        (declarations.map Declaration.name).Nodup ∧
          ∀ declaration ∈ declarations, declaration.name ∉ seen)
      (globals strings literals instructionCount seen stored) := by
  induction stored generalizing seen with
  | nil =>
      exact .ok (by simp)
  | cons entry rest inductionHypothesis =>
      have any {α : Type} (result : Except Error α) : Yields (fun _ => True) result :=
        fun _ _ => trivial
      refine (any _).bind fun name _ => ?_
      split
      · exact .error _
      · next fresh =>
          refine (any _).bind fun initial _ => ?_
          refine (inductionHypothesis (name :: seen)).bind fun others made => .ok ?_
          obtain ⟨distinct, unseen⟩ := made
          constructor
          · refine List.nodup_cons.mpr ⟨fun repeated => ?_, distinct⟩
            obtain ⟨other, member, sameName⟩ := List.mem_map.mp repeated
            exact unseen other member (sameName ▸ List.mem_cons_self)
          · intro declaration member
            rcases List.mem_cons.mp member with rfl | later
            · simpa using fresh
            · exact fun inside => unseen declaration later (List.mem_cons_of_mem _ inside)

/-- What holds of all values that are loaded holds of the first values of variables. -/
theorem globals_initial
    {strings : Array String}
    {literals : Array FlagSet}
    {instructionCount : Nat}
    {Property : Value → Prop}
    (each : ∀ stored, Yields Property (value strings literals instructionCount stored))
    (seen : List String)
    (stored : List (UInt32 × StoredValue)) :
    Yields (fun declarations => ∀ declaration ∈ declarations, Property declaration.initial)
      (globals strings literals instructionCount seen stored) := by
  induction stored generalizing seen with
  | nil =>
      exact .ok (by simp)
  | cons entry rest inductionHypothesis =>
      have any : Yields (fun _ => True) (string strings entry.1) := fun _ _ => trivial
      refine any.bind fun name _ => ?_
      split
      · exact .error _
      · refine (each entry.2).bind fun initial holds => ?_
        refine (inductionHypothesis (name :: seen)).bind fun others made => .ok ?_
        exact List.forall_mem_cons.mpr ⟨holds, made⟩

theorem isMarker_spec
    {instructions : Array Instruction}
    {address : Nat}
    {command : Command}
    {id : Nat}
    (marker : isMarker instructions address command id = true) :
    address < instructions.size ∧ id < UInt32.size := by
  simp only [isMarker] at marker
  cases here : instructions[address]? with
  | none =>
      simp [here] at marker
  | some instruction =>
      simp only [here, Bool.and_eq_true, beq_iff_eq] at marker
      exact ⟨(Array.getElem?_eq_some_iff.mp here).1, marker.2 ▸ instruction.payload.toNat_lt⟩

theorem container_start
    (strings : Array String)
    (instructions : Array Instruction)
    (entry : StoredContainer × Nat) :
    Yields (fun container => container.start < instructions.size ∧ entry.2 < UInt32.size)
      (container strings instructions entry) := by
  simp only [container]
  split
  · next marked =>
      simp only [Bool.and_eq_true] at marked
      have inside := isMarker_spec marked.1.2
      split
      · exact .ok inside
      · have any : Yields (fun _ => True) (string strings entry.1.name) := fun _ _ => trivial
        exact any.bind fun _ _ => .ok inside
  · exact .error _

theorem checkInstructions_admits
    (bounds : Bounds)
    (address : Nat)
    (instructions : List Instruction) :
    Yields (fun _ => ∀ instruction ∈ instructions, bounds.admits instruction = true)
      (checkInstructions bounds address instructions) := by
  induction instructions generalizing address with
  | nil =>
      exact .ok (by simp)
  | cons first rest inductionHypothesis =>
      simp only [checkInstructions]
      split
      · next admitted =>
          intro value checked instruction member
          rcases List.mem_cons.mp member with rfl | later
          · exact admitted
          · exact inductionHypothesis (address + 1) value checked instruction later
      · exact .error _

end Loader

namespace Story

theorem ofTables_sound
    {tables : Tables}
    (bounded : tables.instructions.length < UInt32.size) :
    Yields Sound (ofTables tables) := by
  simp only [ofTables]
  have any : Yields (fun _ => True) (Loader.definitions tables.strings.toArray tables.lists) :=
    fun _ _ => trivial
  refine any.bind fun defs _ => ?_
  have eachLiteral := fun stored (_ : stored ∈ tables.literals) => Loader.literal_over defs stored
  refine (Yields.mapM eachLiteral).bind fun literals made => ?_
  have literalsOver : ∀ set ∈ literals.toArray, set.Over defs := by
    intro set member
    obtain ⟨_, _, built⟩ := made.2.1 set (List.mem_toArray.mp member)
    exact built
  have distinct := Loader.globals_distinct tables.strings.toArray literals.toArray
    tables.instructions.toArray.size [] tables.globals
  -- What makes a value native is known before the rest of the story is.
  have native := Loader.globals_initial
    (@Loader.value_native ⟨tables.instructions.toArray, #[], #[], #[], ⟨[], defs⟩⟩
      tables.strings.toArray literals.toArray literalsOver) [] tables.globals
  refine (distinct.and native).bind fun globals declared => ?_
  have eachContainer := fun entry (_ : entry ∈ tables.containers.zipIdx) =>
    Loader.container_start tables.strings.toArray tables.instructions.toArray entry
  refine (Yields.mapM eachContainer).bind fun containers placed => ?_
  refine (Loader.checkInstructions_admits _ _ _).bind fun _ admitted => .ok ?_
  obtain ⟨⟨distinct, _⟩, natives⟩ := declared
  obtain ⟨sameCount, starts, numbers⟩ := placed
  exact
    { instructionCount := by simpa [instructionCount] using bounded
      admitted := by
        intro address instruction here
        have member : instruction ∈ tables.instructions := by
          simpa using Array.mem_of_getElem? here
        simpa [containerCount, instructionCount] using admitted instruction member
      containerCount := by
        rw [List.length_zipIdx] at sameCount
        simp only [containerCount, List.size_toArray, sameCount]
        -- The number of the last container is the payload of its marker.
        refine Nat.le_of_not_lt fun many => ?_
        obtain ⟨_, _, _, bound⟩ :=
          numbers (tables.containers.get ⟨UInt32.size, many⟩, UInt32.size) (by
            rw [List.mem_zipIdx_iff_getElem?]
            simp)
        exact Nat.lt_irrefl _ bound
      starts := by
        intro container member
        obtain ⟨_, _, inside, _⟩ := starts container (by simpa using member)
        simpa [instructionCount] using inside
      literals := literalsOver
      names := distinct
      initialValues := by
        intro value member
        obtain ⟨declaration, inside, rfl⟩ := List.mem_map.mp member
        exact natives declaration inside }

/-- Every story that is loaded is sound. -/
theorem ofOctets_sound
    {octets : List UInt8}
    {story : Story}
    (loaded : ofOctets octets = .ok story) :
    story.Sound := by
  have sound : Yields Sound (ofOctets octets) :=
    (StoryFormat.decode_instructions octets).bind fun _ bounded => ofTables_sound bounded
  exact sound story loaded

end Story

end Fabula
