import Fabula.Story.Loader

namespace Fabula

/-!
# Acceptable tables

Loading checks the tables of a stored story and reads them at once.  Here the two are
told apart: what a loader makes of tables is written down without any check, and the
tables that it accepts are those whose positions are all in range, whose variables have
different names and whose containers have their markers.
-/

variable {ε α β : Type}

/-- A computation succeeds under a condition, and with one result. -/
def Gives (condition : Prop) (result : α) (computation : Except ε α) : Prop :=
  ∀ value, computation = .ok value ↔ condition ∧ value = result

namespace Gives

variable {condition other : Prop} {result : α} {computation : Except ε α}

theorem ok
    (result : α) :
    Gives True result (.ok result : Except ε α) := by
  intro value
  simp [eq_comm]

theorem congr
    (gives : Gives condition result computation)
    (same : condition ↔ other) :
    Gives other result computation := by
  intro value
  rw [gives value, same]

/-- What comes later may rely on what came before. -/
theorem bind
    {next : α → Except ε β}
    {last : β}
    (first : Gives condition result computation)
    (rest : condition → Gives other last (next result)) :
    Gives (condition ∧ other) last (computation >>= next) := by
  intro value
  cases done : computation with
  | error error =>
      refine ⟨nofun, fun ⟨⟨holds, _⟩, _⟩ => ?_⟩
      have succeeds := (first result).mpr ⟨holds, rfl⟩
      rw [done] at succeeds
      cases succeeds
  | ok intermediate =>
      obtain ⟨holds, rfl⟩ := (first intermediate).mp done
      exact (rest holds value).trans (by simp [holds])

theorem bind_pure
    (gives : Gives condition result computation)
    (wrap : α → β) :
    Gives condition (wrap result) (computation >>= fun value => pure (wrap value)) :=
  (gives.bind fun _ => ok (wrap result)).congr (iff_of_eq (and_true condition))

/-- A computation that is refused unless a check succeeds. -/
theorem ite
    {check : Prop}
    [Decidable check]
    {error : ε}
    (inside : check → Gives condition result computation) :
    Gives (check ∧ condition) result (if check then computation else .error error) := by
  intro value
  split
  · next holds =>
      rw [inside holds value, and_iff_right holds]
  · next fails =>
      exact ⟨nofun, fun ⟨⟨holds, _⟩, _⟩ => absurd holds fails⟩

/-- A computation that is refused when a check succeeds. -/
theorem refused
    {check : Prop}
    [Decidable check]
    {error : ε}
    (inside : ¬check → Gives condition result computation) :
    Gives (¬check ∧ condition) result (if check then .error error else computation) := by
  intro value
  split
  · next holds =>
      exact ⟨nofun, fun ⟨⟨fails, _⟩, _⟩ => absurd holds fails⟩
  · next fails =>
      rw [inside fails value, and_iff_right fails]

theorem mapM
    {compute : α → Except ε β}
    {Condition : α → Prop}
    {read : α → β}
    {elements : List α}
    (each : ∀ element ∈ elements, Gives (Condition element) (read element) (compute element)) :
    Gives (∀ element ∈ elements, Condition element) (elements.map read)
      (elements.mapM compute) := by
  induction elements with
  | nil =>
      exact (ok _).congr (by simp)
  | cons first rest inductionHypothesis =>
      have others := inductionHypothesis fun element member =>
        each element (List.mem_cons_of_mem first member)
      rw [List.mapM_cons]
      have all := others.bind_pure fun results => read first :: results
      refine ((each first List.mem_cons_self).bind fun _ => all).congr ?_
      rw [List.forall_mem_cons]

end Gives

/-! ## What a loader makes of tables -/

namespace Tables

variable (tables : Tables)

def text (index : UInt32) : String :=
  tables.strings.getD index.toNat ""

def flagList (stored : StoredList) : FlagList :=
  ⟨tables.text stored.name, (stored.flags.map fun flag => (tables.text flag.1, flag.2)).toArray⟩

def definitions : Definitions :=
  .ofLists (tables.lists.map tables.flagList)

def flagSet (stored : StoredFlags) : FlagSet :=
  .ofParts tables.definitions stored.items stored.origins

def value : StoredValue → Value
  | .void => .void
  | .bool b => .bool b
  | .int i => .int i
  | .float x => .float x
  | .str index => .str (tables.text index)
  | .list index =>
      match tables.literals[index.toNat]? with
      | some stored => .list (tables.flagSet stored)
      | none => .void
  | .divert target => .divert target

def declaration (stored : UInt32 × StoredValue) : Declaration :=
  ⟨tables.text stored.1, tables.value stored.2⟩

def container (stored : StoredContainer) : Container :=
  ⟨if stored.name = noName then none else some (tables.text stored.name),
    stored.start.toNat, stored.stop.toNat, stored.flags⟩

/-- The story in tables, right or wrong. -/
def story : Story where
  instructions := tables.instructions.toArray
  strings := tables.strings.toArray
  literals := (tables.literals.map tables.flagSet).toArray
  containers := (tables.containers.map tables.container).toArray
  declarations := ⟨tables.globals.map tables.declaration, tables.definitions⟩

section Reading

variable {tables : Tables} {index : UInt32} {stored : StoredFlags}

theorem string_story :
    tables.story.string index = tables.text index := by
  simp [story, Story.string, text]

theorem literal_story
    (here : tables.literals[index.toNat]? = some stored) :
    tables.story.literal index = .list (tables.flagSet stored) := by
  simp [story, Story.literal, here]

theorem value_list
    (here : tables.literals[index.toNat]? = some stored) :
    tables.value (.list index) = .list (tables.flagSet stored) := by
  simp [value, here]

end Reading

/-! ## What a loader checks -/

def HasText (index : UInt32) : Prop :=
  index.toNat < tables.strings.length

/-- All lists and flags of a stored set are declared. -/
structure Declares (stored : StoredFlags) : Prop where
  origins : ∀ origin ∈ stored.origins, (tables.definitions.list? origin).isSome = true
  items : ∀ item ∈ stored.items, (tables.definitions.flagName? item).isSome = true

def HasValue : StoredValue → Prop
  | .str index => tables.HasText index
  | .list index => index.toNat < tables.literals.length
  | .divert target => target.toNat ≤ tables.instructions.length
  | _ => True

/-- A marker of the container with a number stands at an address. -/
def MarkedAt (address : UInt32) (command : Command) (id : Nat) : Prop :=
  ∃ instruction,
    tables.instructions[address.toNat]? = some instruction ∧
      instruction.command = command ∧ instruction.payload.toNat = id

structure Delimits (stored : StoredContainer) (id : Nat) : Prop where
  ordered : stored.start ≤ stored.stop
  start : tables.MarkedAt stored.start .startContainer id
  stop : tables.MarkedAt stored.stop .endContainer id
  name : stored.name ≠ noName → tables.HasText stored.name

def bounds : Loader.Bounds :=
  ⟨tables.strings.length, tables.literals.length, tables.containers.length,
    tables.instructions.length⟩

/-- Tables that a loader accepts. -/
structure Acceptable : Prop where
  listCount : tables.lists.length ≤ Loader.greatestListCount
  lists :
    ∀ list ∈ tables.lists,
      tables.HasText list.name ∧ ∀ flag ∈ list.flags, tables.HasText flag.1
  literals : ∀ literal ∈ tables.literals, tables.Declares literal
  globals :
    ∀ global ∈ tables.globals, tables.HasText global.1 ∧ tables.HasValue global.2
  names : (tables.globals.map fun global => tables.text global.1).Nodup
  containers :
    ∀ {id : Nat} {container : StoredContainer},
      tables.containers[id]? = some container → tables.Delimits container id
  instructions :
    ∀ instruction ∈ tables.instructions, tables.bounds.admits instruction = true

end Tables

/-! ## Part by part -/

namespace Loader

variable (tables : Tables)

theorem string_gives
    (index : UInt32) :
    Gives (tables.HasText index) (tables.text index) (string tables.strings.toArray index) := by
  intro value
  simp only [string, List.getElem?_toArray, Tables.HasText, Tables.text,
    List.getD_eq_getElem?_getD]
  cases here : tables.strings[index.toNat]? with
  | none =>
      simp [refuse, Nat.not_lt.mpr (List.getElem?_eq_none_iff.mp here)]
  | some text =>
      simp [(List.getElem?_eq_some_iff.mp here).1, eq_comm]

theorem list_gives
    (stored : StoredList) :
    Gives (tables.HasText stored.name ∧ ∀ flag ∈ stored.flags, tables.HasText flag.1)
      (tables.flagList stored) (list tables.strings.toArray stored) := by
  have flags :=
    Gives.mapM fun (flag : UInt32 × Int32) (_ : flag ∈ stored.flags) =>
      (string_gives tables flag.1).bind_pure fun name => (name, flag.2)
  exact (flags.bind fun _ => (string_gives tables stored.name).bind_pure fun name =>
    (⟨name, _⟩ : FlagList)).congr and_comm

theorem definitions_gives :
    Gives
      (tables.lists.length ≤ greatestListCount ∧
        ∀ list ∈ tables.lists,
          tables.HasText list.name ∧ ∀ flag ∈ list.flags, tables.HasText flag.1)
      tables.definitions (definitions tables.strings.toArray tables.lists) := by
  have lists := Gives.mapM fun stored (_ : stored ∈ tables.lists) =>
    list_gives tables stored
  refine (Gives.refused fun _ => lists.bind_pure Definitions.ofLists).congr ?_
  rw [Nat.not_lt]

theorem literal_gives
    (stored : StoredFlags) :
    Gives (tables.Declares stored) (tables.flagSet stored)
      (literal tables.definitions stored) := by
  refine (Gives.ite fun _ => .ok (tables.flagSet stored)).congr ?_
  rw [and_true, Bool.and_eq_true, List.all_eq_true, List.all_eq_true]
  exact ⟨fun ⟨origins, items⟩ => ⟨origins, items⟩, fun declared => ⟨declared.1, declared.2⟩⟩

theorem value_gives
    (stored : StoredValue) :
    Gives (tables.HasValue stored) (tables.value stored)
      (value tables.strings.toArray (tables.literals.map tables.flagSet).toArray
        tables.instructions.length stored) := by
  cases stored with
  | str index =>
      exact (string_gives tables index).bind_pure Value.str
  | list index =>
      intro initial
      simp only [value, Tables.value, Tables.HasValue, List.getElem?_toArray, List.getElem?_map]
      cases here : tables.literals[index.toNat]? with
      | none =>
          simp [refuse, Nat.not_lt.mpr (List.getElem?_eq_none_iff.mp here)]
      | some literal =>
          simp [(List.getElem?_eq_some_iff.mp here).1, eq_comm]
  | divert target =>
      exact (Gives.ite fun _ => .ok _).congr (iff_of_eq (and_true _))
  | void | bool | int | float =>
      exact .ok _

theorem globals_gives
    (seen : List String)
    (stored : List (UInt32 × StoredValue)) :
    Gives
      ((∀ global ∈ stored, tables.HasText global.1 ∧ tables.HasValue global.2) ∧
        (stored.map fun global => tables.text global.1).Nodup ∧
        ∀ global ∈ stored, tables.text global.1 ∉ seen)
      (stored.map tables.declaration)
      (globals tables.strings.toArray (tables.literals.map tables.flagSet).toArray
        tables.instructions.length seen stored) := by
  induction stored generalizing seen with
  | nil =>
      exact (Gives.ok _).congr (by simp)
  | cons first rest inductionHypothesis =>
      have later := inductionHypothesis (tables.text first.1 :: seen)
      simp only [globals]
      refine ((string_gives tables first.1).bind fun _ => Gives.refused fun _ =>
        (value_gives tables first.2).bind fun _ => later.bind_pure fun others =>
          tables.declaration first :: others).congr ?_
      simp only [List.map_cons, List.nodup_cons, List.mem_cons,
        List.mem_map, not_or, not_exists, not_and, forall_and]
      grind

theorem isMarker_iff
    {address : UInt32}
    {command : Command}
    {id : Nat} :
    isMarker tables.instructions.toArray address.toNat command id = true ↔
      tables.MarkedAt address command id := by
  simp only [isMarker, Tables.MarkedAt, List.getElem?_toArray]
  cases tables.instructions[address.toNat]? with
  | none =>
      simp
  | some instruction =>
      simp

theorem container_gives
    (entry : StoredContainer × Nat) :
    Gives (tables.Delimits entry.1 entry.2) (tables.container entry.1)
      (container tables.strings.toArray tables.instructions.toArray entry) := by
  have named :
      Gives (entry.1.name ≠ noName → tables.HasText entry.1.name) (tables.container entry.1)
        (if entry.1.name = noName then
          .ok ⟨none, entry.1.start.toNat, entry.1.stop.toNat, entry.1.flags⟩
        else do
          let name ← string tables.strings.toArray entry.1.name
          .ok ⟨some name, entry.1.start.toNat, entry.1.stop.toNat, entry.1.flags⟩) := by
    simp only [Tables.container]
    split
    · next none =>
        exact (Gives.ok _).congr (by simp [none])
    · next some =>
        refine ((string_gives tables entry.1.name).bind_pure fun name => _).congr ?_
        exact ⟨fun inside _ => inside, fun inside => inside some⟩
  refine (Gives.ite fun _ => named).congr ?_
  simp only [Bool.and_eq_true, decide_eq_true_eq, isMarker_iff tables]
  constructor
  · rintro ⟨⟨⟨ordered, start⟩, stop⟩, name⟩
    exact ⟨UInt32.le_iff_toNat_le.mpr ordered, start, stop, name⟩
  · rintro ⟨ordered, start, stop, name⟩
    exact ⟨⟨⟨UInt32.le_iff_toNat_le.mp ordered, start⟩, stop⟩, name⟩

theorem checkInstructions_gives
    (bounds : Bounds)
    (address : Nat)
    (instructions : List Instruction) :
    Gives (∀ instruction ∈ instructions, bounds.admits instruction = true) ()
      (checkInstructions bounds address instructions) := by
  induction instructions generalizing address with
  | nil =>
      exact (Gives.ok _).congr (by simp)
  | cons first rest inductionHypothesis =>
      refine (Gives.ite fun _ => inductionHypothesis (address + 1)).congr ?_
      rw [List.forall_mem_cons]

end Loader

/-! ## The whole story -/

/-- A loader accepts the acceptable tables, and makes of them the story in them. -/
theorem Story.ofTables_gives
    (tables : Tables) :
    Gives tables.Acceptable tables.story (Story.ofTables tables) := by
  have literals := Gives.mapM fun stored (_ : stored ∈ tables.literals) =>
    Loader.literal_gives tables stored
  have containers := Gives.mapM fun entry (_ : entry ∈ tables.containers.zipIdx) =>
    Loader.container_gives tables entry
  have unnumbered :
      tables.containers.zipIdx.map (fun entry => tables.container entry.1) =
        tables.containers.map tables.container := by
    have first := congrArg (List.map tables.container) (List.zipIdx_map_fst 0 tables.containers)
    rwa [List.map_map] at first
  have checked := Loader.checkInstructions_gives tables.bounds 0 tables.instructions
  have sizes :
      tables.bounds =
        ⟨tables.strings.toArray.size, (tables.literals.map tables.flagSet).toArray.size,
          (tables.containers.map tables.container).length, tables.instructions.toArray.size⟩ := by
    simp [Tables.bounds]
  rw [unnumbered] at containers
  rw [sizes] at checked
  refine ((Loader.definitions_gives tables).bind fun _ => literals.bind fun _ =>
    (Loader.globals_gives tables [] tables.globals).bind fun _ => containers.bind fun _ =>
      checked.bind_pure fun _ => tables.story).congr ?_
  rw [← sizes]
  constructor
  · rintro ⟨⟨listCount, lists⟩, literals, ⟨globals, names, _⟩, containers, instructions⟩
    refine ⟨listCount, lists, literals, globals, names, fun here => ?_, instructions⟩
    exact containers (_, _) (List.mem_zipIdx_iff_getElem?.mpr here)
  · intro acceptable
    refine ⟨⟨acceptable.listCount, acceptable.lists⟩, acceptable.literals,
      ⟨acceptable.globals, acceptable.names, by simp⟩, fun entry inside => ?_,
      acceptable.instructions⟩
    exact acceptable.containers (List.mem_zipIdx_iff_getElem?.mp inside)

end Fabula
