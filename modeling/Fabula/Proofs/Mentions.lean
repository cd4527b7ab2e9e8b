import Fabula.Proofs.Dictation

namespace Fabula

/-!
# Flags that are mentioned

A flag is mentioned by the name of its list and its own.  The assembler looks it up in the
lists that were declared before, with their texts as positions; a loaded story looks it up
in all of its lists.  Since lists are only ever added and the first one of a name counts,
both find the same flag.
-/

/-- A qualified path names a flag, whatever lists are preferred. -/
structure Definitions.Names (defs : Definitions) (path : String) (id : FlagId) : Prop where
  qualified : (splitQualified? path).isSome = true
  found : ∀ preferred, defs.resolve? path preferred = some id

/-- The first entry with a property, seen through a view. -/
theorem findIdx?_eq_map
    {α β : Type}
    {view : α → β}
    {p : α → Bool}
    {q : β → Bool}
    {entries : List α}
    (agree : ∀ entry ∈ entries, p entry = q (view entry)) :
    entries.findIdx? p = (entries.map view).findIdx? q := by
  induction entries with
  | nil =>
      rfl
  | cons first rest inductionHypothesis =>
      rw [List.map_cons, List.findIdx?_cons, List.findIdx?_cons, agree first List.mem_cons_self,
        inductionHypothesis fun entry inside => agree entry (List.mem_cons_of_mem first inside)]

namespace Definitions

variable {lists : List FlagList} {path : String} {id : FlagId}

theorem list?_ofLists
    (few : lists.length ≤ 65536)
    {number : Nat}
    {list : FlagList}
    (here : lists[number]? = some list) :
    (ofLists lists).list? (UInt16.ofNat number) = some list.sorted := by
  have inside : number < UInt16.size :=
    Nat.lt_of_lt_of_le (List.getElem?_eq_some_iff.mp here).1 few
  simp [ofLists, list?, UInt16.toNat_ofNat_of_lt' inside, here]

theorem listIndex?_ofLists
    (name : String) :
    (ofLists lists).listIndex? name =
      (lists.findIdx? fun list => list.name == name).map UInt16.ofNat := by
  rw [listIndex?, ofLists, List.findIdx?_toArray, List.findIdx?_map]
  rfl

/-- What a qualified path names, step by step. -/
theorem names_ofLists_iff
    (few : lists.length ≤ 65536) :
    (ofLists lists).Names path id ↔
      ∃ listName flagName number list position,
        splitQualified? path = some (listName, flagName) ∧
          lists.findIdx? (fun list => list.name == listName) = some number ∧
          lists[number]? = some list ∧ list.sorted.findName? flagName = some position ∧
          id = ⟨UInt16.ofNat number, UInt16.ofNat position⟩ := by
  cases split : splitQualified? path with
  | none =>
      refine ⟨fun names => ?_, fun ⟨_, _, _, _, _, impossible, _⟩ => ?_⟩
      · have qualified := names.qualified
        rw [split] at qualified
        cases qualified
      · cases impossible
  | some names =>
      obtain ⟨listName, flagName⟩ := names
      have resolves (preferred : SortedSet UInt16) :
          (ofLists lists).resolve? path preferred =
            ((ofLists lists).listIndex? listName).bind fun list =>
              (ofLists lists).flagByName? list flagName := by
        simp only [resolve?, split]
      constructor
      · rintro ⟨-, found⟩
        have found := found .empty
        simp only [resolves, listIndex?_ofLists, flagByName?, Option.bind_eq_some_iff,
          Option.map_eq_some_iff] at found
        obtain ⟨_, ⟨number, first, rfl⟩, position, ⟨sorted, here, named⟩, rfl⟩ := found
        obtain ⟨inside, _⟩ := List.findIdx?_eq_some_iff_getElem.mp first
        have there := List.getElem?_eq_getElem inside
        rw [list?_ofLists few there] at here
        cases here
        exact ⟨listName, flagName, number, _, position, rfl, first, there, named, rfl⟩
      · rintro ⟨_, _, number, list, position, ⟨⟩, first, there, named, rfl⟩
        refine ⟨by rw [split]; rfl, fun preferred => ?_⟩
        rw [resolves, listIndex?_ofLists, first, Option.map_some, Option.bind_some, flagByName?,
          list?_ofLists few there, Option.bind_some, named, Option.map_some]

/-- More lists do not change what is named already. -/
theorem names_of_prefix
    {more : List FlagList}
    (longer : lists <+: more)
    (few : more.length ≤ 65536)
    (names : (ofLists lists).Names path id) :
    (ofLists more).Names path id := by
  rw [names_ofLists_iff (Nat.le_trans longer.length_le few)] at names
  obtain ⟨listName, flagName, number, list, position, split, first, there, named, same⟩ := names
  rw [names_ofLists_iff few]
  obtain ⟨rest, rfl⟩ := longer
  refine ⟨listName, flagName, number, list, position, split, ?_, ?_, named, same⟩
  · rw [List.findIdx?_append, first, Option.some_or]
  · rw [List.getElem?_append_left (List.getElem?_eq_some_iff.mp there).1, there]

end Definitions

/-! ## Looking up among positions -/

namespace Assembler

variable {a : Assembler} {acts before after : List Act} {act : Act}

/-- The texts of all lists are there. -/
def ListsRead (tables : Tables) : Prop :=
  ∀ list ∈ tables.lists,
    tables.HasText list.name ∧ ∀ flag ∈ list.flags, tables.HasText flag.1

theorem holds_eq
    {index : UInt32}
    (inside : a.tables.HasText index)
    (text : String) :
    a.holds index text = (a.tables.text index == text) := by
  rw [holds, Tables.getElem?_of_hasText inside]
  rfl

theorem findList?_eq
    (read : ListsRead a.tables)
    (name : String) :
    (a.tables.lists.findIdx? fun stored => a.holds stored.name name) =
      (a.tables.lists.map a.tables.flagList).findIdx? fun list => list.name == name :=
  findIdx?_eq_map fun stored inside => holds_eq (read stored inside).1 name

/-- The flags of a stored list in order are those of the list that is read. -/
theorem findFlag?_eq
    {stored : StoredList}
    (read : ∀ flag ∈ stored.flags, a.tables.HasText flag.1)
    (name : String) :
    ((stored.flags.mergeSort fun x y => decide (x.2 ≤ y.2)).findIdx? fun entry =>
        a.holds entry.1 name) =
      (a.tables.flagList stored).sorted.findName? name := by
  have ordered :
      (stored.flags.mergeSort fun x y => decide (x.2 ≤ y.2)).map
          (fun flag => (a.tables.text flag.1, flag.2)) =
        (stored.flags.map fun flag => (a.tables.text flag.1, flag.2)).mergeSort
          fun x y => decide (x.2 ≤ y.2) :=
    List.map_mergeSort fun _ _ _ _ => rfl
  rw [FlagList.findName?, FlagList.sorted, Tables.flagList, List.findIdx?_toArray, ← ordered]
  exact findIdx?_eq_map fun flag inside => holds_eq (read flag (List.mem_mergeSort.mp inside)) name

/-- The assembler finds what the lists that it has declared so far name. -/
theorem resolveFlag?_eq_some_iff
    (read : ListsRead a.tables)
    (few : a.tables.lists.length ≤ 65536)
    {path : String}
    {id : FlagId} :
    a.resolveFlag? path = some id ↔ a.tables.definitions.Names path id := by
  rw [Tables.definitions, Definitions.names_ofLists_iff (by simpa using few)]
  simp only [resolveFlag?, Option.bind_eq_bind, Option.bind_eq_some_iff, Option.pure_def,
    Option.some.injEq, findList?_eq read]
  constructor
  · rintro ⟨⟨listName, flagName⟩, split, number, first, stored, here, position, named, same⟩
    have inside := List.mem_of_getElem? here
    rw [findFlag?_eq (read stored inside).2] at named
    exact ⟨listName, flagName, number, _, position, split, first, by simp [here], named, same.symm⟩
  · rintro ⟨listName, flagName, number, list, position, split, first, here, named, same⟩
    obtain ⟨stored, there, rfl⟩ := Option.map_eq_some_iff.mp (List.getElem?_map ▸ here)
    rw [← findFlag?_eq (read stored (List.mem_of_getElem? there)).2] at named
    exact ⟨(listName, flagName), split, number, first, stored, there, position, named, same.symm⟩

/-- Lists that were told can be read. -/
theorem listsRead_tell
    (few : (tell acts).tables.strings.length < UInt32.size) :
    ListsRead (tell acts).tables := by
  intro stored inside
  obtain ⟨before, act, after, shape, adds⟩ := Column.lists.exists_act_of_mem inside
  obtain ⟨name, flags, _⟩ := list?_read shape few adds
  exact ⟨name, flags⟩

/-- The lists that acts declare. -/
def listsOf (acts : List Act) : List FlagList :=
  acts.filterMap Act.declared?

theorem definitions_tell
    (few : (tell acts).tables.strings.length < UInt32.size) :
    (tell acts).tables.definitions = .ofLists (listsOf acts) := by
  rw [Tables.definitions, map_flagList_tell few, listsOf]

/-- What the assembler finds is what the lists declared before name. -/
theorem resolveFlag?_tell_iff
    (shape : acts = before ++ after)
    (few : (tell acts).tables.strings.length < UInt32.size)
    (fewLists : (listsOf acts).length ≤ 65536)
    {path : String}
    {id : FlagId} :
    (tell before).resolveFlag? path = some id ↔
      (Definitions.ofLists (listsOf before)).Names path id := by
  subst shape
  have fewBefore : (tell before).tables.strings.length < UInt32.size :=
    Nat.lt_of_le_of_lt (strings_prefix_tell before after).length_le few
  have counted := congrArg List.length (map_flagList_tell fewBefore)
  rw [List.length_map] at counted
  have lists : (tell before).tables.lists.length ≤ 65536 := by
    rw [counted]
    refine Nat.le_trans ?_ fewLists
    exact ((List.prefix_append before after).filterMap Act.declared?).length_le
  rw [resolveFlag?_eq_some_iff (listsRead_tell fewBefore) lists, definitions_tell fewBefore]

/-! ## Blame -/

theorem faults_tell_eq_nil_iff :
    (tell acts).faults = [] ↔
      ∀ before act after,
        acts = before ++ act :: after → act.faults (tell before) = [] := by
  induction acts using List.reverseRecOn with
  | nil =>
      exact ⟨fun _ before act after shape => by simp at shape, fun _ => rfl⟩
  | append_singleton acts act inductionHypothesis =>
      rw [tell_snoc, enact_eq, List.append_eq_nil_iff, inductionHypothesis]
      constructor
      · rintro ⟨earlier, last⟩ before own after shape
        rcases List.eq_nil_or_concat after with rfl | ⟨rest, final, rfl⟩
        · obtain ⟨rfl, same⟩ := List.append_inj' shape rfl
          cases same
          exact last
        · rw [List.concat_eq_append, ← List.cons_append, ← List.append_assoc] at shape
          exact earlier before own rest (List.append_inj' shape rfl).1
      · intro all
        exact ⟨fun before own after shape => all before own (after ++ [act]) (by simp [shape]),
          all acts act [] rfl⟩

/-- How many containers are open after acts, if no end was too many. -/
def depth (acts : List Act) : Nat :=
  acts.foldl
    (fun level act =>
      match act with
      | .opens _ _ => level + 1
      | .closes => level - 1
      | _ => level)
    0

theorem opened_length_tell
    (acts : List Act) :
    (tell acts).opened.length = depth acts := by
  induction acts using List.reverseRecOn with
  | nil =>
      rfl
  | append_singleton acts act inductionHypothesis =>
      rw [tell_snoc, enact_eq, depth, List.foldl_append, ← depth, ← inductionHypothesis]
      cases act <;> simp

theorem opened_tell_eq_nil_iff :
    (tell acts).opened = [] ↔ depth acts = 0 := by
  rw [← opened_length_tell, List.length_eq_zero_iff]

theorem complaints_eq_nil_iff
    {paths : List String} :
    a.complaints paths = [] ↔ ∀ path ∈ paths, ∃ id, a.resolveFlag? path = some id := by
  simp [complaints, Option.isNone_iff_eq_none, List.filter_eq_nil_iff,
    ← Option.ne_none_iff_exists']

/-- An act is blamed for an end without a container and for flags that are unknown. -/
theorem act_faults_eq_nil_iff :
    act.faults a = [] ↔
      (act = .closes → a.opened ≠ []) ∧
        ∀ paths, act.paths? = some paths →
          ∀ path ∈ paths, ∃ id, a.resolveFlag? path = some id := by
  cases act with
  | flags paths | globalList _ paths =>
      simp [complaints_eq_nil_iff]
  | _ =>
      simp

end Assembler

end Fabula
