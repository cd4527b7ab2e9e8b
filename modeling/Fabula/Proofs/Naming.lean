import Fabula.Proofs.Lookup
import Fabula.Value.Literal

namespace Fabula

/-!
# Flags by name

A set is asked for a flag, and changed, by the name of the flag.  A bare name is looked up
in the origins of the set before all other lists, so what it stands for depends on the set,
and adding a flag may change the origins.  The flag that was added is still the one that
the name stands for: either its list was an origin before, or no origin had the name, and
then the new origin is the only one that has.
-/

/-- A list has a flag of a name. -/
def FlagList.HasFlag (list : FlagList) (name : String) : Prop :=
  ∃ flag ∈ list.flags, flag.1 = name

/-- Inserting a member changes nothing. -/
theorem SortedSet.insert_of_mem
    {α : Type}
    [Ranked α]
    {set : SortedSet α}
    {a : α}
    (member : a ∈ set) :
    set.insert a = set :=
  eq_of_mem_iff fun b => by
    rw [mem_insert, or_iff_right_of_imp]
    rintro rfl
    exact member

namespace Definitions

variable {defs : Definitions} {name : String} {preferred : SortedSet UInt16} {list : UInt16}
  {item : FlagId}

/--
Some list has the flag that a name asks for: the first list of its name if the name is
qualified, and any list if it is bare.
-/
def Knows (defs : Definitions) (name : String) : Prop :=
  match splitQualified? name with
  | some (listName, flagName) =>
      ∃ list,
        defs.lists.find? (fun list => list.name == listName) = some list ∧
          list.HasFlag flagName
  | none =>
      ∃ list ∈ defs.lists, list.HasFlag name

/-! ## The same name again -/

/-- A qualified name stands for the same flag wherever it is looked up. -/
theorem resolve?_qualified
    (qualified : (splitQualified? name).isSome = true)
    (first second : SortedSet UInt16) :
    defs.resolve? name first = defs.resolve? name second := by
  obtain ⟨parts, split⟩ := Option.isSome_iff_exists.mp qualified
  simp only [resolve?, split]

/-- A flag is found in its own list. -/
theorem flagByName?_own
    (found : defs.flagByName? list name = some item) :
    defs.flagByName? item.list name = some item := by
  obtain ⟨rfl, _⟩ := flagByName?_iff found
  exact found

/-- A bare name stands for the same flag when the list of the flag joins the preferred ones. -/
theorem resolve?_insert_bare
    (bare : splitQualified? name = none)
    (looked : defs.resolve? name preferred = some item) :
    defs.resolve? name (preferred.insert item.list) = some item := by
  by_cases origin : item.list ∈ preferred
  · rwa [SortedSet.insert_of_mem origin]
  simp only [resolve?, bare, List.findSome?_append, Option.or_eq_some_iff] at looked ⊢
  obtain among | ⟨nowhere, behind⟩ := looked
  · obtain ⟨list, preferring, found⟩ := List.exists_of_findSome?_eq_some among
    obtain ⟨rfl, _⟩ := flagByName?_iff found
    exact absurd preferring origin
  -- No list that was preferred has the name, so whatever is found now is found in the new one.
  obtain ⟨list, _, found⟩ := List.exists_of_findSome?_eq_some behind
  have there := flagByName?_own found
  left
  cases first : (preferred.insert item.list).toList.findSome? (defs.flagByName? · name) with
  | none =>
      have absent :=
        List.findSome?_eq_none_iff.mp first item.list (SortedSet.mem_insert.mpr (.inl rfl))
      rw [there] at absent
      cases absent
  | some other =>
      obtain ⟨list, inside, found⟩ := List.exists_of_findSome?_eq_some first
      rcases SortedSet.mem_insert.mp inside with rfl | older
      · exact found.symm.trans there
      · rw [List.findSome?_eq_none_iff.mp nowhere list older] at found
        cases found

/-- A name stands for the same flag when the list of the flag joins the preferred ones. -/
theorem resolve?_insert
    (looked : defs.resolve? name preferred = some item) :
    defs.resolve? name (preferred.insert item.list) = some item := by
  cases split : splitQualified? name with
  | none =>
      exact resolve?_insert_bare split looked
  | some parts =>
      rw [← looked]
      exact resolve?_qualified (by simp [split]) _ _

/-! ## Names that stand for a flag -/

theorem flagByName?_isSome_iff :
    (defs.flagByName? list name).isSome = true ↔
      ∃ found, defs.list? list = some found ∧ found.HasFlag name := by
  cases here : defs.list? list with
  | none =>
      simp [flagByName?, here]
  | some found =>
      simp only [flagByName?, here, Option.bind_some, Option.isSome_map, FlagList.findName?,
        Array.findIdx?_isSome, Array.any_eq_true', beq_iff_eq, Option.some.injEq,
        exists_eq_left', FlagList.HasFlag]

/-- The list at the first position of a name is the first list of the name. -/
theorem listIndex?_bind_list?
    (few : defs.lists.size ≤ 65535)
    (listName : String) :
    (defs.listIndex? listName).bind defs.list? =
      defs.lists.find? (fun list => list.name == listName) := by
  simp only [listIndex?, Array.find?_eq_getElem?_findIdx]
  cases first : defs.lists.findIdx? (fun list => list.name == listName) with
  | none =>
      have absent := Array.findIdx_eq_size.mpr (Array.findIdx?_eq_none_iff.mp first)
      simp [absent]
  | some position =>
      obtain ⟨inside, same⟩ := Array.findIdx?_eq_some_iff_findIdx_eq.mp first
      have word : (UInt16.ofNat position).toNat = position :=
        UInt16.toNat_ofNat_of_lt' (Nat.lt_of_lt_of_le inside (Nat.le_succ_of_le few))
      simp only [Option.map_some, Option.bind_some, list?, word, same]

/-- Words can point to all of few lists. -/
theorem exists_index
    (few : defs.lists.size ≤ 65535)
    {found : FlagList}
    (listed : found ∈ defs.lists) :
    ∃ list ∈ defs.indices, defs.list? list = some found := by
  obtain ⟨position, here⟩ := Array.mem_iff_getElem?.mp listed
  obtain ⟨inside, _⟩ := Array.getElem?_eq_some_iff.mp here
  have size : (UInt16.ofNat defs.size).toNat = defs.lists.size :=
    UInt16.toNat_ofNat_of_lt' (Nat.lt_succ_of_le few)
  have word : (UInt16.ofNat position).toNat = position :=
    UInt16.toNat_ofNat_of_lt' (Nat.lt_of_lt_of_le inside (Nat.le_succ_of_le few))
  refine ⟨UInt16.ofNat position, List.mem_map_of_mem ?_, ?_⟩
  · exact List.mem_range.mpr (size ▸ inside)
  · rw [list?, word, here]

/-- A name stands for a flag, whatever lists are preferred, if some list knows it. -/
theorem resolve?_isSome_iff
    (few : defs.lists.size ≤ 65535)
    (preferred : SortedSet UInt16) :
    (defs.resolve? name preferred).isSome = true ↔ defs.Knows name := by
  cases split : splitQualified? name with
  | some parts =>
      obtain ⟨listName, flagName⟩ := parts
      simp only [resolve?, Knows, split, ← listIndex?_bind_list? few]
      cases defs.listIndex? listName with
      | none =>
          simp
      | some list =>
          exact flagByName?_isSome_iff
  | none =>
      simp only [resolve?, Knows, split, List.findSome?_isSome_iff, flagByName?_isSome_iff]
      constructor
      · rintro ⟨list, _, found, here, has⟩
        exact ⟨found, Array.mem_of_getElem? here, has⟩
      · rintro ⟨found, listed, has⟩
        obtain ⟨list, pointed, here⟩ := exists_index few listed
        exact ⟨list, List.mem_append_right _ pointed, found, here, has⟩

end Definitions

namespace FlagSet

variable {set larger smaller : FlagSet} {name other : String} {item : FlagId}

/-! ## Sets and names -/

/-- What adding and removing the flag of a name means for a set. -/
structure Obeys (set : FlagSet) (name : String) : Prop where
  contains_add :
    ∀ {larger},
      set.add name = .ok larger →
      larger.contains name = true
  contains_remove :
    ∀ {smaller},
      set.remove name = .ok smaller →
      smaller.contains name = false
  /-- A qualified name that stands for another flag is answered as before. -/
  others_add :
    ∀ {larger other},
      set.add name = .ok larger →
      (Definitions.splitQualified? other).isSome = true →
      set.resolve? other ≠ set.resolve? name →
      larger.contains other = set.contains other
  others_remove :
    ∀ {smaller other},
      set.remove name = .ok smaller →
      (Definitions.splitQualified? other).isSome = true →
      set.resolve? other ≠ set.resolve? name →
      smaller.contains other = set.contains other
  origins_remove :
    ∀ {smaller},
      set.remove name = .ok smaller →
      smaller.origins = set.origins
  /-- A name that no list knows is refused, and no other name is. -/
  add_refused :
    ∀ error,
      set.add name = .error error ↔ error = .unknownFlag name ∧ ¬ set.defs.Knows name
  remove_refused :
    ∀ error,
      set.remove name = .error error ↔ error = .unknownFlag name ∧ ¬ set.defs.Knows name
  /-- Removing a flag that has just been added gives the flags back. -/
  remove_add :
    ∀ {larger},
      set.contains name = false →
      set.add name = .ok larger →
      ∃ smaller,
        larger.remove name = .ok smaller ∧
          smaller.items = set.items

theorem contains_iff :
    set.contains name = true ↔ ∃ item ∈ set.items, set.resolve? name = some item := by
  cases looked : set.resolve? name with
  | none =>
      simp [contains, looked]
  | some item =>
      simp [contains, looked]

theorem add_eq_ok_iff :
    set.add name = .ok larger ↔
      ∃ item,
        set.resolve? name = some item ∧
          larger =
            { set with
              items := set.items.insert item
              origins := set.origins.insert item.list } := by
  cases looked : set.resolve? name with
  | none =>
      simp [add, add?, looked]
  | some item =>
      simp [add, add?, looked, eq_comm]

theorem remove_eq_ok_iff :
    set.remove name = .ok smaller ↔
      ∃ item,
        set.resolve? name = some item ∧
          smaller = { set with items := set.items.erase item } := by
  cases looked : set.resolve? name with
  | none =>
      simp [remove, remove?, looked]
  | some item =>
      simp [remove, remove?, looked, eq_comm]

theorem add_eq_error_iff
    {error : Error} :
    set.add name = .error error ↔ error = .unknownFlag name ∧ set.resolve? name = none := by
  cases looked : set.resolve? name with
  | none =>
      simp [add, add?, looked, eq_comm]
  | some item =>
      simp [add, add?, looked]

theorem remove_eq_error_iff
    {error : Error} :
    set.remove name = .error error ↔ error = .unknownFlag name ∧ set.resolve? name = none := by
  cases looked : set.resolve? name with
  | none =>
      simp [remove, remove?, looked, eq_comm]
  | some item =>
      simp [remove, remove?, looked]

theorem resolve?_eq_none_iff
    (few : set.defs.lists.size ≤ 65535) :
    set.resolve? name = none ↔ ¬ set.defs.Knows name := by
  rw [← Definitions.resolve?_isSome_iff few set.origins, resolve?,
    Option.not_isSome_iff_eq_none]

/-- Whatever a qualified name stands for, it stands for in every set over the same lists. -/
theorem contains_qualified
    (sameDefs : larger.defs = set.defs)
    (qualified : (Definitions.splitQualified? other).isSome = true)
    (sameMember :
      ∀ item,
        set.resolve? other = some item →
        (item ∈ larger.items ↔ item ∈ set.items)) :
    larger.contains other = set.contains other := by
  have again : larger.resolve? other = set.resolve? other := by
    simp only [resolve?, sameDefs]
    exact Definitions.resolve?_qualified qualified _ _
  rw [Bool.eq_iff_iff, contains_iff, contains_iff, again]
  constructor
  · rintro ⟨item, inside, looked⟩
    exact ⟨item, (sameMember item looked).mp inside, looked⟩
  · rintro ⟨item, inside, looked⟩
    exact ⟨item, (sameMember item looked).mpr inside, looked⟩

/-- The flag that was added is what its name stands for. -/
theorem resolve?_add
    (looked : set.resolve? name = some item) :
    resolve?
        { set with items := set.items.insert item, origins := set.origins.insert item.list }
        name =
      some item :=
  Definitions.resolve?_insert looked

theorem erase_insert
    (absent : item ∉ set.items) :
    (set.items.insert item).erase item = set.items :=
  SortedSet.eq_of_mem_iff fun other => by
    rw [SortedSet.mem_erase, SortedSet.mem_insert]
    constructor
    · rintro ⟨same | inside, different⟩
      · exact absurd same different
      · exact inside
    · intro inside
      exact ⟨.inr inside, fun same => absent (same ▸ inside)⟩

/--
Adding and removing by name work on a set as adding and removing a flag do, although a
bare name is looked up anew, and among other origins, each time.
-/
theorem obeys_names
    (set : FlagSet)
    (name : String)
    (few : set.defs.lists.size ≤ 65535) :
    set.Obeys name where
  contains_add added := by
    obtain ⟨item, looked, rfl⟩ := add_eq_ok_iff.mp added
    exact contains_iff.mpr ⟨item, SortedSet.mem_insert.mpr (.inl rfl), resolve?_add looked⟩
  contains_remove removed := by
    obtain ⟨item, looked, rfl⟩ := remove_eq_ok_iff.mp removed
    refine Bool.eq_false_iff.mpr fun contained => ?_
    obtain ⟨same, inside, again⟩ := contains_iff.mp contained
    obtain rfl := Option.some.inj (looked.symm.trans again)
    exact (SortedSet.mem_erase.mp inside).2 rfl
  others_add added qualified different := by
    obtain ⟨item, looked, rfl⟩ := add_eq_ok_iff.mp added
    refine contains_qualified rfl qualified fun other found => ?_
    refine SortedSet.mem_insert.trans (or_iff_right ?_)
    rintro rfl
    exact different (found.trans looked.symm)
  others_remove removed qualified different := by
    obtain ⟨item, looked, rfl⟩ := remove_eq_ok_iff.mp removed
    refine contains_qualified rfl qualified fun other found => ?_
    refine SortedSet.mem_erase.trans (and_iff_left ?_)
    rintro rfl
    exact different (found.trans looked.symm)
  origins_remove removed := by
    obtain ⟨_, _, rfl⟩ := remove_eq_ok_iff.mp removed
    rfl
  add_refused error := by
    rw [add_eq_error_iff, resolve?_eq_none_iff few]
  remove_refused error := by
    rw [remove_eq_error_iff, resolve?_eq_none_iff few]
  remove_add outside added := by
    obtain ⟨item, looked, rfl⟩ := add_eq_ok_iff.mp added
    refine ⟨_, remove_eq_ok_iff.mpr ⟨item, resolve?_add looked, rfl⟩, erase_insert ?_⟩
    intro inside
    exact Bool.eq_false_iff.mp outside (contains_iff.mpr ⟨item, inside, looked⟩)

/-- A rose in a garden where tulips have its colour too. -/
def garden : FlagSet :=
  ⟨⟨#[⟨"tulip", #[("red", 1), ("white", 2)]⟩, ⟨"rose", #[("red", 1)]⟩]⟩, .ofList [⟨1, 0⟩],
    .ofList [1]⟩

/--
White is looked up behind the origins, and makes tulips an origin: `red` stands for another
flag from then on, but `white` and `rose.red` do not.
-/
theorem obeys_names_garden :
    garden.defs.lists.size ≤ 65535 ∧
      garden.contains "white" = false ∧
      garden.contains "red" = true ∧
      ∃ larger,
        garden.add "white" = .ok larger ∧
          larger.contains "red" = false ∧
          larger.contains "white" = true ∧
          larger.contains "rose.red" = garden.contains "rose.red" ∧
          (garden.add "blue" = .error (.unknownFlag "blue") ↔ ¬ garden.defs.Knows "blue") ∧
          ∃ smaller, larger.remove "white" = .ok smaller ∧ smaller.items = garden.items := by
  have few : garden.defs.lists.size ≤ 65535 := by decide
  have outside : garden.contains "white" = false := by decide +kernel
  have looked : garden.resolve? "white" = some ⟨0, 1⟩ := by decide +kernel
  have added := add_eq_ok_iff.mpr ⟨_, looked, rfl⟩
  have obeys := obeys_names garden "white" few
  have refused := (obeys_names garden "blue" few).add_refused (.unknownFlag "blue")
  exact
    ⟨few, outside, by decide +kernel, _, added, by decide +kernel, obeys.contains_add added,
      obeys.others_add added (by decide +kernel) (by decide +kernel), by simpa using refused,
      obeys.remove_add outside added⟩

end FlagSet

end Fabula
