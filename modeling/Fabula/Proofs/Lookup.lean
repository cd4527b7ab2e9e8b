import Fabula.Proofs.Canonical
import Fabula.Proofs.Loading
import Fabula.Proofs.Native

namespace Fabula

/-!
# Looking flags up

A flag is looked up by its value or by its name, and what is found first is given back as
two words.  A story has few enough lists for their words, but a list may have more flags
than there are words.  A lookup gives back the flag that was looked up exactly if one
stands among those that a word can point to, and another flag of the same list otherwise.
-/

namespace Definitions

variable {defs : Definitions} {list : UInt16} {test : String × Int32 → Bool}

/-- Whether a flag that passes a test stands where a word can point to. -/
def reaches (defs : Definitions) (list : UInt16) (test : String × Int32 → Bool) : Bool :=
  match defs.list? list with
  | some found => (found.flags.toList.take UInt16.size).any test
  | none => false

/-- The flag that a name asks for, without the name of its list. -/
def flagPart (name : String) : String :=
  match splitQualified? name with
  | some (_, flagName) => flagName
  | none => name

/-- A list has a name, and no list before it has. -/
structure IsFirst (defs : Definitions) (name : String) (list : UInt16) : Prop where
  named : (defs.list? list).map FlagList.name = some name
  earlier :
    ∀ {position found},
      position < list.toNat → defs.lists[position]? = some found → found.name ≠ name

/-- What the lookups of a story give back. -/
structure Answers (defs : Definitions) : Prop where
  byValue :
    ∀ {list value item},
      defs.flagByValue? list value = some item →
      item.list = list ∧
        (defs.flagValue? item = some value ↔
          defs.reaches list (fun flag => flag.2 == value) = true)
  byName :
    ∀ {name preferred item},
      defs.resolve? name preferred = some item →
      (defs.flagName? item = some (flagPart name) ↔
        defs.reaches item.list (fun flag => flag.1 == flagPart name) = true)
  qualified :
    ∀ {name preferred item listName flagName},
      defs.resolve? name preferred = some item →
      splitQualified? name = some (listName, flagName) →
      defs.IsFirst listName item.list
  /-- A moved flag comes from one of its list, which it is the right number of steps away from. -/
  shifted :
    ∀ {set : FlagSet} {steps item},
      set.defs = defs →
      item ∈ (set.shift steps).items →
      ∃ origin ∈ set.items, ∃ value target,
        item.list = origin.list ∧
          defs.flagValue? origin = some value ∧
          target.toInt = value.toInt + steps.toInt ∧
          (defs.flagValue? item = some target ↔
            defs.reaches item.list (fun flag => flag.2 == target) = true)

/-! ## Positions and words -/

theorem reaches_iff :
    defs.reaches list test = true ↔
      ∃ flag entry, defs.flagAt? ⟨list, flag⟩ = some entry ∧ test entry = true := by
  cases here : defs.list? list with
  | none =>
      simp [reaches, flagAt?, here]
  | some found =>
      simp only [reaches, here, List.any_eq_true, flagAt?, Option.bind_some]
      constructor
      · rintro ⟨entry, inside, passes⟩
        obtain ⟨position, short, rfl⟩ := List.mem_take_iff_getElem.mp inside
        obtain ⟨word, listed⟩ := Nat.lt_min.mp short
        refine ⟨UInt16.ofNat position, _, ?_, passes⟩
        rw [UInt16.toNat_ofNat_of_lt' word]
        exact Array.getElem?_eq_some_iff.mpr ⟨listed, rfl⟩
      · rintro ⟨flag, entry, there, passes⟩
        obtain ⟨listed, rfl⟩ := Array.getElem?_eq_some_iff.mp there
        refine ⟨_, List.mem_take_iff_getElem.mpr ⟨flag.toNat, ?_, rfl⟩, passes⟩
        exact Nat.lt_min.mpr ⟨flag.toNat_lt, listed⟩

/-- A flag that passes a test is found exactly if a word can point to one. -/
theorem firstFlag?_passes_iff
    {item : FlagId}
    (looked : defs.firstFlag? list test = some item) :
    (∃ entry, defs.flagAt? item = some entry ∧ test entry = true) ↔
      defs.reaches list test = true := by
  obtain ⟨found, position, here, first, rfl⟩ := firstFlag?_eq_some_iff.mp looked
  refine ⟨fun ⟨entry, there, passes⟩ => reaches_iff.mpr ⟨_, entry, there, passes⟩, ?_⟩
  intro reached
  obtain ⟨flag, entry, there, passes⟩ := reaches_iff.mp reached
  simp only [flagAt?, here, Option.bind_some] at there ⊢
  obtain ⟨listed, rfl⟩ := Array.getElem?_eq_some_iff.mp there
  obtain ⟨inside, found, before⟩ := Array.findIdx?_eq_some_iff_getElem.mp first
  -- No earlier flag passes, so the first one is not behind a flag that a word points to.
  have word : position < UInt16.size := by
    refine Nat.lt_of_not_le fun behind => ?_
    exact before flag.toNat (Nat.lt_of_lt_of_le flag.toNat_lt behind) passes
  rw [UInt16.toNat_ofNat_of_lt' word]
  exact ⟨_, Array.getElem?_eq_some_iff.mpr ⟨inside, rfl⟩, found⟩

/-! ## Lookups in one list -/

theorem flagValue?_iff
    {item : FlagId}
    {value : Int32} :
    defs.flagValue? item = some value ↔
      ∃ entry, defs.flagAt? item = some entry ∧ (entry.2 == value) = true := by
  simp [flagValue?]

theorem flagName?_iff
    {item : FlagId}
    {name : String} :
    defs.flagName? item = some name ↔
      ∃ entry, defs.flagAt? item = some entry ∧ (entry.1 == name) = true := by
  simp [flagName?]

theorem flagByValue?_iff
    {item : FlagId}
    {value : Int32}
    (looked : defs.flagByValue? list value = some item) :
    item.list = list ∧
      (defs.flagValue? item = some value ↔
        defs.reaches list (fun flag => flag.2 == value) = true) := by
  rw [flagByValue?_eq] at looked
  exact ⟨(firstFlag?_spec looked).1, flagValue?_iff.trans (firstFlag?_passes_iff looked)⟩

theorem flagByName?_iff
    {item : FlagId}
    {name : String}
    (looked : defs.flagByName? list name = some item) :
    item.list = list ∧
      (defs.flagName? item = some name ↔
        defs.reaches list (fun flag => flag.1 == name) = true) := by
  rw [flagByName?_eq] at looked
  exact ⟨(firstFlag?_spec looked).1, flagName?_iff.trans (firstFlag?_passes_iff looked)⟩

/-! ## Lookups in all lists -/

theorem listIndex?_isFirst
    {name : String}
    (few : defs.lists.size ≤ UInt16.size)
    (looked : defs.listIndex? name = some list) :
    defs.IsFirst name list := by
  obtain ⟨position, first, rfl⟩ := Option.map_eq_some_iff.mp looked
  obtain ⟨inside, named, before⟩ := Array.findIdx?_eq_some_iff_getElem.mp first
  have word : (UInt16.ofNat position).toNat = position :=
    UInt16.toNat_ofNat_of_lt' (Nat.lt_of_lt_of_le inside few)
  constructor
  · simpa [list?, word, inside] using named
  · intro earlier found ahead there
    rw [word] at ahead
    obtain ⟨_, rfl⟩ := Array.getElem?_eq_some_iff.mp there
    simpa using before earlier ahead

/-- A name is looked up in one list; if it is qualified, in the first list of its name. -/
theorem flagByName?_of_resolve?
    {name : String}
    {preferred : SortedSet UInt16}
    {item : FlagId}
    (looked : defs.resolve? name preferred = some item) :
    ∃ list,
      defs.flagByName? list (flagPart name) = some item ∧
        ∀ {listName flagName},
          splitQualified? name = some (listName, flagName) →
          defs.listIndex? listName = some list := by
  cases parts : splitQualified? name with
  | none =>
      simp only [resolve?, parts] at looked
      obtain ⟨list, _, found⟩ := List.exists_of_findSome?_eq_some looked
      exact ⟨list, by simpa only [flagPart, parts] using found, nofun⟩
  | some both =>
      simp only [resolve?, parts, Option.bind_eq_some_iff] at looked
      obtain ⟨list, index, found⟩ := looked
      refine ⟨list, by simpa only [flagPart, parts] using found, ?_⟩
      rintro _ _ ⟨⟩
      exact index

theorem checkedAdd_toInt
    {value steps target : Int32}
    (sum : FlagSet.checkedAdd value steps = some target) :
    target.toInt = value.toInt + steps.toInt := by
  simp only [FlagSet.checkedAdd, Option.ite_none_right_eq_some, Option.some.injEq] at sum
  obtain ⟨⟨low, high⟩, rfl⟩ := sum
  rw [Int32.toInt_add]
  exact Int.bmod_eq_of_le (by omega) (by omega)

/-- Lists that are few enough for their words. -/
theorem answers_of_few
    (few : defs.lists.size ≤ UInt16.size) :
    defs.Answers where
  byValue looked := flagByValue?_iff looked
  byName looked := by
    obtain ⟨list, found, _⟩ := flagByName?_of_resolve? looked
    obtain ⟨rfl, named⟩ := flagByName?_iff found
    exact named
  qualified looked parts := by
    obtain ⟨list, found, first⟩ := flagByName?_of_resolve? looked
    obtain ⟨rfl, _⟩ := flagByName?_iff found
    exact listIndex?_isFirst few (first parts)
  shifted := by
    rintro set steps item rfl moved
    obtain ⟨origin, inside, value, target, here, sum, there⟩ := FlagSet.mem_shift.mp moved
    obtain ⟨sameList, valued⟩ := flagByValue?_iff there
    rw [← sameList] at valued
    exact ⟨origin, inside, value, target, sameList, here, checkedAdd_toInt sum, valued⟩

end Definitions

/-! ## Lookups of a story -/

/-- A story that is loaded does not have too many lists. -/
theorem Story.lists_few
    {octets : List UInt8}
    {story : Story}
    (loaded : Story.ofOctets octets = .ok story) :
    story.declarations.lists.lists.size ≤ Loader.greatestListCount := by
  cases read : StoryFormat.decode octets with
  | error error =>
      simp only [Story.ofOctets, read] at loaded
      cases loaded
  | ok tables =>
      simp only [Story.ofOctets, read] at loaded
      obtain ⟨acceptable, rfl⟩ := (Story.ofTables_gives tables story).mp loaded
      simpa [Tables.story, Tables.definitions, Definitions.ofLists] using acceptable.listCount

/--
The lookups of every story that loads: what is given back stands in the list that was
looked in, and is the flag that was looked up exactly if a word can point to one.
-/
theorem Story.lookups_answer
    {octets : List UInt8}
    {story : Story}
    (loaded : Story.ofOctets octets = .ok story) :
    story.declarations.lists.Answers :=
  Definitions.answers_of_few (Nat.le_succ_of_le (Story.lists_few loaded))

/-- A list with many flags of one value, and one flag behind them. -/
def crowd (guests : Nat) : FlagList :=
  ⟨"crowd", (List.replicate guests ("guest", (0 : Int32)) ++ [("host", 1)]).toArray⟩

def crowdTables (guests : Nat) : Tables :=
  { Tables.empty with
    strings := ["crowd", "guest", "host"]
    lists := [⟨0, List.replicate guests (1, 0) ++ [(2, 1)]⟩] }

section Crowd

variable (guests : Nat)

theorem crowd_sorted :
    (crowd guests).sorted = crowd guests := by
  simp only [FlagList.sorted, crowd]
  rw [List.mergeSort_of_pairwise]
  simp [List.pairwise_append, List.pairwise_replicate]

theorem crowdTables_definitions :
    (crowdTables guests).definitions = ⟨#[crowd guests]⟩ := by
  have listed : (crowdTables guests).lists.map (crowdTables guests).flagList = [crowd guests] := by
    simp [crowdTables, crowd, Tables.flagList, Tables.text]
  simp only [Tables.definitions, Definitions.ofLists, listed, List.map_cons, List.map_nil,
    crowd_sorted]

theorem crowd_fits
    {guests : Nat}
    (fit : guests + 1 < UInt32.size) :
    StoryFormat.TablesFit (crowdTables guests) := by
  have none : 0 < UInt32.size := by decide
  have texts : ∀ text ∈ ["crowd", "guest", "host"], StoryFormat.TextFits text := by
    simp only [StoryFormat.TextFits]
    decide
  refine ⟨⟨show 3 < UInt32.size by decide, texts⟩, ⟨show 1 < UInt32.size by decide, ?_⟩,
    ⟨none, List.forall_mem_nil _⟩, none, none, none⟩
  intro list member
  obtain rfl := List.mem_singleton.mp member
  simpa [StoryFormat.ListFits] using fit

theorem crowd_acceptable :
    (crowdTables guests).Acceptable where
  listCount := by
    simp [crowdTables, Loader.greatestListCount]
  lists list member := by
    obtain rfl := List.mem_singleton.mp member
    refine ⟨by simp [Tables.HasText, crowdTables], fun flag listed => ?_⟩
    rcases List.mem_append.mp listed with guest | host
    · obtain ⟨_, rfl⟩ := List.mem_replicate.mp guest
      simp [Tables.HasText, crowdTables]
    · obtain rfl := List.mem_singleton.mp host
      simp [Tables.HasText, crowdTables]
  literals := nofun
  globals := nofun
  names := List.nodup_nil
  containers := nofun
  instructions := nofun

theorem crowd_loaded
    {guests : Nat}
    (fit : guests + 1 < UInt32.size) :
    Story.ofOctets (StoryFormat.encode (crowdTables guests)) = .ok (crowdTables guests).story := by
  rw [StoryFormat.ofOctets_encode (crowd_fits fit)]
  exact (Story.ofTables_gives _ _).mpr ⟨crowd_acceptable guests, rfl⟩

/-- The flag behind the others is found where it stands. -/
theorem flagByValue?_crowd :
    (crowdTables guests).definitions.flagByValue? 0 1 = some ⟨0, UInt16.ofNat guests⟩ := by
  simp [crowdTables_definitions, Definitions.flagByValue?, Definitions.list?,
    FlagList.findValue?, crowd]

/-- The first flags are all alike. -/
theorem flagValue?_crowd
    (flag : UInt16)
    (before : flag.toNat < guests) :
    (crowdTables guests).definitions.flagValue? ⟨0, flag⟩ = some 0 := by
  simp [crowdTables_definitions, Definitions.flagValue?, Definitions.flagAt?, Definitions.list?,
    crowd, List.getElem?_append, before]

end Crowd

theorem Story.lookups_answer_crowd :
    ∃ story,
      Story.ofOctets (StoryFormat.encode (crowdTables UInt16.size)) = .ok story ∧
        story.declarations.lists.flagByValue? 0 1 = some ⟨0, 0⟩ ∧
        story.declarations.lists.flagValue? ⟨0, 0⟩ = some 0 ∧
        story.declarations.lists.reaches 0 (fun flag => flag.2 == 1) = false := by
  have loaded := crowd_loaded (show UInt16.size + 1 < UInt32.size by decide)
  have found := flagByValue?_crowd UInt16.size
  have value := flagValue?_crowd UInt16.size 0 (by decide)
  refine ⟨_, loaded, found, value, ?_⟩
  have answers := Story.lookups_answer loaded
  have other : ¬ (crowdTables UInt16.size).definitions.flagValue? ⟨0, 0⟩ = some 1 := by
    rw [value]
    decide
  exact Bool.eq_false_iff.mpr fun reached => other ((answers.byValue found).2.mpr reached)

end Fabula
