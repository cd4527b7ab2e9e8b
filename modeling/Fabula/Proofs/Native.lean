import Fabula.Flow.Operator
import Mathlib.Data.List.Forall2

namespace Fabula

/-!
# Native values

A value is native to a story when its flags are flags of the story's own lists and its
address lies inside the story.  Operators on sets do not lead out of the lists that the sets
are built over.
-/

/-- Every value that a computation gives back has a property. -/
def Yields
    {ε α : Type}
    (Property : α → Prop)
    (result : Except ε α) :
    Prop :=
  ∀ value, result = .ok value → Property value

namespace Yields

variable {ε α β : Type} {Property : α → Prop} {Other : β → Prop}

theorem ok
    {value : α}
    (holds : Property value) :
    Yields Property (.ok value : Except ε α) := by
  rintro _ ⟨⟩
  exact holds

theorem error
    (error : ε) :
    Yields Property (.error error) := by
  rintro _ ⟨⟩

theorem and
    {Further : α → Prop}
    {result : Except ε α}
    (first : Yields Property result)
    (second : Yields Further result) :
    Yields (fun value => Property value ∧ Further value) result :=
  fun value done => ⟨first value done, second value done⟩

theorem bind
    {result : Except ε α}
    {continuation : α → Except ε β}
    (first : Yields Property result)
    (rest : ∀ value, Property value → Yields Other (continuation value)) :
    Yields Other (result >>= continuation) := by
  cases result with
  | error error =>
      exact .error error
  | ok value =>
      exact rest value (first value rfl)

theorem map
    {result : Except ε α}
    {change : α → β}
    (first : Yields Property result)
    (rest : ∀ value, Property value → Other (change value)) :
    Yields Other (result.map change) := by
  cases result with
  | error error =>
      exact .error error
  | ok value =>
      exact .ok (rest value (first value rfl))

theorem mapError
    {ε' : Type}
    {result : Except ε α}
    (first : Yields Property result)
    (wrap : ε → ε') :
    Yields Property (result.mapError wrap) := by
  cases result with
  | error error =>
      exact .error (wrap error)
  | ok value =>
      exact .ok (first value rfl)

section MapM

variable {Relation : α → β → Prop} {elements : List α} {compute : α → Except ε β}

/-- A computation for every element of a list relates results to elements, in order. -/
theorem mapM_forall₂
    (each : ∀ element ∈ elements, Yields (Relation element) (compute element)) :
    Yields (List.Forall₂ Relation elements) (elements.mapM compute) := by
  induction elements with
  | nil =>
      exact .ok .nil
  | cons first rest inductionHypothesis =>
      obtain ⟨head, others⟩ := List.forall_mem_cons.mp each
      rw [List.mapM_cons]
      refine head.bind fun result related => ?_
      exact (inductionHypothesis others).bind fun results made => .ok (.cons related made)

theorem mapM
    (each : ∀ element ∈ elements, Yields (Relation element) (compute element)) :
    Yields
      (fun results =>
        results.length = elements.length ∧
          (∀ result ∈ results, ∃ element ∈ elements, Relation element result) ∧
          (∀ element ∈ elements, ∃ result ∈ results, Relation element result))
      (elements.mapM compute) := by
  intro results done
  have made := mapM_forall₂ each results done
  have sameLength := made.length_eq
  refine ⟨sameLength.symm, fun result member => ?_, fun element member => ?_⟩
  · obtain ⟨⟨index, inside⟩, rfl⟩ := List.get_of_mem member
    exact ⟨_, List.get_mem _ ⟨index, sameLength ▸ inside⟩, made.get _ _⟩
  · obtain ⟨⟨index, inside⟩, rfl⟩ := List.get_of_mem member
    exact ⟨_, List.get_mem _ ⟨index, sameLength ▸ inside⟩, made.get _ _⟩

theorem mapM_getElem?
    (each : ∀ element ∈ elements, Yields (Relation element) (compute element)) :
    Yields
      (fun results =>
        results.length = elements.length ∧
          ∀ (index : Nat) (result : β),
            results[index]? = some result →
            ∃ element, elements[index]? = some element ∧ Relation element result)
      (elements.mapM compute) := by
  intro results done
  have made := mapM_forall₂ each results done
  have sameLength := made.length_eq
  refine ⟨sameLength.symm, fun index result here => ?_⟩
  obtain ⟨inside, rfl⟩ := List.getElem?_eq_some_iff.mp here
  exact ⟨_, List.getElem?_eq_getElem (sameLength ▸ inside), made.get _ _⟩

/-- Results that keep something of the elements keep it in order. -/
theorem mapM_map
    {γ : Type}
    {before : α → γ}
    {after : β → γ}
    (each :
      ∀ element ∈ elements, Yields (fun result => after result = before element)
        (compute element)) :
    Yields (fun results => results.map after = elements.map before) (elements.mapM compute) := by
  intro results done
  have kept := (mapM_forall₂ each results done).imp fun _ _ same => same.symm
  rw [eq_comm, ← List.forall₂_eq_eq_eq, List.forall₂_map_left_iff, List.forall₂_map_right_iff]
  exact kept

end MapM

end Yields

namespace Definitions

variable {defs : Definitions} {list : UInt16} {found : FlagList}

/-- A position inside a list names a flag, also after it was cut to a word. -/
theorem flagAt?_ofNat_isSome
    (here : defs.list? list = some found)
    {flag : Nat}
    (inside : flag < found.flags.size) :
    (defs.flagAt? ⟨list, UInt16.ofNat flag⟩).isSome = true := by
  have cut : flag % 65536 < found.flags.size :=
    Nat.lt_of_le_of_lt (Nat.mod_le flag _) inside
  simp [flagAt?, here, cut]

/-- Only declared lists have flags with names. -/
theorem list?_isSome_of_flagName?
    {item : FlagId}
    (named : (defs.flagName? item).isSome = true) :
    (defs.list? item.list).isSome = true := by
  cases here : defs.list? item.list with
  | none => simp [flagName?, flagAt?, here] at named
  | some _ => rfl

/-- The first flag of a list that passes a test, with its position cut to a word. -/
def firstFlag?
    (defs : Definitions)
    (list : UInt16)
    (test : String × Int32 → Bool) :
    Option FlagId :=
  ((defs.list? list).bind fun found => found.flags.findIdx? test).map
    fun flag => ⟨list, UInt16.ofNat flag⟩

theorem flagByValue?_eq
    (value : Int32) :
    defs.flagByValue? list value = defs.firstFlag? list (fun flag => flag.2 == value) :=
  rfl

theorem flagByName?_eq
    (name : String) :
    defs.flagByName? list name = defs.firstFlag? list (fun flag => flag.1 == name) :=
  rfl

theorem firstFlag?_eq_some_iff
    {test : String × Int32 → Bool}
    {item : FlagId} :
    defs.firstFlag? list test = some item ↔
      ∃ found position,
        defs.list? list = some found ∧
          found.flags.findIdx? test = some position ∧
          ⟨list, UInt16.ofNat position⟩ = item := by
  simp only [firstFlag?, Option.map_eq_some_iff, Option.bind_eq_some_iff]
  constructor
  · rintro ⟨position, ⟨found, here, first⟩, same⟩
    exact ⟨found, position, here, first, same⟩
  · rintro ⟨found, position, here, first, same⟩
    exact ⟨position, ⟨found, here, first⟩, same⟩

/-- A flag that is found in a list belongs to the list. -/
theorem firstFlag?_spec
    {test : String × Int32 → Bool}
    {item : FlagId}
    (looked : defs.firstFlag? list test = some item) :
    item.list = list ∧ (defs.flagAt? item).isSome = true := by
  obtain ⟨found, position, here, first, rfl⟩ := firstFlag?_eq_some_iff.mp looked
  obtain ⟨inside, _⟩ := Array.findIdx?_eq_some_iff_getElem.mp first
  exact ⟨rfl, flagAt?_ofNat_isSome here inside⟩

end Definitions

namespace FlagSet

variable {set : FlagSet} {item : FlagId}

/-- A shifted flag is found at the moved value of a flag, in the list of that flag. -/
theorem mem_shift
    {steps : Int32} :
    item ∈ (set.shift steps).items ↔
      ∃ origin ∈ set.items, ∃ value target,
        set.defs.flagValue? origin = some value ∧
          checkedAdd value steps = some target ∧
          set.defs.flagByValue? origin.list target = some item := by
  simp only [shift, FlagSet.withItems, SortedSet.mem_ofList, List.mem_filterMap,
    SortedSet.mem_toList, Option.bind_eq_some_iff]
  constructor
  · rintro ⟨origin, inside, target, ⟨value, here, sum⟩, there⟩
    exact ⟨origin, inside, value, target, here, sum, there⟩
  · rintro ⟨origin, inside, value, target, here, sum, there⟩
    exact ⟨origin, inside, target, ⟨value, here, sum⟩, there⟩

/-- The positions of a list, cut to words, are the flags of the list that have names. -/
theorem mem_listItems
    {defs : Definitions}
    {list : UInt16} :
    item ∈ listItems defs list ↔ item.list = list ∧ (defs.flagAt? item).isSome = true := by
  cases here : defs.list? list with
  | none =>
      refine ⟨fun listed => by simp [listItems, here] at listed, ?_⟩
      rintro ⟨rfl, declared⟩
      simp [Definitions.flagAt?, here] at declared
  | some found =>
      simp only [listItems, here, List.mem_map, List.mem_range]
      constructor
      · rintro ⟨flag, inside, rfl⟩
        exact ⟨rfl, Definitions.flagAt?_ofNat_isSome here inside⟩
      · rintro ⟨rfl, declared⟩
        refine ⟨item.flag.toNat, ?_, by rw [UInt16.ofNat_toNat]⟩
        simpa [Definitions.flagAt?, here] using declared

/-- All flags are the declared flags of the origins. -/
theorem mem_all :
    item ∈ set.all.items ↔
      item.list ∈ set.origins ∧ (set.defs.flagAt? item).isSome = true := by
  simp only [all, FlagSet.withItems, SortedSet.mem_ofList, List.mem_flatMap,
    SortedSet.mem_toList, mem_listItems]
  constructor
  · rintro ⟨_, origin, rfl, declared⟩
    exact ⟨origin, declared⟩
  · rintro ⟨origin, declared⟩
    exact ⟨_, origin, rfl, declared⟩

end FlagSet

/-- A set of flags that is built over the given lists. -/
structure FlagSet.Over
    (defs : Definitions)
    (set : FlagSet) :
    Prop where
  lists : set.defs = defs
  /-- Its flags are declared, and their lists are among its origins. -/
  items : ∀ item ∈ set.items, (defs.flagAt? item).isSome = true ∧ item.list ∈ set.origins
  origins : ∀ list ∈ set.origins, (defs.list? list).isSome = true

namespace FlagSet.Over

variable {defs : Definitions} {set left right : FlagSet}

/-- Other declared flags of the same origins. -/
theorem withItems
    (built : set.Over defs)
    {items : SortedSet FlagId}
    (declared :
      ∀ item ∈ items, (defs.flagAt? item).isSome = true ∧ item.list ∈ set.origins) :
    (set.withItems items).Over defs :=
  ⟨built.lists, declared, built.origins⟩

theorem withSome
    (built : set.Over defs)
    {items : SortedSet FlagId}
    (fewer : ∀ item ∈ items, item ∈ set.items) :
    (set.withItems items).Over defs :=
  built.withItems fun item member => built.items item (fewer item member)

theorem union
    (leftOver : left.Over defs)
    (rightOver : right.Over defs) :
    (left.union right).Over defs where
  lists := leftOver.lists
  items item member := by
    simp only [FlagSet.union, SortedSet.mem_union] at member ⊢
    rcases member with inLeft | inRight
    · exact ⟨(leftOver.items item inLeft).1, .inl (leftOver.items item inLeft).2⟩
    · exact ⟨(rightOver.items item inRight).1, .inr (rightOver.items item inRight).2⟩
  origins list member := by
    simp only [FlagSet.union, SortedSet.mem_union] at member
    rcases member with inLeft | inRight
    · exact leftOver.origins list inLeft
    · exact rightOver.origins list inRight

theorem difference
    (built : left.Over defs) :
    (left.difference right).Over defs :=
  built.withSome fun _ member => (SortedSet.mem_difference.mp member).1

theorem intersection
    (built : left.Over defs) :
    (left.intersection right).Over defs :=
  built.withSome fun _ member => (SortedSet.mem_intersection.mp member).1

/-- A shifted flag stays in its list. -/
theorem shift
    (built : set.Over defs)
    (steps : Int32) :
    (set.shift steps).Over defs := by
  refine built.withItems fun item member => ?_
  obtain ⟨origin, inside, _, _, _, _, moved⟩ := FlagSet.mem_shift.mp member
  obtain ⟨sameList, declared⟩ := Definitions.firstFlag?_spec moved
  rw [sameList, ← built.lists]
  exact ⟨declared, (built.items origin inside).2⟩

theorem all
    (built : set.Over defs) :
    set.all.Over defs := by
  refine built.withItems fun item member => ?_
  obtain ⟨origin, declared⟩ := FlagSet.mem_all.mp member
  rw [← built.lists]
  exact ⟨declared, origin⟩

theorem invert
    (built : set.Over defs) :
    set.invert.Over defs :=
  built.all.difference

/-- A fold that keeps one of the elements gives one of them back. -/
theorem mem_of_foldl
    {α : Type}
    {pick : Option α → α → Option α}
    (picks : ∀ best item, pick best item = some item ∨ pick best item = best)
    {items : List α}
    {best : Option α}
    {result : α}
    (folded : items.foldl pick best = some result) :
    result ∈ items ∨ best = some result := by
  induction items generalizing best with
  | nil =>
      exact .inr folded
  | cons item rest inductionHypothesis =>
      rcases inductionHypothesis folded with later | picked
      · exact .inl (List.mem_cons_of_mem item later)
      · rcases picks best item with first | kept
        · rw [first, Option.some.injEq] at picked
          exact .inl (picked ▸ List.mem_cons_self)
        · exact .inr (kept ▸ picked)

theorem minItem?_mem
    {item : FlagId}
    (least : set.minItem? = some item) :
    item ∈ set.items := by
  have picked := mem_of_foldl (fun best item => ?_) least
  · simpa using picked
  · cases best with
    | none => exact .inl rfl
    | some least => by_cases less : set.valueOf item < set.valueOf least <;> simp [less]

theorem maxItem?_mem
    {item : FlagId}
    (greatest : set.maxItem? = some item) :
    item ∈ set.items := by
  have picked := mem_of_foldl (fun best item => ?_) greatest
  · simpa using picked
  · cases best with
    | none => exact .inl rfl
    | some greatest => by_cases less : set.valueOf item < set.valueOf greatest <;> simp [less]

theorem singleMin
    (built : set.Over defs) :
    set.singleMin.Over defs :=
  built.withSome fun _ member => minItem?_mem (by simpa using member)

theorem singleMax
    (built : set.Over defs) :
    set.singleMax.Over defs :=
  built.withSome fun _ member => maxItem?_mem (by simpa using member)

theorem range
    (built : set.Over defs)
    (low high : Int32) :
    (set.range low high).Over defs :=
  built.withSome fun _ member => (SortedSet.mem_filter.mp member).1

theorem only
    (built : set.Over defs)
    {item : FlagId}
    (member : item ∈ set.items) :
    (set.only item).Over defs := by
  refine built.withSome fun other alone => ?_
  simp only [SortedSet.mem_insert, SortedSet.not_mem_empty, or_false] at alone
  exact alone ▸ member

theorem itemWithValue
    (built : set.Over defs)
    (value : Int32) :
    (set.itemWithValue value).Over defs := by
  refine built.withItems fun item member => ?_
  simp only [SortedSet.mem_ofList, Option.mem_toList, built.lists] at member
  obtain ⟨list, origin, found⟩ := List.exists_of_findSome?_eq_some member
  obtain ⟨sameList, declared⟩ := Definitions.firstFlag?_spec found
  exact ⟨declared, sameList ▸ origin⟩

end FlagSet.Over

/-- A value that belongs to a story. -/
def Value.Native (story : Story) : Value → Prop
  | .list set => set.Over story.declarations.lists
  | .divert target => target.toNat ≤ story.instructionCount
  | _ => True

end Fabula
