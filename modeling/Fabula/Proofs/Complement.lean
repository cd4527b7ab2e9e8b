import Fabula.Proofs.Loaded
import Fabula.Proofs.Lookup

namespace Fabula

/-!
# Complements

The complement of a set of flags is taken inside the lists that the set draws on, also when
no flag of them is left.  It is a complement as long as the set has no flag outside of
them.  No operation lets a flag escape, so the sets that are made from empty sets and
literals all have complements.
-/

namespace FlagSet

variable {defs : Definitions} {set other : FlagSet} {item : FlagId}

/-! ## The laws -/

/-- A set of declared flags of its origins, of which the complement has the other ones. -/
structure Complemented (set : FlagSet) : Prop where
  declared : ∀ item ∈ set.items, (set.flag? item).isSome = true
  within : ∀ item ∈ set.items, item.list ∈ set.origins
  invert_invert : set.invert.invert = set
  union_invert : set.union set.invert = set.all
  intersection_invert : (set.intersection set.invert).isEmpty = true
  invert_origins : set.invert.origins = set.origins
  all_origins : set.all.origins = set.origins

theorem flag?_isSome :
    (set.flag? item).isSome = (set.defs.flagAt? item).isSome := by
  cases here : set.defs.list? item.list with
  | none =>
      simp [flag?, Definitions.flagAt?, here]
  | some found =>
      simp [flag?, Definitions.flagAt?, here]

theorem mem_invert :
    item ∈ set.invert.items ↔ item ∈ set.all.items ∧ item ∉ set.items :=
  SortedSet.mem_difference

/-- Two sets over the same lists and with the same origins are told apart by a flag. -/
theorem eq_of_mem_iff
    (sameDefs : set.defs = other.defs)
    (sameOrigins : set.origins = other.origins)
    (sameMembers : ∀ item, item ∈ set.items ↔ item ∈ other.items) :
    set = other := by
  obtain ⟨defs, items, origins⟩ := set
  obtain rfl := SortedSet.eq_of_mem_iff sameMembers
  cases sameDefs
  cases sameOrigins
  rfl

section Inside

variable (inside : ∀ item ∈ set.items, item ∈ set.all.items)

include inside

/-- What is not in the complement is in the set. -/
theorem invert_invert_of_inside :
    set.invert.invert = set := by
  refine eq_of_mem_iff rfl rfl fun item => ?_
  -- The complement has the same origins, so it has the same flags to choose from.
  have sameAll : set.invert.all = set.all := rfl
  rw [mem_invert, sameAll, mem_invert]
  constructor
  · rintro ⟨listed, notOther⟩
    by_cases member : item ∈ set.items
    · exact member
    · exact absurd ⟨listed, member⟩ notOther
  · intro member
    exact ⟨inside item member, fun excluded => excluded.2 member⟩

theorem union_invert_of_inside :
    set.union set.invert = set.all := by
  have sameOrigins : (set.union set.invert).origins = set.all.origins :=
    SortedSet.eq_of_mem_iff fun list => SortedSet.mem_union.trans or_self_iff
  refine eq_of_mem_iff rfl sameOrigins fun item => ?_
  refine SortedSet.mem_union.trans ?_
  rw [mem_invert]
  constructor
  · rintro (member | ⟨listed, _⟩)
    · exact inside item member
    · exact listed
  · intro listed
    by_cases member : item ∈ set.items
    · exact .inl member
    · exact .inr ⟨listed, member⟩

end Inside

theorem intersection_invert :
    (set.intersection set.invert).isEmpty = true := by
  refine List.isEmpty_iff.mpr (List.eq_nil_iff_forall_not_mem.mpr fun item member => ?_)
  obtain ⟨inside, excluded⟩ := SortedSet.mem_intersection.mp member
  exact (mem_invert.mp excluded).2 inside

/-- The laws of complements hold exactly if no flag is outside of the origins. -/
theorem complemented_iff :
    set.Complemented ↔ ∀ item ∈ set.items, item ∈ set.all.items := by
  constructor
  · intro laws item member
    rw [← laws.invert_invert] at member
    exact (mem_invert.mp member).1
  · intro inside
    exact
      { declared := fun item member => flag?_isSome.trans (mem_all.mp (inside item member)).2
        within := fun item member => (mem_all.mp (inside item member)).1
        invert_invert := invert_invert_of_inside inside
        union_invert := union_invert_of_inside inside
        intersection_invert := intersection_invert
        invert_origins := rfl
        all_origins := rfl }

/-! ## What the operations make -/

/-- What the operations make of empty sets and literals over the same lists. -/
inductive Made (defs : Definitions) : FlagSet → Prop where
  | empty :
      Made defs (.empty defs)
  | literal {stored : StoredFlags} {set : FlagSet} :
      Loader.literal defs stored = .ok set → Made defs set
  | add {set other : FlagSet} {name : String} :
      Made defs set → set.add? name = some other → Made defs other
  | remove {set other : FlagSet} {name : String} :
      Made defs set → set.remove? name = some other → Made defs other
  | union {left right : FlagSet} :
      Made defs left → Made defs right → Made defs (left.union right)
  | difference {left right : FlagSet} :
      Made defs left → Made defs right → Made defs (left.difference right)
  | intersection {left right : FlagSet} :
      Made defs left → Made defs right → Made defs (left.intersection right)
  | shift {set : FlagSet} (steps : Int32) :
      Made defs set → Made defs (set.shift steps)
  | all {set : FlagSet} :
      Made defs set → Made defs set.all
  | invert {set : FlagSet} :
      Made defs set → Made defs set.invert
  | singleMin {set : FlagSet} :
      Made defs set → Made defs set.singleMin
  | singleMax {set : FlagSet} :
      Made defs set → Made defs set.singleMax
  | range {set : FlagSet} (low high : Int32) :
      Made defs set → Made defs (set.range low high)
  | itemWithValue {set : FlagSet} (value : Int32) :
      Made defs set → Made defs (set.itemWithValue value)
  | only {set : FlagSet} {item : FlagId} :
      Made defs set → item ∈ set.items → Made defs (set.only item)

namespace Over

theorem empty :
    (FlagSet.empty defs).Over defs where
  lists := rfl
  items _ member := absurd member SortedSet.not_mem_empty
  origins _ member := absurd member SortedSet.not_mem_empty

/-- A name stands for a declared flag. -/
theorem resolved
    (built : set.Over defs)
    {name : String}
    (looked : set.resolve? name = some item) :
    (defs.flagAt? item).isSome = true := by
  obtain ⟨list, found, _⟩ := Definitions.flagByName?_of_resolve? looked
  rw [← built.lists]
  exact (Definitions.firstFlag?_spec found).2

theorem add
    (built : set.Over defs)
    {name : String}
    (added : set.add? name = some other) :
    other.Over defs := by
  obtain ⟨item, looked, rfl⟩ := Option.map_eq_some_iff.mp added
  have declared := built.resolved looked
  refine ⟨built.lists, fun flag member => ?_, fun list member => ?_⟩
  · rcases SortedSet.mem_insert.mp member with rfl | inside
    · exact ⟨declared, SortedSet.mem_insert.mpr (.inl rfl)⟩
    · obtain ⟨known, origin⟩ := built.items flag inside
      exact ⟨known, SortedSet.mem_insert.mpr (.inr origin)⟩
  · rcases SortedSet.mem_insert.mp member with rfl | origin
    · refine Definitions.list?_isSome_of_flagName? ?_
      simpa [Definitions.flagName?] using declared
    · exact built.origins list origin

theorem remove
    (built : set.Over defs)
    {name : String}
    (removed : set.remove? name = some other) :
    other.Over defs := by
  obtain ⟨item, _, rfl⟩ := Option.map_eq_some_iff.mp removed
  exact built.withSome fun _ member => (SortedSet.mem_erase.mp member).1

/-- A set that is built over its lists has no flag outside of its origins. -/
theorem mem_all_of_mem
    (built : set.Over defs)
    (member : item ∈ set.items) :
    item ∈ set.all.items := by
  obtain ⟨declared, origin⟩ := built.items item member
  refine mem_all.mpr ⟨origin, ?_⟩
  rw [built.lists]
  exact declared

end Over

/-- No operation leads out of the lists. -/
theorem Made.over
    (made : Made defs set) :
    set.Over defs := by
  induction made with
  | empty => exact .empty
  | literal loaded => exact Loader.literal_over defs _ _ loaded
  | add _ added inductionHypothesis => exact inductionHypothesis.add added
  | remove _ removed inductionHypothesis => exact inductionHypothesis.remove removed
  | union _ _ left right => exact left.union right
  | difference _ _ left => exact left.difference
  | intersection _ _ left => exact left.intersection
  | shift steps _ inductionHypothesis => exact inductionHypothesis.shift steps
  | all _ inductionHypothesis => exact inductionHypothesis.all
  | invert _ inductionHypothesis => exact inductionHypothesis.invert
  | singleMin _ inductionHypothesis => exact inductionHypothesis.singleMin
  | singleMax _ inductionHypothesis => exact inductionHypothesis.singleMax
  | range low high _ inductionHypothesis => exact inductionHypothesis.range low high
  | itemWithValue value _ inductionHypothesis => exact inductionHypothesis.itemWithValue value
  | only _ member inductionHypothesis => exact inductionHypothesis.only member

/--
Every set that operations make is over the lists that they started with, its flags are
declared flags of its origins, and its complement has the flags of the origins that it
leaves out.
-/
theorem made_complemented
    (made : Made defs set) :
    set.defs = defs ∧ set.Complemented :=
  ⟨made.over.lists, complemented_iff.mpr fun _ member => made.over.mem_all_of_mem member⟩

/-- Two lists, of which one has two flags of the same value. -/
def lampDefs : Definitions :=
  ⟨#[⟨"lamp", #[("low", 1), ("high", 2), ("full", 2)]⟩, ⟨"door", #[("shut", 0)]⟩]⟩

/-- The lamp without its flags: what is left is the list that they were drawn from. -/
theorem made_complemented_lamp :
    ∃ low unlit,
      (empty lampDefs).add? "lamp.low" = some low ∧
        low.remove? "lamp.low" = some unlit ∧
        Made lampDefs unlit ∧
        unlit.isEmpty = true ∧
        unlit.invert.items.toList = [⟨0, 0⟩, ⟨0, 1⟩, ⟨0, 2⟩] ∧
        unlit.invert.invert = unlit ∧
        unlit.union unlit.invert = unlit.all := by
  have added :
      (empty lampDefs).add? "lamp.low" = some ⟨lampDefs, .ofList [⟨0, 0⟩], .ofList [0]⟩ := by
    decide +kernel
  have removed :
      remove? ⟨lampDefs, .ofList [⟨0, 0⟩], .ofList [0]⟩ "lamp.low" =
        some ⟨lampDefs, .empty, .ofList [0]⟩ := by
    decide +kernel
  have made : Made lampDefs ⟨lampDefs, .empty, .ofList [0]⟩ :=
    (Made.empty.add added).remove removed
  obtain ⟨_, laws⟩ := made_complemented made
  exact ⟨_, _, added, removed, made, rfl, by decide, laws.invert_invert, laws.union_invert⟩

end FlagSet

end Fabula
