import Fabula.Flag.Definitions

namespace Fabula

/-!
# Sets of flags

A set of flags may draw on several lists.  It remembers the lists it has drawn
on as its origins, also when no flag of them is left, because the complement of
a set is taken inside its origins.  Two sets are ordered by their least and
greatest values.
-/

/-- A set of flags with the lists that it draws on. -/
structure FlagSet where
  defs : Definitions
  items : SortedSet FlagId
  origins : SortedSet UInt16
  deriving Repr, DecidableEq

/-- A flag with the name of its list, its own name and its value. -/
structure Flag where
  origin : String
  name : String
  value : Int32
  deriving Repr, DecidableEq

namespace Flag

/-- Flags are shown by value, then by the name of their list. -/
def before (a b : Flag) : Bool :=
  if a.value = b.value then decide (a.origin ≤ b.origin) else decide (a.value < b.value)

/-- The name of a flag after the name of its list. -/
def qualified (flag : Flag) : String :=
  flag.origin ++ "." ++ flag.name

end Flag

namespace FlagSet

/-- The set without flags and without origins. -/
def empty (defs : Definitions) : FlagSet :=
  ⟨defs, .empty, .empty⟩

/-- The set of the given flags; their lists join the given origins. -/
def ofParts (defs : Definitions) (items : List FlagId) (origins : List UInt16) : FlagSet :=
  ⟨defs, .ofList items, .ofList (origins ++ items.map FlagId.list)⟩

def size (set : FlagSet) : Nat :=
  set.items.size

/-- Whether the set has no flags. -/
def isEmpty (set : FlagSet) : Bool :=
  set.items.isEmpty

/-- The flag that a name stands for, seen from this set. -/
def resolve? (set : FlagSet) (name : String) : Option FlagId :=
  set.defs.resolve? name set.origins

/-- Whether the flag with a name is in the set. -/
def contains (set : FlagSet) (name : String) : Bool :=
  match set.resolve? name with
  | some item => set.items.contains item
  | none => false

/-- Add the flag with a name; nothing when no list has it. -/
def add? (set : FlagSet) (name : String) : Option FlagSet :=
  (set.resolve? name).map fun item =>
    { set with items := set.items.insert item, origins := set.origins.insert item.list }

/-- Remove the flag with a name; nothing when no list has it. -/
def remove? (set : FlagSet) (name : String) : Option FlagSet :=
  (set.resolve? name).map fun item =>
    { set with items := set.items.erase item }

def flag? (set : FlagSet) (item : FlagId) : Option Flag :=
  (set.defs.list? item.list).bind fun list =>
    (list.flags[item.flag.toNat]?).map fun entry => ⟨list.name, entry.1, entry.2⟩

/-- The flags in the order in which they are shown. -/
def flags (set : FlagSet) : List Flag :=
  (set.items.toList.filterMap set.flag?).mergeSort Flag.before

/-- The flags of the lists with a name. -/
def flagsFrom (set : FlagSet) (origin : String) : List Flag :=
  set.flags.filter (fun flag => flag.origin == origin)

def valueOf (set : FlagSet) (item : FlagId) : Int32 :=
  (set.defs.flagValue? item).getD 0

/-- The first item with the least value. -/
def minItem? (set : FlagSet) : Option FlagId :=
  set.items.toList.foldl
    (fun best item =>
      match best with
      | none => some item
      | some least => if set.valueOf item < set.valueOf least then some item else some least)
    none

/-- The last item with the greatest value. -/
def maxItem? (set : FlagSet) : Option FlagId :=
  set.items.toList.foldl
    (fun best item =>
      match best with
      | none => some item
      | some greatest =>
          if set.valueOf item < set.valueOf greatest then some greatest else some item)
    none

def minValue? (set : FlagSet) : Option Int32 :=
  set.minItem?.map set.valueOf

def maxValue? (set : FlagSet) : Option Int32 :=
  set.maxItem?.map set.valueOf

/-- A set of other flags with the same origins. -/
def withItems (set : FlagSet) (items : SortedSet FlagId) : FlagSet :=
  { set with items := items }

/-- The flags and the origins of both sets. -/
def union (left right : FlagSet) : FlagSet :=
  { left with
    items := left.items.union right.items
    origins := left.origins.union right.origins }

/-- The flags that are not in the second set. -/
def difference (left right : FlagSet) : FlagSet :=
  left.withItems (left.items.difference right.items)

def intersection (left right : FlagSet) : FlagSet :=
  left.withItems (left.items.intersection right.items)

/-- Whether every flag of the second set is in the first; an empty set never matches. -/
def hasAll (left right : FlagSet) : Bool :=
  !left.items.isEmpty && !right.items.isEmpty && right.items.isSubset left.items

/-- The sum of two words when it is in range. -/
def checkedAdd (a b : Int32) : Option Int32 :=
  let sum := a.toInt + b.toInt
  if -2147483648 ≤ sum ∧ sum ≤ 2147483647 then some (a + b) else none

/-- Every flag moved to the flag of its list whose value is greater by a number of steps. -/
def shift (set : FlagSet) (steps : Int32) : FlagSet :=
  set.withItems <| .ofList <| set.items.toList.filterMap fun item =>
    ((set.defs.flagValue? item).bind (fun value => checkedAdd value steps)).bind
      (fun value => set.defs.flagByValue? item.list value)

def listItems (defs : Definitions) (list : UInt16) : List FlagId :=
  match defs.list? list with
  | none => []
  | some found => (List.range found.flags.size).map (fun flag => ⟨list, UInt16.ofNat flag⟩)

def all (set : FlagSet) : FlagSet :=
  set.withItems (.ofList (set.origins.toList.flatMap (listItems set.defs)))

/-- The flags of the origins that are not in the set. -/
def invert (set : FlagSet) : FlagSet :=
  set.all.difference set

/-- The flag with the least value alone. -/
def singleMin (set : FlagSet) : FlagSet :=
  set.withItems (.ofList set.minItem?.toList)

/-- The flag with the greatest value alone. -/
def singleMax (set : FlagSet) : FlagSet :=
  set.withItems (.ofList set.maxItem?.toList)

/-- The flags whose values lie between two bounds, both included. -/
def range (set : FlagSet) (low high : Int32) : FlagSet :=
  set.withItems
    (set.items.filter fun item =>
      decide (low ≤ set.valueOf item) && decide (set.valueOf item ≤ high))

def only (set : FlagSet) (item : FlagId) : FlagSet :=
  set.withItems (SortedSet.empty.insert item)

/-- The flag with a value in the first origin that has one. -/
def itemWithValue (set : FlagSet) (value : Int32) : FlagSet :=
  set.withItems
    (.ofList (set.origins.toList.findSome? (fun list => set.defs.flagByValue? list value)).toList)

def equal (left right : FlagSet) : Bool :=
  decide (left.items = right.items)

/-- Whether all values of the first set are below all values of the second. -/
def lessThan (left right : FlagSet) : Bool :=
  match left.maxValue?, right.minValue? with
  | none, _ => true
  | _, none => false
  | some greatest, some least => decide (greatest < least)

/-- Whether all values of the first set are above all values of the second. -/
def greaterThan (left right : FlagSet) : Bool :=
  match left.minValue?, right.maxValue? with
  | none, _ => false
  | _, none => true
  | some least, some greatest => decide (greatest < least)

/-- Whether both ends of the first set are at least those of the second. -/
def greaterOrEqual (left right : FlagSet) : Bool :=
  match left.minValue?, left.maxValue?, right.minValue?, right.maxValue? with
  | none, _, _, _ => false
  | _, _, none, _ => true
  | some leftMin, some leftMax, some rightMin, some rightMax =>
      decide (rightMin ≤ leftMin) && decide (rightMax ≤ leftMax)
  | _, _, _, _ => false

/-- Whether both ends of the first set are at most those of the second. -/
def lessOrEqual (left right : FlagSet) : Bool :=
  match left.minValue?, left.maxValue?, right.minValue?, right.maxValue? with
  | _, _, none, _ => false
  | none, _, _, _ => true
  | some leftMin, some leftMax, some rightMin, some rightMax =>
      decide (leftMax ≤ rightMax) && decide (leftMin ≤ rightMin)
  | _, _, _, _ => false

/-- The names of the flags in the order in which they are shown. -/
def text (set : FlagSet) : String :=
  ", ".intercalate (set.flags.map Flag.name)

end FlagSet

end Fabula
