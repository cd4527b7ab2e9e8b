import Fabula.SortedSet

namespace Fabula

/-!
# Lists of flags

A story declares lists of named flags, each flag with a value.  Inside a list the
flags stand in ascending order of their values, and a flag is identified by the
position of its list and its own position in that order.  Positions are 16-bit
words.
-/

/-- A flag by the position of its list and its position in the list. -/
structure FlagId where
  list : UInt16
  flag : UInt16
  deriving Repr, DecidableEq

namespace FlagId

/-- Flags are ordered by their list, then by their position in it. -/
def order (id : FlagId) : Nat :=
  id.list.toNat * 65536 + id.flag.toNat

/-- The order tells flags apart. -/
theorem order_injective {a b : FlagId} (same : a.order = b.order) : a = b := by
  obtain ⟨aList, aFlag⟩ := a
  obtain ⟨bList, bFlag⟩ := b
  simp only [order] at same
  have aBound := aFlag.toNat_lt
  have bBound := bFlag.toNat_lt
  have lists : aList.toNat = bList.toNat := by omega
  have flags : aFlag.toNat = bFlag.toNat := by omega
  rw [UInt16.toNat_inj.mp lists, UInt16.toNat_inj.mp flags]

instance : Ranked FlagId where
  rank := order
  rank_injective := order_injective

end FlagId

instance : Ranked UInt16 where
  rank := UInt16.toNat
  rank_injective := UInt16.toNat_inj.mp

/-- One declared list with its flags. -/
structure FlagList where
  name : String
  flags : Array (String × Int32)
  deriving Repr, DecidableEq

namespace FlagList

/-- The list with its flags in ascending order of value, equal values in the given order. -/
def sorted (list : FlagList) : FlagList :=
  { list with
    flags := (list.flags.toList.mergeSort (fun a b => decide (a.2 ≤ b.2))).toArray }

/-- The position of the first flag with a name. -/
def findName? (list : FlagList) (name : String) : Option Nat :=
  list.flags.findIdx? (fun flag => flag.1 == name)

/-- The position of the first flag with a value. -/
def findValue? (list : FlagList) (value : Int32) : Option Nat :=
  list.flags.findIdx? (fun flag => flag.2 == value)

end FlagList

/-- The lists that a story declares. -/
structure Definitions where
  lists : Array FlagList
  deriving Repr, DecidableEq

namespace Definitions

/-- The definitions with the flags of every list in order. -/
def ofLists (lists : List FlagList) : Definitions :=
  ⟨(lists.map FlagList.sorted).toArray⟩

def size (defs : Definitions) : Nat :=
  defs.lists.size

def list? (defs : Definitions) (index : UInt16) : Option FlagList :=
  defs.lists[index.toNat]?

/-- The position of the first list with a name. -/
def listIndex? (defs : Definitions) (name : String) : Option UInt16 :=
  (defs.lists.findIdx? (fun list => list.name == name)).map UInt16.ofNat

/-- The name and the value of a flag. -/
def flagAt? (defs : Definitions) (id : FlagId) : Option (String × Int32) :=
  (defs.list? id.list).bind (fun list => list.flags[id.flag.toNat]?)

def flagName? (defs : Definitions) (id : FlagId) : Option String :=
  (defs.flagAt? id).map Prod.fst

def flagValue? (defs : Definitions) (id : FlagId) : Option Int32 :=
  (defs.flagAt? id).map Prod.snd

/-- The first flag of a list with a value. -/
def flagByValue? (defs : Definitions) (list : UInt16) (value : Int32) : Option FlagId :=
  ((defs.list? list).bind (fun found => found.findValue? value)).map
    (fun flag => ⟨list, UInt16.ofNat flag⟩)

/-- The first flag of a list with a name. -/
def flagByName? (defs : Definitions) (list : UInt16) (name : String) : Option FlagId :=
  ((defs.list? list).bind (fun found => found.findName? name)).map
    (fun flag => ⟨list, UInt16.ofNat flag⟩)

/-- The text before and after the first full stop, if there is one. -/
def splitQualified? (name : String) : Option (String × String) :=
  let chars := name.toList
  if chars.contains '.' then
    some
      (String.ofList (chars.takeWhile (· != '.')),
        String.ofList ((chars.dropWhile (· != '.')).drop 1))
  else
    none

/-- The positions of all lists, as far as positions go. -/
def indices (defs : Definitions) : List UInt16 :=
  (List.range (UInt16.ofNat defs.size).toNat).map UInt16.ofNat

/--
The flag with a name.  A qualified name `list.flag` is looked up in the first
list of that name; a bare name in the preferred lists, then in all lists in
order.
-/
def resolve? (defs : Definitions) (name : String) (preferred : SortedSet UInt16) :
    Option FlagId :=
  match splitQualified? name with
  | some (listName, flagName) =>
      (defs.listIndex? listName).bind (fun list => defs.flagByName? list flagName)
  | none =>
      (preferred.toList ++ defs.indices).findSome? (fun list => defs.flagByName? list name)

end Definitions

end Fabula
