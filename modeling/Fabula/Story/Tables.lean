import Fabula.Flag.Definitions
import Fabula.Instruction
import Fabula.Number.Single

namespace Fabula

/-!
# Tables of a stored story

A stored story is a handful of tables.  Names and texts are positions in the
table of strings, and nothing is resolved yet.
-/

/-- A stored list: the position of its name, and its flags with their values. -/
structure StoredList where
  name : UInt32
  flags : List (UInt32 × Int32)
  deriving Repr, DecidableEq

/-- A stored set of flags. -/
structure StoredFlags where
  origins : List UInt16
  items : List FlagId
  deriving Repr, DecidableEq

/-- The stored value of a global variable. -/
inductive StoredValue where
  | void
  | bool (b : Bool)
  | int (i : Int32)
  | float (x : Single)
  | str (index : UInt32)
  | list (index : UInt32)
  | divert (target : UInt32)
  deriving Repr, DecidableEq

/-- A stored container: its name, its first and last address and its flags. -/
structure StoredContainer where
  name : UInt32
  start : UInt32
  stop : UInt32
  flags : UInt8
  deriving Repr, DecidableEq

/-- The tables of a stored story. -/
structure Tables where
  strings : List String
  lists : List StoredList
  literals : List StoredFlags
  globals : List (UInt32 × StoredValue)
  containers : List StoredContainer
  instructions : List Instruction
  deriving Repr, DecidableEq

def Tables.empty : Tables :=
  ⟨[], [], [], [], [], []⟩

/-- The position that stands for no name. -/
def noName : UInt32 := 0xffffffff

end Fabula
