import Fabula.Error

namespace Fabula

/-!
# Values given by name

A host writes a set of flags by the names of its flags.  Which flags those are is
known once the lists of a story are.
-/

/-- A value as a host writes it. -/
inductive Literal where
  | value (v : Value)
  /-- Flags that are added, then flags that are added and removed again. -/
  | flags (present gone : List String)
  deriving Repr, DecidableEq

/-- Add a flag to a set, or fail when no list has it. -/
def FlagSet.add (set : FlagSet) (name : String) : Except Error FlagSet :=
  match set.add? name with
  | some result => .ok result
  | none => .error (.unknownFlag name)

/-- Remove a flag from a set, or fail when no list has it. -/
def FlagSet.remove (set : FlagSet) (name : String) : Except Error FlagSet :=
  match set.remove? name with
  | some result => .ok result
  | none => .error (.unknownFlag name)

namespace Literal

/-- The value of a literal over the lists of a story. -/
def resolve (defs : Definitions) : Literal → Except Error Value
  | .value v => .ok v
  | .flags present gone => do
      let filled ← present.foldlM FlagSet.add (FlagSet.empty defs)
      let result ← gone.foldlM (fun set name => do (← set.add name).remove name) filled
      pure (.list result)

end Literal

end Fabula
