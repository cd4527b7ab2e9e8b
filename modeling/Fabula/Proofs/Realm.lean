import Fabula.Proofs.Loaded
import Fabula.Proofs.Operands

namespace Fabula

/-!
# Realms

A realm says what may occur in a run of a story: which sets of flags, stores of which
variables, and which turns may be remembered in which.  Addresses lie inside the story in
every realm.  Operators and instructions do not lead out of a realm, so what is outside can only
come from the host.
-/

/-- What may occur in a run of a sound story. -/
structure Realm (story : Story) where
  sound : story.Sound
  Allowed : FlagSet → Prop
  closed : FlagSet.Closed Allowed
  literals : ∀ set ∈ story.literals, Allowed set
  /-- Which variables a store may declare, and how many values it may have. -/
  Declares : Declarations → Nat → Prop
  /-- Whether the first turn may be remembered in the second. -/
  Dated : UInt32 → UInt32 → Prop
  today : ∀ turn, Dated turn turn

/-- A turn that may pass: what is remembered in it is remembered afterwards. -/
def Realm.Passes {story : Story} (realm : Realm story) (turn : UInt32) : Prop :=
  ∀ date, realm.Dated date turn → realm.Dated date (turn + 1)

/-- A value that belongs to a realm. -/
def Value.Within {story : Story} (realm : Realm story) : Value → Prop
  | .list set => realm.Allowed set
  | .divert target => target.toNat ≤ story.instructionCount
  | _ => True

namespace Value.Within

variable {story : Story} {realm : Realm story} {value : Value}

/-- Bringing a value to a kind makes numbers of numbers. -/
theorem coerceTo
    (within : value.Within realm)
    (declared : Kind) :
    (value.coerceTo declared).Within realm := by
  cases declared <;> cases value <;> exact within

/-- Operators do not lead out of a realm. -/
theorem closed :
    Value.Closed (Value.Within realm) where
  void := trivial
  bool _ := trivial
  int _ := trivial
  float _ := trivial
  text _ _ := trivial
  lists := realm.closed

end Value.Within

end Fabula
