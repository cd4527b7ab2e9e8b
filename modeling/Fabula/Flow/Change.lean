import Fabula.Event
import Fabula.Flow.Basic

namespace Fabula

/-!
# Changes

Carrying out an instruction is a pure function.  It gives the flow afterwards,
the events on the way and, for the two kinds of instruction that reach beyond the
flow, a request to the world.
-/

/-- What an instruction asks of the world. -/
inductive Request where
  /-- Give a global variable a value. -/
  | write (name : String) (value : Value)
  /-- Call a function of the host and push its result. -/
  | call (name : String) (binding : Binding) (arguments : List Value)
  deriving Repr, DecidableEq

/-- The effect of an instruction. -/
structure Change where
  flow : Flow
  /-- What happens, in order, before the request is answered. -/
  events : List Event
  request : Option Request

namespace Change

/-- A change of the flow alone. -/
def of (flow : Flow) : Change :=
  ⟨flow, [], none⟩

def reported (flow : Flow) (events : List Event) : Change :=
  ⟨flow, events, none⟩

/-- The change with events before its own. -/
def after (events : List Event) (change : Change) : Change :=
  { change with events := events ++ change.events }

end Change

namespace Flow

/-- Go to an address, and report it. -/
def goTo (flow : Flow) (story : Story) (target : Nat) : Change :=
  .reported (flow.jump story target) [.jump target]

end Flow

end Fabula
