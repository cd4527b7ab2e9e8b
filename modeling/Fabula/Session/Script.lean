import Fabula.Snapshot.Basic
import Fabula.Value.Literal

namespace Fabula

/-!
# Scripted hosts

In a session the functions of the host are scripts: lists of actions that may read
and write stores, run other runners and fail, with a rule for the value that a
function gives back.  Values are written as literals.  What a function gives back
and what an observer waits for is settled when the script is made; what an action
writes is settled when it writes, over the lists of the store that it writes to.
-/

/-- One thing that a host function does.  Stores, runners and observers go by name. -/
inductive Action where
  | fail (message : String)
  /-- Fail from the given call on. -/
  | failFrom (count : Nat) (message : String)
  | set (store name : String) (value : Literal)
  | get (store name : String)
  | getline (runner : String)
  | unobserve (store observer : String)
  deriving Repr, DecidableEq

/-- What a function gives back, with values written as `V`. -/
inductive Reply (V : Type) where
  | nothing
  | value (v : V)
  /-- The argument at a position. -/
  | argument (index : Nat)
  /-- The number of calls so far. -/
  | count
  /-- The sum of the numeric arguments. -/
  | sum
  /-- The texts of the arguments in order. -/
  | concat
  deriving Repr, DecidableEq

/-- Whom a script stands for. -/
inductive Role where
  /-- A function that a story calls by name. -/
  | external (name : String) (reply : Reply Value)
  /-- An observer by name. -/
  | observer (name : String)
  deriving Repr, DecidableEq

/-- A function of the host. -/
structure Script where
  role : Role
  /-- What is done, in order; an action may ask for a new value. -/
  actions : List (Option Value × Action)
  /-- How often it was called. -/
  calls : Nat
  deriving Repr, DecidableEq

/-- What the host has seen. -/
inductive HostEvent where
  | called (name : String) (arguments : List Value)
  | observed (name : String) (notice : Notice)
  | got (name : String) (value : Value)
  | lineRead (runner : String) (result : Except Error String)
  | unobserved (name : String) (removed : Bool)

/-- The actions of an observer with the values that they ask for. -/
def Action.settleAll (defs : Definitions) (actions : List (Option Literal × Action)) :
    Except Error (List (Option Value × Action)) :=
  actions.mapM fun entry => do
    let expected ← entry.1.mapM (Literal.resolve defs)
    pure (expected, entry.2)

namespace Reply

/-- A reply with the value of its literal over the lists of a story. -/
def resolve (defs : Definitions) : Reply Literal → Except Error (Reply Value)
  | .nothing => .ok .nothing
  | .value literal => do pure (.value (← literal.resolve defs))
  | .argument index => .ok (.argument index)
  | .count => .ok .count
  | .sum => .ok .sum
  | .concat => .ok .concat

/-- The sum of the numeric values, wrapping around. -/
def sumOf (arguments : List Value) : Int32 :=
  (arguments.filterMap Value.asInt?).foldl (· + ·) 0

def answer (calls : Nat) (arguments : List Value) : Reply Value → Value
  | .nothing => .void
  | .value v => v
  | .argument index => arguments.getD index .void
  | .count => .int (Int32.ofNat calls)
  | .sum => .int (sumOf arguments)
  | .concat => .str (String.join (arguments.map Value.text))

end Reply

/-- The new value that an observer is told of. -/
def Notice.new? : Notice → Option Value
  | .changed new _ => some new
  | .ping => none
  | .delta new _ => some new

/-- The actions of a script that are due when an observer hears of a new value. -/
def Script.dueActions (script : Script) (new : Option Value) : List Action :=
  (script.actions.filter (fun entry => entry.1.all (fun expected => new.any expected.same))).map
    Prod.snd

end Fabula
