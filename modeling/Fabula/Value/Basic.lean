import Fabula.Flag.FlagSet
import Fabula.Number.Decimal
import Fabula.Text.Quoted

namespace Fabula

/-!
# Story values

A value is dynamically typed.  Its kind decides which variables may hold it:
numeric kinds stand in for one another, and a variable declared without a kind
holds anything.
-/

/-- The kind of a value. -/
inductive Kind where
  | void
  | bool
  | int
  | float
  | string
  | list
  | divert
  | pointer
  deriving Repr, DecidableEq

namespace Kind

def name : Kind → String
  | .void => "none"
  | .bool => "bool"
  | .int => "int"
  | .float => "float"
  | .string => "string"
  | .list => "list"
  | .divert => "divert"
  | .pointer => "pointer"

def all : List Kind :=
  [.void, .bool, .int, .float, .string, .list, .divert, .pointer]

/-- The kinds that stand in for one another. -/
def isNumeric : Kind → Bool
  | .bool | .int | .float => true
  | _ => false

/-- Whether a variable declared with the first kind may be given a value of the second. -/
def accepts (declared actual : Kind) : Bool :=
  declared == actual || (declared.isNumeric && actual.isNumeric) || declared == .void

end Kind

/-- A description of a set: the qualified names of its flags, quoted. -/
def FlagSet.inspect (set : FlagSet) : String :=
  "[" ++ ", ".intercalate (set.flags.map (fun flag => Text.quoted flag.qualified)) ++ "]"

/-- A story value. -/
inductive Value where
  /-- No value. -/
  | void
  | bool (b : Bool)
  | int (i : Int32)
  | float (x : Single)
  | str (s : String)
  | list (set : FlagSet)
  /-- The address of a place in the story. -/
  | divert (target : UInt32)
  /-- A reference to a variable: a temporary of a call frame, or a global. -/
  | pointer (name : String) (frame : Option Nat)
  deriving Repr, DecidableEq

namespace Value

def kind : Value → Kind
  | .void => .void
  | .bool _ => .bool
  | .int _ => .int
  | .float _ => .float
  | .str _ => .string
  | .list _ => .list
  | .divert _ => .divert
  | .pointer .. => .pointer

def isVoid : Value → Bool
  | .void => true
  | _ => false

/-- Whether a value counts as true. -/
def isTruthy : Value → Bool
  | .void => false
  | .bool b => b
  | .int i => i != 0
  | .float x => !x.isZero
  | .str s => s != ""
  | .list set => !set.isEmpty
  | .divert _ => true
  | .pointer .. => true

/-- The integer of a truth value. -/
def ofBit (b : Bool) : Int32 :=
  if b then 1 else 0

/-- A numeric value as an integer, a fraction cut off. -/
def asInt? : Value → Option Int32
  | .bool b => some (ofBit b)
  | .int i => some i
  | .float x => some x.toInt32
  | _ => none

/-- A numeric value as a number. -/
def asFloat? : Value → Option Single
  | .bool b => some (Single.ofInt (ofBit b).toInt)
  | .int i => some (Single.ofInt i.toInt)
  | .float x => some x
  | _ => none

def asText? : Value → Option String
  | .str s => some s
  | _ => none

def asList? : Value → Option FlagSet
  | .list set => some set
  | _ => none

/-- A value brought to the kind of the variable it is given to. -/
def coerceTo (declared : Kind) (value : Value) : Value :=
  match declared, value with
  | .int, .bool b => .int (ofBit b)
  | .int, .float x => .int x.toInt32
  | .float, .int i => .float (Single.ofInt i.toInt)
  | .float, .bool b => .float (Single.ofInt (ofBit b).toInt)
  | .bool, .int i => .bool (i != 0)
  | .bool, .float x => .bool (!x.isZero)
  | _, value => value

/-- Values of one kind with the same content; numeric kinds are kept apart. -/
def same : Value → Value → Bool
  | .void, .void => true
  | .bool a, .bool b => a == b
  | .int a, .int b => a == b
  | .float a, .float b => a.equal b
  | .str a, .str b => a == b
  | .list a, .list b => a.equal b
  | .divert a, .divert b => a == b
  | .pointer a f, .pointer b g => a == b && f == g
  | _, _ => false

/-- The text of a value as a reader of a story sees it. -/
def text : Value → String
  | .void => ""
  | .bool b => if b then "true" else "false"
  | .int i => toString i.toInt
  | .float x => x.text
  | .str s => s
  | .list set => set.text
  | .divert target => "-> " ++ toString target.toNat
  | .pointer name _ => "ref " ++ name

/-- The text of a number that may be missing. -/
def inspectOption : Option Nat → String
  | none => "None"
  | some n => "Some(" ++ toString n ++ ")"

def inspect : Value → String
  | .void => "None"
  | .bool b => "Bool(" ++ (if b then "true" else "false") ++ ")"
  | .int i => "Int(" ++ toString i.toInt ++ ")"
  | .float x => "Float(" ++ x.inspect ++ ")"
  | .str s => "Str(" ++ Text.quoted s ++ ")"
  | .list set => "List(" ++ set.inspect ++ ")"
  | .divert target => "Divert(" ++ toString target.toNat ++ ")"
  | .pointer name frame =>
      "Pointer \x7b name: " ++ Text.quoted name ++ ", frame: " ++ inspectOption frame ++ " \x7d"

/-- A value given to a variable whose kind accepts it takes on the declared kind. -/
theorem kind_coerceTo
    {declared : Kind}
    {value : Value}
    (accepted : declared.accepts value.kind = true)
    (typed : declared ≠ .void) :
    (value.coerceTo declared).kind = declared := by
  cases declared <;> cases value <;>
    simp_all [Kind.accepts, Kind.isNumeric, kind, coerceTo]

end Value

end Fabula
