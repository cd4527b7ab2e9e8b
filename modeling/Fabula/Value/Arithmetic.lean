import Fabula.Value.Basic

namespace Fabula

/-!
# Operators on values

Truth values act as integers, a number with a fraction turns the other operand
into one as well, and a string operand turns addition into concatenation.  Lists
have their own operators.  An operator that does not fit its operands fails
with a cause.
-/

/-- Why an operator fails. -/
inductive OperatorFault where
  /-- The operator, written as its sign, does not fit the kinds of its operands. -/
  | mismatch (sign : String) (left right : Kind)
  | divisionByZero
  | remainderByZero
  /-- The operation, given as a verb, does not fit the kind of its operand. -/
  | unfit (verb : String) (operand : Kind)
  | notAnInt (operand : Kind)
  | notAFloat (operand : Kind)
  | randomBounds
  | notAnIndex (left right : Kind)
  deriving Repr, DecidableEq

def OperatorFault.message : OperatorFault → String
  | .mismatch sign left right =>
      "cannot apply '" ++ sign ++ "' to " ++ left.name ++ " and " ++ right.name
  | .divisionByZero => "integer division by zero"
  | .remainderByZero => "integer modulo by zero"
  | .unfit verb operand => "cannot " ++ verb ++ " " ++ operand.name
  | .notAnInt operand => "cannot convert " ++ operand.name ++ " to int"
  | .notAFloat operand => "cannot convert " ++ operand.name ++ " to float"
  | .randomBounds => "RANDOM needs numeric bounds"
  | .notAnIndex left right => "cannot index " ++ left.name ++ " by " ++ right.name

namespace Value

/-- Two numeric operands of one kind. -/
inductive Operands where
  | ints (left right : Int32)
  | floats (left right : Single)
  deriving Repr, DecidableEq

/-- Two numeric values brought to one kind. -/
def operands? (left right : Value) : Option Operands :=
  match left, right with
  | .float _, _ | _, .float _ => do
      let x ← left.asFloat?
      let y ← right.asFloat?
      pure (.floats x y)
  | _, _ => do
      let i ← left.asInt?
      let j ← right.asInt?
      pure (.ints i j)

/-- The sum, the concatenation, the union or the shifted list. -/
def add (left right : Value) : Except OperatorFault Value :=
  match left, right with
  | .str _, _ | _, .str _ => .ok (.str (left.text ++ right.text))
  | .list a, .list b => .ok (.list (a.union b))
  | .list a, other =>
      match other.asInt? with
      | some n => .ok (.list (a.shift n))
      | none => .error (.mismatch "+" left.kind right.kind)
  | _, _ =>
      match operands? left right with
      | some (.ints i j) => .ok (.int (i + j))
      | some (.floats x y) => .ok (.float (x.add y))
      | none => .error (.mismatch "+" left.kind right.kind)

/-- The difference or the list shifted down. -/
def sub (left right : Value) : Except OperatorFault Value :=
  match left, right with
  | .list a, .list b => .ok (.list (a.difference b))
  | .list a, other =>
      match other.asInt? with
      | some n => .ok (.list (a.shift (-n)))
      | none => .error (.mismatch "-" left.kind right.kind)
  | _, _ =>
      match operands? left right with
      | some (.ints i j) => .ok (.int (i - j))
      | some (.floats x y) => .ok (.float (x.sub y))
      | none => .error (.mismatch "-" left.kind right.kind)

def mul (left right : Value) : Except OperatorFault Value :=
  match operands? left right with
  | some (.ints i j) => .ok (.int (i * j))
  | some (.floats x y) => .ok (.float (x.mul y))
  | none => .error (.mismatch "*" left.kind right.kind)

/-- The quotient, of integers toward zero. -/
def div (left right : Value) : Except OperatorFault Value :=
  match operands? left right with
  | some (.ints i j) => if j = 0 then .error .divisionByZero else .ok (.int (i / j))
  | some (.floats x y) => .ok (.float (x.div y))
  | none => .error (.mismatch "/" left.kind right.kind)

/-- The remainder, with the sign of the dividend. -/
def rem (left right : Value) : Except OperatorFault Value :=
  match operands? left right with
  | some (.ints i j) => if j = 0 then .error .remainderByZero else .ok (.int (i % j))
  | some (.floats x y) => .ok (.float (x.rem y))
  | none => .error (.mismatch "%" left.kind right.kind)

/-- Equality of values, numeric kinds unified. -/
def equals (left right : Value) : Bool :=
  match left, right with
  | .str a, .str b => a == b
  | .list a, .list b => a.equal b
  | .divert a, .divert b => a == b
  | .pointer .., .pointer .. => left.same right
  | .void, .void => true
  | _, _ =>
      match operands? left right with
      | some (.ints i j) => i == j
      | some (.floats x y) => x.equal y
      | none => false

/-- The four orders. -/
inductive Comparison where
  | less
  | greater
  | lessOrEqual
  | greaterOrEqual
  deriving Repr, DecidableEq

namespace Comparison

def sign : Comparison → String
  | .less => "<"
  | .greater => ">"
  | .lessOrEqual => "<="
  | .greaterOrEqual => ">="

/-- The order on sets of flags. -/
def onFlags : Comparison → FlagSet → FlagSet → Bool
  | .less => FlagSet.lessThan
  | .greater => FlagSet.greaterThan
  | .lessOrEqual => FlagSet.lessOrEqual
  | .greaterOrEqual => FlagSet.greaterOrEqual

/-- Whether an ordering satisfies an order. -/
def holds : Comparison → Ordering → Bool
  | .less, ordering => ordering.isLT
  | .greater, ordering => ordering.isGT
  | .lessOrEqual, ordering => ordering.isLE
  | .greaterOrEqual, ordering => ordering.isGE

end Comparison

/-- Whether two values stand in an order; never for what is not a number. -/
def compare (order : Comparison) (left right : Value) : Except OperatorFault Bool :=
  match left, right with
  | .list a, .list b => .ok (order.onFlags a b)
  | _, _ =>
      match operands? left right with
      | some (.ints i j) => .ok (order.holds (Ord.compare i.toInt j.toInt))
      | some (.floats x y) =>
          match x.compare? y with
          | some ordering => .ok (order.holds ordering)
          | none => .ok false
      | none => .error (.mismatch order.sign left.kind right.kind)

/-- The smaller value, the first when neither is. -/
def min (left right : Value) : Except OperatorFault Value := do
  let rightSmaller ← compare .greater left right
  pure (if rightSmaller then right else left)

/-- The greater value, the first when neither is. -/
def max (left right : Value) : Except OperatorFault Value := do
  let rightGreater ← compare .less left right
  pure (if rightGreater then right else left)

/-- Whether the first list of characters occurs in the second. -/
def occursIn (needle : List Char) : List Char → Bool
  | [] => needle.isEmpty
  | c :: rest => needle.isPrefixOf (c :: rest) || occursIn needle rest

/-- Whether the first value holds the second: flags of a list or a part of a text. -/
def has (left right : Value) : Except OperatorFault Bool :=
  match left, right with
  | .list a, .list b => .ok (a.hasAll b)
  | .str a, .str b => .ok (occursIn b.toList a.toList)
  | _, _ => .error (.mismatch "?" left.kind right.kind)

/-- The common flags of two lists. -/
def intersect (left right : Value) : Except OperatorFault Value :=
  match left, right with
  | .list a, .list b => .ok (.list (a.intersection b))
  | _, _ => .error (.mismatch "^" left.kind right.kind)

/-- The flag of the first value's origins with the second as its value. -/
def listItem (left right : Value) : Except OperatorFault Value :=
  match left, right.asInt? with
  | .list set, some value => .ok (.list (set.itemWithValue value))
  | _, _ => .error (.notAnIndex left.kind right.kind)

/-- The number with the other sign. -/
def negate (operand : Value) : Except OperatorFault Value :=
  match operand with
  | .int i => .ok (.int (-i))
  | .bool b => .ok (.int (-(ofBit b)))
  | .float x => .ok (.float x.neg)
  | other => .error (.unfit "negate" other.kind)

/-- The greatest whole number that is not above. -/
def floor (operand : Value) : Except OperatorFault Value :=
  match operand with
  | .float x => .ok (.float x.floor)
  | .int _ | .bool _ => .ok operand
  | other => .error (.unfit "floor" other.kind)

/-- The least whole number that is not below. -/
def ceiling (operand : Value) : Except OperatorFault Value :=
  match operand with
  | .float x => .ok (.float x.ceiling)
  | .int _ | .bool _ => .ok operand
  | other => .error (.unfit "ceiling" other.kind)

/-- A numeric value as an integer. -/
def toInt (operand : Value) : Except OperatorFault Value :=
  match operand.asInt? with
  | some i => .ok (.int i)
  | none => .error (.notAnInt operand.kind)

/-- A numeric value as a number with a fraction. -/
def toFloat (operand : Value) : Except OperatorFault Value :=
  match operand.asFloat? with
  | some x => .ok (.float x)
  | none => .error (.notAFloat operand.kind)

end Value

end Fabula
