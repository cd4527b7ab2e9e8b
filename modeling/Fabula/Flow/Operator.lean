import Fabula.Flow.Basic

namespace Fabula

/-!
# Operators of the evaluation stack

Operators take their operands off the stack and push a result.  Some of them also
draw random numbers or look up how a flow went so far.
-/

/-- The result of an operator as a truth value. -/
def truth (result : Except OperatorFault Bool) : Except OperatorFault Value :=
  result.map Value.bool

/-- The result of an operator with two operands that draws no random number. -/
def BinaryOperator.apply (operator : BinaryOperator) (left right : Value) :
    Except OperatorFault Value :=
  match operator with
  | .add => left.add right
  | .subtract => left.sub right
  | .divide => left.div right
  | .multiply => left.mul right
  | .remainder => left.rem right
  | .random => .error .randomBounds
  | .equal => .ok (.bool (left.equals right))
  | .notEqual => .ok (.bool (!left.equals right))
  | .greater => truth (Value.compare .greater left right)
  | .less => truth (Value.compare .less left right)
  | .greaterOrEqual => truth (Value.compare .greaterOrEqual left right)
  | .lessOrEqual => truth (Value.compare .lessOrEqual left right)
  | .and => .ok (.bool (left.isTruthy && right.isTruthy))
  | .or => .ok (.bool (left.isTruthy || right.isTruthy))
  | .min => left.min right
  | .max => left.max right
  | .has => truth (left.has right)
  | .hasnt => truth ((left.has right).map (!·))
  | .intersection => left.intersect right
  | .listItem => left.listItem right

/-- The flags of an operand that has to be a list. -/
def Value.toFlags : Value → Except RuntimeFault FlagSet
  | .list set => .ok set
  | other => .error (.notAList other.kind)

/-- A bound of a range: an integer, or the extreme value of a list. -/
def Value.toBound (extreme : FlagSet → Option Int32) : Value → Except RuntimeFault Int32
  | .list set => .ok ((extreme set).getD 0)
  | other =>
      match other.asInt? with
      | some bound => .ok bound
      | none => .error (.invalidRangeBound other.kind)

namespace Flow

/-- An operator's fault is a fault of its instruction. -/
def ofOperator {α : Type} (result : Except OperatorFault α) : Except RuntimeFault α :=
  result.mapError RuntimeFault.operator

/-- A fault is an error of the instruction at an address. -/
def atAddress {α : Type} (address : Nat) (result : Except RuntimeFault α) : Except Error α :=
  result.mapError (Error.runtime address)

/-- An integer between two bounds, drawn at random. -/
def draw (flow : Flow) (low high : Int32) : Int32 × Flow :=
  let drawn := flow.rng.range low high
  (drawn.1, { flow with rng := drawn.2 })

/-- The result of an operator with two operands. -/
def applyBinary (flow : Flow) (operator : BinaryOperator) (left right : Value) :
    Except RuntimeFault (Value × Flow) :=
  match operator, left.asInt?, right.asInt? with
  | .random, some low, some high =>
      let drawn := flow.draw low high
      .ok (.int drawn.1, drawn.2)
  | _, _, _ => do
      let result ← ofOperator (operator.apply left right)
      pure (result, flow)

/-- Carry out an operator with two operands. -/
def binary (flow : Flow) (operator : BinaryOperator) (address : Nat) : Except Error Flow := do
  let (right, flow) ← flow.pop address
  let (left, flow) ← flow.pop address
  let (result, flow) ← atAddress address (flow.applyBinary operator left right)
  pure (flow.push result)

/-- One flag of a list, drawn at random. -/
def pickFlag (flow : Flow) (set : FlagSet) : FlagSet × Flow :=
  if set.isEmpty then
    (set, flow)
  else
    let drawn := flow.draw 0 (Int32.ofNat set.size - 1)
    match set.items.toList[drawn.1.toNatClampNeg]? with
    | some item => (set.only item, drawn.2)
    | none => (set, drawn.2)

/-- How often the container that starts at an address was entered. -/
def readCountAt (flow : Flow) (story : Story) (address : Nat) : UInt32 :=
  match story.containerStartingAt? address with
  | some id => flow.visitsOf id
  | none => 0

/-- The turns since the container that starts at an address was entered, or minus one. -/
def turnsSince (flow : Flow) (story : Story) (address : Nat) : Int32 :=
  match (story.containerStartingAt? address).bind (fun id => (flow.turnVisited[id]?).join) with
  | some turn => (flow.turn - turn).toInt32
  | none => -1

/-- An operand that has to be an address. -/
def toAddress (operator : UnaryOperator) : Value → Except RuntimeFault Nat
  | .divert target => .ok target.toNat
  | other => .error (.needsDivert (.unary operator) other.kind)

/-- The result of an operator with one operand. -/
def applyUnary (flow : Flow) (story : Story) (operator : UnaryOperator) (operand : Value) :
    Except RuntimeFault (Value × Flow) :=
  match operator with
  | .not => .ok (.bool (!operand.isTruthy), flow)
  | .negate => do pure (← ofOperator operand.negate, flow)
  | .floor => do pure (← ofOperator operand.floor, flow)
  | .ceiling => do pure (← ofOperator operand.ceiling, flow)
  | .toInt => do pure (← ofOperator operand.toInt, flow)
  | .toFloat => do pure (← ofOperator operand.toFloat, flow)
  | .listCount => do pure (.int (Int32.ofNat (← operand.toFlags).size), flow)
  | .listMin => do pure (.list (← operand.toFlags).singleMin, flow)
  | .listMax => do pure (.list (← operand.toFlags).singleMax, flow)
  | .listAll => do pure (.list (← operand.toFlags).all, flow)
  | .listInvert => do pure (.list (← operand.toFlags).invert, flow)
  | .listValue => do pure (.int ((← operand.toFlags).maxValue?.getD 0), flow)
  | .listRandom => do
      let picked := flow.pickFlag (← operand.toFlags)
      pure (.list picked.1, picked.2)
  | .readCountVar => do
      let target ← toAddress .readCountVar operand
      pure (.int (flow.readCountAt story target).toInt32, flow)
  | .turns => do
      let target ← toAddress .turns operand
      pure (.int (flow.turnsSince story target), flow)

/-- Carry out an operator with one operand. -/
def unary (flow : Flow) (story : Story) (operator : UnaryOperator) (address : Nat) :
    Except Error Flow := do
  let (operand, flow) ← flow.pop address
  let (result, flow) ← atAddress address (flow.applyUnary story operator operand)
  pure (flow.push result)

/-- Keep the flags of a list between two bounds. -/
def listRange (flow : Flow) (address : Nat) : Except Error Flow := do
  let (high, flow) ← flow.pop address
  let (low, flow) ← flow.pop address
  let (operand, flow) ← flow.pop address
  let set ← atAddress address operand.toFlags
  let low ← atAddress address (low.toBound FlagSet.minValue?)
  let high ← atAddress address (high.toBound FlagSet.maxValue?)
  pure (flow.push (.list (set.range low high)))

/-- The seed of the order in which a sequence is shown on one loop. -/
def shuffleSeed (seed : UInt64) (container : UInt32) (loop : Nat) : UInt64 :=
  seed + (container.toUInt64 <<< 32) + UInt64.ofNat loop

/--
The element of a shuffled sequence at a visit.  Every loop of as many visits as
there are elements takes elements out at random until none is left.
-/
def shuffled (seed : UInt64) (container : UInt32) (elements visits : Nat) : Nat :=
  let stream := Random.Stream.ofSeed (shuffleSeed seed container (visits / elements))
  Random.pick Random.index (visits % elements + 1) 0 (List.range elements) stream

/-- Push the element of a shuffled sequence. -/
def sequence (flow : Flow) (address : Nat) : Except Error Flow := do
  let (elements, flow) ← flow.pop address
  let (visits, flow) ← flow.pop address
  let elements := elements.asInt?.getD 0
  let visits := visits.asInt?.getD 0
  if visits < 0 then
    fail address (.negativeVisits visits)
  else if elements ≤ 0 then
    pure (flow.push (.int 0))
  else
    let container := flow.containers.getLast?.getD 0
    let chosen :=
      shuffled flow.rng.seed container elements.toNatClampNeg visits.toNatClampNeg
    pure (flow.push (.int (Int32.ofNat chosen)))

end Flow

end Fabula
