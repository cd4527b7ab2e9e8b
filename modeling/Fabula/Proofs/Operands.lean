import Fabula.Flow.Execute
import Fabula.Proofs.Frames
import Fabula.Proofs.Native

namespace Fabula

/-!
# Operands and results

Operators make numbers and truth values, join texts and build sets of flags out of sets of
flags.  A property of values that all of these have is therefore kept by every operator,
and a property of flows that says it of their stacks is kept by every instruction that
works on the stack alone.
-/

/-- Sets of flags that operators do not lead out of. -/
structure FlagSet.Closed (Allowed : FlagSet → Prop) : Prop where
  union : ∀ {left right}, Allowed left → Allowed right → Allowed (left.union right)
  difference : ∀ {left right}, Allowed left → Allowed (left.difference right)
  intersection : ∀ {left right}, Allowed left → Allowed (left.intersection right)
  shift : ∀ {set} steps, Allowed set → Allowed (set.shift steps)
  all : ∀ {set}, Allowed set → Allowed set.all
  invert : ∀ {set}, Allowed set → Allowed set.invert
  singleMin : ∀ {set}, Allowed set → Allowed set.singleMin
  singleMax : ∀ {set}, Allowed set → Allowed set.singleMax
  range : ∀ {set} low high, Allowed set → Allowed (set.range low high)
  only : ∀ {set item}, Allowed set → item ∈ set.items → Allowed (set.only item)
  itemWithValue : ∀ {set} value, Allowed set → Allowed (set.itemWithValue value)

/-- Values that operators do not lead out of. -/
structure Value.Closed (Allowed : Value → Prop) : Prop where
  void : Allowed .void
  bool : ∀ b, Allowed (.bool b)
  int : ∀ i, Allowed (.int i)
  float : ∀ x, Allowed (.float x)
  text :
    ∀ {left right : Value},
      Allowed left →
      Allowed right →
      Allowed (.str (left.text ++ right.text))
  lists : FlagSet.Closed fun set => Allowed (.list set)

namespace Value.Closed

variable {Allowed : Value → Prop} {left right value : Value}

theorem add
    (closed : Value.Closed Allowed)
    (leftAllowed : Allowed left)
    (rightAllowed : Allowed right) :
    Yields Allowed (left.add right) := by
  simp only [Value.add]
  split
  · exact .ok (closed.text leftAllowed rightAllowed)
  · exact .ok (closed.text leftAllowed rightAllowed)
  · exact .ok (closed.lists.union leftAllowed rightAllowed)
  · split
    · exact .ok (closed.lists.shift _ leftAllowed)
    · exact .error _
  · split
    · exact .ok (closed.int _)
    · exact .ok (closed.float _)
    · exact .error _

theorem sub
    (closed : Value.Closed Allowed)
    (leftAllowed : Allowed left) :
    Yields Allowed (left.sub right) := by
  simp only [Value.sub]
  split
  · exact .ok (closed.lists.difference leftAllowed)
  · split
    · exact .ok (closed.lists.shift _ leftAllowed)
    · exact .error _
  · split
    · exact .ok (closed.int _)
    · exact .ok (closed.float _)
    · exact .error _

theorem mul
    (closed : Value.Closed Allowed) :
    Yields Allowed (left.mul right) := by
  simp only [Value.mul]
  split
  · exact .ok (closed.int _)
  · exact .ok (closed.float _)
  · exact .error _

theorem div
    (closed : Value.Closed Allowed) :
    Yields Allowed (left.div right) := by
  simp only [Value.div]
  split
  · split
    · exact .error _
    · exact .ok (closed.int _)
  · exact .ok (closed.float _)
  · exact .error _

theorem rem
    (closed : Value.Closed Allowed) :
    Yields Allowed (left.rem right) := by
  simp only [Value.rem]
  split
  · split
    · exact .error _
    · exact .ok (closed.int _)
  · exact .ok (closed.float _)
  · exact .error _

/-- Of two operands one is given back. -/
theorem ofComparison
    (leftAllowed : Allowed left)
    (rightAllowed : Allowed right)
    (result : Except OperatorFault Bool) :
    Yields Allowed (result >>= fun first => pure (if first then right else left)) := by
  cases result with
  | error fault =>
      exact .error fault
  | ok first =>
      cases first with
      | true => exact .ok rightAllowed
      | false => exact .ok leftAllowed

theorem truth
    (closed : Value.Closed Allowed)
    (result : Except OperatorFault Bool) :
    Yields Allowed (Fabula.truth result) := by
  cases result with
  | error fault =>
      exact .error fault
  | ok b =>
      exact .ok (closed.bool b)

theorem intersect
    (closed : Value.Closed Allowed)
    (leftAllowed : Allowed left) :
    Yields Allowed (left.intersect right) := by
  simp only [Value.intersect]
  split
  · exact .ok (closed.lists.intersection leftAllowed)
  · exact .error _

theorem listItem
    (closed : Value.Closed Allowed)
    (leftAllowed : Allowed left) :
    Yields Allowed (left.listItem right) := by
  simp only [Value.listItem]
  split
  · exact .ok (closed.lists.itemWithValue _ leftAllowed)
  · exact .error _

theorem binary
    (closed : Value.Closed Allowed)
    (operator : BinaryOperator)
    (leftAllowed : Allowed left)
    (rightAllowed : Allowed right) :
    Yields Allowed (operator.apply left right) := by
  cases operator with
  | add => exact closed.add leftAllowed rightAllowed
  | subtract => exact closed.sub leftAllowed
  | divide => exact closed.div
  | multiply => exact closed.mul
  | remainder => exact closed.rem
  | random => exact .error _
  | equal | notEqual | and | or => exact .ok (closed.bool _)
  | greater | less | greaterOrEqual | lessOrEqual | has | hasnt => exact closed.truth _
  | min | max => exact ofComparison leftAllowed rightAllowed _
  | intersection => exact closed.intersect leftAllowed
  | listItem => exact closed.listItem leftAllowed

theorem negate
    (closed : Value.Closed Allowed) :
    Yields Allowed value.negate := by
  cases value <;> first | exact .ok (closed.int _) | exact .ok (closed.float _) | exact .error _

theorem floor
    (closed : Value.Closed Allowed)
    (allowed : Allowed value) :
    Yields Allowed value.floor := by
  cases value <;> first | exact .ok allowed | exact .ok (closed.float _) | exact .error _

theorem ceiling
    (closed : Value.Closed Allowed)
    (allowed : Allowed value) :
    Yields Allowed value.ceiling := by
  cases value <;> first | exact .ok allowed | exact .ok (closed.float _) | exact .error _

theorem toInt
    (closed : Value.Closed Allowed) :
    Yields Allowed value.toInt := by
  cases value <;> first | exact .ok (closed.int _) | exact .error _

theorem toFloat
    (closed : Value.Closed Allowed) :
    Yields Allowed value.toFloat := by
  cases value <;> first | exact .ok (closed.float _) | exact .error _

/-- The flags of an operand. -/
theorem toFlags
    (allowed : Allowed value) :
    Yields (fun set => Allowed (.list set)) value.toFlags := by
  cases value with
  | list set => exact .ok allowed
  | _ => exact .error _

end Value.Closed

/-- A property of flows that says of all values on the stack that they are allowed. -/
structure Flow.Stocks
    (Allowed : Value → Prop)
    (Kept : Flow → Prop) :
    Prop where
  values : Value.Closed Allowed
  stack : ∀ {flow}, Kept flow → ∀ value ∈ flow.eval, Allowed value
  push : ∀ {flow value}, Kept flow → Allowed value → Kept (flow.push value)
  drop : ∀ {flow rest}, Kept flow → rest <:+ flow.eval → Kept { flow with eval := rest }
  rng : ∀ {flow} rng, Kept flow → Kept { flow with rng := rng }

namespace Flow.Stocks

variable {Allowed : Value → Prop} {Kept : Flow → Prop} {flow : Flow}

theorem pop
    (stocks : Stocks Allowed Kept)
    (kept : Kept flow)
    (address : Nat) :
    Yields (fun popped => Allowed popped.1 ∧ Kept popped.2) (flow.pop address) := by
  simp only [Flow.pop, Flow.pop?]
  split
  · next popped found =>
      split at found
      · cases found
      · next value rest held =>
          cases found
          refine .ok ⟨stocks.stack kept value ?_, stocks.drop kept ?_⟩
          · simp [held]
          · rw [held]
            exact List.suffix_cons value rest
  · exact .error _

theorem popIf
    (stocks : Stocks Allowed Kept)
    (kept : Kept flow)
    (asked : Bool)
    (address : Nat) :
    Yields (fun popped => Kept popped.2) (flow.popIf asked address) := by
  cases asked with
  | false =>
      exact .ok kept
  | true =>
      exact (stocks.pop kept address).bind fun _ popped => .ok popped.2

theorem applyBinary
    (stocks : Stocks Allowed Kept)
    (kept : Kept flow)
    (operator : BinaryOperator)
    {left right : Value}
    (leftAllowed : Allowed left)
    (rightAllowed : Allowed right) :
    Yields (fun result => Allowed result.1 ∧ Kept result.2)
      (flow.applyBinary operator left right) := by
  simp only [Flow.applyBinary]
  split
  · exact .ok ⟨stocks.values.int _, stocks.rng _ kept⟩
  · refine Yields.bind (Yields.mapError ?_ _) fun _ allowed => .ok ⟨allowed, kept⟩
    exact stocks.values.binary _ leftAllowed rightAllowed

theorem binary
    (stocks : Stocks Allowed Kept)
    (kept : Kept flow)
    (operator : BinaryOperator)
    (address : Nat) :
    Yields Kept (flow.binary operator address) := by
  refine (stocks.pop kept address).bind fun _ ⟨rightAllowed, kept⟩ => ?_
  refine (stocks.pop kept address).bind fun _ ⟨leftAllowed, kept⟩ => ?_
  have applied := stocks.applyBinary kept operator leftAllowed rightAllowed
  exact (applied.mapError _).bind fun _ ⟨allowed, kept⟩ => .ok (stocks.push kept allowed)

theorem pickFlag
    (stocks : Stocks Allowed Kept)
    (kept : Kept flow)
    {set : FlagSet}
    (allowed : Allowed (.list set)) :
    Allowed (.list (flow.pickFlag set).1) ∧ Kept (flow.pickFlag set).2 := by
  simp only [Flow.pickFlag]
  split
  · exact ⟨allowed, kept⟩
  · split
    · next item picked =>
        exact
          ⟨stocks.values.lists.only allowed (List.mem_of_getElem? picked), stocks.rng _ kept⟩
    · exact ⟨allowed, stocks.rng _ kept⟩

theorem applyUnary
    (stocks : Stocks Allowed Kept)
    (kept : Kept flow)
    (story : Story)
    (operator : UnaryOperator)
    {operand : Value}
    (operandAllowed : Allowed operand) :
    Yields (fun result => Allowed result.1 ∧ Kept result.2)
      (flow.applyUnary story operator operand) := by
  have closed := stocks.values
  have number {result : Except OperatorFault Value} (made : Yields Allowed result) :
      Yields (fun result : Value × Flow => Allowed result.1 ∧ Kept result.2)
        (do pure (← ofOperator result, flow)) :=
    (made.mapError _).bind fun _ allowed => .ok ⟨allowed, kept⟩
  have flags := Value.Closed.toFlags operandAllowed
  have address (operator : UnaryOperator) :
      Yields (fun _ => True) (toAddress operator operand) := fun _ _ => trivial
  cases operator with
  | not => exact .ok ⟨closed.bool _, kept⟩
  | negate => exact number closed.negate
  | floor => exact number (closed.floor operandAllowed)
  | ceiling => exact number (closed.ceiling operandAllowed)
  | toInt => exact number closed.toInt
  | toFloat => exact number closed.toFloat
  | listCount | listValue => exact flags.bind fun _ _ => .ok ⟨closed.int _, kept⟩
  | listMin => exact flags.bind fun _ built => .ok ⟨closed.lists.singleMin built, kept⟩
  | listMax => exact flags.bind fun _ built => .ok ⟨closed.lists.singleMax built, kept⟩
  | listAll => exact flags.bind fun _ built => .ok ⟨closed.lists.all built, kept⟩
  | listInvert => exact flags.bind fun _ built => .ok ⟨closed.lists.invert built, kept⟩
  | listRandom => exact flags.bind fun _ built => .ok (stocks.pickFlag kept built)
  | readCountVar | turns => exact (address _).bind fun _ _ => .ok ⟨closed.int _, kept⟩

theorem unary
    (stocks : Stocks Allowed Kept)
    (kept : Kept flow)
    (story : Story)
    (operator : UnaryOperator)
    (address : Nat) :
    Yields Kept (flow.unary story operator address) := by
  refine (stocks.pop kept address).bind fun _ ⟨operandAllowed, kept⟩ => ?_
  have applied := stocks.applyUnary kept story operator operandAllowed
  exact (applied.mapError _).bind fun _ ⟨allowed, kept⟩ => .ok (stocks.push kept allowed)

theorem listRange
    (stocks : Stocks Allowed Kept)
    (kept : Kept flow)
    (address : Nat) :
    Yields Kept (flow.listRange address) := by
  refine (stocks.pop kept address).bind fun _ ⟨_, kept⟩ => ?_
  refine (stocks.pop kept address).bind fun _ ⟨_, kept⟩ => ?_
  refine (stocks.pop kept address).bind fun _ ⟨operandAllowed, kept⟩ => ?_
  refine ((Value.Closed.toFlags operandAllowed).mapError _).bind fun set built => ?_
  have any (result : Except Error Int32) : Yields (fun _ => True) result := fun _ _ => trivial
  refine (any _).bind fun low _ => (any _).bind fun high _ => .ok ?_
  exact stocks.push kept (stocks.values.lists.range low high built)

theorem sequence
    (stocks : Stocks Allowed Kept)
    (kept : Kept flow)
    (address : Nat) :
    Yields Kept (flow.sequence address) := by
  refine (stocks.pop kept address).bind fun _ ⟨_, kept⟩ => ?_
  refine (stocks.pop kept address).bind fun _ ⟨_, kept⟩ => ?_
  simp only
  split
  · exact .error _
  · split
    · exact .ok (stocks.push kept (stocks.values.int _))
    · exact .ok (stocks.push kept (stocks.values.int _))

theorem reseed
    (stocks : Stocks Allowed Kept)
    (kept : Kept flow)
    (address : Nat) :
    Yields Kept (flow.reseed address) := by
  refine (stocks.pop kept address).bind fun _ ⟨_, kept⟩ => ?_
  simp only
  split
  · exact .ok (stocks.push (stocks.rng _ kept) stocks.values.void)
  · exact .error _

theorem duplicate
    (stocks : Stocks Allowed Kept)
    (kept : Kept flow)
    (address : Nat) :
    Yields Kept (flow.duplicate address) := by
  simp only [Flow.duplicate]
  split
  · exact .error _
  · next top rest held =>
      exact .ok (stocks.push kept (stocks.stack kept top (held ▸ List.mem_cons_self)))

end Flow.Stocks

/-- What is read is a temporary of a frame, the value of a variable or nothing. -/
theorem Flow.readAt_yields
    {Allowed : Value → Prop}
    {flow : Flow}
    {store : Store}
    (void : Allowed .void)
    (temps : ∀ frame ∈ flow.callStack.frames, ∀ entry ∈ frame.temps, Allowed entry.2)
    (globals : ∀ value ∈ store.values, Allowed value)
    (place : Place) :
    Yields Allowed (flow.readAt store place) := by
  cases place with
  | temp index name =>
      simp only [readAt]
      split
      · next value held =>
          obtain ⟨frame, found, held⟩ := Option.bind_eq_some_iff.mp held
          exact .ok (temps frame (List.mem_of_getElem? found) _ (Frame.mem_of_temp? held))
      · exact .error _
  | global name =>
      have any : Yields (fun _ => True) (store.index name) := fun _ _ => trivial
      refine any.bind fun index _ => .ok ?_
      simp only [Store.valueAt, List.getD_eq_getElem?_getD]
      cases here : store.values[index]? with
      | none => exact void
      | some value => exact globals value (List.mem_of_getElem? here)

end Fabula
