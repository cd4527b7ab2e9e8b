import Fabula.Flow.Operator
import Mathlib.Data.List.Perm.Basic

namespace Fabula

/-!
# Shuffled sequences

A shuffled sequence works its order out anew at every visit: it takes elements out at random
positions, one more at each visit of a loop, and shows the last one.  All visits of a loop
start from the same random words, so they follow one and the same order, which takes out
every element once.  Nothing is asked of the positions but that they lie among the elements
that are left.
-/

namespace Random

section Draws

variable {τ : Type} {draw : Nat → τ → Nat × τ} {count : Nat} {unpicked : List Nat}

/-- Every draw from a range that is not empty lies in it, whatever it draws from. -/
def InRange (draw : Nat → τ → Nat × τ) : Prop :=
  ∀ size source, 0 < size → (draw size source).1 < size

/-- The elements in the order in which they are taken out at drawn positions. -/
def order (draw : Nat → τ → Nat × τ) : Nat → List Nat → τ → List Nat
  | 0, _, _ => []
  | count + 1, unpicked, source =>
      let drawn := draw unpicked.length source
      match unpicked[drawn.1]? with
      | none => []
      | some element => element :: order draw count (unpicked.eraseIdx drawn.1) drawn.2

/-- A drawn position holds an element, which is taken out of the others. -/
theorem exists_drawn
    (inRange : InRange draw)
    (size : unpicked.length = count + 1)
    (source : τ) :
    ∃ element rest,
      unpicked[(draw unpicked.length source).1]? = some element ∧
        unpicked.eraseIdx (draw unpicked.length source).1 = rest ∧
        rest.length = count ∧
        (element :: rest).Perm unpicked := by
  have inside := inRange _ source (Nat.lt_of_lt_of_eq count.succ_pos size.symm)
  have all := List.getElem_cons_eraseIdx_perm inside
  exact
    ⟨_, _, List.getElem?_eq_getElem inside, rfl, Nat.succ.inj (all.length_eq.trans size), all⟩

/-- Every element is taken out once. -/
theorem order_perm
    (inRange : InRange draw)
    (size : unpicked.length = count)
    (source : τ) :
    (order draw count unpicked source).Perm unpicked := by
  induction count generalizing unpicked source with
  | zero =>
      rw [List.length_eq_zero_iff.mp size]
      exact .nil
  | succ count inductionHypothesis =>
      obtain ⟨element, rest, found, others, left, all⟩ := exists_drawn inRange size source
      simp only [order, found, others]
      exact ((inductionHypothesis left _).cons element).trans all

/-- Taking out elements up to a place in the order ends with the element at that place. -/
theorem order_getElem?
    (inRange : InRange draw)
    (size : unpicked.length = count)
    {place : Nat}
    (before : place < count)
    (chosen : Nat)
    (source : τ) :
    (order draw count unpicked source)[place]? =
      some (pick draw (place + 1) chosen unpicked source) := by
  induction count generalizing place chosen unpicked source with
  | zero =>
      cases before
  | succ count inductionHypothesis =>
      obtain ⟨element, rest, found, others, left, _⟩ := exists_drawn inRange size source
      rw [pick, order]
      simp only [found, others]
      cases place with
      | zero =>
          rfl
      | succ place =>
          exact inductionHypothesis left (Nat.lt_of_succ_lt_succ before) element _

end Draws

/-- Positions that are drawn from a stream lie in their range. -/
theorem index_inRange : InRange index :=
  fun _ stream positive => index_lt positive stream

end Random

namespace Flow

/-- The order in which a loop of a shuffled sequence shows its elements. -/
def shuffleOrder (seed : UInt64) (container : UInt32) (elements loop : Nat) : List Nat :=
  Random.order Random.index elements (List.range elements)
    (Random.Stream.ofSeed (shuffleSeed seed container loop))

/-- A loop shows every element once. -/
theorem shuffleOrder_perm
    (seed : UInt64)
    (container : UInt32)
    (elements loop : Nat) :
    (shuffleOrder seed container elements loop).Perm (List.range elements) :=
  Random.order_perm Random.index_inRange List.length_range _

/-- A visit shows the element at its place in the order of its loop. -/
theorem shuffleOrder_getElem?
    (seed : UInt64)
    (container : UInt32)
    (loop : Nat)
    {elements place : Nat}
    (before : place < elements) :
    (shuffleOrder seed container elements loop)[place]? =
      some (shuffled seed container elements (loop * elements + place)) := by
  have positive : 0 < elements := Nat.zero_lt_of_lt before
  have number : (loop * elements + place) / elements = loop := by
    rw [Nat.mul_comm, Nat.mul_add_div positive, Nat.div_eq_of_lt before, Nat.add_zero]
  have within : (loop * elements + place) % elements = place := by
    rw [Nat.mul_comm, Nat.mul_add_mod, Nat.mod_eq_of_lt before]
  rw [shuffled, number, within]
  exact Random.order_getElem? Random.index_inRange List.length_range before 0 _

/-- A sequence pushes the element of its shuffle. -/
theorem sequence_eq
    {flow : Flow}
    {count visit : Value}
    {rest : List Value}
    {elements visits : Int32}
    (operands : flow.eval = count :: visit :: rest)
    (counted : count.asInt? = some elements)
    (visited : visit.asInt? = some visits)
    (present : 0 < elements)
    (natural : 0 ≤ visits)
    (address : Nat) :
    flow.sequence address =
      .ok (Flow.push { flow with eval := rest }
        (.int
          (Int32.ofNat
            (shuffled flow.rng.seed (flow.containers.getLast?.getD 0)
              elements.toNatClampNeg visits.toNatClampNeg)))) := by
  have negative : ¬ visits < 0 := Int32.not_lt.mpr natural
  have absent : ¬ elements ≤ 0 := Int32.not_le.mpr present
  simp only [sequence, pop, pop?, operands, bind, Except.bind, counted, visited,
    Option.getD_some, negative, absent, if_false]
  rfl

/--
A shuffled sequence shows every element once in each loop.  For a seed, an innermost
container, a number of elements and a loop there is one order of all elements, and each
visit of the loop pushes the element at its place in that order, wherever the flow is and
whatever else it holds.
-/
theorem sequence_shows_each_once
    (seed : UInt64)
    (container : UInt32)
    (elements : Int32)
    (present : 0 < elements)
    (loop : Nat)
    (fits : loop * elements.toNatClampNeg + elements.toNatClampNeg - 1 ≤ 2147483647) :
    ∃ shown : List Nat,
      shown.Perm (List.range elements.toNatClampNeg) ∧
        ∀ (flow : Flow) (address place : Nat) (count visit : Value) (rest : List Value),
          place < elements.toNatClampNeg →
          flow.rng.seed = seed →
          flow.containers.getLast?.getD 0 = container →
          flow.eval = count :: visit :: rest →
          count.asInt? = some elements →
          visit.asInt? =
            some (Int32.ofNat (loop * elements.toNatClampNeg + place)) →
          ∃ (element : Nat) (value : Int32),
            shown[place]? = some element ∧
              value.toInt = element ∧
              flow.sequence address =
                .ok (Flow.push { flow with eval := rest } (.int value)) := by
  have all := shuffleOrder_perm seed container elements.toNatClampNeg loop
  refine ⟨_, all, ?_⟩
  rintro flow address place count visit rest before rfl rfl operands counted visited
  have within : loop * elements.toNatClampNeg + place < 2 ^ 31 := by omega
  have natural : 0 ≤ Int32.ofNat (loop * elements.toNatClampNeg + place) := by
    rw [Int32.le_iff_toInt_le, Int32.toInt_ofNat_of_lt within, Int32.toInt_zero]
    exact Int.natCast_nonneg _
  have found := shuffleOrder_getElem? flow.rng.seed (flow.containers.getLast?.getD 0) loop before
  have small := List.mem_range.mp (all.mem_iff.mp (List.mem_of_getElem? found))
  have pushed := sequence_eq operands counted visited present natural address
  rw [Int32.toNatClampNeg_ofNat_of_lt within] at pushed
  refine ⟨_, _, found, Int32.toInt_ofNat_of_lt ?_, pushed⟩
  exact Nat.lt_trans small elements.toNatClampNeg_lt

/-- A flow before a carousel of five pictures that has turned a number of times. -/
def carousel (visits : Nat) : Flow :=
  { Flow.start ⟨#[], #[], #[], #[], ⟨[], ⟨#[]⟩⟩⟩ 42 with
    eval := [.int 5, .int (Int32.ofNat visits), .str "left"]
    containers := [1, 3] }

/-- On its third round a carousel shows all five pictures. -/
theorem sequence_shows_each_once_carousel :
    (0 : Int32) < 5 ∧
      2 * (5 : Int32).toNatClampNeg + (5 : Int32).toNatClampNeg - 1 ≤ 2147483647 ∧
      ∃ shown : List Nat,
        shown.Perm [0, 1, 2, 3, 4] ∧
          ∀ place < 5,
            ∃ (element : Nat) (value : Int32),
              shown[place]? = some element ∧
                value.toInt = element ∧
                (carousel (10 + place)).sequence 7 =
                  .ok { carousel (10 + place) with eval := [.int value, .str "left"] } := by
  obtain ⟨shown, all, visits⟩ :=
    sequence_shows_each_once 42 3 5 (by decide) 2 (by decide)
  exact
    ⟨by decide, by decide, shown, all, fun place before =>
      visits (carousel (10 + place)) 7 place _ _ _ before rfl rfl rfl rfl rfl⟩

end Flow

end Fabula
