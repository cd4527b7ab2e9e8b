namespace Fabula

/-!
# Sorted sets

A finite set of ranked elements is kept as its elements in strictly ascending
rank, so two sets with the same members are equal.  Each operation comes with
the lemma that says which elements it leaves in the set.
-/

/-- Elements that are told apart and ordered by a natural number. -/
class Ranked (α : Type) where
  rank : α → Nat
  rank_injective : ∀ {a b : α}, rank a = rank b → a = b

export Ranked (rank)

/-- A finite set with its elements in strictly ascending rank. -/
@[ext]
structure SortedSet (α : Type) [Ranked α] where
  toList : List α
  ascending : toList.Pairwise (fun a b => rank a < rank b)
  deriving DecidableEq, Repr

namespace SortedSet

variable {α : Type} [Ranked α]

instance : Membership α (SortedSet α) where
  mem set a := a ∈ set.toList

/-- Membership is membership in the list of elements. -/
@[simp]
theorem mem_toList {set : SortedSet α} {a : α} : a ∈ set.toList ↔ a ∈ set :=
  Iff.rfl

def empty : SortedSet α :=
  ⟨[], List.Pairwise.nil⟩

def size (set : SortedSet α) : Nat :=
  set.toList.length

/-- Whether a set has no elements. -/
def isEmpty (set : SortedSet α) : Bool :=
  set.toList.isEmpty

/-- Whether an element is in a set. -/
def contains [BEq α] (set : SortedSet α) (a : α) : Bool :=
  set.toList.contains a

/-- Put an element at its place in an ascending list. -/
def insertInto (a : α) : List α → List α
  | [] => [a]
  | b :: rest =>
      if rank a < rank b then a :: b :: rest
      else if rank a = rank b then b :: rest
      else b :: insertInto a rest

/-- Inserting adds one element. -/
theorem mem_insertInto {a b : α} {list : List α} :
    b ∈ insertInto a list ↔ b = a ∨ b ∈ list := by
  induction list with
  | nil =>
      simp [insertInto]
  | cons c rest inductionHypothesis =>
      simp only [insertInto]
      split
      · simp
      · split
        · next same =>
            have equal := Ranked.rank_injective same
            subst equal
            simp
        · simp only [List.mem_cons, inductionHypothesis]
          constructor
          · rintro (h | h | h) <;> simp [h]
          · rintro (h | h | h) <;> simp [h]

/-- Inserting keeps a list ascending. -/
theorem pairwise_insertInto {a : α} {list : List α}
    (ascending : list.Pairwise (fun b c => rank b < rank c)) :
    (insertInto a list).Pairwise (fun b c => rank b < rank c) := by
  induction list with
  | nil =>
      simp [insertInto]
  | cons c rest inductionHypothesis =>
      have restAscending := (List.pairwise_cons.mp ascending).2
      have above := (List.pairwise_cons.mp ascending).1
      simp only [insertInto]
      split
      · next less =>
          refine List.pairwise_cons.mpr ⟨?_, ascending⟩
          intro b member
          rcases List.mem_cons.mp member with rfl | inRest
          · exact less
          · exact Nat.lt_trans less (above b inRest)
      · split
        · exact ascending
        · next notLess notSame =>
            refine List.pairwise_cons.mpr ⟨?_, inductionHypothesis restAscending⟩
            intro b member
            rcases mem_insertInto.mp member with rfl | inRest
            · omega
            · exact above b inRest

def insert (set : SortedSet α) (a : α) : SortedSet α :=
  ⟨insertInto a set.toList, pairwise_insertInto set.ascending⟩

/-- The elements that pass a test. -/
def filter (set : SortedSet α) (keep : α → Bool) : SortedSet α :=
  ⟨set.toList.filter keep, set.ascending.filter _⟩

def erase [DecidableEq α] (set : SortedSet α) (a : α) : SortedSet α :=
  set.filter (fun b => decide (b ≠ a))

/-- The set of the elements of a list. -/
def ofList (list : List α) : SortedSet α :=
  list.foldr (fun a set => set.insert a) empty

def union (left right : SortedSet α) : SortedSet α :=
  left.toList.foldr (fun a set => set.insert a) right

/-- The elements of the first set that are not in the second. -/
def difference [DecidableEq α] (left right : SortedSet α) : SortedSet α :=
  left.filter (fun a => !right.contains a)

def intersection [DecidableEq α] (left right : SortedSet α) : SortedSet α :=
  left.filter (fun a => right.contains a)

/-- Whether every element of the first set is in the second. -/
def isSubset [DecidableEq α] (left right : SortedSet α) : Bool :=
  left.toList.all (fun a => right.contains a)

/-- Nothing is in the empty set. -/
@[simp]
theorem not_mem_empty {a : α} : a ∉ (empty : SortedSet α) :=
  List.not_mem_nil

/-- A set contains exactly its members. -/
@[simp]
theorem contains_iff [DecidableEq α] {set : SortedSet α} {a : α} :
    set.contains a = true ↔ a ∈ set := by
  simp [contains]

/-- Adding an element adds that element. -/
@[simp]
theorem mem_insert {set : SortedSet α} {a b : α} :
    b ∈ set.insert a ↔ b = a ∨ b ∈ set :=
  mem_insertInto

/-- Filtering keeps the members that pass the test. -/
@[simp]
theorem mem_filter {set : SortedSet α} {keep : α → Bool} {a : α} :
    a ∈ set.filter keep ↔ a ∈ set ∧ keep a = true :=
  List.mem_filter

/-- Removing an element removes that element. -/
@[simp]
theorem mem_erase [DecidableEq α] {set : SortedSet α} {a b : α} :
    b ∈ set.erase a ↔ b ∈ set ∧ b ≠ a := by
  simp [erase]

/-- The set of a list has the members of the list. -/
@[simp]
theorem mem_ofList {list : List α} {a : α} : a ∈ ofList list ↔ a ∈ list := by
  induction list with
  | nil =>
      simp [ofList]
  | cons b rest inductionHypothesis =>
      have step : ofList (b :: rest) = (ofList rest).insert b := rfl
      simp [step, inductionHypothesis]

/-- A union has the members of both sets. -/
@[simp]
theorem mem_union {left right : SortedSet α} {a : α} :
    a ∈ left.union right ↔ a ∈ left ∨ a ∈ right := by
  have general : ∀ list : List α,
      a ∈ list.foldr (fun b set => set.insert b) right ↔ a ∈ list ∨ a ∈ right := by
    intro list
    induction list with
    | nil =>
        simp
    | cons b rest inductionHypothesis =>
        simp [inductionHypothesis, or_assoc]
  exact general left.toList

/-- A difference has the members of the first set that are not in the second. -/
@[simp]
theorem mem_difference [DecidableEq α] {left right : SortedSet α} {a : α} :
    a ∈ left.difference right ↔ a ∈ left ∧ a ∉ right := by
  rw [difference, mem_filter]
  cases test : right.contains a with
  | true =>
      simp [contains_iff.mp test]
  | false =>
      have notInRight : a ∉ right := fun member =>
        Bool.false_ne_true (test.symm.trans (contains_iff.mpr member))
      simp [notInRight]

/-- An intersection has the common members. -/
@[simp]
theorem mem_intersection [DecidableEq α] {left right : SortedSet α} {a : α} :
    a ∈ left.intersection right ↔ a ∈ left ∧ a ∈ right := by
  simp [intersection]

/-- The subset test compares members. -/
@[simp]
theorem isSubset_iff [DecidableEq α] {left right : SortedSet α} :
    left.isSubset right = true ↔ ∀ a, a ∈ left → a ∈ right := by
  simp [isSubset]

/-- Two sets with the same members are equal. -/
theorem eq_of_mem_iff {left right : SortedSet α}
    (sameMembers : ∀ a, a ∈ left ↔ a ∈ right) :
    left = right := by
  obtain ⟨leftList, leftAscending⟩ := left
  obtain ⟨rightList, rightAscending⟩ := right
  have same : ∀ a, a ∈ leftList ↔ a ∈ rightList := sameMembers
  congr
  clear sameMembers
  induction leftList generalizing rightList with
  | nil =>
      cases rightList with
      | nil => rfl
      | cons b rest => exact absurd ((same b).mpr List.mem_cons_self) List.not_mem_nil
  | cons a rest inductionHypothesis =>
      cases rightList with
      | nil => exact absurd ((same a).mp List.mem_cons_self) List.not_mem_nil
      | cons b others =>
          have aboveA := (List.pairwise_cons.mp leftAscending).1
          have aboveB := (List.pairwise_cons.mp rightAscending).1
          have firstEqual : a = b := by
            rcases List.mem_cons.mp ((same a).mp List.mem_cons_self) with equal | inOthers
            · exact equal
            · rcases List.mem_cons.mp ((same b).mpr List.mem_cons_self) with equal | inRest
              · exact equal.symm
              · have := aboveB a inOthers
                have := aboveA b inRest
                omega
          subst firstEqual
          refine congrArg (a :: ·) ?_
          refine inductionHypothesis (List.pairwise_cons.mp leftAscending).2
            others (List.pairwise_cons.mp rightAscending).2 ?_
          intro c
          constructor
          · intro member
            rcases List.mem_cons.mp ((same c).mp (List.mem_cons_of_mem _ member)) with equal | h
            · have := aboveA c member
              subst equal
              omega
            · exact h
          · intro member
            rcases List.mem_cons.mp ((same c).mpr (List.mem_cons_of_mem _ member)) with equal | h
            · have := aboveB c member
              subst equal
              omega
            · exact h

end SortedSet

end Fabula
