import Fabula.Flag.FlagSet

namespace Fabula.FlagSet

/-!
# The order of sets of flags

Sets are compared by their least and their greatest values.  A set that has flags has
both, and the least is at most the greatest; a set without flags has neither.  So the four
comparisons fit together as soon as one of two sets has a flag.  For two sets without
flags they do not: each is below the other, but neither is above the other or at most as
great.
-/

/-- Folding with a choice between two elements ends at a bound of all of them. -/
theorem foldl_bounds
    {α : Type}
    (Bounds : α → α → Prop)
    (refl : ∀ item, Bounds item item)
    (trans : ∀ {first second third}, Bounds first second → Bounds second third →
      Bounds first third)
    {pick : Option α → α → Option α}
    (picks :
      ∀ best item,
        ∃ chosen,
          pick best item = some chosen ∧
            Bounds chosen item ∧ ∀ kept, best = some kept → Bounds chosen kept)
    {items : List α}
    {best : Option α}
    {item : α}
    (given : item ∈ items ∨ best = some item) :
    ∃ chosen, items.foldl pick best = some chosen ∧ Bounds chosen item := by
  induction items generalizing best item with
  | nil =>
      rcases given with absent | rfl
      · cases absent
      · exact ⟨item, rfl, refl item⟩
  | cons first rest inductionHypothesis =>
      obtain ⟨chosen, picked, bounds, better⟩ := picks best first
      rw [List.foldl_cons, picked]
      have through
          (bound : Bounds chosen item) :
          ∃ last, rest.foldl pick (some chosen) = some last ∧ Bounds last item := by
        obtain ⟨last, ended, below⟩ :=
          @inductionHypothesis (some chosen) chosen (.inr rfl)
        exact ⟨last, ended, trans below bound⟩
      rcases given with member | held
      · rcases List.mem_cons.mp member with rfl | inRest
        · exact through bounds
        · exact inductionHypothesis (.inl inRest)
      · exact through (better item held)

/-- No flag has a value below the least. -/
theorem exists_minValue?_le
    (set : FlagSet)
    {item : FlagId}
    (member : item ∈ set.items) :
    ∃ least, set.minValue? = some least ∧ least ≤ set.valueOf item := by
  have bound :
      ∃ chosen, set.minItem? = some chosen ∧ set.valueOf chosen ≤ set.valueOf item := by
    refine
      foldl_bounds (fun a b => set.valueOf a ≤ set.valueOf b)
        (fun _ => Int32.le_refl _) Int32.le_trans (fun best item => ?_)
        (.inl (SortedSet.mem_toList.mpr member))
    cases best with
    | none =>
        exact ⟨item, rfl, Int32.le_refl _, fun _ absent => nomatch absent⟩
    | some least =>
        by_cases less : set.valueOf item < set.valueOf least
        · refine ⟨item, if_pos less, Int32.le_refl _, ?_⟩
          rintro _ ⟨⟩
          exact Int32.le_of_lt less
        · refine ⟨least, if_neg less, Int32.not_lt.mp less, ?_⟩
          rintro _ ⟨⟩
          exact Int32.le_refl _
  obtain ⟨chosen, isLeast, below⟩ := bound
  exact ⟨set.valueOf chosen, by rw [minValue?, isLeast, Option.map_some], below⟩

/-- No flag has a value above the greatest. -/
theorem exists_le_maxValue?
    (set : FlagSet)
    {item : FlagId}
    (member : item ∈ set.items) :
    ∃ greatest, set.maxValue? = some greatest ∧ set.valueOf item ≤ greatest := by
  have bound :
      ∃ chosen, set.maxItem? = some chosen ∧ set.valueOf item ≤ set.valueOf chosen := by
    refine
      foldl_bounds (fun a b => set.valueOf b ≤ set.valueOf a)
        (fun _ => Int32.le_refl _) (fun first second => Int32.le_trans second first)
        (fun best item => ?_) (.inl (SortedSet.mem_toList.mpr member))
    cases best with
    | none =>
        exact ⟨item, rfl, Int32.le_refl _, fun _ absent => nomatch absent⟩
    | some greatest =>
        by_cases less : set.valueOf item < set.valueOf greatest
        · refine ⟨greatest, if_pos less, Int32.le_of_lt less, ?_⟩
          rintro _ ⟨⟩
          exact Int32.le_refl _
        · refine ⟨item, if_neg less, Int32.le_refl _, ?_⟩
          rintro _ ⟨⟩
          exact Int32.not_lt.mp less
  obtain ⟨chosen, isGreatest, above⟩ := bound
  exact ⟨set.valueOf chosen, by rw [maxValue?, isGreatest, Option.map_some], above⟩

/-- What the least and the greatest value of a set can be. -/
inductive Extremes : Bool → Option Int32 → Option Int32 → Prop where
  /-- A set without flags has neither. -/
  | absent : Extremes true none none
  | present
      {least greatest : Int32}
      (ordered : least ≤ greatest) :
      Extremes false (some least) (some greatest)

theorem extremes (set : FlagSet) :
    Extremes set.isEmpty set.minValue? set.maxValue? := by
  obtain ⟨defs, ⟨items, ascending⟩, origins⟩ := set
  cases items with
  | nil =>
      exact .absent
  | cons first rest =>
      have member :
          first ∈ (⟨first :: rest, ascending⟩ : SortedSet FlagId) :=
        @List.mem_cons_self _ first rest
      obtain ⟨least, isLeast, below⟩ :=
        exists_minValue?_le ⟨defs, ⟨first :: rest, ascending⟩, origins⟩ member
      obtain ⟨greatest, isGreatest, above⟩ :=
        exists_le_maxValue? ⟨defs, ⟨first :: rest, ascending⟩, origins⟩ member
      rw [isLeast, isGreatest]
      exact .present (Int32.le_trans below above)

/--
The comparisons of sets fit together, except for two sets without flags.  To be at most as
great is always the converse of being at least as great.  To be below is the converse of
being above, and implies being at most as great, exactly if one of the sets has a flag;
and a set is not below itself exactly if it has a flag.
-/
theorem comparisons_coherent_iff
    (left right : FlagSet) :
    left.lessOrEqual right = right.greaterOrEqual left ∧
      (left.lessThan right = right.greaterThan left ↔
        (left.isEmpty && right.isEmpty) = false) ∧
      ((left.lessThan right = true → left.lessOrEqual right = true) ↔
        (left.isEmpty && right.isEmpty) = false) ∧
      (left.lessThan left = false ↔ left.isEmpty = false) := by
  have leftExtremes := left.extremes
  have rightExtremes := right.extremes
  simp only [lessThan, greaterThan, lessOrEqual, greaterOrEqual]
  generalize left.isEmpty = leftEmpty, left.minValue? = leftLeast,
    left.maxValue? = leftGreatest at leftExtremes
  generalize right.isEmpty = rightEmpty, right.minValue? = rightLeast,
    right.maxValue? = rightGreatest at rightExtremes
  cases leftExtremes with
  | absent =>
      cases rightExtremes <;> simp
  | present leftOrdered =>
      cases rightExtremes with
      | absent =>
          simp [Int32.not_lt.mpr leftOrdered]
      | present rightOrdered =>
          refine ⟨Bool.and_comm _ _, by simp, ?_, by simp [Int32.not_lt.mpr leftOrdered]⟩
          simp only [decide_eq_true_eq, Bool.and_eq_true, Bool.and_false, iff_true]
          intro apart
          exact
            ⟨Int32.le_of_lt (Int32.lt_of_lt_of_le apart rightOrdered),
              Int32.le_of_lt (Int32.lt_of_le_of_lt leftOrdered apart)⟩

/-- A set without flags is below itself, but not above itself or at most as great. -/
example (defs : Definitions) :
    (empty defs).lessThan (empty defs) = true ∧
      (empty defs).greaterThan (empty defs) = false ∧
      (empty defs).lessOrEqual (empty defs) = false :=
  ⟨rfl, rfl, rfl⟩

end Fabula.FlagSet
