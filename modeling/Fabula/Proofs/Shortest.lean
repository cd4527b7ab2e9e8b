import Fabula.Proofs.Separation

namespace Fabula.Decimal

open Number

/-!
# Shortest decimals

The shortest decimal of a number lies where everything is rounded to that number, and near enough
to it that arithmetic of double precision does not leave that place.  The neighbours of a number
are equally far unless it is a power of two: then the one below is nearer.
-/

/-- A positive single-precision number. -/
structure IsSingle (x : Scaled) : Prop where
  positive : 0 < x.mantissa
  bounded : x.mantissa < 2 ^ 24
  least : -149 ≤ x.exponent
  greatest : x.exponent ≤ 104
  normal : 2 ^ 23 ≤ x.mantissa ∨ x.exponent = -149

/-- The exponent of the number before a number. -/
def exponentBelow (x : Scaled) : Int :=
  if x.mantissa = 0x800000 ∧ -149 < x.exponent then x.exponent - 1 else x.exponent

/-- What is rounded to a number: all between the numbers half way to its neighbours, and these two
if the mantissa is even. -/
def RoundsTo (x : Scaled) (amount : ℚ) : Prop :=
  (x.value - 2 ^ (exponentBelow x - 1) < amount ∧ amount < x.value + 2 ^ (x.exponent - 1)) ∨
    (x.value - 2 ^ (exponentBelow x - 1) ≤ amount ∧ amount ≤ x.value + 2 ^ (x.exponent - 1)) ∧
      x.mantissa % 2 = 0

namespace RoundsTo

variable {x : Scaled} {amount : ℚ}

theorem bounds
    (rounds : RoundsTo x amount) :
    x.value - 2 ^ (exponentBelow x - 1) ≤ amount ∧ amount ≤ x.value + 2 ^ (x.exponent - 1) :=
  rounds.elim (And.imp le_of_lt le_of_lt) And.left

theorem of_abs_lt
    (near : |amount - x.value| < 2 ^ (exponentBelow x - 1)) :
    RoundsTo x amount := by
  have shorter : (2 : ℚ) ^ (exponentBelow x - 1) ≤ 2 ^ (x.exponent - 1) := by
    refine zpow_le_zpow_right₀ (by norm_num) ?_
    rw [exponentBelow]
    split <;> omega
  obtain ⟨above, below⟩ := abs_lt.mp near
  exact .inl ⟨by linarith, by linarith⟩

end RoundsTo

theorem halfUnit_eq
    (exponent : Int) :
    (2 : ℚ) ^ (exponent - 1) = 1 / 2 * 2 ^ exponent := by
  rw [zpow_sub_one₀ (by norm_num)]
  ring

/-- Numbers are rounded to single precision as they should be. -/
theorem IsSingle.round
    {x : Scaled}
    (single : IsSingle x)
    {numerator denominator : Nat}
    (positive : 0 < denominator)
    (rounds : RoundsTo x (numerator / denominator)) :
    singlePrecision.round numerator denominator = some x := by
  obtain ⟨mantissa, exponent⟩ := x
  have unit : (0 : ℚ) < 2 ^ exponent := by positivity
  have scaled : (numerator : ℚ) / denominator =
      numerator / denominator / 2 ^ exponent * 2 ^ exponent :=
    (div_mul_cancel₀ _ unit.ne').symm
  rw [RoundsTo, scaled, halfUnit_eq exponent, Scaled.value] at rounds
  by_cases power : mantissa = 0x800000 ∧ -149 < exponent
  · have quarter : (2 : ℚ) ^ (exponentBelow ⟨mantissa, exponent⟩ - 1) = 1 / 4 * 2 ^ exponent := by
      rw [exponentBelow, if_pos power, halfUnit_eq, halfUnit_eq]
      ring
    obtain ⟨low, high⟩ := rounds.elim (And.imp le_of_lt le_of_lt) And.left
    rw [quarter, ← sub_mul, mul_le_mul_iff_left₀ unit] at low
    rw [← add_mul, mul_le_mul_iff_left₀ unit] at high
    obtain ⟨rfl, inside⟩ := power
    refine Precision.round_eq_some_power positive (by decide) inside single.greatest ?_ ?_
    · exact le_trans (by norm_num [singlePrecision]) low
    · exact high.trans (by norm_num [singlePrecision])
  · rw [exponentBelow, if_neg power, halfUnit_eq exponent, ← sub_mul, ← add_mul,
      mul_le_mul_iff_left₀ unit, mul_le_mul_iff_left₀ unit, mul_lt_mul_iff_left₀ unit,
      mul_lt_mul_iff_left₀ unit] at rounds
    have normal := single.normal
    have least := single.least
    refine Precision.round_eq_some positive single.positive.ne' single.bounded single.greatest ?_ ?_
    · change -149 ≤ exponent ∧ 2 ^ 23 < mantissa ∨ exponent = -149
      simp only at normal least
      omega
    · refine rounds.imp (fun strict => abs_lt.mpr ?_) (And.imp_left fun closed => abs_le.mpr ?_)
      · constructor <;> linarith
      · constructor <;> linarith

/-! ## The interval around a number -/

theorem Interval.holds_iff
    (bounds : Interval)
    (exponent : Int)
    (amount : Nat)
    (ten : Int) :
    bounds.holds exponent amount ten = true ↔
      if bounds.closed then
        (bounds.low * 2 ^ (exponent - 2) : ℚ) ≤ amount * 10 ^ ten ∧
          (amount * 10 ^ ten : ℚ) ≤ bounds.high * 2 ^ (exponent - 2)
      else
        (bounds.low * 2 ^ (exponent - 2) : ℚ) < amount * 10 ^ ten ∧
          (amount * 10 ^ ten : ℚ) < bounds.high * 2 ^ (exponent - 2) := by
  have unit : ((scaleDown 1 1 (-(exponent - 2))).1 : ℚ) / (scaleDown 1 1 (-(exponent - 2))).2 =
      2 ^ (exponent - 2) := by
    rw [scaleDown_value, zpow_neg]
    simp
  have unitPositive := scaleDown_pos 1 Nat.one_pos (-(exponent - 2))
  have scaled := timesTen_value ten (amount, 1)
  have scaledPositive := timesTen_pos ten (amount, 1) Nat.one_pos
  simp only [Nat.cast_one, div_one] at scaled
  simp only [Interval.holds, ← scaled, ← unit]
  generalize scaleDown 1 1 (-(exponent - 2)) = u at *
  generalize timesTen ten (amount, 1) = s at *
  have first : (0 : ℚ) < u.2 := by exact_mod_cast unitPositive
  have second : (0 : ℚ) < s.2 := by exact_mod_cast scaledPositive
  split
  · rw [Bool.and_eq_true, decide_eq_true_eq, decide_eq_true_eq, ← mul_div_assoc, ← mul_div_assoc,
      div_le_div_iff₀ first second, div_le_div_iff₀ second first]
    norm_cast
  · rw [Bool.and_eq_true, decide_eq_true_eq, decide_eq_true_eq, ← mul_div_assoc, ← mul_div_assoc,
      div_lt_div_iff₀ first second, div_lt_div_iff₀ second first]
    norm_cast

theorem IsSingle.holds_iff
    {x : Scaled}
    (single : IsSingle x)
    (amount : Nat)
    (ten : Int) :
    (interval x).holds x.exponent amount ten = true ↔ RoundsTo x (amount * 10 ^ ten) := by
  have positive := single.positive
  have quarters : x.value = 4 * x.mantissa * 2 ^ (x.exponent - 2) := by
    rw [Scaled.value, zpow_sub₀ (by norm_num)]
    ring
  have unit : (2 : ℚ) ^ (x.exponent - 1) = 2 * 2 ^ (x.exponent - 2) := by
    rw [zpow_sub₀ (by norm_num), zpow_sub₀ (by norm_num)]
    ring
  have low : ((interval x).low : ℚ) * 2 ^ (x.exponent - 2) =
      x.value - 2 ^ (exponentBelow x - 1) := by
    rw [interval, exponentBelow, quarters]
    split
    · rw [Nat.cast_sub (by omega), sub_sub]
      push_cast
      ring
    · rw [unit, Nat.cast_sub (by omega)]
      push_cast
      ring
  have high : ((interval x).high : ℚ) * 2 ^ (x.exponent - 2) = x.value + 2 ^ (x.exponent - 1) := by
    rw [quarters, unit, interval]
    push_cast
    ring
  have even : (interval x).closed = true ↔ x.mantissa % 2 = 0 := beq_iff_eq
  rw [Interval.holds_iff, low, high, RoundsTo]
  split
  · next closed =>
      have even := even.mp closed
      constructor
      · exact fun inside => .inr ⟨inside, even⟩
      · exact fun rounds => rounds.elim (And.imp le_of_lt le_of_lt) And.left
  · next notClosed =>
      constructor
      · exact .inl
      · exact fun rounds => rounds.elim id fun inside => absurd (even.mpr inside.2) notClosed

/-! ## The nearest multiple of a power of ten -/

/-- What is known of the decimal that stands for a number. -/
structure Represents (x : Scaled) (amount : Nat) (ten : Int) : Prop where
  rounds : RoundsTo x (amount * 10 ^ ten)
  /-- It is the nearest multiple, or the next multiple on the other side is too far away. -/
  nearest :
    2 * |amount * 10 ^ ten - x.value| ≤ 10 ^ ten ∨
      |amount * 10 ^ ten - x.value| ≤ 10 ^ ten - 2 ^ (exponentBelow x - 1)

section Nearest

variable (ten : Int)

/-- The multiple of a power of ten below a number, and how far away it and the next one are. -/
theorem exists_part
    (x : Scaled) :
    let scaled := timesTen (-ten) x.quotient
    let below := scaled.1 / scaled.2
    ∃ part : ℚ,
      part * scaled.2 = (scaled.1 % scaled.2 : Nat) ∧
      0 ≤ part ∧ part < 1 ∧
      |(below : ℚ) * 10 ^ ten - x.value| = part * 10 ^ ten ∧
      |((below + 1 : Nat) : ℚ) * 10 ^ ten - x.value| = (1 - part) * 10 ^ ten := by
  intro scaled below
  have positive : 0 < scaled.2 := timesTen_pos _ _ x.quotient_pos
  have scale : (0 : ℚ) < scaled.2 := by exact_mod_cast positive
  have power : (0 : ℚ) < 10 ^ ten := by positivity
  let part : ℚ := (scaled.1 % scaled.2 : Nat) / scaled.2
  have partIs : part * scaled.2 = (scaled.1 % scaled.2 : Nat) := div_mul_cancel₀ _ scale.ne'
  have nonneg : 0 ≤ part := by positivity
  have proper : part < 1 := by
    rw [div_lt_one scale]
    exact_mod_cast Nat.mod_lt scaled.1 positive
  have value : x.value = (below + part) * 10 ^ ten := by
    have quotient : (scaled.1 : ℚ) / scaled.2 = x.value * 10 ^ (-ten) := by
      rw [timesTen_value, x.quotient_value]
    have split : (scaled.1 : ℚ) = below * scaled.2 + (scaled.1 % scaled.2 : Nat) := by
      exact_mod_cast (Nat.div_add_mod' scaled.1 scaled.2).symm
    rw [zpow_neg, ← div_eq_mul_inv, eq_div_iff power.ne'] at quotient
    rw [← quotient]
    congr 1
    rw [div_eq_iff scale.ne', add_mul, partIs]
    exact split
  refine ⟨part, partIs, nonneg, proper, ?_, ?_⟩
  · rw [value, abs_sub_comm, ← sub_mul, add_sub_cancel_left, abs_of_nonneg (by positivity)]
  · rw [value, ← sub_mul, abs_of_nonneg]
    · push_cast
      ring
    · refine mul_nonneg ?_ power.le
      push_cast
      linarith

theorem nearest?_eq_some
    {x : Scaled}
    (single : IsSingle x)
    {tie : Tie}
    {amount : Nat}
    (found : nearest? tie x ten = some amount) :
    Represents x amount ten := by
  obtain ⟨part, partIs, nonneg, proper, lowerGap, upperGap⟩ := exists_part ten x
  have positive : 0 < (timesTen (-ten) x.quotient).2 := timesTen_pos _ _ x.quotient_pos
  simp only [nearest?] at found
  generalize timesTen (-ten) x.quotient = scaled at *
  have scale : (0 : ℚ) < scaled.2 := by exact_mod_cast positive
  have power : (0 : ℚ) < 10 ^ ten := by positivity
  have outside {other : Nat} (refused : (interval x).holds x.exponent other ten ≠ true) :
      (2 : ℚ) ^ (exponentBelow x - 1) ≤ |(other : ℚ) * 10 ^ ten - x.value| :=
    not_lt.mp fun near => refused ((single.holds_iff other ten).mpr (.of_abs_lt near))
  split at found
  · next both =>
      rw [Bool.and_eq_true] at both
      obtain rfl := Option.some.inj found
      split
      · next up =>
          refine ⟨(single.holds_iff _ ten).mp both.2, .inl ?_⟩
          have half : (scaled.2 : ℚ) ≤ 2 * (scaled.1 % scaled.2 : Nat) := by
            simp only [Bool.or_eq_true, Bool.and_eq_true, decide_eq_true_eq, beq_iff_eq] at up
            exact_mod_cast up.elim le_of_lt fun same => same.1.ge
          rw [← partIs, ← mul_assoc] at half
          have most : 1 ≤ 2 * part := le_of_mul_le_mul_right (by linarith) scale
          rw [upperGap, ← mul_assoc]
          exact mul_le_of_le_one_left power.le (by linarith)
      · next down =>
          refine ⟨(single.holds_iff _ ten).mp both.1, .inl ?_⟩
          have half : 2 * ((scaled.1 % scaled.2 : Nat) : ℚ) ≤ scaled.2 := by
            simp only [Bool.or_eq_true, Bool.and_eq_true, decide_eq_true_eq, beq_iff_eq] at down
            exact_mod_cast not_lt.mp fun more => down (.inl more)
          rw [← partIs, ← mul_assoc] at half
          have most : 2 * part ≤ 1 := le_of_mul_le_mul_right (by linarith) scale
          rw [lowerGap, ← mul_assoc]
          exact mul_le_of_le_one_left power.le most
  · next notBoth =>
      split at found
      · next lower =>
          obtain rfl := Option.some.inj found
          refine ⟨(single.holds_iff _ ten).mp lower, .inr ?_⟩
          have far := outside fun upper => notBoth (by rw [lower, upper]; rfl)
          rw [upperGap] at far
          rw [lowerGap]
          linarith
      · next notLower =>
          split at found
          · next upper =>
              obtain rfl := Option.some.inj found
              refine ⟨(single.holds_iff _ ten).mp upper, .inr ?_⟩
              have far := outside notLower
              rw [lowerGap] at far
              rw [upperGap]
              linarith
          · cases found

/-- A power of ten that is at most half a unit gives a decimal. -/
theorem nearest?_isSome
    {x : Scaled}
    (single : IsSingle x)
    (tie : Tie)
    (fine : (10 : ℚ) ^ ten ≤ 2 ^ (exponentBelow x - 1)) :
    (nearest? tie x ten).isSome = true := by
  obtain ⟨part, -, nonneg, proper, lowerGap, -⟩ := exists_part ten x
  have power : (0 : ℚ) < 10 ^ ten := by positivity
  have lower := (single.holds_iff _ ten).mpr (.of_abs_lt (by
    rw [lowerGap]
    exact (mul_lt_of_lt_one_left power proper).trans_le fine))
  simp only [nearest?, lower, Bool.true_and, if_true]
  split <;> rfl

end Nearest

/-- A decimal is less than its last unit away from the number it stands for. -/
theorem Represents.close
    {x : Scaled}
    {amount : Nat}
    {ten : Int}
    (represents : Represents x amount ten) :
    |amount * 10 ^ ten - x.value| < 10 ^ ten := by
  have power : (0 : ℚ) < 10 ^ ten := by positivity
  have unit : (0 : ℚ) < 2 ^ (exponentBelow x - 1) := by positivity
  rcases represents.nearest with half | rest <;> linarith

/-! ## The search for a power of ten -/

/-- The greatest power of ten below a quotient is found from a guess above it. -/
theorem floorLogTen_bounds
    {quotient : Nat × Nat}
    (positive : 0 < quotient.2)
    (fuel : Nat)
    (guess : Int)
    (below : (10 : ℚ) ^ (guess - fuel) ≤ quotient.1 / quotient.2)
    (above : (quotient.1 : ℚ) / quotient.2 < 10 ^ (guess + 1)) :
    (10 : ℚ) ^ floorLogTen quotient fuel guess ≤ quotient.1 / quotient.2 ∧
      (quotient.1 : ℚ) / quotient.2 < 10 ^ (floorLogTen quotient fuel guess + 1) := by
  induction fuel generalizing guess with
  | zero =>
      simp only [Nat.cast_zero, sub_zero] at below
      exact ⟨below, above⟩
  | succ fuel inductionHypothesis =>
      have divisor : (0 : ℚ) < (timesTen (-guess) quotient).2 := by
        exact_mod_cast timesTen_pos _ _ positive
      have compared : (timesTen (-guess) quotient).2 ≤ (timesTen (-guess) quotient).1 ↔
          (10 : ℚ) ^ guess ≤ quotient.1 / quotient.2 := by
        rw [← Nat.cast_le (α := ℚ), ← one_le_div divisor, timesTen_value, zpow_neg,
          ← div_eq_mul_inv, one_le_div (by positivity)]
      simp only [floorLogTen]
      split
      · next enough =>
          exact ⟨compared.mp enough, above⟩
      · next short =>
          refine inductionHypothesis (guess - 1) ?_ ?_
          · rwa [sub_sub, add_comm (1 : Int), ← Nat.cast_add_one]
          · rw [sub_add_cancel]
            exact not_le.mp fun enough => short (compared.mpr enough)

/-- The search ends at a power of ten that gives a decimal, if it is not too far away. -/
theorem search_eq
    (tie : Tie)
    (x : Scaled)
    (fuel : Nat)
    {start goal : Int}
    (ordered : goal ≤ start)
    (reached : start < goal + fuel)
    (found : (nearest? tie x goal).isSome = true) :
    ∃ ten amount,
      goal ≤ ten ∧ ten ≤ start ∧
      nearest? tie x ten = some amount ∧
      search tie x fuel start =
        ⟨dropZeros (digitsOf amount), ten + (digitsOf amount).length - 1⟩ := by
  induction fuel generalizing start with
  | zero => omega
  | succ fuel inductionHypothesis =>
      cases here : nearest? tie x start with
      | some amount =>
          exact ⟨start, amount, ordered, le_refl start, here, by simp only [search, here]⟩
      | none =>
          have apart : goal ≠ start := by
            rintro rfl
            rw [here] at found
            cases found
          obtain ⟨ten, amount, low, high, hit, same⟩ :=
            inductionHypothesis (show goal ≤ start - 1 by omega) (by omega)
          exact ⟨ten, amount, low, by omega, hit, by simp only [search, here, same]⟩

namespace IsSingle

variable {x : Scaled} (single : IsSingle x)

include single

theorem value_le :
    x.value ≤ 2 ^ 25 * 2 ^ (exponentBelow x - 1) := by
  have unit : (0 : ℚ) < 2 ^ x.exponent := by positivity
  rw [Scaled.value, exponentBelow]
  split
  · next power =>
      rw [power.1, halfUnit_eq, halfUnit_eq]
      push_cast
      linarith
  · have bounded : (x.mantissa : ℚ) ≤ 2 ^ 24 := by exact_mod_cast single.bounded.le
    rw [halfUnit_eq]
    linarith [mul_le_mul_of_nonneg_right bounded unit.le]

theorem exponentBelow_bounds :
    -149 ≤ exponentBelow x ∧ exponentBelow x ≤ 104 := by
  have least := single.least
  have greatest := single.greatest
  rw [exponentBelow]
  split <;> omega

/-- What the shortest decimal of a number is. -/
theorem shortest_eq
    (tie : Tie) :
    ∃ amount ten,
      -53 ≤ ten ∧ ten ≤ 38 ∧
      0 < amount ∧ amount ≤ 10 ^ 9 ∧
      Represents x amount ten ∧
      shortest tie x = ⟨dropZeros (digitsOf amount), ten + (digitsOf amount).length - 1⟩ := by
  have one : (1 : ℚ) ≤ x.mantissa := by exact_mod_cast single.positive
  have least : (10 : ℚ) ^ (-45 : Int) ≤ x.value := by
    calc (10 : ℚ) ^ (-45 : Int) ≤ 2 ^ (-149 : Int) := by norm_num
      _ ≤ 2 ^ x.exponent := zpow_le_zpow_right₀ (by norm_num) single.least
      _ ≤ x.mantissa * 2 ^ x.exponent := le_mul_of_one_le_left (by positivity) one
  have greatest : x.value < (10 : ℚ) ^ (39 : Int) := by
    calc x.value ≤ 2 ^ 25 * 2 ^ (exponentBelow x - 1) := single.value_le
      _ ≤ 2 ^ 25 * 2 ^ (103 : Int) := by
          gcongr
          · norm_num
          · have := single.exponentBelow_bounds
            omega
      _ < 10 ^ (39 : Int) := by norm_num
  have bounds := floorLogTen_bounds x.quotient_pos 90 40
  rw [x.quotient_value] at bounds
  obtain ⟨below, above⟩ :=
    bounds (le_trans (by norm_num) least) (greatest.trans_le (by norm_num))
  rw [shortest]
  generalize floorLogTen x.quotient 90 40 = magnitude at *
  have base : (1 : ℚ) < 10 := by norm_num
  have low := (zpow_lt_zpow_iff_right₀ base).mp (least.trans_lt above)
  have high := (zpow_lt_zpow_iff_right₀ base).mp (below.trans_lt greatest)
  have fine : (10 : ℚ) ^ (magnitude - 8) ≤ 2 ^ (exponentBelow x - 1) := by
    have eighth : (10 : ℚ) ^ (magnitude - 8) = 10 ^ magnitude / 10 ^ 8 := by
      rw [zpow_sub₀ (by norm_num)]
      norm_cast
    have unit : (0 : ℚ) < 2 ^ (exponentBelow x - 1) := by positivity
    rw [eighth, div_le_iff₀ (by norm_num)]
    linarith [single.value_le]
  obtain ⟨ten, amount, lowest, highest, found, same⟩ :=
    search_eq tie x 16 (show magnitude - 8 ≤ magnitude by omega) (by omega)
      (nearest?_isSome _ single tie fine)
  have represents := nearest?_eq_some ten single found
  have close := abs_lt.mp represents.close
  have power : (0 : ℚ) < 10 ^ ten := by positivity
  refine ⟨amount, ten, by omega, by omega, ?_, ?_, represents, same⟩
  · have reached : (10 : ℚ) ^ ten ≤ x.value :=
      (zpow_le_zpow_right₀ base.le highest).trans below
    have some : (0 : ℚ) < amount * 10 ^ ten := by linarith
    exact_mod_cast (pos_iff_pos_of_mul_pos some).mpr power
  · have few : (10 : ℚ) ^ (magnitude + 1) ≤ 10 ^ 9 * 10 ^ ten := by
      rw [← zpow_natCast, ← zpow_add₀ (by norm_num)]
      exact zpow_le_zpow_right₀ base.le (by push_cast; omega)
    have less : (amount : ℚ) * 10 ^ ten < (10 ^ 9 + 1) * 10 ^ ten := by linarith
    have : (amount : ℚ) < 10 ^ 9 + 1 := lt_of_mul_lt_mul_right less power.le
    exact Nat.le_of_lt_succ (by exact_mod_cast this)

end IsSingle

/-! ## Staying where numbers are rounded to -/

/-- The boundary of the two numbers that the one fraction that is too near belongs to. -/
def OnNarrowBoundary (x : Scaled) : Prop :=
  x.exponent = binaryExponent narrowTen ∧
    (2 * x.mantissa + 1 = nearFraction.2 ∨ 2 * x.mantissa = nearFraction.2 + 1)

/-- The numbers half way to the neighbours of a number, in units of the one below it. -/
theorem IsSingle.exists_boundaries
    {x : Scaled}
    (single : IsSingle x) :
    ∃ lower upper : Nat,
      0 < lower ∧ lower < upper ∧ upper < boundaryLimit ∧
      lower * 2 ^ (exponentBelow x - 1) = x.value - 2 ^ (exponentBelow x - 1) ∧
      upper * 2 ^ (exponentBelow x - 1) = x.value + 2 ^ (x.exponent - 1) ∧
      (exponentBelow x = binaryExponent narrowTen →
        lower = nearFraction.2 ∨ upper = nearFraction.2 → OnNarrowBoundary x) := by
  have positive := single.positive
  have bounded := single.bounded
  by_cases power : x.mantissa = 0x800000 ∧ -149 < x.exponent
  · refine ⟨4 * x.mantissa - 1, 4 * x.mantissa + 2, by omega, by omega, ?_, ?_, ?_, ?_⟩
    · rw [power.1, boundaryLimit]
      decide
    · rw [exponentBelow, if_pos power, Scaled.value, halfUnit_eq, halfUnit_eq,
        Nat.cast_sub (by omega)]
      push_cast
      ring
    · rw [exponentBelow, if_pos power, Scaled.value, halfUnit_eq, halfUnit_eq]
      push_cast
      ring
    · rw [power.1, nearFraction]
      rintro - (clash | clash) <;> omega
  · rw [exponentBelow, if_neg power]
    refine ⟨2 * x.mantissa - 1, 2 * x.mantissa + 1, by omega, by omega, ?_, ?_, ?_, ?_⟩
    · rw [boundaryLimit]
      omega
    · rw [Scaled.value, halfUnit_eq, Nat.cast_sub (by omega)]
      push_cast
      ring
    · rw [Scaled.value, halfUnit_eq]
      push_cast
      ring
    · exact fun same clash => ⟨same, by omega⟩

theorem Clear.lt_of_lt
    {amount boundary other : ℚ}
    (clear : Clear amount boundary)
    (nonneg : 0 ≤ amount)
    (less : amount ≤ boundary)
    (near : |other - amount| * errorUnit ≤ 9 * amount) :
    other < boundary := by
  have unit : (9 : ℚ) < errorUnit := by norm_num [errorUnit]
  rcases clear with below | above
  · have step :=
      (mul_le_mul_of_nonneg_right (le_abs_self (other - amount)) (by linarith)).trans near
    refine lt_of_mul_lt_mul_right (a := (errorUnit : ℚ)) ?_ (by linarith)
    linarith
  · have := mul_le_mul_of_nonneg_right less (show (0 : ℚ) ≤ errorUnit by linarith)
    linarith

theorem Clear.lt_of_gt
    {amount boundary other : ℚ}
    (clear : Clear amount boundary)
    (nonneg : 0 ≤ amount)
    (more : boundary ≤ amount)
    (near : |other - amount| * errorUnit ≤ 9 * amount) :
    boundary < other := by
  have unit : (9 : ℚ) < errorUnit := by norm_num [errorUnit]
  rcases clear with below | above
  · have := mul_le_mul_of_nonneg_right more (show (0 : ℚ) ≤ errorUnit by linarith)
    linarith
  · have positive : (0 : ℚ) ≤ errorUnit := by linarith
    have step := mul_le_mul_of_nonneg_right (neg_abs_le (other - amount)) positive
    refine lt_of_mul_lt_mul_right (a := (errorUnit : ℚ)) ?_ (by linarith)
    linarith

/--
What is off by at most nine parts from the decimal of a number is rounded to that number, if the
decimal itself is met whenever it is half way between two numbers.
-/
theorem Represents.rounds_of_near
    {x : Scaled}
    (single : IsSingle x)
    (wide : ¬ OnNarrowBoundary x)
    {amount : Nat}
    {ten : Int}
    (low : -53 ≤ ten)
    (high : ten ≤ 38)
    (represents : Represents x amount ten)
    {other : ℚ}
    (near : |other - amount * 10 ^ ten| * errorUnit ≤ 9 * (amount * 10 ^ ten))
    (met :
      ten.natAbs ≤ 12 →
      ∀ boundary < boundaryLimit,
        (amount * 10 ^ ten : ℚ) = boundary * 2 ^ (exponentBelow x - 1) →
        other = amount * 10 ^ ten) :
    RoundsTo x other := by
  have rounds := represents.rounds
  have inside := rounds.bounds
  have nonneg : (0 : ℚ) ≤ amount * 10 ^ ten := by positivity
  rcases le_or_gt (exponentBelow x) (binaryExponent ten) with coarse | fine
  · obtain ⟨lower, upper, positive, ordered, upperLimit, lowerIs, upperIs, clash⟩ :=
      single.exists_boundaries
    have lowerLimit := ordered.trans upperLimit
    rcases clear_boundary amount low high (positive.trans ordered) upperLimit coarse with
      clearUpper | ⟨hit, modest⟩ | ⟨same, boundary⟩
    · rcases clear_boundary amount low high positive lowerLimit coarse with
        clearLower | ⟨hit, modest⟩ | ⟨same, boundary⟩
      · rw [upperIs] at clearUpper
        rw [lowerIs] at clearLower
        exact .inl ⟨clearLower.lt_of_gt nonneg inside.1 near,
          clearUpper.lt_of_lt nonneg inside.2 near⟩
      · rw [met modest _ lowerLimit hit]
        exact rounds
      · exact absurd (clash same (.inl boundary)) wide
    · rw [met modest _ upperLimit hit]
      exact rounds
    · exact absurd (clash same (.inr boundary)) wide
  · have room := roomy low high
    have unit : (2 : ℚ) ^ binaryExponent ten ≤ 2 ^ (exponentBelow x - 1) :=
      zpow_le_zpow_right₀ (by norm_num) (by omega)
    have positive : (0 : ℚ) < 2 ^ (exponentBelow x - 1) := by positivity
    have central :
        |amount * 10 ^ ten - x.value| * 2 ^ 30 < (2 ^ 30 - 10) * 2 ^ (exponentBelow x - 1) := by
      rcases represents.nearest with half | rest <;> linarith
    have small : (amount * 10 ^ ten : ℚ) ≤ (2 ^ 25 + 1) * 2 ^ (exponentBelow x - 1) := by
      have := single.value_le
      have := le_abs_self (amount * 10 ^ ten - x.value)
      linarith
    have triangle := abs_sub_le other (amount * 10 ^ ten) x.value
    rw [errorUnit] at near
    push_cast at near
    exact .of_abs_lt (by linarith)

end Fabula.Decimal
