import Fabula.Number.Rounding
import Mathlib.Algebra.Order.Field.Power
import Mathlib.Data.Nat.Log
import Mathlib.Data.Rat.Floor
import Mathlib.Tactic.FieldSimp
import Mathlib.Tactic.Linarith
import Mathlib.Tactic.Positivity

namespace Fabula.Number

/-!
# Rounding to binary precision

What rounding a quotient gives, in terms of rational numbers: the result is off by at most half a
unit, a number of the precision stays what it is, and every number nearer than half a unit to a
number of the precision is rounded to that one.
-/

/-! ## Whole numbers -/

section RoundDiv

variable (numerator : Nat) {denominator : Nat} (positive : 0 < denominator)

include positive

/-- A rounded quotient is at most a half away, and even if it is a half away. -/
theorem roundDiv_bounds :
    2 * numerator ≤ 2 * (roundDiv numerator denominator * denominator) + denominator ∧
      2 * (roundDiv numerator denominator * denominator) ≤ 2 * numerator + denominator ∧
      (2 * numerator = 2 * (roundDiv numerator denominator * denominator) + denominator ∨
          2 * (roundDiv numerator denominator * denominator) = 2 * numerator + denominator →
        roundDiv numerator denominator % 2 = 0) := by
  have split : numerator / denominator * denominator + numerator % denominator = numerator :=
    Nat.div_add_mod' numerator denominator
  have below := Nat.mod_lt numerator positive
  have parity := Nat.mod_two_eq_zero_or_one (numerator / denominator)
  simp only [roundDiv]
  generalize numerator / denominator = quotient at *
  generalize numerator % denominator = remainder at *
  split_ifs
  · omega
  · rw [Nat.add_mul, Nat.one_mul]
    omega
  · rcases parity with even | odd
    · rw [even, Nat.add_zero]
      omega
    · rw [odd, Nat.add_mul, Nat.one_mul]
      omega

/-- A whole number within half of a quotient, in terms of natural numbers. -/
theorem abs_sub_le_half_iff
    (whole : Nat) :
    |(numerator : ℚ) / denominator - whole| ≤ 1 / 2 ↔
      2 * numerator ≤ 2 * (whole * denominator) + denominator ∧
        2 * (whole * denominator) ≤ 2 * numerator + denominator := by
  have scale : (0 : ℚ) < denominator := by exact_mod_cast positive
  rw [abs_le, le_sub_iff_add_le, le_div_iff₀ scale, sub_le_iff_le_add, div_le_iff₀ scale]
  rw [and_comm]
  refine and_congr ?_ ?_ <;> rw [← Nat.cast_le (α := ℚ)] <;> push_cast <;>
    constructor <;> intro bound <;> linarith

theorem abs_sub_lt_half_iff
    (whole : Nat) :
    |(numerator : ℚ) / denominator - whole| < 1 / 2 ↔
      2 * numerator < 2 * (whole * denominator) + denominator ∧
        2 * (whole * denominator) < 2 * numerator + denominator := by
  have scale : (0 : ℚ) < denominator := by exact_mod_cast positive
  rw [abs_lt, lt_sub_iff_add_lt, lt_div_iff₀ scale, sub_lt_iff_lt_add, div_lt_iff₀ scale]
  rw [and_comm]
  refine and_congr ?_ ?_ <;> rw [← Nat.cast_lt (α := ℚ)] <;> push_cast <;>
    constructor <;> intro bound <;> linarith

theorem abs_sub_roundDiv_le :
    |(numerator : ℚ) / denominator - roundDiv numerator denominator| ≤ 1 / 2 :=
  have bounds := roundDiv_bounds numerator positive
  (abs_sub_le_half_iff numerator positive _).mpr ⟨bounds.1, bounds.2.1⟩

/-- What is nearer than a half to a whole number is rounded to it, and so is a half to an even. -/
theorem roundDiv_eq
    {whole : Nat}
    (near :
      |(numerator : ℚ) / denominator - whole| < 1 / 2 ∨
        |(numerator : ℚ) / denominator - whole| ≤ 1 / 2 ∧ whole % 2 = 0) :
    roundDiv numerator denominator = whole := by
  rw [abs_sub_lt_half_iff numerator positive, abs_sub_le_half_iff numerator positive] at near
  have bounds := roundDiv_bounds numerator positive
  generalize roundDiv numerator denominator = rounded at *
  rcases Nat.lt_trichotomy rounded whole with less | same | more
  · obtain ⟨gap, rfl⟩ := Nat.exists_eq_add_of_lt less
    have apart : (rounded + gap + 1) * denominator =
        rounded * denominator + gap * denominator + denominator := by ring
    have wide : gap = 0 ∨ denominator ≤ gap * denominator := by
      rcases Nat.eq_zero_or_pos gap with none | some
      · exact .inl none
      · exact .inr (Nat.le_mul_of_pos_left denominator some)
    rw [apart] at near
    rcases wide with rfl | wide <;> omega
  · exact same
  · obtain ⟨gap, rfl⟩ := Nat.exists_eq_add_of_lt more
    have apart : (whole + gap + 1) * denominator =
        whole * denominator + gap * denominator + denominator := by ring
    have wide : gap = 0 ∨ denominator ≤ gap * denominator := by
      rcases Nat.eq_zero_or_pos gap with none | some
      · exact .inl none
      · exact .inr (Nat.le_mul_of_pos_left denominator some)
    rw [apart] at bounds
    rcases wide with rfl | wide <;> omega

end RoundDiv

/-! ## Powers of two -/

/-- The value of a scaled number. -/
def Scaled.value (x : Scaled) : ℚ :=
  x.mantissa * 2 ^ x.exponent

section Quotients

variable (numerator : Nat) {denominator : Nat} (positive : 0 < denominator) (power : Int)

include positive

theorem scaleDown_pos :
    0 < (scaleDown numerator denominator power).2 := by
  simp only [scaleDown]
  split
  · exact Nat.mul_pos positive (Nat.pow_pos (by decide))
  · exact positive

omit positive in
theorem scaleDown_value :
    ((scaleDown numerator denominator power).1 : ℚ) / (scaleDown numerator denominator power).2 =
      numerator / denominator / 2 ^ power := by
  simp only [scaleDown]
  split
  · next whole =>
      lift power to Nat using whole
      push_cast [Nat.pow_eq]
      rw [div_div, Int.toNat_natCast, zpow_natCast]
  · next negative =>
      obtain ⟨amount, rfl⟩ := Int.eq_negSucc_of_lt_zero (not_le.mp negative)
      rw [Int.neg_negSucc, zpow_negSucc, div_inv_eq_mul]
      push_cast [Nat.pow_eq]
      rw [mul_div_right_comm]
      rfl

/-- A positive quotient lies between two neighbouring powers of two. -/
theorem floorLog_bounds
    (nonzero : numerator ≠ 0) :
    (2 : ℚ) ^ floorLog numerator denominator ≤ numerator / denominator ∧
      (numerator : ℚ) / denominator < 2 ^ (floorLog numerator denominator + 1) := by
  have scale : (0 : ℚ) < denominator := by exact_mod_cast positive
  have numeratorLow : (2 : ℚ) ^ (numerator.log2 : Int) ≤ numerator := by
    rw [zpow_natCast]
    exact_mod_cast Nat.log2_self_le nonzero
  have numeratorHigh : (numerator : ℚ) < 2 ^ ((numerator.log2 : Int) + 1) := by
    exact_mod_cast Nat.lt_log2_self (n := numerator)
  have denominatorLow : (2 : ℚ) ^ (denominator.log2 : Int) ≤ denominator := by
    rw [zpow_natCast]
    exact_mod_cast Nat.log2_self_le positive.ne'
  have denominatorHigh : (denominator : ℚ) < 2 ^ ((denominator.log2 : Int) + 1) := by
    exact_mod_cast Nat.lt_log2_self (n := denominator)
  let guess : Int := (numerator.log2 : Int) - denominator.log2
  have high : (numerator : ℚ) / denominator < 2 ^ (guess + 1) := by
    rw [div_lt_iff₀ scale]
    calc (numerator : ℚ) < 2 ^ ((numerator.log2 : Int) + 1) := numeratorHigh
      _ = 2 ^ (guess + 1) * 2 ^ (denominator.log2 : Int) := by
          rw [← zpow_add₀ (by norm_num)]
          congr 1
          omega
      _ ≤ 2 ^ (guess + 1) * denominator := by gcongr
  have low : (2 : ℚ) ^ (guess - 1) ≤ numerator / denominator := by
    rw [le_div_iff₀ scale]
    calc (2 : ℚ) ^ (guess - 1) * denominator
        ≤ 2 ^ (guess - 1) * 2 ^ ((denominator.log2 : Int) + 1) := by gcongr
      _ = 2 ^ (numerator.log2 : Int) := by
          rw [← zpow_add₀ (by norm_num)]
          congr 1
          omega
      _ ≤ numerator := numeratorLow
  have compared :
      (scaleDown numerator denominator guess).1 < (scaleDown numerator denominator guess).2 ↔
        (numerator : ℚ) / denominator < 2 ^ guess := by
    have divisor : (0 : ℚ) < (scaleDown numerator denominator guess).2 := by
      exact_mod_cast scaleDown_pos numerator positive guess
    rw [← Nat.cast_lt (α := ℚ), ← div_lt_one divisor, scaleDown_value,
      div_lt_one (by positivity)]
  have shape : floorLog numerator denominator =
      if (scaleDown numerator denominator guess).1 < (scaleDown numerator denominator guess).2
      then guess - 1 else guess := rfl
  rw [shape]
  split
  · next less =>
      exact ⟨low, by rw [sub_add_cancel]; exact compared.mp less⟩
  · next more =>
      exact ⟨not_lt.mp fun less => more (compared.mpr less), high⟩

end Quotients

theorem Scaled.quotient_pos
    (x : Scaled) :
    0 < x.quotient.2 :=
  scaleDown_pos x.mantissa Nat.one_pos _

theorem Scaled.quotient_value
    (x : Scaled) :
    (x.quotient.1 : ℚ) / x.quotient.2 = x.value := by
  rw [quotient, scaleDown_value, value, zpow_neg, Nat.cast_one, div_one, div_inv_eq_mul]

/-! ## Numbers of a precision -/

namespace Precision

/-- The exponent that a quotient is rounded at. -/
def exponentFor (precision : Precision) (numerator denominator : Nat) : Int :=
  max precision.least (floorLog numerator denominator - ((precision.bits : Int) - 1))

/-- The mantissa that a quotient is rounded to. -/
def mantissaFor (precision : Precision) (numerator denominator : Nat) : Nat :=
  let scaled := scaleDown numerator denominator (precision.exponentFor numerator denominator)
  roundDiv scaled.1 scaled.2

theorem abs_sub_mantissaFor_le
    (precision : Precision)
    (numerator : Nat)
    {denominator : Nat}
    (positive : 0 < denominator) :
    |(numerator : ℚ) / denominator / 2 ^ precision.exponentFor numerator denominator -
      precision.mantissaFor numerator denominator| ≤ 1 / 2 := by
  have near :=
    abs_sub_roundDiv_le
      (scaleDown numerator denominator (precision.exponentFor numerator denominator)).1
      (scaleDown_pos numerator positive (precision.exponentFor numerator denominator))
  rwa [scaleDown_value] at near

variable {precision : Precision} {numerator denominator : Nat} (positive : 0 < denominator)

include positive

theorem mantissaFor_eq
    {whole : Nat}
    (near :
      |(numerator : ℚ) / denominator / 2 ^ precision.exponentFor numerator denominator - whole| <
          1 / 2 ∨
        |(numerator : ℚ) / denominator / 2 ^ precision.exponentFor numerator denominator - whole| ≤
            1 / 2 ∧
          whole % 2 = 0) :
    precision.mantissaFor numerator denominator = whole := by
  rw [← scaleDown_value] at near
  exact roundDiv_eq _ (scaleDown_pos numerator positive _) near

omit positive in
theorem round_eq
    (nonzero : numerator ≠ 0) :
    precision.round numerator denominator =
      let result : Scaled :=
        if precision.mantissaFor numerator denominator = 2 ^ precision.bits then
          ⟨2 ^ (precision.bits - 1), precision.exponentFor numerator denominator + 1⟩
        else
          ⟨precision.mantissaFor numerator denominator,
            precision.exponentFor numerator denominator⟩
      if precision.greatest < result.exponent then none else some result := by
  rw [round, if_neg nonzero]
  rfl

omit positive in
/-- A number that is not too great is rounded to a mantissa and an exponent. -/
theorem round_value
    (bits : 0 < precision.bits)
    (nonzero : numerator ≠ 0)
    (fits : precision.exponentFor numerator denominator < precision.greatest) :
    ∃ x,
      precision.round numerator denominator = some x ∧
      x.value =
        precision.mantissaFor numerator denominator *
          2 ^ precision.exponentFor numerator denominator := by
  rw [round_eq nonzero]
  split
  · next carried =>
      refine ⟨_, if_neg (not_lt.mpr (Int.add_one_le_of_lt fits)), ?_⟩
      obtain ⟨fewer, more⟩ := Nat.exists_eq_add_of_lt bits
      rw [Scaled.value, carried, more, zpow_add_one₀ (by norm_num)]
      push_cast
      rw [zero_add]
      ring
  · exact ⟨_, if_neg (by simpa using fits.le), rfl⟩

section Normal

variable
  (bits : 0 < precision.bits)
  (large : (2 : ℚ) ^ (precision.least + precision.bits - 1) ≤ numerator / denominator)
  (small : (numerator : ℚ) / denominator < 2 ^ (precision.greatest + precision.bits - 1))

include large

theorem exponentFor_eq
    (nonzero : numerator ≠ 0) :
    precision.exponentFor numerator denominator =
      floorLog numerator denominator - (precision.bits - 1) := by
  obtain ⟨-, above⟩ := floorLog_bounds numerator positive nonzero
  have high := (zpow_lt_zpow_iff_right₀ (by norm_num : (1 : ℚ) < 2)).mp (large.trans_lt above)
  rw [exponentFor]
  omega

omit positive in
theorem numerator_ne_zero :
    numerator ≠ 0 := by
  rintro rfl
  have : (0 : ℚ) < 2 ^ (precision.least + precision.bits - 1) := by positivity
  simp only [Nat.cast_zero, zero_div] at large
  linarith

include bits small

/-- A number in the range is rounded to one that is off by at most half a unit. -/
theorem round_near :
    ∃ x,
      precision.round numerator denominator = some x ∧
      |x.value - numerator / denominator| ≤ numerator / denominator / 2 ^ precision.bits ∧
      ∀ (mantissa : Nat) (exponent : Int),
        mantissa < 2 ^ precision.bits →
        precision.least ≤ exponent →
        (numerator : ℚ) / denominator = mantissa * 2 ^ exponent →
        x.value = numerator / denominator := by
  have nonzero := numerator_ne_zero large
  have exponentIs := exponentFor_eq positive large nonzero
  obtain ⟨below, above⟩ := floorLog_bounds numerator positive nonzero
  have low := (zpow_lt_zpow_iff_right₀ (by norm_num : (1 : ℚ) < 2)).mp (below.trans_lt small)
  obtain ⟨x, rounded, value⟩ := round_value bits nonzero (by rw [exponentIs]; omega)
  have unit : (0 : ℚ) < 2 ^ precision.exponentFor numerator denominator := by positivity
  refine ⟨x, rounded, ?_, fun mantissa exponent fits inside same => ?_⟩
  · have near := abs_sub_mantissaFor_le precision numerator positive
    calc |x.value - numerator / denominator|
        = 2 ^ precision.exponentFor numerator denominator *
            |(numerator : ℚ) / denominator / 2 ^ precision.exponentFor numerator denominator -
              precision.mantissaFor numerator denominator| := by
          rw [← abs_of_pos unit, ← abs_mul, abs_of_pos unit, abs_sub_comm, value]
          congr 1
          field_simp
      _ ≤ 2 ^ precision.exponentFor numerator denominator * (1 / 2) := by gcongr
      _ = 2 ^ floorLog numerator denominator / 2 ^ precision.bits := by
          rw [exponentIs, ← zpow_natCast, ← zpow_sub₀ (by norm_num),
            show floorLog numerator denominator - (precision.bits - 1 : Int) =
              floorLog numerator denominator - precision.bits + 1 by ring,
            zpow_add_one₀ (by norm_num)]
          ring
      _ ≤ numerator / denominator / 2 ^ precision.bits := by gcongr
  · rw [value]
    have least : precision.exponentFor numerator denominator ≤ exponent := by
      by_contra less
      have bounded : (numerator : ℚ) / denominator < 2 ^ ((precision.bits : Int) + exponent) := by
        rw [same, zpow_add₀ (by norm_num), zpow_natCast]
        gcongr
        exact_mod_cast fits
      have := (zpow_lt_zpow_iff_right₀ (by norm_num : (1 : ℚ) < 2)).mp (below.trans_lt bounded)
      omega
    obtain ⟨gap, split⟩ := Int.le.dest least
    have whole : (numerator : ℚ) / denominator /
        2 ^ precision.exponentFor numerator denominator = (mantissa * 2 ^ gap : Nat) := by
      rw [same, ← split, zpow_add₀ (by norm_num), zpow_natCast]
      push_cast
      field_simp
    rw [mantissaFor_eq positive (.inl (by rw [whole, sub_self, abs_zero]; norm_num)), ← whole]
    field_simp

end Normal

theorem exponentFor_of_bounds
    (nonzero : numerator ≠ 0)
    {fewer : Nat}
    (bits : precision.bits = fewer + 1)
    {exponent : Int}
    (inside : precision.least ≤ exponent)
    (above : (2 : ℚ) ^ fewer ≤ numerator / denominator / 2 ^ exponent ∨ exponent = precision.least)
    (below : (numerator : ℚ) / denominator / 2 ^ exponent < 2 ^ (fewer + 1)) :
    precision.exponentFor numerator denominator = exponent := by
  have unit : (0 : ℚ) < 2 ^ exponent := by positivity
  have base : (1 : ℚ) < 2 := by norm_num
  obtain ⟨first, last⟩ := floorLog_bounds numerator positive nonzero
  have less : (numerator : ℚ) / denominator < 2 ^ (exponent + (fewer + 1 : Nat)) := by
    rwa [zpow_add₀ (by norm_num), zpow_natCast, ← div_lt_iff₀' unit]
  have high := (zpow_lt_zpow_iff_right₀ base).mp (first.trans_lt less)
  rw [exponentFor, bits]
  rcases above with more | least
  · have more : (2 : ℚ) ^ (exponent + fewer) ≤ numerator / denominator := by
      rwa [zpow_add₀ (by norm_num), zpow_natCast, ← le_div_iff₀' unit]
    have low := (zpow_lt_zpow_iff_right₀ base).mp (more.trans_lt last)
    omega
  · omega

/--
A number of a precision is what everything is rounded to that is nearer than half a unit to it;
powers of two, where the unit changes, are left out.
-/
theorem round_eq_some
    {mantissa : Nat}
    {exponent : Int}
    (nonzero : mantissa ≠ 0)
    (fits : mantissa < 2 ^ precision.bits)
    (bounded : exponent ≤ precision.greatest)
    (normal :
      precision.least ≤ exponent ∧ 2 ^ (precision.bits - 1) < mantissa ∨
        exponent = precision.least)
    (near :
      |(numerator : ℚ) / denominator / 2 ^ exponent - mantissa| < 1 / 2 ∨
        |(numerator : ℚ) / denominator / 2 ^ exponent - mantissa| ≤ 1 / 2 ∧ mantissa % 2 = 0) :
    precision.round numerator denominator = some ⟨mantissa, exponent⟩ := by
  have close : |(numerator : ℚ) / denominator / 2 ^ exponent - mantissa| ≤ 1 / 2 :=
    near.elim le_of_lt And.left
  obtain ⟨low, high⟩ := abs_le.mp close
  have some : numerator ≠ 0 := by
    rintro rfl
    have one : (1 : ℚ) ≤ mantissa := by exact_mod_cast Nat.one_le_iff_ne_zero.mpr nonzero
    simp only [Nat.cast_zero, zero_div] at low
    linarith
  have rounded : precision.exponentFor numerator denominator = exponent := by
    obtain ⟨fewer, bits⟩ : ∃ fewer, precision.bits = fewer + 1 := by
      refine Nat.exists_eq_succ_of_ne_zero fun none => ?_
      rw [none] at fits
      omega
    rw [bits, Nat.add_sub_cancel] at normal
    rw [bits] at fits
    have fits : (mantissa : ℚ) + 1 ≤ 2 ^ (fewer + 1) := by exact_mod_cast fits
    refine exponentFor_of_bounds positive some bits ?_ (normal.imp ?_ id) (by linarith)
    · exact normal.elim And.left Eq.ge
    · rintro ⟨-, large⟩
      have large : (2 : ℚ) ^ fewer + 1 ≤ mantissa := by exact_mod_cast large
      linarith
  have mantissaIs : precision.mantissaFor numerator denominator = mantissa :=
    mantissaFor_eq positive (by rwa [rounded])
  rw [round_eq some, mantissaIs, rounded, if_neg fits.ne]
  exact if_neg (not_lt.mpr bounded)

/--
A power of two is what everything is rounded to that is not farther below it than half of the
smaller unit there, and not farther above it than half a unit.
-/
theorem round_eq_some_power
    {exponent : Int}
    (bits : 1 < precision.bits)
    (inside : precision.least < exponent)
    (bounded : exponent ≤ precision.greatest)
    (low : (2 : ℚ) ^ (precision.bits - 1) - 1 / 4 ≤ numerator / denominator / 2 ^ exponent)
    (high : (numerator : ℚ) / denominator / 2 ^ exponent ≤ 2 ^ (precision.bits - 1) + 1 / 2) :
    precision.round numerator denominator = some ⟨2 ^ (precision.bits - 1), exponent⟩ := by
  obtain ⟨fewer, bitsIs⟩ : ∃ fewer, precision.bits = fewer + 1 + 1 :=
    ⟨_, (Nat.sub_add_cancel bits).symm⟩
  rw [bitsIs, Nat.add_sub_cancel] at low high ⊢
  have one : (1 : ℚ) ≤ 2 ^ fewer := one_le_pow₀ (by norm_num)
  have double : (2 : ℚ) ^ (fewer + 1) = 2 * 2 ^ fewer := pow_succ' 2 fewer
  have some : numerator ≠ 0 := by
    rintro rfl
    simp only [Nat.cast_zero, zero_div] at low
    linarith
  -- Below the power of two the mantissa is rounded up to one bit too many, and carried.
  rcases le_or_gt ((2 : ℚ) ^ (fewer + 1)) (numerator / denominator / 2 ^ exponent) with
    above | below
  · have rounded : precision.exponentFor numerator denominator = exponent :=
      exponentFor_of_bounds positive some bitsIs inside.le (.inl above) (by rw [pow_succ]; linarith)
    have mantissaIs : precision.mantissaFor numerator denominator = 2 ^ (fewer + 1) := by
      refine mantissaFor_eq positive (.inr ⟨?_, by rw [pow_succ]; omega⟩)
      rw [rounded, abs_le]
      push_cast
      constructor <;> linarith
    have apart : ¬ (2 : Nat) ^ (fewer + 1) = 2 ^ (fewer + 1 + 1) := by
      rw [pow_succ 2 (fewer + 1)]
      have := Nat.pow_pos (n := fewer + 1) (show 0 < 2 by decide)
      omega
    rw [round_eq some, mantissaIs, rounded, bitsIs]
    simp only [if_neg apart, if_neg (not_lt.mpr bounded)]
  · have twice : (numerator : ℚ) / denominator / 2 ^ (exponent - 1) =
        numerator / denominator / 2 ^ exponent * 2 := by
      rw [zpow_sub_one₀ (by norm_num), ← div_div, div_inv_eq_mul]
    have rounded : precision.exponentFor numerator denominator = exponent - 1 :=
      exponentFor_of_bounds positive some bitsIs (by omega) (.inl (by linarith))
        (by rw [twice, pow_succ]; linarith)
    have mantissaIs : precision.mantissaFor numerator denominator = 2 ^ (fewer + 1 + 1) := by
      refine mantissaFor_eq positive (.inr ⟨?_, by rw [pow_succ]; omega⟩)
      rw [rounded, twice, abs_le]
      push_cast
      rw [pow_succ]
      constructor <;> linarith
    rw [round_eq some, mantissaIs, rounded, bitsIs]
    simp only [if_true, sub_add_cancel, Nat.add_sub_cancel, if_neg (not_lt.mpr bounded)]

end Precision

end Fabula.Number
