import Fabula.Number.Decimal
import Fabula.Proofs.Rounding
import Mathlib.Tactic.LinearCombination

namespace Fabula.Decimal

open Number

/-!
# Decimals and binary boundaries

A multiple of a power of ten that is not itself half way between two single-precision numbers is
not very near to such a boundary: arithmetic of double precision cannot carry it over the boundary.
For each power of ten, fractions with small denominators stay away from one irrational-looking
number, which two neighbouring fractions around it show.  There is a single exception.
-/

/-! ## Powers of ten -/

theorem timesTen_pos
    (power : Int)
    (quotient : Nat × Nat)
    (positive : 0 < quotient.2) :
    0 < (timesTen power quotient).2 := by
  simp only [timesTen]
  split
  · exact positive
  · exact Nat.mul_pos positive (Nat.pow_pos (by decide))

theorem timesTen_value
    (power : Int)
    (quotient : Nat × Nat) :
    ((timesTen power quotient).1 : ℚ) / (timesTen power quotient).2 =
      quotient.1 / quotient.2 * 10 ^ power := by
  simp only [timesTen]
  split
  · next whole =>
      lift power to Nat using whole
      push_cast [Nat.pow_eq]
      rw [Int.toNat_natCast, zpow_natCast, mul_div_right_comm]
  · next negative =>
      obtain ⟨amount, rfl⟩ := Int.eq_negSucc_of_lt_zero (not_le.mp negative)
      rw [Int.neg_negSucc, zpow_negSucc, ← div_eq_mul_inv]
      push_cast [Nat.pow_eq]
      rw [div_div]
      rfl

/-- The exponent of the greatest power of two that is at most a power of ten. -/
def binaryExponent (ten : Int) : Int :=
  let power := timesTen ten (1, 1)
  floorLog power.1 power.2

/-- Half of that power of two over the power of ten. -/
def halfRatio (ten : Int) : Nat × Nat :=
  let inverse := timesTen (-ten) (1, 1)
  scaleDown inverse.1 inverse.2 (1 - binaryExponent ten)

theorem halfRatio_pos
    (ten : Int) :
    0 < (halfRatio ten).2 :=
  scaleDown_pos _ (timesTen_pos _ _ Nat.one_pos) _

theorem halfRatio_value
    (ten : Int) :
    ((halfRatio ten).1 : ℚ) / (halfRatio ten).2 = 2 ^ (binaryExponent ten - 1) / 10 ^ ten := by
  rw [halfRatio, scaleDown_value, timesTen_value, ← neg_sub, zpow_neg, zpow_neg]
  simp only [Nat.cast_one, div_one, one_mul, div_inv_eq_mul]
  rw [mul_comm, ← div_eq_mul_inv]

/-! ## Neighbouring fractions -/

/-- Fractions between two neighbouring ones have large denominators. -/
theorem outside_of_adjacent
    (low high : Nat × Nat)
    (adjacent : high.1 * low.2 = low.1 * high.2 + 1)
    {numerator denominator : Nat}
    (small : denominator < low.2 + high.2) :
    numerator * low.2 ≤ low.1 * denominator ∨ high.1 * denominator ≤ numerator * high.2 := by
  by_contra inside
  rw [not_or, not_le, not_le] at inside
  obtain ⟨above, below⟩ := inside
  zify at adjacent above below small
  have split : (denominator : Int) =
      low.2 * (high.1 * denominator - numerator * high.2) +
        high.2 * (numerator * low.2 - low.1 * denominator) := by
    linear_combination -(denominator : Int) * adjacent
  have first : (low.2 : Int) * 1 ≤ low.2 * (high.1 * denominator - numerator * high.2) := by
    gcongr
    omega
  have second : (high.2 : Int) * 1 ≤ high.2 * (numerator * low.2 - low.1 * denominator) := by
    gcongr
    omega
  omega

/-- Two fractions around a number. -/
structure Bracket where
  low : Nat × Nat
  high : Nat × Nat
  deriving Repr, DecidableEq

/--
The denominators of the boundaries between single-precision numbers are below this.  Next to a
power of two both boundaries are counted in the smaller unit.
-/
def boundaryLimit : Nat := 2 ^ 25 + 4

/--
Move two neighbouring fractions toward a quotient between them, in turns and as far as denominators
stay within the limit.
-/
def Bracket.narrow (quotient : Nat × Nat) : Nat → Bracket → Bracket
  | 0, bracket => bracket
  | fuel + 1, ⟨low, high⟩ =>
      let below := quotient.1 * low.2 - low.1 * quotient.2
      let above := high.1 * quotient.2 - quotient.1 * high.2
      let steps := min (below / above) ((boundaryLimit - low.2) / high.2)
      let low := (low.1 + steps * high.1, low.2 + steps * high.2)
      let below := quotient.1 * low.2 - low.1 * quotient.2
      let steps := min ((above - 1) / below) ((boundaryLimit - high.2) / low.2)
      narrow quotient fuel ⟨low, (high.1 + steps * low.1, high.2 + steps * low.2)⟩

/-! ## Far from a boundary -/

/-- How far double-precision arithmetic may be off: nine parts in this number. -/
def errorUnit : Nat := 2 ^ 55

/-- A number that stays on its side of a boundary if it is off by at most nine parts. -/
def Clear (amount boundary : ℚ) : Prop :=
  (errorUnit + 9) * amount < errorUnit * boundary ∨
    errorUnit * boundary < (errorUnit - 9) * amount

/-- The same for a fraction and a quotient. -/
def ClearFraction (numerator denominator : Nat) (quotient : Nat × Nat) : Prop :=
  (errorUnit + 9) * (numerator * quotient.2) < errorUnit * (quotient.1 * denominator) ∨
    errorUnit * (quotient.1 * denominator) < (errorUnit - 9) * (numerator * quotient.2)

/-- The lower fraction is far below a quotient. -/
def FarBelow (low quotient : Nat × Nat) : Prop :=
  (errorUnit + 9) * (low.1 * quotient.2) < errorUnit * (quotient.1 * low.2)

/-- The upper fraction is far above a quotient. -/
def FarAbove (high quotient : Nat × Nat) : Prop :=
  errorUnit * (quotient.1 * high.2) < (errorUnit - 9) * (high.1 * quotient.2)

instance (low quotient : Nat × Nat) : Decidable (FarBelow low quotient) :=
  inferInstanceAs (Decidable (_ < _))

instance (high quotient : Nat × Nat) : Decidable (FarAbove high quotient) :=
  inferInstanceAs (Decidable (_ < _))

section Fractions

variable {quotient low high : Nat × Nat} {numerator denominator : Nat}

theorem FarBelow.clear
    (far : FarBelow low quotient)
    (positive : 0 < denominator)
    (below : numerator * low.2 ≤ low.1 * denominator) :
    ClearFraction numerator denominator quotient := by
  refine .inl (Nat.lt_of_mul_lt_mul_left (a := low.2) ?_)
  calc low.2 * ((errorUnit + 9) * (numerator * quotient.2))
      = (errorUnit + 9) * quotient.2 * (numerator * low.2) := by ring
    _ ≤ (errorUnit + 9) * quotient.2 * (low.1 * denominator) := Nat.mul_le_mul_left _ below
    _ = (errorUnit + 9) * (low.1 * quotient.2) * denominator := by ring
    _ < errorUnit * (quotient.1 * low.2) * denominator := Nat.mul_lt_mul_of_pos_right far positive
    _ = low.2 * (errorUnit * (quotient.1 * denominator)) := by ring

theorem FarAbove.clear
    (far : FarAbove high quotient)
    (positive : 0 < denominator)
    (above : high.1 * denominator ≤ numerator * high.2) :
    ClearFraction numerator denominator quotient := by
  refine .inr (Nat.lt_of_mul_lt_mul_left (a := high.2) ?_)
  calc high.2 * (errorUnit * (quotient.1 * denominator))
      = errorUnit * (quotient.1 * high.2) * denominator := by ring
    _ < (errorUnit - 9) * (high.1 * quotient.2) * denominator :=
        Nat.mul_lt_mul_of_pos_right far positive
    _ = (errorUnit - 9) * quotient.2 * (high.1 * denominator) := by ring
    _ ≤ (errorUnit - 9) * quotient.2 * (numerator * high.2) := Nat.mul_le_mul_left _ above
    _ = high.2 * ((errorUnit - 9) * (numerator * quotient.2)) := by ring

/-- A quotient of small numbers is hit or missed clearly. -/
theorem clear_of_small
    (small : 9 * (quotient.1 / quotient.1.gcd quotient.2 * boundaryLimit + 1) ≤ errorUnit)
    (bounded : denominator < boundaryLimit)
    (missed : numerator * quotient.2 ≠ quotient.1 * denominator) :
    ClearFraction numerator denominator quotient := by
  obtain ⟨a, b⟩ := quotient
  simp only [ClearFraction] at small missed ⊢
  obtain ⟨x, xs⟩ := Nat.gcd_dvd_left a b
  obtain ⟨y, ys⟩ := Nat.gcd_dvd_right a b
  generalize a.gcd b = common at *
  subst xs ys
  have positive : 0 < common := by
    refine Nat.pos_of_ne_zero ?_
    rintro rfl
    simp at missed
  rw [Nat.mul_div_cancel_left x positive] at small
  have fewer : x * denominator ≤ x * boundaryLimit := Nat.mul_le_mul_left x bounded.le
  have apart : numerator * y ≠ x * denominator := by
    intro same
    refine missed ?_
    calc numerator * (common * y) = common * (numerator * y) := by ring
      _ = common * x * denominator := by rw [same]; ring
  have clear : (errorUnit + 9) * (numerator * y) < errorUnit * (x * denominator) ∨
      errorUnit * (x * denominator) < (errorUnit - 9) * (numerator * y) := by
    simp only [errorUnit, boundaryLimit] at *
    omega
  refine clear.imp (fun less => ?_) (fun less => ?_)
  · have scaled := Nat.mul_lt_mul_of_pos_left less positive
    calc (errorUnit + 9) * (numerator * (common * y))
        = common * ((errorUnit + 9) * (numerator * y)) := by ring
      _ < common * (errorUnit * (x * denominator)) := scaled
      _ = errorUnit * (common * x * denominator) := by ring
  · have scaled := Nat.mul_lt_mul_of_pos_left less positive
    calc errorUnit * (common * x * denominator)
        = common * (errorUnit * (x * denominator)) := by ring
      _ < common * ((errorUnit - 9) * (numerator * y)) := scaled
      _ = (errorUnit - 9) * (numerator * (common * y)) := by ring

end Fractions

/-! ## All powers of ten -/

/-- The fractions next to half of a power of two over a power of ten. -/
def bracketOf (ten : Int) : Bracket :=
  Bracket.narrow (halfRatio ten) 16 ⟨(0, 1), (1, 1)⟩

/-- Neighbouring fractions that are far from a quotient. -/
def Bracket.Separates (quotient : Nat × Nat) (bracket : Bracket) : Prop :=
  bracket.high.1 * bracket.low.2 = bracket.low.1 * bracket.high.2 + 1 ∧
    boundaryLimit ≤ bracket.low.2 + bracket.high.2 ∧
    FarBelow bracket.low quotient ∧
    FarAbove bracket.high quotient

instance (quotient : Nat × Nat) (bracket : Bracket) : Decidable (bracket.Separates quotient) :=
  inferInstanceAs (Decidable (_ ∧ _ ∧ _ ∧ _))

theorem Bracket.Separates.clear
    {quotient : Nat × Nat}
    {bracket : Bracket}
    (separates : bracket.Separates quotient)
    {numerator denominator : Nat}
    (positive : 0 < denominator)
    (bounded : denominator < boundaryLimit) :
    ClearFraction numerator denominator quotient := by
  obtain ⟨adjacent, wide, below, above⟩ := separates
  rcases outside_of_adjacent _ _ adjacent (bounded.trans_le wide) with less | more
  · exact below.clear positive less
  · exact above.clear positive more

/-- The one power of ten with a fraction that is too near. -/
def narrowTen : Int := -32

/-- The one fraction that is too near. -/
def nearFraction : Nat × Nat := (7038531, 22841339)

/-- What is checked of a power of ten. -/
def Verified (ten : Int) : Prop :=
  2 ^ 30 * (halfRatio ten).2 + 40 * (halfRatio ten).1 < 2 ^ 32 * (halfRatio ten).1 ∧
    (ten.natAbs ≤ 12 ∧
        9 * ((halfRatio ten).1 / (halfRatio ten).1.gcd (halfRatio ten).2 * boundaryLimit + 1) ≤
          errorUnit ∨
      (bracketOf ten).Separates (halfRatio ten) ∨
      ten = narrowTen)

instance (ten : Int) : Decidable (Verified ten) :=
  inferInstanceAs (Decidable (_ ∧ (_ ∧ _ ∨ _ ∨ _)))

theorem verified_offset :
    ∀ offset : Nat, offset < 92 → Verified ((offset : Int) - 53) := by
  decide +kernel

theorem verified
    {ten : Int}
    (low : -53 ≤ ten)
    (high : ten ≤ 38) :
    Verified ten := by
  have checked := verified_offset (ten + 53).toNat (by omega)
  rwa [Int.toNat_of_nonneg (by omega), Int.add_sub_cancel] at checked

/-- At the narrow power of ten only one fraction is not clear. -/
theorem clear_narrowTen
    {numerator denominator : Nat}
    (positive : 0 < denominator)
    (bounded : denominator < boundaryLimit) :
    ClearFraction numerator denominator (halfRatio narrowTen) ∨
      (numerator, denominator) = nearFraction := by
  have below : FarBelow (9610261, 31187080) (halfRatio narrowTen) := by decide +kernel
  have above : FarAbove (4466801, 14495598) (halfRatio narrowTen) := by decide +kernel
  simp only [boundaryLimit] at bounded
  have first : numerator * 31187080 ≤ 9610261 * denominator ∨
      nearFraction.1 * denominator ≤ numerator * nearFraction.2 :=
    outside_of_adjacent (9610261, 31187080) nearFraction rfl
      (by simp only [nearFraction]; omega)
  have second : numerator * nearFraction.2 ≤ nearFraction.1 * denominator ∨
      4466801 * denominator ≤ numerator * 14495598 :=
    outside_of_adjacent nearFraction (4466801, 14495598) rfl
      (by simp only [nearFraction]; omega)
  rcases first with less | notLess
  · exact .inl (below.clear positive less)
  rcases second with notMore | more
  · have same : nearFraction.1 * denominator = numerator * nearFraction.2 :=
      Nat.le_antisymm notLess notMore
    have divides : nearFraction.2 ∣ denominator := by
      have coprime : Nat.Coprime nearFraction.2 nearFraction.1 := by decide
      exact coprime.dvd_of_dvd_mul_left (Dvd.intro_left _ same.symm)
    obtain ⟨times, rfl⟩ := divides
    have once : times = 1 := by
      simp only [nearFraction] at bounded positive
      omega
    subst once
    simp only [nearFraction] at same ⊢
    have : numerator = 7038531 := by omega
    rw [this]
    exact .inr rfl
  · exact .inl (above.clear positive more)

section Boundaries

variable {ten : Int} (amount : Nat) {boundary : Nat} {exponent : Int}

/-- A fraction of whole numbers stands for a decimal and a boundary. -/
theorem exists_scale
    (boundary : Nat)
    (coarse : exponent ≤ binaryExponent ten) :
    ∃ scale : ℚ,
      0 < scale ∧
      ((amount * 2 ^ (binaryExponent ten - exponent).toNat * (halfRatio ten).2 : Nat) : ℚ) =
        scale * (amount * 10 ^ ten) ∧
      (((halfRatio ten).1 * boundary : Nat) : ℚ) = scale * (boundary * 2 ^ (exponent - 1)) := by
  have positive : (0 : ℚ) < (halfRatio ten).2 := by exact_mod_cast halfRatio_pos ten
  have power : (0 : ℚ) < 10 ^ ten := by positivity
  have ratio := halfRatio_value ten
  rw [div_eq_div_iff positive.ne' power.ne'] at ratio
  obtain ⟨gap, split⟩ := Int.le.dest coarse
  have gapIs : (binaryExponent ten - exponent).toNat = gap := by omega
  refine ⟨(halfRatio ten).2 * 2 ^ gap / 10 ^ ten, by positivity, ?_, ?_⟩
  · rw [gapIs]
    push_cast
    field_simp
  · have whole : (2 : ℚ) ^ gap * 2 ^ (exponent - 1) = 2 ^ (binaryExponent ten - 1) := by
      rw [← zpow_natCast, ← zpow_add₀ (by norm_num)]
      congr 1
      omega
    push_cast
    rw [div_mul_eq_mul_div, eq_div_iff power.ne']
    linear_combination (boundary : ℚ) * ratio - (halfRatio ten).2 * boundary * whole

/--
A decimal whose unit is at least that of a boundary is on the boundary or clear of it, and on it
only if the power of ten is small; there is one exception.
-/
theorem clear_boundary
    (low : -53 ≤ ten)
    (high : ten ≤ 38)
    (positive : 0 < boundary)
    (bounded : boundary < boundaryLimit)
    (coarse : exponent ≤ binaryExponent ten) :
    Clear (amount * 10 ^ ten) (boundary * 2 ^ (exponent - 1)) ∨
      (amount * 10 ^ ten : ℚ) = boundary * 2 ^ (exponent - 1) ∧ ten.natAbs ≤ 12 ∨
      exponent = binaryExponent narrowTen ∧ boundary = nearFraction.2 := by
  obtain ⟨scale, scalePositive, amountIs, boundaryIs⟩ := exists_scale amount boundary coarse
  have fromFraction
      (clear : ClearFraction (amount * 2 ^ (binaryExponent ten - exponent).toNat) boundary
        (halfRatio ten)) :
      Clear (amount * 10 ^ ten) (boundary * 2 ^ (exponent - 1)) := by
    refine clear.imp (fun less => ?_) (fun less => ?_)
    · have less := (Nat.cast_lt (α := ℚ)).mpr less
      rw [Nat.cast_mul, amountIs, Nat.cast_mul, boundaryIs] at less
      refine lt_of_mul_lt_mul_left ?_ scalePositive.le
      push_cast at less ⊢
      linarith
    · have less := (Nat.cast_lt (α := ℚ)).mpr less
      rw [Nat.cast_mul, boundaryIs, Nat.cast_mul, amountIs, Nat.cast_sub (by decide)] at less
      refine lt_of_mul_lt_mul_left ?_ scalePositive.le
      push_cast at less ⊢
      linarith
  obtain ⟨-, ⟨modest, small⟩ | separates | rfl⟩ := verified low high
  · by_cases hit : amount * 2 ^ (binaryExponent ten - exponent).toNat * (halfRatio ten).2 =
        (halfRatio ten).1 * boundary
    · refine .inr (.inl ⟨?_, modest⟩)
      rw [hit, boundaryIs] at amountIs
      exact (mul_left_cancel₀ scalePositive.ne' amountIs).symm
    · exact .inl (fromFraction (clear_of_small small bounded hit))
  · exact .inl (fromFraction (separates.clear positive bounded))
  · rcases clear_narrowTen positive bounded with clear | near
    · exact .inl (fromFraction clear)
    · obtain ⟨numeratorIs, denominatorIs⟩ := Prod.mk.inj near
      refine .inr (.inr ⟨?_, denominatorIs⟩)
      -- The numerator is odd, so the units of the decimal and of the boundary are the same.
      by_contra apart
      obtain ⟨gap, gapIs⟩ : ∃ gap, (binaryExponent narrowTen - exponent).toNat = gap + 1 :=
        Nat.exists_eq_succ_of_ne_zero (by omega)
      rw [gapIs, Nat.pow_succ, ← Nat.mul_assoc] at numeratorIs
      omega

/-- A boundary whose unit is greater than that of a decimal leaves room around the numbers. -/
theorem roomy
    (low : -53 ≤ ten)
    (high : ten ≤ 38) :
    (2 : ℚ) ^ 29 * 10 ^ ten < (2 ^ 30 - 10) * 2 ^ binaryExponent ten := by
  have checked := (verified low high).1
  have positive : (0 : ℚ) < (halfRatio ten).2 := by exact_mod_cast halfRatio_pos ten
  have power : (0 : ℚ) < 10 ^ ten := by positivity
  have ratio := halfRatio_value ten
  rw [div_eq_div_iff positive.ne' power.ne', zpow_sub_one₀ (by norm_num)] at ratio
  have checked : (2 ^ 30 * (halfRatio ten).2 + 40 * (halfRatio ten).1 : ℚ) <
      2 ^ 32 * (halfRatio ten).1 := by exact_mod_cast checked
  refine lt_of_mul_lt_mul_left ?_ positive.le
  have scaled := mul_lt_mul_of_pos_right checked power
  linarith

end Boundaries

end Fabula.Decimal
