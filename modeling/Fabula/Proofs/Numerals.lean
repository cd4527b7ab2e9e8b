import Fabula.Json.Decode
import Fabula.Proofs.Separation

namespace Fabula.Json

open Number Decimal

/-!
# What numerals stand for

The digits of a numeral that fit into a word are all read, and the double-precision number that
comes of them is off by at most nine parts of the number that they spell.  It is met exactly if
the power of ten is small and the number has a short binary mantissa.
-/

/-! ## Digits -/

theorem toDigits_head_ne_zero
    {n : Nat}
    (positive : 0 < n) :
    ∃ c rest, Nat.toDigits 10 n = c :: rest ∧ c ≠ '0' := by
  induction n using Nat.strongRecOn with
  | _ n inductionHypothesis =>
      by_cases small : n < 10
      · have digit : ∀ n < 10, 0 < n → n.digitChar ≠ '0' := by decide
        exact ⟨n.digitChar, [], Nat.toDigits_of_lt_base small, digit n small positive⟩
      · obtain ⟨c, rest, split, nonzero⟩ :=
          inductionHypothesis (n / 10) (by omega) (by omega)
        refine ⟨c, rest ++ [(n % 10).digitChar], ?_, nonzero⟩
        rw [Nat.toDigits_of_base_le (by decide) (by omega), split]
        rfl

namespace Numeral

theorem natOf_eq_ofDigitChars
    (digits : List Char) :
    natOf digits = Nat.ofDigitChars 10 digits 0 := by
  have step :
      (fun n c => n * 10 + digitValue c) =
        fun n (c : Char) => 10 * n + (c.toNat - '0'.toNat) := by
    funext n c
    rw [Nat.mul_comm]
    rfl
  rw [natOf, step, Nat.ofDigitChars]

@[simp]
theorem natOf_toDigits
    (n : Nat) :
    natOf (Nat.toDigits 10 n) = n := by
  rw [natOf_eq_ofDigitChars, Nat.ofDigitChars_toDigits (by decide) (by decide)]

/-- Digits that go on after a number. -/
theorem foldl_digits
    (word : Nat)
    (digits : List Char) :
    digits.foldl (fun n c => n * 10 + digitValue c) word =
      word * 10 ^ digits.length + natOf digits := by
  induction digits generalizing word with
  | nil =>
      simp [natOf]
  | cons c rest inductionHypothesis =>
      rw [natOf, List.foldl_cons, List.foldl_cons, inductionHypothesis,
        inductionHypothesis (0 * 10 + digitValue c), List.length_cons, pow_succ]
      ring

theorem natOf_append
    (first second : List Char) :
    natOf (first ++ second) = natOf first * 10 ^ second.length + natOf second := by
  rw [natOf, List.foldl_append, foldl_digits]
  rfl

@[simp]
theorem natOf_zeros
    (count : Nat) :
    natOf (List.replicate count '0') = 0 := by
  induction count with
  | zero => rfl
  | succ count inductionHypothesis =>
      rw [List.replicate_succ', natOf_append, inductionHypothesis]
      rfl

theorem natOf_lt
    {digits : List Char}
    (all : ∀ c ∈ digits, c.isDigit = true) :
    natOf digits < 10 ^ digits.length := by
  induction digits with
  | nil => decide
  | cons c rest inductionHypothesis =>
      have digit : digitValue c < 10 := by
        have bounds := all c List.mem_cons_self
        simp only [Char.isDigit, Bool.and_eq_true, decide_eq_true_eq] at bounds
        have := UInt32.le_iff_toNat_le.mp bounds.2
        simp only [digitValue, Char.toNat]
        change c.val.toNat ≤ 57 at this
        omega
      have others := inductionHypothesis fun d member => all d (List.mem_cons_of_mem c member)
      rw [← List.singleton_append, natOf_append, List.length_append, pow_add]
      have single : natOf [c] = digitValue c := by simp [natOf]
      rw [single, List.length_singleton, pow_one]
      nlinarith

/-! ## Words -/

theorem natOf_step
    (word : Nat)
    (c : Char)
    (rest : List Char) :
    word * 10 ^ (c :: rest).length + natOf (c :: rest) =
      (word * 10 + digitValue c) * 10 ^ rest.length + natOf rest := by
  rw [← foldl_digits, ← foldl_digits]
  rfl

theorem not_lt_of_fits
    {word : Nat}
    {digits : List Char}
    (fits : word * 10 ^ digits.length + natOf digits ≤ greatestWord) :
    ¬ greatestWord < word := by
  have := Nat.le_mul_of_pos_right word
    (Nat.pow_pos (n := digits.length) (show 0 < 10 by decide))
  omega

/-- Digits that fit into a word all count. -/
theorem leading_eq
    (word : Nat)
    {digits : List Char}
    (fits : word * 10 ^ digits.length + natOf digits ≤ greatestWord) :
    leading word digits = (word * 10 ^ digits.length + natOf digits, 0) := by
  induction digits generalizing word with
  | nil =>
      simp [leading, natOf]
  | cons c rest inductionHypothesis =>
      rw [natOf_step] at fits ⊢
      simp only [leading, if_neg (not_lt_of_fits fits)]
      exact inductionHypothesis _ fits

theorem extend_eq
    (word count : Nat)
    {digits : List Char}
    (fits : word * 10 ^ digits.length + natOf digits ≤ greatestWord) :
    extend word count digits =
      (word * 10 ^ digits.length + natOf digits, count + digits.length) := by
  induction digits generalizing word count with
  | nil =>
      simp [extend, natOf]
  | cons c rest inductionHypothesis =>
      rw [natOf_step] at fits ⊢
      simp only [extend, if_neg (not_lt_of_fits fits)]
      rw [inductionHypothesis _ _ fits, List.length_cons, Nat.add_right_comm, Nat.add_assoc]

section Magnitude

variable (negative : Bool) {whole fraction : List Char}
  (fits : natOf (whole ++ fraction) ≤ greatestWord)

include fits

theorem leading_extend_eq :
    leading 0 whole = (natOf whole, 0) ∧
      extend (natOf whole) 0 fraction = (natOf (whole ++ fraction), fraction.length) := by
  have split := natOf_append whole fraction
  rw [split] at fits
  constructor
  · have small := not_lt_of_fits fits
    rw [leading_eq 0 (by omega), Nat.zero_mul, Nat.zero_add]
  · rw [extend_eq _ _ fits, split, Nat.zero_add]

/-- What a numeral without an exponent stands for whose digits all fit into a word. -/
theorem magnitude?_positional :
    magnitude? ⟨negative, whole, fraction, none⟩ =
      (roundDouble (natOf (whole ++ fraction), 1)).bind fun start =>
        scale 4 start (-(fraction.length : Int)) := by
  obtain ⟨first, second⟩ := leading_extend_eq fits
  simp only [magnitude?, first, second, bind, Nat.cast_zero, zero_sub]

/-- What a numeral with a small exponent stands for whose digits all fit into a word. -/
theorem magnitude?_exponential
    {exponent : Int}
    (bounded : exponent.natAbs ≤ 100)
    (short : fraction.length ≤ 100) :
    magnitude?
        ⟨negative, whole, fraction,
          some (decide (exponent < 0), Nat.toDigits 10 exponent.natAbs)⟩ =
      (roundDouble (natOf (whole ++ fraction), 1)).bind fun start =>
        scale 4 start (exponent - fraction.length) := by
  obtain ⟨first, second⟩ := leading_extend_eq fits
  have small : exponent.natAbs ≤ greatestExponent := bounded.trans (by decide)
  have power : clampExponent
      (if decide (exponent < 0) = true then -(fraction.length : Int) - exponent.natAbs
        else -(fraction.length : Int) + exponent.natAbs) = exponent - fraction.length := by
    simp only [clampExponent, decide_eq_true_eq]
    split <;> omega
  simp only [magnitude?, first, second, bind, Nat.cast_zero, zero_sub, exponentValue?,
    natOf_toDigits, if_pos small, power]

end Magnitude

/-! ## Double precision -/

/-- Rounding to double precision, far from the limits. -/
theorem roundDouble_near
    (quotient : Nat × Nat)
    (positive : 0 < quotient.2)
    (large : (2 : ℚ) ^ (-250 : Int) ≤ quotient.1 / quotient.2)
    (small : (quotient.1 : ℚ) / quotient.2 < 2 ^ (250 : Int)) :
    ∃ x,
      roundDouble quotient = some x ∧
      |x.value - quotient.1 / quotient.2| * 2 ^ 53 ≤ quotient.1 / quotient.2 ∧
      ∀ (mantissa : Nat) (exponent : Int),
        mantissa < 2 ^ 53 →
        -1074 ≤ exponent →
        (quotient.1 : ℚ) / quotient.2 = mantissa * 2 ^ exponent →
        x.value = quotient.1 / quotient.2 := by
  have large : (2 : ℚ) ^ (doublePrecision.least + doublePrecision.bits - 1) ≤
      quotient.1 / quotient.2 :=
    (zpow_le_zpow_right₀ (by norm_num) (by decide)).trans large
  have small : (quotient.1 : ℚ) / quotient.2 <
      2 ^ (doublePrecision.greatest + doublePrecision.bits - 1) :=
    small.trans_le (zpow_le_zpow_right₀ (by norm_num) (by decide))
  obtain ⟨x, rounded, near, met⟩ :=
    Precision.round_near positive (by decide) large small
  exact ⟨x, rounded, (le_div_iff₀ (by positivity)).mp near, met⟩

/-- A word of double precision is met. -/
theorem roundDouble_word
    {word : Nat}
    (positive : 0 < word)
    (bounded : word < 2 ^ 53) :
    ∃ x, roundDouble (word, 1) = some x ∧ x.value = word := by
  have one : (1 : ℚ) ≤ word := by exact_mod_cast positive
  have less : (word : ℚ) < 2 ^ 53 := by exact_mod_cast bounded
  obtain ⟨x, rounded, -, met⟩ :=
    roundDouble_near (word, 1) Nat.one_pos
      (by rw [Nat.cast_one, div_one]; exact le_trans (by norm_num) one)
      (by rw [Nat.cast_one, div_one]; exact less.trans_le (by norm_num))
  refine ⟨x, rounded, ?_⟩
  simpa using met word 0 bounded (by decide) (by simp)

/-- A power of ten of double precision, which is met if it is small. -/
theorem powerOfTen_near
    {power : Nat}
    (bounded : power ≤ 60) :
    0 < (powerOfTen power).2 ∧
      |((powerOfTen power).1 : ℚ) / (powerOfTen power).2 - 10 ^ power| * 2 ^ 53 ≤ 10 ^ power ∧
      (power ≤ 22 → ((powerOfTen power).1 : ℚ) / (powerOfTen power).2 = 10 ^ power) := by
  have one : (1 : ℚ) ≤ 10 ^ power := one_le_pow₀ (by norm_num)
  have less : (10 : ℚ) ^ power ≤ 10 ^ 60 := pow_le_pow_right₀ (by norm_num) bounded
  obtain ⟨x, rounded, near, met⟩ :=
    roundDouble_near (10 ^ power, 1) Nat.one_pos
      (by push_cast; rw [div_one]; exact le_trans (by norm_num) one)
      (by push_cast; rw [div_one]; exact less.trans_lt (by norm_num))
  have shape : powerOfTen power = x.quotient := by
    simp only [powerOfTen, Nat.pow_eq, rounded]
  rw [shape, x.quotient_value]
  simp only [Nat.cast_pow, Nat.cast_ofNat, Nat.cast_one, div_one] at near met
  refine ⟨x.quotient_pos, near, fun small => met (5 ^ power) power ?_ (by omega) ?_⟩
  · exact (Nat.pow_le_pow_right (by decide) small).trans_lt (by norm_num)
  · rw [zpow_natCast]
    push_cast
    rw [← mul_pow]
    norm_num

/-- What comes of a word and a power of ten. -/
structure Reads (word : Nat) (power : Int) (x : Scaled) : Prop where
  near : |x.value - word * 10 ^ power| * errorUnit ≤ 9 * (word * 10 ^ power)
  met :
    power.natAbs ≤ 22 →
    ∀ (mantissa : Nat) (exponent : Int),
      mantissa < 2 ^ 53 →
      -1074 ≤ exponent →
      (word * 10 ^ power : ℚ) = mantissa * 2 ^ exponent →
      x.value = word * 10 ^ power

/-- Two roundings, each off by at most half a unit, are off by at most nine parts together. -/
theorem reads_of_near
    {word : Nat}
    {power : Int}
    {x : Scaled}
    {middle : ℚ}
    (first :
      |middle - word * 10 ^ power| * 2 ^ 53 ≤ word * 10 ^ power ∨
        |middle - word * 10 ^ power| * 2 ^ 53 ≤ middle)
    (second : |x.value - middle| * 2 ^ 53 ≤ middle)
    (hit : power.natAbs ≤ 22 → middle = word * 10 ^ power)
    (met :
      ∀ (mantissa : Nat) (exponent : Int),
        mantissa < 2 ^ 53 → -1074 ≤ exponent → middle = mantissa * 2 ^ exponent →
        x.value = middle) :
    Reads word power x where
  near := by
    have triangle := abs_sub_le x.value middle (word * 10 ^ power)
    have bounds := abs_le.mp (le_refl |middle - word * 10 ^ power|)
    simp only [errorUnit]
    push_cast
    rcases first with first | first <;> linarith
  met modest mantissa exponent fits inside same := by
    have equal := hit modest
    rw [← equal] at same ⊢
    exact met mantissa exponent fits inside same

/-- A quotient near a word times a power of ten is read as that when it is rounded. -/
theorem roundDouble_reads
    {word : Nat}
    {power : Int}
    {quotient : Nat × Nat}
    {middle : ℚ}
    (divisor : 0 < quotient.2)
    (value : (quotient.1 : ℚ) / quotient.2 = middle)
    (above : (2 : ℚ) ^ (-250 : Int) ≤ middle)
    (below : middle < 2 ^ (250 : Int))
    (first :
      |middle - word * 10 ^ power| * 2 ^ 53 ≤ word * 10 ^ power ∨
        |middle - word * 10 ^ power| * 2 ^ 53 ≤ middle)
    (hit : power.natAbs ≤ 22 → middle = word * 10 ^ power) :
    ∃ x, roundDouble quotient = some x ∧ Reads word power x := by
  subst value
  obtain ⟨x, rounded, near, met⟩ := roundDouble_near quotient divisor above below
  exact ⟨x, rounded, reads_of_near first near hit met⟩

/-- A power of ten of double precision is at least half and at most twice what it stands for. -/
theorem powerOfTen_range
    {power : Nat}
    (bounded : power ≤ 60) :
    1 / 2 ≤ ((powerOfTen power).1 : ℚ) / (powerOfTen power).2 ∧
      ((powerOfTen power).1 : ℚ) / (powerOfTen power).2 ≤ 2 * 10 ^ 60 := by
  have least : (1 : ℚ) ≤ 10 ^ power := one_le_pow₀ (by norm_num)
  have most : (10 : ℚ) ^ power ≤ 10 ^ 60 := pow_le_pow_right₀ (by norm_num) bounded
  obtain ⟨-, near, -⟩ := powerOfTen_near bounded
  have bounds :=
    abs_le.mp (le_refl |((powerOfTen power).1 : ℚ) / (powerOfTen power).2 - 10 ^ power|)
  constructor <;> linarith

section Scale

variable {word : Nat} (positive : 0 < word) (bounded : word < 2 ^ 48) {start : Scaled}
  (startIs : start.value = word) {power : Nat} (modest : power ≤ 60)

include positive bounded startIs modest

theorem timesPower_reads :
    ∃ x, timesPower start power = some x ∧ Reads word power x := by
  have one : (1 : ℚ) ≤ word := by exact_mod_cast positive
  have less : (word : ℚ) < 2 ^ 48 := by exact_mod_cast bounded
  obtain ⟨divisor, tenNear, tenMet⟩ := powerOfTen_near modest
  obtain ⟨half, twice⟩ := powerOfTen_range modest
  have value : ((start.quotient.1 * (powerOfTen power).1 : Nat) : ℚ) /
      (start.quotient.2 * (powerOfTen power).2 : Nat) =
        word * ((powerOfTen power).1 / (powerOfTen power).2) := by
    push_cast
    rw [mul_div_mul_comm, start.quotient_value, startIs]
  refine roundDouble_reads (Nat.mul_pos start.quotient_pos divisor) value ?_ ?_ (.inl ?_)
    fun small => ?_
  · calc (2 : ℚ) ^ (-250 : Int) ≤ 1 * (1 / 2) := by norm_num
      _ ≤ word * _ := by gcongr
  · calc (word : ℚ) * _ ≤ 2 ^ 48 * (2 * 10 ^ 60) := by gcongr
      _ < 2 ^ (250 : Int) := by norm_num
  · rw [zpow_natCast, ← mul_sub, abs_mul, abs_of_nonneg (by positivity), mul_assoc]
    gcongr
  · rw [tenMet (by simpa using small), zpow_natCast]

theorem overPower_reads :
    ∃ x, overPower start power = some x ∧ Reads word (-power) x := by
  have one : (1 : ℚ) ≤ word := by exact_mod_cast positive
  have less : (word : ℚ) < 2 ^ 48 := by exact_mod_cast bounded
  obtain ⟨-, tenNear, tenMet⟩ := powerOfTen_near modest
  obtain ⟨half, twice⟩ := powerOfTen_range modest
  have value : ((start.quotient.1 * (powerOfTen power).2 : Nat) : ℚ) /
      (start.quotient.2 * (powerOfTen power).1 : Nat) =
        word / ((powerOfTen power).1 / (powerOfTen power).2) := by
    push_cast
    rw [mul_div_mul_comm, start.quotient_value, startIs, div_div_eq_mul_div, mul_div_assoc]
  have factorPositive : 0 < (powerOfTen power).1 := by
    refine Nat.pos_of_ne_zero fun zero => ?_
    rw [zero, Nat.cast_zero, zero_div] at half
    norm_num at half
  generalize ((powerOfTen power).1 : ℚ) / (powerOfTen power).2 = factor at *
  have some : 0 < factor := by linarith
  refine roundDouble_reads (Nat.mul_pos start.quotient_pos factorPositive) value ?_ ?_ (.inr ?_)
    fun small => ?_
  · rw [le_div_iff₀ some]
    calc (2 : ℚ) ^ (-250 : Int) * factor ≤ 2 ^ (-250 : Int) * (2 * 10 ^ 60) := by gcongr
      _ ≤ 1 := by norm_num
      _ ≤ word := one
  · rw [div_lt_iff₀ some]
    calc (word : ℚ) < 2 ^ 48 := less
      _ ≤ 2 ^ (250 : Int) * (1 / 2) := by norm_num
      _ ≤ 2 ^ (250 : Int) * factor := by gcongr
  · have gap : word / factor - word / 10 ^ power =
        word / factor * ((10 ^ power - factor) / 10 ^ power) := by
      field_simp
    have nonneg : (0 : ℚ) ≤ word / factor := by positivity
    have scale : (0 : ℚ) < 10 ^ power := by positivity
    rw [zpow_neg, zpow_natCast, ← div_eq_mul_inv, gap, abs_mul, abs_of_nonneg nonneg, mul_assoc,
      abs_div, abs_sub_comm, abs_of_pos scale]
    refine mul_le_of_le_one_right nonneg ?_
    rwa [div_mul_eq_mul_div, div_le_one scale]
  · rw [tenMet (by simpa using small), zpow_neg, zpow_natCast, div_eq_mul_inv]

end Scale

/-- A word and a power of ten are read as a number that is near. -/
theorem scale_reads
    {word : Nat}
    (positive : 0 < word)
    (bounded : word < 2 ^ 48)
    {power : Int}
    (modest : power.natAbs ≤ 60) :
    ∃ x,
      ((roundDouble (word, 1)).bind fun start => scale 4 start power) = some x ∧
      Reads word power x := by
  obtain ⟨start, rounded, startIs⟩ :=
    roundDouble_word positive (bounded.trans (by norm_num))
  rw [rounded, Option.bind_some]
  simp only [scale, if_pos (modest.trans (by decide : 60 ≤ 308))]
  split
  · next whole =>
      have reads := timesPower_reads positive bounded startIs modest
      rwa [Int.natAbs_of_nonneg whole] at reads
  · next negative =>
      have reads := overPower_reads positive bounded startIs modest
      rwa [Int.ofNat_natAbs_of_nonpos (by omega), neg_neg] at reads

end Numeral

end Fabula.Json
