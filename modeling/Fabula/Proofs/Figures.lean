import Fabula.Proofs.Documents
import Fabula.Proofs.Numerals
import Fabula.Proofs.Shortest

namespace Fabula

/-!
# Numbers in documents are read back

A finite number is written with the digits of its shortest decimal, and what is read from them is
that number again: every part of the way from digits to a word, to double precision and back to
single precision leads to where the number came from.
-/

open Number Json

/-- Neither infinite nor what is not a number. -/
def Single.isFinite (x : Single) : Bool :=
  match x.view with
  | .finite _ _ => true
  | _ => false

namespace Decimal

/-! ## Digits without zeros around them -/

/-- Digits that a numeral may start with: there is a first one, and it is not zero. -/
def Proper (x : Decimal) : Prop :=
  x.digits ≠ [] ∧ x.digits.head? ≠ some '0' ∧ ∀ c ∈ x.digits, c.isDigit = true

-- Decided over the digits: there may be an instance that goes through all characters.
instance (x : Decimal) : Decidable x.Proper :=
  decidable_of_iff (x.digits ≠ [] ∧ x.digits.head? ≠ some '0' ∧ x.digits.all Char.isDigit = true)
    (by rw [Proper, List.all_eq_true])

/-- Only zeros are dropped. -/
theorem exists_zeros
    (digits : List Char) :
    ∃ zeros, digits = dropZeros digits ++ List.replicate zeros '0' := by
  refine ⟨(digits.reverse.takeWhile (· == '0')).length, ?_⟩
  have zeros : digits.reverse.takeWhile (· == '0') =
      List.replicate (digits.reverse.takeWhile (· == '0')).length '0' := by
    refine List.eq_replicate_of_mem fun c member => ?_
    exact beq_iff_eq.mp (List.all_eq_true.mp List.all_takeWhile c member)
  have split := List.takeWhile_append_dropWhile (p := (· == '0')) (l := digits.reverse)
  have whole := congrArg List.reverse split
  rw [List.reverse_append, List.reverse_reverse, zeros, List.reverse_replicate] at whole
  exact whole.symm

/-- The shortest digits of a number are those of some amount without its last zeros. -/
theorem proper_dropZeros
    {amount : Nat}
    (positive : 0 < amount)
    (exponent : Int) :
    Proper ⟨dropZeros (digitsOf amount), exponent⟩ := by
  obtain ⟨c, rest, split, nonzero⟩ := toDigits_head_ne_zero positive
  obtain ⟨zeros, whole⟩ := exists_zeros (digitsOf amount)
  have digits : ∀ d ∈ dropZeros (digitsOf amount), d.isDigit = true := by
    intro d member
    have inside : d ∈ digitsOf amount := by
      rw [whole]
      exact List.mem_append_left _ member
    exact Nat.isDigit_of_mem_toDigits (by decide) (by decide) inside
  have first : (digitsOf amount).head? = some c := by
    rw [digitsOf, split]
    rfl
  cases kept : dropZeros (digitsOf amount) with
  | nil =>
      rw [whole, kept, List.nil_append, List.head?_replicate] at first
      split at first
      · cases first
      · exact absurd (Option.some.inj first).symm nonzero
  | cons d others =>
      rw [whole, kept] at first
      obtain rfl := Option.some.inj first
      refine ⟨List.cons_ne_nil _ _, fun zero => nonzero (Option.some.inj zero), ?_⟩
      rwa [kept] at digits

end Decimal

namespace Json.Numeral

open Decimal

/-! ## Layouts -/

theorem ofDecimal_spells
    (negative : Bool)
    {x : Decimal}
    (proper : x.Proper) :
    (ofDecimal negative x).Spells := by
  obtain ⟨digits, exponent⟩ := x
  obtain ⟨nonempty, leading, all⟩ := proper
  simp only at nonempty leading all
  obtain ⟨c, rest, rfl⟩ := List.exists_cons_of_ne_nil nonempty
  have first : c ≠ '0' := fun zero => leading (congrArg some zero)
  have zeros (count : Nat) : ∀ d ∈ List.replicate count '0', d.isDigit = true := by
    intro d member
    rw [List.eq_of_mem_replicate member]
    decide
  have leads (whole : List Char) (starts : whole.head? = some c) :
      whole ≠ [] ∧ ∀ others, whole = '0' :: others → others = [] := by
    obtain ⟨others, rfl⟩ := List.head?_eq_some_iff.mp starts
    exact ⟨List.cons_ne_nil _ _, fun _ same => absurd (List.cons.inj same).1 first⟩
  simp only [ofDecimal]
  split
  · split
    · refine ⟨List.cons_ne_nil _ _, fun others same => (List.cons.inj same).2.symm, ?_, nofun⟩
      simp only [List.forall_mem_append]
      exact ⟨zeros 1, zeros _, all⟩
    · split
      · obtain ⟨nonempty, leading⟩ :=
          leads (c :: rest ++ List.replicate _ '0') rfl
        refine ⟨nonempty, leading, ?_, nofun⟩
        simp only [List.forall_mem_append]
        exact ⟨⟨all, zeros _⟩, zeros 1⟩
      · obtain ⟨nonempty, leading⟩ :=
          leads ((c :: rest).take (exponent.toNat + 1)) rfl
        refine ⟨nonempty, leading, ?_, nofun⟩
        rwa [List.take_append_drop]
  · obtain ⟨nonempty, leading⟩ := leads ((c :: rest).take 1) rfl
    refine ⟨nonempty, leading, by rwa [List.take_append_drop], ?_⟩
    rintro mark ⟨⟩
    exact ⟨Nat.toDigits_ne_nil, fun d member =>
      Nat.isDigit_of_mem_toDigits (by decide) (by decide) member⟩

/-- Numbers are never written as integers. -/
theorem toInt?_ofDecimal
    (negative : Bool)
    {x : Decimal}
    (nonempty : x.digits ≠ []) :
    (ofDecimal negative x).toInt? = none := by
  refine if_neg ?_
  simp only [ofDecimal]
  split
  · split
    · simp [nonempty]
    · split
      · simp
      · next long => simp [long]
  · simp

/-- Zeros in front of digits count for nothing. -/
theorem natOf_zeros_append
    (count : Nat)
    (digits : List Char) :
    natOf (['0'] ++ (List.replicate count '0' ++ digits)) = natOf digits := by
  rw [natOf_append, natOf_append, natOf_zeros, Nat.zero_mul, Nat.zero_add]
  simp [natOf, digitValue]

section Padded

variable {digits : List Char} {places : Nat} (short : digits.length ≤ places + 1)

include short

/-- Digits are filled up with zeros to a number of places, and one behind the point. -/
theorem natOf_padded :
    natOf (digits ++ List.replicate (places + 1 - digits.length) '0' ++ ['0']) =
      natOf digits * 10 ^ (places + 2 - digits.length) := by
  have more : places + 2 - digits.length = places + 1 - digits.length + 1 := by omega
  rw [natOf_append, natOf_append, natOf_zeros, List.length_replicate, more, pow_succ]
  simp [natOf, digitValue, Nat.mul_assoc]

theorem natOf_padded_lt
    (all : ∀ c ∈ digits, c.isDigit = true)
    (few : places ≤ 12) :
    natOf digits * 10 ^ (places + 2 - digits.length) < 2 ^ 48 := by
  have less := natOf_lt all
  calc natOf digits * 10 ^ (places + 2 - digits.length)
      < 10 ^ digits.length * 10 ^ (places + 2 - digits.length) := by gcongr
    _ = 10 ^ (places + 2) := by
        rw [← pow_add]
        congr 1
        omega
    _ ≤ 10 ^ 14 := Nat.pow_le_pow_right (by decide) (by omega)
    _ < 2 ^ 48 := by norm_num

end Padded

/-- The digits of a decimal are read as a word and a power of ten. -/
theorem magnitude?_ofDecimal
    (negative : Bool)
    {x : Decimal}
    (proper : x.Proper)
    (few : x.digits.length ≤ 10)
    (low : -60 ≤ x.exponent - x.digits.length + 1)
    (high : x.exponent ≤ 60) :
    ∃ word power,
      (ofDecimal negative x).magnitude? =
        ((roundDouble (word, 1)).bind fun start => scale 4 start power) ∧
      word < 2 ^ 48 ∧
      (power.natAbs ≤ 22 ∨ power = x.exponent - x.digits.length + 1) ∧
      (word * 10 ^ power : ℚ) = natOf x.digits * 10 ^ (x.exponent - x.digits.length + 1) := by
  obtain ⟨digits, exponent⟩ := x
  have inhabited : 0 < digits.length := List.length_pos_iff.mpr proper.1
  simp only at *
  have small : natOf digits < 10 ^ 10 :=
    (natOf_lt proper.2.2).trans_le (Nat.pow_le_pow_right (by decide) few)
  have word {amount : Nat} (bounded : amount < 2 ^ 48) : amount ≤ greatestWord :=
    bounded.le.trans (by decide)
  have own : natOf digits < 2 ^ 48 := small.trans (by norm_num)
  simp only [ofDecimal]
  split
  · next positional =>
      split
      · next proper =>
          have digitsIs := natOf_zeros_append (-exponent - 1).toNat digits
          have read := magnitude?_positional negative (word (digitsIs ▸ own))
          rw [digitsIs] at read
          refine ⟨_, _, read, own, .inl ?_, ?_⟩
          · simp only [List.length_append, List.length_replicate]
            omega
          · congr 2
            simp only [List.length_append, List.length_replicate]
            omega
      · split
        · next short =>
            have digitsIs := natOf_padded short
            have bounded := natOf_padded_lt short proper.2.2 (by omega)
            have read := magnitude?_positional negative (word (digitsIs ▸ bounded))
            rw [digitsIs] at read
            refine ⟨_, _, read, bounded, .inl (by decide), ?_⟩
            push_cast
            rw [mul_assoc, ← zpow_natCast, ← zpow_add₀ (by norm_num)]
            congr 2
            simp only [List.length_singleton]
            omega
        · next long =>
            have digitsIs : natOf (digits.take (exponent.toNat + 1) ++
                digits.drop (exponent.toNat + 1)) = natOf digits := by
              rw [List.take_append_drop]
            have read := magnitude?_positional negative (word (digitsIs ▸ own))
            rw [digitsIs] at read
            refine ⟨_, _, read, own, .inl ?_, ?_⟩
            · rw [List.length_drop]
              omega
            · congr 2
              rw [List.length_drop]
              omega
  · have digitsIs : natOf (digits.take 1 ++ digits.drop 1) = natOf digits := by
      rw [List.take_append_drop]
    have powerIs : exponent - (digits.drop 1).length = exponent - digits.length + 1 := by
      rw [List.length_drop]
      omega
    have read :=
      magnitude?_exponential negative (word (digitsIs ▸ own)) (show exponent.natAbs ≤ 100 by omega)
        (by rw [List.length_drop]; omega)
    rw [digitsIs, powerIs] at read
    exact ⟨_, _, read, own, .inr rfl, rfl⟩

theorem negative_ofDecimal
    (negative : Bool)
    (x : Decimal) :
    (ofDecimal negative x).negative = negative := by
  simp only [ofDecimal]
  split
  · split
    · rfl
    · split <;> rfl
  · rfl

theorem magnitude?_ofDecimal_sign
    (negative : Bool)
    (x : Decimal) :
    (ofDecimal negative x).magnitude? = (ofDecimal false x).magnitude? := by
  simp only [ofDecimal]
  split
  · split
    · rfl
    · split <;> rfl
  · rfl

end Json.Numeral

/-! ## Reading back -/

namespace Decimal

open Json.Numeral

/-- The digits of a number are proper, and they are read as that number. -/
def ReadsBack (x : Scaled) : Prop :=
  (shortest .even x).Proper ∧
    ((ofDecimal false (shortest .even x)).magnitude?.bind fun y =>
      singlePrecision.round y.quotient.1 y.quotient.2) = some x

instance (x : Scaled) : Decidable (ReadsBack x) :=
  inferInstanceAs (Decidable (_ ∧ _))

theorem IsSingle.readsBack
    {x : Scaled}
    (single : IsSingle x)
    (wide : ¬ OnNarrowBoundary x) :
    ReadsBack x := by
  obtain ⟨amount, ten, low, high, positive, bounded, represents, same⟩ := single.shortest_eq .even
  obtain ⟨zeros, whole⟩ := exists_zeros (digitsOf amount)
  have proper := proper_dropZeros positive (ten + (digitsOf amount).length - 1)
  have count : (digitsOf amount).length ≤ 10 :=
    (Nat.length_toDigits_le_iff (by decide) (by decide)).mpr (bounded.trans_lt (by norm_num))
  have lengths := congrArg List.length whole
  have amounts : amount = natOf (dropZeros (digitsOf amount)) * 10 ^ zeros := by
    have value := congrArg natOf whole
    rwa [digitsOf, natOf_toDigits, ← digitsOf, natOf_append, natOf_zeros, List.length_replicate,
      Nat.add_zero] at value
  have inhabited := List.length_pos_iff.mpr proper.1
  rw [List.length_append, List.length_replicate] at lengths
  obtain ⟨word, power, read, small, powerIs, value⟩ :=
    magnitude?_ofDecimal false proper (by simp only at *; omega) (by simp only at *; omega)
      (by simp only at *; omega)
  simp only at value powerIs inhabited
  have shift :
      ten + ((digitsOf amount).length : Int) - 1 - (dropZeros (digitsOf amount)).length + 1 =
        ten + zeros := by
    omega
  rw [shift] at value powerIs
  have spelled : (word * 10 ^ power : ℚ) = amount * 10 ^ ten := by
    rw [value, add_comm, zpow_add₀ (by norm_num), zpow_natCast, ← mul_assoc]
    congr 1
    exact_mod_cast amounts.symm
  have some : 0 < word := by
    refine Nat.pos_of_ne_zero ?_
    rintro rfl
    have : (0 : ℚ) < amount * 10 ^ ten := by positivity
    rw [← spelled] at this
    simp at this
  obtain ⟨y, scaled, near, met⟩ := scale_reads some small (show power.natAbs ≤ 60 by omega)
  rw [spelled] at near met
  have rounds : RoundsTo x y.value := by
    refine represents.rounds_of_near single wide low high near fun modest boundary limit hit => ?_
    refine met (by omega) boundary (exponentBelow x - 1) (limit.trans (by decide)) ?_ hit
    have := single.exponentBelow_bounds
    omega
  refine ⟨same ▸ proper, ?_⟩
  rw [same, read, scaled, Option.bind_some]
  exact single.round y.quotient_pos (y.quotient_value ▸ rounds)

/-- The two numbers around the boundary that is too near are read back, too. -/
theorem readsBack_of_narrow
    {x : Scaled}
    (narrow : OnNarrowBoundary x) :
    ReadsBack x := by
  obtain ⟨mantissa, exponent⟩ := x
  obtain ⟨exponentIs, mantissaIs⟩ := narrow
  have least : binaryExponent narrowTen = -107 := by decide +kernel
  simp only [least, nearFraction] at exponentIs mantissaIs
  subst exponentIs
  rcases mantissaIs with above | below
  · obtain rfl : mantissa = 11420669 := by omega
    decide +kernel
  · obtain rfl : mantissa = 11420670 := by omega
    decide +kernel

end Decimal

namespace Single

open Decimal

variable {x : Single} {negative : Bool} {magnitude : Scaled}

/-- The parts of a finite number: a fraction alone, or with an exponent. -/
theorem view_eq_finite
    (view : x.view = .finite negative magnitude) :
    (∃ fraction < 0x800000,
        x.bits.toNat = signBit negative + fraction ∧ magnitude = ⟨fraction, -149⟩) ∨
      ∃ exponent fraction,
        0 < exponent ∧ exponent < 255 ∧ fraction < 0x800000 ∧
        x.bits.toNat = signBit negative + exponent * 0x800000 + fraction ∧
        magnitude = ⟨0x800000 + fraction, (exponent : Int) - 150⟩ := by
  have word := x.bits.toNat_lt
  have sign : signBit (decide (0x80000000 ≤ x.bits.toNat)) =
      x.bits.toNat / 0x80000000 * 0x80000000 := by
    simp only [signBit, decide_eq_true_eq]
    split <;> omega
  simp only [Single.view] at view
  split at view
  · split at view <;> cases view
  · next finite =>
      split at view
      · next zero =>
          obtain ⟨rfl, rfl⟩ := View.finite.inj view
          refine .inl ⟨x.bits.toNat % 0x800000, Nat.mod_lt _ (by decide), ?_, rfl⟩
          rw [sign]
          omega
      · next normal =>
          obtain ⟨rfl, rfl⟩ := View.finite.inj view
          refine .inr ⟨x.bits.toNat / 0x800000 % 256, x.bits.toNat % 0x800000,
            Nat.pos_of_ne_zero normal, by omega, Nat.mod_lt _ (by decide), ?_, rfl⟩
          rw [sign]
          omega

/-- The parts of a finite number give its bits again. -/
theorem ofScaled_view
    (view : x.view = .finite negative magnitude) :
    ofScaled negative magnitude = x := by
  rcases view_eq_finite view with ⟨fraction, small, bits, rfl⟩ |
    ⟨exponent, fraction, -, -, -, bits, rfl⟩
  · rw [ofScaled, if_pos small, ← bits, UInt32.ofNat_toNat]
  · rw [ofScaled, if_neg (by simp), Nat.add_sub_cancel_left, Int.sub_add_cancel,
      Int.toNat_natCast, ← bits, UInt32.ofNat_toNat]

/-- Every finite number but zero is read back from its digits. -/
theorem readsBack_of_view
    (view : x.view = .finite negative magnitude)
    (nonzero : magnitude.mantissa ≠ 0) :
    ReadsBack magnitude := by
  by_cases narrow : OnNarrowBoundary magnitude
  · exact readsBack_of_narrow narrow
  rcases view_eq_finite view with ⟨fraction, small, -, rfl⟩ |
    ⟨exponent, fraction, normal, finite, small, -, rfl⟩
  · refine IsSingle.readsBack ⟨?_, ?_, ?_, ?_, .inr rfl⟩ narrow <;> simp only at * <;> omega
  · refine IsSingle.readsBack ⟨?_, ?_, ?_, ?_, .inl ?_⟩ narrow <;> simp only <;> omega

end Single

namespace Json

theorem Node.ofSingle_written
    (x : Single) :
    (Node.ofSingle x).Written := by
  cases view : x.view with
  | finite negative magnitude =>
      simp only [Node.ofSingle, view]
      refine .number ?_
      split
      · exact ⟨List.cons_ne_nil _ _, by rintro _ ⟨⟩; rfl, by simp [Numeral.ofDecimal], nofun⟩
      · next nonzero =>
          exact Numeral.ofDecimal_spells negative (Single.readsBack_of_view view nonzero).1
  | _ =>
      simp only [Node.ofSingle, view]
      exact .null

/-- A number is read back from its document if and only if it is finite. -/
theorem Decode.single_ofSingle
    (x : Single) :
    Decode.single (.ofSingle x) = if x.isFinite then some x else none := by
  cases view : x.view with
  | finite negative magnitude =>
      have same := Single.ofScaled_view view
      simp only [Node.ofSingle, Single.isFinite, view, Decode.single, if_true]
      split
      · next zero =>
          have signed : ∀ negative, (Numeral.ofDecimal negative ⟨['0'], 0⟩).toSingle? =
              some (Single.zero negative) := by decide +kernel
          rw [signed, ← same, Single.ofScaled, zero]
          rfl
      · next nonzero =>
          obtain ⟨proper, read⟩ := Single.readsBack_of_view view nonzero
          obtain ⟨y, magnitudeIs, rounded⟩ := Option.bind_eq_some_iff.mp read
          rw [← Numeral.magnitude?_ofDecimal_sign negative] at magnitudeIs
          rw [Numeral.toSingle?, Numeral.toInt?_ofDecimal negative proper.1, magnitudeIs]
          simp only [Option.map_some, Single.ofQuotient, rounded, Numeral.negative_ofDecimal, same]
  | _ =>
      simp only [Node.ofSingle, Single.isFinite, view]
      rfl

end Json

end Fabula
