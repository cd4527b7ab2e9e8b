namespace Fabula.LittleEndian

/-!
# Words as octets

Words are stored with their lowest octet first.
-/

/-- The given number of octets of a number, the lowest first. -/
def octets : Nat → Nat → List UInt8
  | 0, _ => []
  | count + 1, n => UInt8.ofNat (n % 256) :: octets count (n / 256)

/-- The number of a sequence of octets, the lowest first. -/
def value : List UInt8 → Nat
  | [] => 0
  | octet :: rest => octet.toNat + 256 * value rest

/-- The four octets of a 32-bit word. -/
def word32 (word : UInt32) : List UInt8 :=
  octets 4 word.toNat

/-- The two octets of a 16-bit word. -/
def word16 (word : UInt16) : List UInt8 :=
  octets 2 word.toNat

/-- The number of octets is the number asked for. -/
@[simp]
theorem length_octets (count n : Nat) : (octets count n).length = count := by
  induction count generalizing n with
  | zero => rfl
  | succ count inductionHypothesis => simp [octets, inductionHypothesis]

/-- Octets read back as the part of the number that they hold. -/
theorem value_octets (count n : Nat) : value (octets count n) = n % Nat.pow 256 count := by
  induction count generalizing n with
  | zero => simp [octets, value, Nat.mod_one]
  | succ count inductionHypothesis =>
      have power : Nat.pow 256 (count + 1) = 256 * Nat.pow 256 count :=
        Nat.mul_comm _ _
      have lowest : (UInt8.ofNat (n % 256)).toNat = n % 256 := by
        simp [UInt8.toNat_ofNat']
      rw [octets, value, inductionHypothesis, lowest, power, Nat.mod_mul]

/-- A 32-bit word reads back. -/
@[simp]
theorem value_word32 (word : UInt32) : value (word32 word) = word.toNat := by
  rw [word32, value_octets]
  exact Nat.mod_eq_of_lt word.toNat_lt

/-- A 16-bit word reads back. -/
@[simp]
theorem value_word16 (word : UInt16) : value (word16 word) = word.toNat := by
  rw [word16, value_octets]
  exact Nat.mod_eq_of_lt word.toNat_lt

end Fabula.LittleEndian
