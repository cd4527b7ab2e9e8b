import Fabula.Text.Utf8

namespace Fabula.Text

/-!
# Texts and their octets

Every text has one sequence of octets, and only such sequences are read: reading octets
gives a text exactly when they are the octets of that text.  Characters are settled by the
number of their octets; a text is then read character by character.
-/

/-! ## One character -/

theorem isTail_iff
    {octet : UInt8} :
    isTail octet = true ↔ 128 ≤ octet.toNat ∧ octet.toNat ≤ 191 := by
  simp [isTail, UInt8.le_iff_toNat_le]

theorem secondOfThree_iff
    {first second : UInt8} :
    secondOfThree first second = true ↔
      (128 ≤ second.toNat ∧ second.toNat ≤ 191) ∧
        (first.toNat = 224 → 160 ≤ second.toNat) ∧
        (first.toNat = 237 → second.toNat ≤ 159) := by
  simp only [secondOfThree, isTail, ← UInt8.toNat_inj, UInt8.le_iff_toNat_le]
  split
  · simp_all; omega
  · split
    · simp_all; omega
    · simp_all

theorem secondOfFour_iff
    {first second : UInt8} :
    secondOfFour first second = true ↔
      (128 ≤ second.toNat ∧ second.toNat ≤ 191) ∧
        (first.toNat = 240 → 144 ≤ second.toNat) ∧
        (first.toNat = 244 → second.toNat ≤ 143) := by
  simp only [secondOfFour, isTail, ← UInt8.toNat_inj, UInt8.le_iff_toNat_le]
  split
  · simp_all; omega
  · split
    · simp_all; omega
    · simp_all

/-- The octets of one character, with the number of the character. -/
inductive Spelled : List UInt8 → Nat → Prop where
  | one
      {a : UInt8}
      (first : a.toNat < 128) :
      Spelled [a] a.toNat
  | two
      {a b : UInt8}
      (first : 194 ≤ a.toNat ∧ a.toNat ≤ 223)
      (second : isTail b = true) :
      Spelled [a, b] (a.toNat % 32 * 64 + tailBits b)
  | three
      {a b c : UInt8}
      (first : 224 ≤ a.toNat ∧ a.toNat ≤ 239)
      (second : secondOfThree a b = true)
      (third : isTail c = true) :
      Spelled [a, b, c] (a.toNat % 16 * 4096 + tailBits b * 64 + tailBits c)
  | four
      {a b c d : UInt8}
      (first : 240 ≤ a.toNat ∧ a.toNat ≤ 244)
      (second : secondOfFour a b = true)
      (third : isTail c = true)
      (fourth : isTail d = true) :
      Spelled [a, b, c, d]
        (a.toNat % 8 * 262144 + tailBits b * 4096 + tailBits c * 64 + tailBits d)

/-- A character has an octet. -/
theorem Spelled.length_pos
    {octets : List UInt8}
    {n : Nat}
    (spelled : Spelled octets n) :
    0 < octets.length := by
  cases spelled <;> exact Nat.succ_pos _

/-- What spells a character is read as that character, whatever comes after it. -/
theorem Spelled.utf8Head
    {octets : List UInt8}
    {n : Nat}
    (spelled : Spelled octets n)
    (rest : List UInt8) :
    utf8Head (octets ++ rest) = .char (Char.ofNat n) octets.length := by
  cases spelled with
  | one first =>
      simp [Text.utf8Head, UInt8.lt_iff_toNat_lt, first]
  | two first second =>
      have big := Nat.not_lt_of_le (Nat.le_trans (by decide : 128 ≤ 194) first.1)
      simp [Text.utf8Head, UInt8.lt_iff_toNat_lt, UInt8.le_iff_toNat_le, big, first, second]
  | three first second third =>
      have big := Nat.not_lt_of_le (Nat.le_trans (by decide : 128 ≤ 224) first.1)
      have notTwo := Nat.not_le_of_lt (Nat.lt_of_lt_of_le (by decide : 223 < 224) first.1)
      simp [Text.utf8Head, UInt8.lt_iff_toNat_lt, UInt8.le_iff_toNat_le, big, notTwo, first,
        second, third]
  | four first second third fourth =>
      have big := Nat.not_lt_of_le (Nat.le_trans (by decide : 128 ≤ 240) first.1)
      have notTwo := Nat.not_le_of_lt (Nat.lt_of_lt_of_le (by decide : 223 < 240) first.1)
      have notThree := Nat.not_le_of_lt (Nat.lt_of_lt_of_le (by decide : 239 < 240) first.1)
      simp [Text.utf8Head, UInt8.lt_iff_toNat_lt, UInt8.le_iff_toNat_le, big, notTwo, notThree,
        first, second, third, fourth]

/-- Only what spells a character is read as one. -/
theorem spelled_of_utf8Head
    {octets : List UInt8}
    {c : Char}
    {width : Nat}
    (read : utf8Head octets = .char c width) :
    ∃ own rest n,
      octets = own ++ rest ∧ Spelled own n ∧ c = Char.ofNat n ∧ width = own.length := by
  cases octets with
  | nil =>
      cases read
  | cons a rest =>
      simp only [utf8Head] at read
      split at read
      · next first =>
          cases read
          have small : a.toNat < 128 := by simpa [UInt8.lt_iff_toNat_lt] using first
          exact ⟨[a], rest, _, rfl, .one small, rfl, rfl⟩
      split at read
      · next first =>
          have range : 194 ≤ a.toNat ∧ a.toNat ≤ 223 := by
            simpa [UInt8.le_iff_toNat_le] using first
          cases rest with
          | nil => cases read
          | cons b rest =>
              simp only at read
              split at read
              · next second =>
                  cases read
                  exact ⟨[a, b], rest, _, rfl, .two range second, rfl, rfl⟩
              · cases read
      split at read
      · next first =>
          have range : 224 ≤ a.toNat ∧ a.toNat ≤ 239 := by
            simpa [UInt8.le_iff_toNat_le] using first
          rcases rest with _ | ⟨b, _ | ⟨c, rest⟩⟩
          · cases read
          · simp only at read
            split at read <;> cases read
          · simp only at read
            split at read
            · next second =>
                split at read
                · next third =>
                    cases read
                    exact ⟨[a, b, c], rest, _, rfl, .three range second third, rfl, rfl⟩
                · cases read
            · cases read
      split at read
      · next first =>
          have range : 240 ≤ a.toNat ∧ a.toNat ≤ 244 := by
            simpa [UInt8.le_iff_toNat_le] using first
          rcases rest with _ | ⟨b, _ | ⟨c, _ | ⟨d, rest⟩⟩⟩
          · cases read
          · simp only at read
            split at read <;> cases read
          · simp only at read
            split at read
            · split at read <;> cases read
            · cases read
          · simp only at read
            split at read
            · next second =>
                split at read
                · next third =>
                    split at read
                    · next fourth =>
                        cases read
                        exact
                          ⟨[a, b, c, d], rest, _, rfl, .four range second third fourth, rfl, rfl⟩
                    · cases read
                · cases read
            · cases read
      · cases read

/-- There is something at the head of octets. -/
theorem utf8Head_cons_ne_ended
    (octet : UInt8)
    (rest : List UInt8) :
    utf8Head (octet :: rest) ≠ .ended := by
  simp only [utf8Head]
  repeat' split
  all_goals exact nofun

/-- The octets of a character spell it. -/
theorem spelled_utf8EncodeChar
    (c : Char) :
    Spelled (String.utf8EncodeChar c) c.val.toNat := by
  have valid : c.val.toNat < 55296 ∨ 57343 < c.val.toNat ∧ c.val.toNat < 1114112 := c.valid
  have octet {n : Nat} (small : n < 256) : (UInt8.ofNat n).toNat = n :=
    UInt8.toNat_ofNat_of_lt' small
  have renumber {octets : List UInt8} {n m : Nat} (spelled : Spelled octets n) (same : n = m) :
      Spelled octets m :=
    same ▸ spelled
  simp only [String.utf8EncodeChar]
  generalize c.val.toNat = n at valid ⊢
  split
  · next small =>
      exact renumber (.one (by rw [octet] <;> omega)) (octet (by omega))
  split
  · next small =>
      refine renumber
        (.two (by rw [octet] <;> omega) (isTail_iff.mpr (by rw [octet] <;> omega))) ?_
      rw [tailBits, octet (by omega), octet (by omega)]
      omega
  split
  · next small =>
      refine renumber
        (.three (by rw [octet] <;> omega)
          (secondOfThree_iff.mpr (by rw [octet (by omega), octet (by omega)]; omega))
          (isTail_iff.mpr (by rw [octet] <;> omega))) ?_
      rw [tailBits, tailBits, octet (by omega), octet (by omega), octet (by omega)]
      omega
  · next large =>
      refine renumber
        (.four (by rw [octet] <;> omega)
          (secondOfFour_iff.mpr (by rw [octet (by omega), octet (by omega)]; omega))
          (isTail_iff.mpr (by rw [octet] <;> omega))
          (isTail_iff.mpr (by rw [octet] <;> omega))) ?_
      rw [tailBits, tailBits, tailBits, octet (by omega), octet (by omega), octet (by omega),
        octet (by omega)]
      omega

/-- What spells a character are its octets. -/
theorem Spelled.utf8EncodeChar_eq
    {octets : List UInt8}
    {n : Nat}
    (spelled : Spelled octets n) :
    String.utf8EncodeChar (Char.ofNat n) = octets := by
  have value {n : Nat} (valid : n < 55296 ∨ 57343 < n ∧ n < 1114112) :
      (Char.ofNat n).val.toNat = n := by
    have valid : n.isValidChar := valid
    rw [Char.ofNat, dif_pos valid]
    rfl
  have same {n : Nat} (octet : UInt8) (number : n = octet.toNat) : UInt8.ofNat n = octet := by
    rw [number, UInt8.ofNat_toNat]
  cases spelled with
  | @one a first =>
      rw [String.utf8EncodeChar, value (by omega), if_pos (by omega), same a rfl]
  | @two a b first second =>
      have second := isTail_iff.mp second
      simp only [tailBits]
      rw [String.utf8EncodeChar, value (by omega), if_neg (by omega), if_pos (by omega),
        same a (by omega), same b (by omega)]
  | @three a b c first second third =>
      have second := secondOfThree_iff.mp second
      have third := isTail_iff.mp third
      simp only [tailBits]
      rw [String.utf8EncodeChar, value (by omega), if_neg (by omega), if_neg (by omega),
        if_pos (by omega), same a (by omega), same b (by omega), same c (by omega)]
  | @four a b c d first second third fourth =>
      have second := secondOfFour_iff.mp second
      have third := isTail_iff.mp third
      have fourth := isTail_iff.mp fourth
      simp only [tailBits]
      rw [String.utf8EncodeChar, value (by omega), if_neg (by omega), if_neg (by omega),
        if_neg (by omega), same a (by omega), same b (by omega), same c (by omega),
        same d (by omega)]

/-! ## Whole texts -/

/-- Octets of the character before are passed over. -/
theorem decodeFrom_skip
    (position skip : Nat)
    (octets : List UInt8) :
    decodeFrom position skip octets =
      decodeFrom (position + skip) 0 (octets.drop skip) := by
  induction octets generalizing position skip with
  | nil =>
      simp [decodeFrom]
  | cons octet rest inductionHypothesis =>
      cases skip with
      | zero =>
          rfl
      | succ skip =>
          rw [decodeFrom, inductionHypothesis, List.drop_succ_cons]
          congr 1
          omega

/-- Reading starts with the first character. -/
theorem decodeFrom_append
    {own : List UInt8}
    {n : Nat}
    (spelled : Spelled own n)
    (position : Nat)
    (rest : List UInt8) :
    decodeFrom position 0 (own ++ rest) =
      (decodeFrom (position + own.length) 0 rest).map (Char.ofNat n :: ·) := by
  have read := spelled.utf8Head rest
  obtain ⟨first, tail, rfl⟩ :=
    List.exists_cons_of_ne_nil (List.length_pos_iff.mp spelled.length_pos)
  rw [List.cons_append] at read ⊢
  have position_eq : position + 1 + tail.length = position + (tail.length + 1) := by omega
  simp only [decodeFrom, read, decodeFrom_skip (position + 1), List.length_cons,
    Nat.add_sub_cancel, List.drop_left', position_eq]
  cases decodeFrom (position + (tail.length + 1)) 0 rest <;> rfl

/-- The octets of characters are read as these characters. -/
theorem decodeFrom_encodeUtf8
    (position : Nat)
    (text : List Char) :
    decodeFrom position 0 (encodeUtf8 text) = .ok text := by
  induction text generalizing position with
  | nil =>
      rfl
  | cons c rest inductionHypothesis =>
      have split : encodeUtf8 (c :: rest) = String.utf8EncodeChar c ++ encodeUtf8 rest :=
        List.flatMap_cons
      have own : Char.ofNat c.val.toNat = c := Char.ofNat_toNat c
      rw [split, decodeFrom_append (spelled_utf8EncodeChar c), inductionHypothesis, own]
      rfl

/-- Only the octets of characters are read as these characters. -/
theorem encodeUtf8_of_decodeFrom
    {octets : List UInt8}
    {position : Nat}
    {text : List Char}
    (read : decodeFrom position 0 octets = .ok text) :
    octets = encodeUtf8 text := by
  -- The induction is on the number of octets: a character takes at least one.
  induction size : octets.length using Nat.strongRecOn generalizing octets position text with
  | _ count inductionHypothesis =>
      cases octets with
      | nil =>
          cases read
          rfl
      | cons octet rest =>
          cases head : utf8Head (octet :: rest) with
          | ended =>
              exact absurd head (utf8Head_cons_ne_ended octet rest)
          | faulty length? =>
              simp [decodeFrom, head] at read
          | char c width =>
              obtain ⟨own, after, n, split, spelled, -, -⟩ := spelled_of_utf8Head head
              rw [split, decodeFrom_append spelled] at read
              cases later : decodeFrom (position + own.length) 0 after with
              | error fault =>
                  simp [later, Except.map] at read
              | ok tail =>
                  simp only [later, Except.map, Except.ok.injEq] at read
                  have shorter : after.length < count := by
                    have positive := spelled.length_pos
                    rw [split, List.length_append] at size
                    omega
                  rw [split, ← read, inductionHypothesis after.length shorter later rfl,
                    encodeUtf8, encodeUtf8, List.flatMap_cons, spelled.utf8EncodeChar_eq]

/-- Reading octets gives a text exactly when they are its octets. -/
theorem ofOctets_eq_ok_iff
    {bytes : List UInt8}
    {text : String} :
    ofOctets bytes = .ok text ↔ bytes = octets text := by
  constructor
  · intro read
    cases decoded : decodeUtf8 bytes with
    | error fault =>
        simp [ofOctets, decoded, Except.map] at read
    | ok characters =>
        simp only [ofOctets, decoded, Except.map, Except.ok.injEq] at read
        rw [encodeUtf8_of_decodeFrom decoded, octets, ← read, String.toList_ofList]
  · rintro rfl
    simp [ofOctets, decodeUtf8, octets, decodeFrom_encodeUtf8, Except.map]

end Fabula.Text
