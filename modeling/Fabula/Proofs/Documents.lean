import Fabula.Json.Parser
import Fabula.Json.Printer
import Fabula.Proofs.Utf8

namespace Fabula.Json

/-!
# Written documents are read back

What is written of a document with well-formed texts and numerals is read as that
document, whatever the texts hold.  Each part is read in front of what may follow it:
the digits of a numeral end at the mark after a value, and every other part ends by itself.
-/

open Text

theorem encodeUtf8_append
    (left right : List Char) :
    encodeUtf8 (left ++ right) = encodeUtf8 left ++ encodeUtf8 right :=
  List.flatMap_append

theorem encodeUtf8_cons
    (c : Char)
    (rest : List Char) :
    encodeUtf8 (c :: rest) = String.utf8EncodeChar c ++ encodeUtf8 rest :=
  List.flatMap_cons

/-! ## Texts -/

/-- An octet that stands for itself in a text. -/
def IsRaw (b : UInt8) : Prop :=
  32 ≤ b.toNat ∧ b ≠ 34 ∧ b ≠ 92

/-- The octets of a character that is not escaped. -/
theorem isRaw_of_spelled
    {octets : List UInt8}
    {n : Nat}
    (spelled : Spelled octets n)
    (large : 32 ≤ n)
    (quote : n ≠ 34)
    (backslash : n ≠ 92) :
    ∀ b ∈ octets, IsRaw b := by
  have high {b : UInt8} (bound : 93 ≤ b.toNat) : IsRaw b := by
    refine ⟨by omega, ?_, ?_⟩ <;> rintro rfl <;> exact absurd bound (by decide)
  cases spelled with
  | @one a first =>
      intro b member
      rw [List.mem_singleton.mp member]
      refine ⟨large, ?_, ?_⟩ <;> rintro rfl <;> contradiction
  | @two a b first second =>
      have second := isTail_iff.mp second
      simp only [List.mem_cons, List.not_mem_nil, or_false]
      rintro octet (rfl | rfl) <;> exact high (by omega)
  | @three a b c first second third =>
      have second := secondOfThree_iff.mp second
      have third := isTail_iff.mp third
      simp only [List.mem_cons, List.not_mem_nil, or_false]
      rintro octet (rfl | rfl | rfl) <;> exact high (by omega)
  | @four a b c d first second third fourth =>
      have second := secondOfFour_iff.mp second
      have third := isTail_iff.mp third
      have fourth := isTail_iff.mp fourth
      simp only [List.mem_cons, List.not_mem_nil, or_false]
      rintro octet (rfl | rfl | rfl | rfl) <;> exact high (by omega)

theorem TextState.add_add
    (state : TextState)
    (first second : List UInt8) :
    (state.add first).add second = state.add (first ++ second) := by
  simp [TextState.add]

theorem parseText_raw
    {b : UInt8}
    (raw : IsRaw b)
    (state : TextState)
    (rest : List UInt8) :
    parseText state (b :: rest) = parseText (state.add [b]) rest := by
  obtain ⟨large, quote, backslash⟩ := raw
  have control : (decide (b < 32) || decide (b = 92)) = false := by
    have large : ¬ b < 32 := by
      rw [UInt8.lt_iff_toNat_lt]
      exact Nat.not_lt.mpr large
    rw [decide_eq_false large, decide_eq_false backslash]
    rfl
  rw [parseText.eq_def]
  split
  · contradiction
  · next same => exact absurd (List.cons.inj same).1 quote
  · next same => exact absurd (List.cons.inj same).1 backslash
  · next same => exact absurd (List.cons.inj same).1 backslash
  · next same =>
      obtain ⟨rfl, rfl⟩ := List.cons.inj same
      rw [control]
      rfl

theorem parseText_raws
    {own : List UInt8}
    (nonempty : own ≠ [])
    (raw : ∀ b ∈ own, IsRaw b)
    (state : TextState)
    (rest : List UInt8) :
    parseText state (own ++ rest) = parseText (state.add own) rest := by
  induction own generalizing state with
  | nil =>
      exact absurd rfl nonempty
  | cons b own inductionHypothesis =>
      rw [List.cons_append, parseText_raw (raw b List.mem_cons_self)]
      cases own with
      | nil =>
          rfl
      | cons c own =>
          rw [inductionHypothesis (List.cons_ne_nil c own)
            fun b member => raw b (List.mem_cons_of_mem _ member), TextState.add_add]
          rfl

/-- The octet of an ASCII character. -/
theorem utf8EncodeChar_ofNat :
    ∀ unit < 128, String.utf8EncodeChar (Char.ofNat unit) = [UInt8.ofNat unit] := by
  decide

/-- Whether octets are an escape for a code unit: a short one or its number. -/
def isEscape (unit : Nat) : List UInt8 → Bool
  | [92, b] => b != 117 && shortEscape? b == some (UInt8.ofNat unit)
  | [92, 117, a, b, c, d] => hexValues? a b c d == some unit
  | _ => false

theorem isEscape_escapeChar :
    ∀ unit < 128, unit < 32 ∨ unit = 34 ∨ unit = 92 →
      isEscape unit (encodeUtf8 (escapeChar (Char.ofNat unit))) = true := by
  decide

theorem parseText_escape
    {unit : Nat}
    (small : unit < 128)
    {own : List UInt8}
    (escape : isEscape unit own = true)
    (state : TextState)
    (rest : List UInt8) :
    parseText state (own ++ rest) = parseText (state.add [UInt8.ofNat unit]) rest := by
  rw [isEscape.eq_def] at escape
  split at escape
  · next b =>
      simp only [Bool.and_eq_true, bne_iff_ne, beq_iff_eq] at escape
      obtain ⟨other, known⟩ := escape
      simp [parseText, known, other]
  · next a b c d =>
      have known := beq_iff_eq.mp escape
      have plain : state.addUnit unit = state.add [UInt8.ofNat unit] := by
        rw [TextState.addUnit, if_neg (by omega), if_neg (by omega),
          utf8EncodeChar_ofNat unit small]
      simp [parseText, known, plain]
  · cases escape

theorem escapeChar_of_plain
    {c : Char}
    (plain : ¬ (c.toNat < 32 ∨ c.toNat = 34 ∨ c.toNat = 92)) :
    escapeChar c = [c] := by
  have other {d : Char} (special : d.toNat < 32 ∨ d.toNat = 34 ∨ d.toNat = 92) : c ≠ d := by
    rintro rfl
    exact plain special
  simp only [not_or, Nat.not_lt] at plain
  rw [escapeChar, if_neg (other (by decide)), if_neg (other (by decide)),
    if_neg (other (by decide)), if_neg (other (by decide)), if_neg (other (by decide)),
    if_neg (other (by decide)), if_neg (other (by decide)), if_neg (by omega),
    if_neg (by omega)]

/-- A character is read back from the way it stands in a text. -/
theorem parseText_escapeChar
    (c : Char)
    (state : TextState)
    (rest : List UInt8) :
    parseText state (encodeUtf8 (escapeChar c) ++ rest) =
      parseText (state.add (String.utf8EncodeChar c)) rest := by
  by_cases special : c.toNat < 32 ∨ c.toNat = 34 ∨ c.toNat = 92
  · have small : c.toNat < 128 := by omega
    have escape := isEscape_escapeChar c.toNat small special
    have own := utf8EncodeChar_ofNat c.toNat small
    rw [Char.ofNat_toNat] at escape own
    rw [parseText_escape small escape, own]
  · have spelled := spelled_utf8EncodeChar c
    have single : encodeUtf8 [c] = String.utf8EncodeChar c := List.flatMap_singleton _ _
    have nonempty := List.length_pos_iff.mp spelled.length_pos
    rw [escapeChar_of_plain special, single]
    refine parseText_raws nonempty (isRaw_of_spelled spelled ?_ ?_ ?_) state rest
    all_goals simp only [not_or, Nat.not_lt] at special
    · exact special.1
    · exact special.2.1
    · exact special.2.2

theorem parseText_flatMap
    (characters : List Char)
    (before rest : List UInt8) :
    parseText ⟨before, none, true⟩ (encodeUtf8 (characters.flatMap escapeChar) ++ 34 :: rest) =
      some ((ofOctets (before.reverse ++ encodeUtf8 characters)).toOption, rest) := by
  induction characters generalizing before with
  | nil =>
      simp [encodeUtf8, parseText, TextState.finish]
  | cons c characters inductionHypothesis =>
      rw [List.flatMap_cons, encodeUtf8_append, List.append_assoc, parseText_escapeChar]
      refine (inductionHypothesis ((String.utf8EncodeChar c).reverse ++ before)).trans ?_
      rw [encodeUtf8_cons, List.reverse_append, List.reverse_reverse, List.append_assoc]

/-- A text is read back after its opening quote. -/
theorem parseText_writeText
    (s : String) :
    ∃ own, encodeUtf8 (writeText s) = 34 :: own ∧
      ∀ rest, parseText .start (own ++ rest) = some (some s, rest) := by
  refine ⟨encodeUtf8 (s.toList.flatMap escapeChar) ++ [34], ?_, fun rest => ?_⟩
  · rw [writeText, encodeUtf8_append, encodeUtf8_cons]
    rfl
  · have read : ofOctets (octets s) = .ok s := ofOctets_eq_ok_iff.mpr rfl
    rw [List.append_assoc]
    refine (parseText_flatMap s.toList [] rest).trans ?_
    rw [List.reverse_nil, List.nil_append]
    change some ((ofOctets (octets s)).toOption, rest) = _
    rw [read]
    rfl

/-! ## Numerals -/

/-- What may follow a value inside a document: a mark, or the end. -/
def Closes (rest : List UInt8) : Prop :=
  ∀ b ∈ rest.head?, b = 44 ∨ b = 93 ∨ b = 125

/-- The octet of a digit is read as that digit. -/
theorem utf8EncodeChar_digit :
    ∀ unit < 128, (Char.ofNat unit).isDigit = true →
      isDigit (UInt8.ofNat unit) = true ∧ charOf (UInt8.ofNat unit) = Char.ofNat unit := by
  decide

theorem encodeUtf8_digit
    {c : Char}
    (digit : c.isDigit = true) :
    ∃ b, String.utf8EncodeChar c = [b] ∧ isDigit b = true ∧ charOf b = c := by
  have small : c.toNat < 128 := by
    simp only [Char.isDigit, Bool.and_eq_true, decide_eq_true_eq, UInt32.le_iff_toNat_le] at digit
    exact Nat.lt_of_le_of_lt digit.2 (by decide)
  refine ⟨UInt8.ofNat c.toNat, ?_⟩
  have own := utf8EncodeChar_ofNat c.toNat small
  have read := utf8EncodeChar_digit c.toNat small
  rw [Char.ofNat_toNat] at own read
  exact ⟨own, read digit⟩

/-- Digits are taken up to what is no digit. -/
theorem takeDigits_append
    {digits : List Char}
    (each : ∀ c ∈ digits, c.isDigit = true)
    {rest : List UInt8}
    (stop : ∀ b ∈ rest.head?, isDigit b = false) :
    takeDigits (encodeUtf8 digits ++ rest) = (digits, rest) := by
  induction digits with
  | nil =>
      cases rest with
      | nil =>
          rfl
      | cons b rest =>
          simp [encodeUtf8, takeDigits, stop b rfl]
  | cons c digits inductionHypothesis =>
      have others := inductionHypothesis fun d member => each d (List.mem_cons_of_mem c member)
      obtain ⟨b, own, digit, same⟩ := encodeUtf8_digit (each c List.mem_cons_self)
      simp only [takeDigits, Prod.mk.injEq] at others
      rw [encodeUtf8_cons, own]
      simp [takeDigits, digit, same, others.1, others.2]

/-- A numeral as it may be written: digits without leading zeros, and none of its parts empty. -/
structure Numeral.Spells (n : Numeral) : Prop where
  whole : n.whole ≠ []
  leading : ∀ rest, n.whole = '0' :: rest → rest = []
  digits : ∀ c ∈ n.whole ++ n.fraction, c.isDigit = true
  exponent :
    ∀ mark ∈ n.exponent, mark.2 ≠ [] ∧ ∀ c ∈ mark.2, c.isDigit = true

/-- An exponent after its mark. -/
theorem parseExponent_append
    {mark : Bool × List Char}
    (nonempty : mark.2 ≠ [])
    (digits : ∀ c ∈ mark.2, c.isDigit = true)
    {rest : List UInt8}
    (closes : Closes rest) :
    parseExponent
        (encodeUtf8 ((if mark.1 then '-' else '+') :: mark.2) ++ rest) = some (mark, rest) := by
  have stop : ∀ b ∈ rest.head?, isDigit b = false := by
    intro b first
    rcases closes b first with rfl | rfl | rfl <;> rfl
  have taken := takeDigits_append digits stop
  obtain ⟨negative, exponent⟩ := mark
  have filled : exponent.isEmpty = false := by
    simpa using nonempty
  cases negative
  · rw [encodeUtf8_cons]
    change parseExponent (43 :: (encodeUtf8 exponent ++ rest)) = _
    simp [parseExponent, taken, filled]
  · rw [encodeUtf8_cons]
    change parseExponent (45 :: (encodeUtf8 exponent ++ rest)) = _
    simp [parseExponent, taken, filled]

/-- The mark of an exponent with its digits. -/
def exponentText : Option (Bool × List Char) → List Char
  | none => []
  | some (negative, digits) => 'e' :: (if negative then '-' else '+') :: digits

/-- The point with the digits after it. -/
def fractionText (digits : List Char) : List Char :=
  if digits = [] then [] else '.' :: digits

theorem Numeral.write_eq
    (n : Numeral) :
    n.write =
      (if n.negative then ['-'] else []) ++
        (n.whole ++ (fractionText n.fraction ++ exponentText n.exponent)) := by
  simp only [write, fractionText, List.append_assoc]
  rfl

/-- Read the part of a numeral after the digits of its fraction. -/
def parseMark (negative : Bool) (whole fraction : List Char) (input : List UInt8) :
    Option (Numeral × List UInt8) :=
  match input with
  | 101 :: rest | 69 :: rest => do
      let exponent ← parseExponent rest
      pure (⟨negative, whole, fraction, some exponent.1⟩, exponent.2)
  | other => pure (⟨negative, whole, fraction, none⟩, other)

theorem parseTail_fraction
    (negative : Bool)
    (whole : List Char)
    {fraction : List Char}
    (digits : ∀ c ∈ fraction, c.isDigit = true)
    {rest : List UInt8}
    (stop : ∀ b ∈ rest.head?, isDigit b = false ∧ b ≠ 46) :
    parseTail negative whole (encodeUtf8 (fractionText fraction) ++ rest) =
      parseMark negative whole fraction rest := by
  by_cases empty : fraction = []
  · subst empty
    cases rest with
    | nil =>
        rfl
    | cons b rest =>
        have other : b ≠ 46 := (stop b rfl).2
        simp only [fractionText, if_true, encodeUtf8, List.flatMap_nil, List.nil_append, parseTail,
          bind, Option.bind]
        split
        · next same => exact absurd (List.cons.inj same).1 other
        · rfl
  · have taken := takeDigits_append digits fun b first => (stop b first).1
    have filled : fraction.isEmpty = false := by
      simpa using empty
    rw [fractionText, if_neg empty, encodeUtf8_cons]
    change parseTail negative whole (46 :: (encodeUtf8 fraction ++ rest)) = _
    simp only [parseTail, taken, filled]
    rfl

theorem parseMark_append
    (negative : Bool)
    (whole fraction : List Char)
    {exponent : Option (Bool × List Char)}
    (digits : ∀ mark ∈ exponent, mark.2 ≠ [] ∧ ∀ c ∈ mark.2, c.isDigit = true)
    {rest : List UInt8}
    (closes : Closes rest) :
    parseMark negative whole fraction (encodeUtf8 (exponentText exponent) ++ rest) =
      some (⟨negative, whole, fraction, exponent⟩, rest) := by
  cases exponent with
  | none =>
      cases rest with
      | nil =>
          rfl
      | cons b rest =>
          rcases closes b rfl with rfl | rfl | rfl <;> rfl
  | some mark =>
      obtain ⟨nonempty, digits⟩ := digits mark rfl
      have read := parseExponent_append nonempty digits closes
      rw [exponentText, encodeUtf8_cons]
      change parseMark negative whole fraction
        (101 :: (encodeUtf8 ((if mark.1 then '-' else '+') :: mark.2) ++ rest)) = _
      simp only [parseMark, read]
      rfl

theorem head_exponentText
    (exponent : Option (Bool × List Char))
    {rest : List UInt8}
    (closes : Closes rest) :
    ∀ b ∈ (encodeUtf8 (exponentText exponent) ++ rest).head?, isDigit b = false ∧ b ≠ 46 := by
  cases exponent with
  | none =>
      intro b first
      rcases closes b first with rfl | rfl | rfl <;> decide
  | some mark =>
      rw [exponentText, encodeUtf8_cons]
      rintro b ⟨⟩
      decide

/-- What follows the whole digits of a numeral is no digit. -/
theorem head_tail
    (fraction : List Char)
    (exponent : Option (Bool × List Char))
    {rest : List UInt8}
    (closes : Closes rest) :
    ∀ b ∈ (encodeUtf8 (fractionText fraction) ++
        (encodeUtf8 (exponentText exponent) ++ rest)).head?, isDigit b = false := by
  by_cases empty : fraction = []
  · simp only [fractionText, if_pos empty]
    exact fun b first => (head_exponentText exponent closes b first).1
  · rw [fractionText, if_neg empty, encodeUtf8_cons]
    rintro b ⟨⟩
    decide

/-- Read a numeral after its sign. -/
def parseUnsigned (negative : Bool) (input : List UInt8) : Option (Numeral × List UInt8) :=
  match (takeDigits input).1 with
  | [] => none
  | '0' :: _ :: _ => none
  | whole => parseTail negative whole (takeDigits input).2

theorem parseUnsigned_write
    {n : Numeral}
    (spells : n.Spells)
    {rest : List UInt8}
    (closes : Closes rest) :
    parseUnsigned n.negative
        (encodeUtf8 n.whole ++ (encodeUtf8 (fractionText n.fraction) ++
          (encodeUtf8 (exponentText n.exponent) ++ rest))) =
      some (n, rest) := by
  obtain ⟨negative, whole, fraction, exponent⟩ := n
  have taken :=
    takeDigits_append (fun c member => spells.digits c (List.mem_append_left _ member))
      (head_tail fraction exponent closes)
  have read :=
    (parseTail_fraction negative whole
      (fun c member => spells.digits c (List.mem_append_right _ member))
      (head_exponentText exponent closes)).trans
      (parseMark_append negative whole fraction spells.exponent closes)
  simp only [parseUnsigned, taken]
  split
  · exact absurd rfl spells.whole
  · exact absurd (spells.leading _ rfl) (List.cons_ne_nil _ _)
  · exact read

/-- The sign of a numeral and what comes after it. -/
def takeSign (input : List UInt8) : Bool × List UInt8 :=
  match input with
  | 45 :: rest => (true, rest)
  | other => (false, other)

theorem takeSign_unsigned
    {b : UInt8}
    (unsigned : b ≠ 45)
    (rest : List UInt8) :
    takeSign (b :: rest) = (false, b :: rest) := by
  simp [takeSign, unsigned]

theorem parseNumeral_eq
    (input : List UInt8) :
    parseNumeral input = parseUnsigned (takeSign input).1 (takeSign input).2 :=
  rfl

/-- A numeral starts with its sign or a digit. -/
theorem Numeral.Spells.encodeUtf8_write
    {n : Numeral}
    (spells : n.Spells) :
    ∃ b own, encodeUtf8 n.write = b :: own ∧ (b = 45 ∨ isDigit b = true) := by
  obtain ⟨c, others, split⟩ := List.exists_cons_of_ne_nil spells.whole
  obtain ⟨b, own, digit, -⟩ := encodeUtf8_digit (spells.digits c (by simp [split]))
  rw [write_eq, split]
  cases n.negative with
  | false =>
      refine ⟨b, encodeUtf8 (others ++ (fractionText n.fraction ++ exponentText n.exponent)), ?_,
        .inr digit⟩
      rw [if_neg (by decide), List.nil_append, List.cons_append, encodeUtf8_cons, own]
      rfl
  | true =>
      exact ⟨45, _, rfl, .inl rfl⟩

/-- A numeral is read back in front of what closes it. -/
theorem parseNumeral_write
    {n : Numeral}
    (spells : n.Spells)
    {rest : List UInt8}
    (closes : Closes rest) :
    parseNumeral (encodeUtf8 n.write ++ rest) = some (n, rest) := by
  have read := parseUnsigned_write spells closes
  simp only [Numeral.write_eq, encodeUtf8_append, List.append_assoc, parseNumeral_eq]
  cases sign : n.negative with
  | false =>
      obtain ⟨c, others, split⟩ := List.exists_cons_of_ne_nil spells.whole
      obtain ⟨b, own, digit, -⟩ := encodeUtf8_digit (spells.digits c (by simp [split]))
      have unsigned : b ≠ 45 := by
        rintro rfl
        cases digit
      rw [sign, split, encodeUtf8_cons, own, List.append_assoc, List.singleton_append] at read
      rw [split, encodeUtf8_cons, own, List.append_assoc, List.singleton_append]
      exact (congrArg (fun signed => parseUnsigned signed.1 signed.2)
        (takeSign_unsigned unsigned _)).trans read
  | true =>
      rw [sign] at read
      exact read

/-! ## Whole documents -/

/-- A document as it may be written: its texts are well formed and its numerals are spelled out. -/
inductive Node.Written : Node → Prop where
  | null : Written .null
  | bool (b : Bool) : Written (.bool b)
  | number {numeral : Numeral} (spells : numeral.Spells) : Written (.number numeral)
  | text (content : String) : Written (.text (some content))
  | array {items : List Node} (each : ∀ item ∈ items, Written item) : Written (.array items)
  | object
      {fields : List (Option String × Node)}
      (keys : ∀ field ∈ fields, field.1.isSome = true)
      (each : ∀ field ∈ fields, Written field.2) :
      Written (.object fields)

/-- A document is read back in front of what closes it. -/
def Node.ReadsBack (node : Node) : Prop :=
  ∀ fuel rest, (encodeUtf8 node.write).length ≤ fuel → Closes rest →
    parseNode fuel (encodeUtf8 node.write ++ rest) = some (node, rest)

theorem skipSpace_cons
    {b : UInt8}
    (visible : isSpace b = false)
    (rest : List UInt8) :
    skipSpace (b :: rest) = b :: rest := by
  simp [skipSpace, visible]

theorem closes_cons
    {b : UInt8}
    (mark : b = 44 ∨ b = 93 ∨ b = 125)
    (rest : List UInt8) :
    Closes (b :: rest) := by
  rintro _ ⟨⟩
  exact mark

theorem isSpace_numeral
    {b : UInt8}
    (first : b = 45 ∨ isDigit b = true) :
    isSpace b = false := by
  refine Bool.eq_false_iff.mpr fun space => ?_
  simp only [isSpace, Bool.or_eq_true, beq_iff_eq] at space
  rcases space with ((rfl | rfl) | rfl) | rfl <;> exact absurd first (by decide)

/-- A numeral is told from other values by its first octet. -/
theorem parseNode_numeral
    {b : UInt8}
    (first : b = 45 ∨ isDigit b = true)
    (fuel : Nat)
    (rest : List UInt8) :
    parseNode (fuel + 1) (b :: rest) =
      (parseNumeral (b :: rest)).map fun read => (.number read.1, read.2) := by
  rw [parseNode.eq_def]
  simp only [skipSpace_cons (isSpace_numeral first)]
  split
  · contradiction
  iterate 6
    · next same =>
        obtain ⟨rfl, -⟩ := List.cons.inj same
        exact absurd first (by decide)
  · cases parseNumeral (b :: rest) <;> rfl

theorem Node.ReadsBack.number
    {n : Numeral}
    (spells : n.Spells) :
    (Node.number n).ReadsBack := by
  intro fuel rest enough closes
  obtain ⟨b, own, split, first⟩ := spells.encodeUtf8_write
  have read := parseNumeral_write spells closes
  change parseNode fuel (encodeUtf8 n.write ++ rest) = _
  change (encodeUtf8 n.write).length ≤ fuel at enough
  rw [split] at enough read ⊢
  obtain ⟨fuel, rfl⟩ := Nat.exists_eq_add_one.mpr (Nat.lt_of_lt_of_le (Nat.succ_pos _) enough)
  rw [List.cons_append] at read ⊢
  rw [parseNode_numeral first, read]
  rfl

/-! ### Arrays -/

section Items

variable {fuel : Nat} {input later rest : List UInt8} {item : Node} {items : List Node}

theorem parseItems_last
    (read : parseNode fuel input = some (item, 93 :: rest)) :
    parseItems (fuel + 1) input = some ([item], rest) := by
  simp only [parseItems, read, bind, Option.bind, skipSpace_cons (b := 93) rfl]
  rfl

theorem parseItems_next
    (read : parseNode fuel input = some (item, 44 :: later))
    (others : parseItems fuel later = some (items, rest)) :
    parseItems (fuel + 1) input = some (item :: items, rest) := by
  simp only [parseItems, read, bind, Option.bind, skipSpace_cons (b := 44) rfl, others]
  rfl

end Items

theorem writeItems_cons
    (item next : Node)
    (items : List Node) :
    writeItems (item :: next :: items) = item.write ++ ',' :: writeItems (next :: items) := by
  simp only [writeItems]

theorem parseItems_write
    {items : List Node}
    (nonempty : items ≠ [])
    (each : ∀ item ∈ items, item.ReadsBack)
    {fuel : Nat}
    (enough : (encodeUtf8 (writeItems items)).length ≤ fuel)
    (rest : List UInt8) :
    parseItems fuel (encodeUtf8 (writeItems items) ++ rest) = some (items, rest) := by
  induction items generalizing fuel with
  | nil =>
      exact absurd rfl nonempty
  | cons item items inductionHypothesis =>
      have first := each item List.mem_cons_self
      cases items with
      | nil =>
          have mark : encodeUtf8 [']'] = [93] := rfl
          rw [writeItems, encodeUtf8_append, mark] at enough ⊢
          rw [List.length_append] at enough
          obtain ⟨fuel, rfl⟩ :=
            Nat.exists_eq_add_one.mpr (Nat.lt_of_lt_of_le (Nat.succ_pos _) enough)
          rw [List.append_assoc]
          exact parseItems_last (first fuel (93 :: rest) (Nat.le_of_succ_le_succ enough)
            (closes_cons (by decide) rest))
      | cons next items =>
          have mark : String.utf8EncodeChar ',' = [44] := rfl
          rw [writeItems_cons, encodeUtf8_append, encodeUtf8_cons, mark] at enough ⊢
          simp only [List.length_append, List.length_singleton] at enough
          obtain ⟨fuel, rfl⟩ : ∃ smaller, fuel = smaller + 1 := ⟨fuel - 1, by omega⟩
          have others :
              parseItems fuel (encodeUtf8 (writeItems (next :: items)) ++ rest) =
                some (next :: items, rest) :=
            inductionHypothesis (List.cons_ne_nil next items)
              (fun other member => each other (List.mem_cons_of_mem item member)) (by omega)
          rw [List.append_assoc]
          exact parseItems_next (first fuel _ (by omega) (closes_cons (by decide) _)) others

/-! ### Objects -/

section Fields

variable
  {fuel : Nat} {input after later rest : List UInt8} {key : Option String} {value : Node}
  {fields : List (Option String × Node)}

theorem parseFields_last
    (named : parseText .start input = some (key, 58 :: after))
    (read : parseNode fuel after = some (value, 125 :: rest)) :
    parseFields (fuel + 1) (34 :: input) = some ([(key, value)], rest) := by
  simp only [parseFields, skipSpace_cons (b := 34) rfl, named, bind, Option.bind,
    skipSpace_cons (b := 58) rfl, read, skipSpace_cons (b := 125) rfl]
  rfl

theorem parseFields_next
    (named : parseText .start input = some (key, 58 :: after))
    (read : parseNode fuel after = some (value, 44 :: later))
    (others : parseFields fuel later = some (fields, rest)) :
    parseFields (fuel + 1) (34 :: input) = some ((key, value) :: fields, rest) := by
  simp only [parseFields, skipSpace_cons (b := 34) rfl, named, bind, Option.bind,
    skipSpace_cons (b := 58) rfl, read, skipSpace_cons (b := 44) rfl, others]
  rfl

end Fields

theorem writeFields_cons
    (key : Option String)
    (value : Node)
    (next : Option String × Node)
    (fields : List (Option String × Node)) :
    writeFields ((key, value) :: next :: fields) =
      writeText (key.getD "") ++ ':' :: value.write ++ ',' :: writeFields (next :: fields) := by
  simp only [writeFields]

theorem parseFields_write
    {fields : List (Option String × Node)}
    (nonempty : fields ≠ [])
    (keys : ∀ field ∈ fields, field.1.isSome = true)
    (each : ∀ field ∈ fields, field.2.ReadsBack)
    {fuel : Nat}
    (enough : (encodeUtf8 (writeFields fields)).length ≤ fuel)
    (rest : List UInt8) :
    parseFields fuel (encodeUtf8 (writeFields fields) ++ rest) = some (fields, rest) := by
  induction fields generalizing fuel with
  | nil =>
      exact absurd rfl nonempty
  | cons field fields inductionHypothesis =>
      obtain ⟨key, value⟩ := field
      have first : value.ReadsBack := each (key, value) List.mem_cons_self
      obtain ⟨name, rfl⟩ := Option.isSome_iff_exists.mp (keys (key, value) List.mem_cons_self)
      have colon : String.utf8EncodeChar ':' = [58] := rfl
      obtain ⟨own, text, named⟩ := parseText_writeText name
      cases fields with
      | nil =>
          have mark : encodeUtf8 ['\x7d'] = [125] := rfl
          simp only [writeFields, Option.getD_some, encodeUtf8_append, encodeUtf8_cons, text, mark,
            colon, List.append_assoc, List.cons_append, List.nil_append] at enough ⊢
          simp only [List.length_append, List.length_cons, List.length_nil] at enough
          obtain ⟨fuel, rfl⟩ : ∃ smaller, fuel = smaller + 1 := ⟨fuel - 1, by omega⟩
          exact parseFields_last (named _)
            (first fuel (125 :: rest) (by omega) (closes_cons (by decide) rest))
      | cons next fields =>
          have mark : String.utf8EncodeChar ',' = [44] := rfl
          simp only [writeFields_cons, Option.getD_some, encodeUtf8_append, encodeUtf8_cons, text,
            mark, colon, List.append_assoc, List.cons_append, List.nil_append] at enough ⊢
          simp only [List.length_append, List.length_cons] at enough
          obtain ⟨fuel, rfl⟩ : ∃ smaller, fuel = smaller + 1 := ⟨fuel - 1, by omega⟩
          have others :
              parseFields fuel (encodeUtf8 (writeFields (next :: fields)) ++ rest) =
                some (next :: fields, rest) :=
            inductionHypothesis (List.cons_ne_nil next fields)
              (fun other member => keys other (List.mem_cons_of_mem _ member))
              (fun other member => each other (List.mem_cons_of_mem _ member)) (by omega)
          exact parseFields_next (named _)
            (first fuel _ (by omega) (closes_cons (by decide) _)) others

/-! ### Documents -/

/-- The first octet of a value is told from blanks and from the end of an array. -/
theorem Node.Written.encodeUtf8_write
    {node : Node}
    (written : node.Written) :
    ∃ b own, encodeUtf8 node.write = b :: own ∧ isSpace b = false ∧ b ≠ 93 := by
  cases written with
  | null =>
      exact ⟨110, [117, 108, 108], rfl, by decide⟩
  | bool b =>
      cases b
      · exact ⟨102, [97, 108, 115, 101], rfl, by decide⟩
      · exact ⟨116, [114, 117, 101], rfl, by decide⟩
  | number spells =>
      obtain ⟨b, own, split, first⟩ := spells.encodeUtf8_write
      refine ⟨b, own, split, isSpace_numeral first, ?_⟩
      rintro rfl
      exact absurd first (by decide)
  | text content =>
      obtain ⟨own, split, -⟩ := parseText_writeText content
      exact ⟨34, own, split, by decide⟩
  | @array items each =>
      exact ⟨91, encodeUtf8 (writeItems items), rfl, by decide⟩
  | @object fields keys each =>
      exact ⟨123, encodeUtf8 (writeFields fields), rfl, by decide⟩

theorem parseNode_items
    {fuel : Nat}
    {b : UInt8}
    (visible : isSpace b = false)
    (filled : b ≠ 93)
    {input rest : List UInt8}
    {items : List Node}
    (read : parseItems fuel (b :: input) = some (items, rest)) :
    parseNode (fuel + 1) (91 :: b :: input) = some (.array items, rest) := by
  simp [parseNode, skipSpace_cons (b := 91) rfl, skipSpace_cons visible, filled, read]

theorem parseNode_fields
    {fuel : Nat}
    {input rest : List UInt8}
    {fields : List (Option String × Node)}
    (read : parseFields fuel (34 :: input) = some (fields, rest)) :
    parseNode (fuel + 1) (123 :: 34 :: input) = some (.object fields, rest) := by
  simp [parseNode, skipSpace_cons (b := 123) rfl, skipSpace_cons (b := 34) rfl, read]

theorem Node.ReadsBack.array
    {items : List Node}
    (written : ∀ item ∈ items, item.Written)
    (each : ∀ item ∈ items, item.ReadsBack) :
    (Node.array items).ReadsBack := by
  intro fuel rest enough closes
  have mark : String.utf8EncodeChar '[' = [91] := rfl
  simp only [Node.write, encodeUtf8_cons, mark, List.cons_append, List.nil_append,
    List.length_cons] at enough ⊢
  obtain ⟨fuel, rfl⟩ : ∃ smaller, fuel = smaller + 1 := ⟨fuel - 1, by omega⟩
  by_cases empty : items = []
  · subst empty
    simp only [parseNode, skipSpace_cons (b := 91) rfl, writeItems]
    rfl
  · have read := parseItems_write empty each (Nat.le_of_succ_le_succ enough) rest
    obtain ⟨b, own, split, visible, filled⟩ : ∃ b own,
        encodeUtf8 (writeItems items) = b :: own ∧ isSpace b = false ∧ b ≠ 93 := by
      obtain ⟨item, others, rfl⟩ := List.exists_cons_of_ne_nil empty
      obtain ⟨b, own, split, marked⟩ := (written item List.mem_cons_self).encodeUtf8_write
      cases others with
      | nil =>
          exact ⟨b, own ++ [93], by rw [writeItems, encodeUtf8_append, split]; rfl, marked⟩
      | cons next others =>
          exact ⟨b, own ++ encodeUtf8 (',' :: writeItems (next :: others)),
            by rw [writeItems_cons, encodeUtf8_append, split]; rfl, marked⟩
    rw [split, List.cons_append] at read ⊢
    exact parseNode_items visible filled read

theorem Node.ReadsBack.object
    {fields : List (Option String × Node)}
    (keys : ∀ field ∈ fields, field.1.isSome = true)
    (each : ∀ field ∈ fields, field.2.ReadsBack) :
    (Node.object fields).ReadsBack := by
  intro fuel rest enough closes
  have mark : String.utf8EncodeChar '\x7b' = [123] := rfl
  simp only [Node.write, encodeUtf8_cons, mark, List.cons_append, List.nil_append,
    List.length_cons] at enough ⊢
  obtain ⟨fuel, rfl⟩ : ∃ smaller, fuel = smaller + 1 := ⟨fuel - 1, by omega⟩
  by_cases empty : fields = []
  · subst empty
    simp only [parseNode, skipSpace_cons (b := 123) rfl, writeFields]
    rfl
  · have read := parseFields_write empty keys each (Nat.le_of_succ_le_succ enough) rest
    obtain ⟨own, split⟩ : ∃ own, encodeUtf8 (writeFields fields) = 34 :: own := by
      obtain ⟨⟨key, value⟩, others, rfl⟩ := List.exists_cons_of_ne_nil empty
      obtain ⟨own, split, -⟩ := parseText_writeText (key.getD "")
      cases others with
      | nil =>
          exact ⟨_, by rw [writeFields, encodeUtf8_append, encodeUtf8_append, split]; rfl⟩
      | cons next others =>
          exact ⟨_, by rw [writeFields_cons, encodeUtf8_append, encodeUtf8_append, split]; rfl⟩
    rw [split, List.cons_append] at read ⊢
    exact parseNode_fields read

theorem dropWord_append
    (word rest : List UInt8) :
    dropWord word (word ++ rest) = some rest := by
  simp [dropWord]

theorem Node.ReadsBack.null :
    Node.null.ReadsBack := by
  intro fuel rest enough closes
  obtain ⟨fuel, rfl⟩ := Nat.exists_eq_add_one.mpr (Nat.lt_of_lt_of_le (Nat.succ_pos 3) enough)
  change parseNode (fuel + 1) (110 :: ([117, 108, 108] ++ rest)) = _
  simp only [parseNode, skipSpace_cons (b := 110) rfl, dropWord_append]
  rfl

theorem Node.ReadsBack.bool
    (b : Bool) :
    (Node.bool b).ReadsBack := by
  intro fuel rest enough closes
  cases b with
  | false =>
      obtain ⟨fuel, rfl⟩ := Nat.exists_eq_add_one.mpr (Nat.lt_of_lt_of_le (Nat.succ_pos 4) enough)
      change parseNode (fuel + 1) (102 :: ([97, 108, 115, 101] ++ rest)) = _
      simp only [parseNode, skipSpace_cons (b := 102) rfl, dropWord_append]
      rfl
  | true =>
      obtain ⟨fuel, rfl⟩ := Nat.exists_eq_add_one.mpr (Nat.lt_of_lt_of_le (Nat.succ_pos 3) enough)
      change parseNode (fuel + 1) (116 :: ([114, 117, 101] ++ rest)) = _
      simp only [parseNode, skipSpace_cons (b := 116) rfl, dropWord_append]
      rfl

theorem Node.ReadsBack.text
    (content : String) :
    (Node.text (some content)).ReadsBack := by
  intro fuel rest enough closes
  obtain ⟨own, split, read⟩ := parseText_writeText content
  simp only [Node.write, Option.getD_some, split, List.cons_append, List.length_cons] at enough ⊢
  obtain ⟨fuel, rfl⟩ : ∃ smaller, fuel = smaller + 1 := ⟨fuel - 1, by omega⟩
  simp only [parseNode, skipSpace_cons (b := 34) rfl, read]
  rfl

/-- A written document is read back in front of what closes it. -/
theorem Node.Written.readsBack
    {node : Node}
    (written : node.Written) :
    node.ReadsBack := by
  induction written with
  | null =>
      exact .null
  | bool b =>
      exact .bool b
  | number spells =>
      exact .number spells
  | text content =>
      exact .text content
  | array each inductionHypothesis =>
      exact .array each inductionHypothesis
  | object keys each inductionHypothesis =>
      exact .object keys inductionHypothesis

/-- A written document is read back as it was. -/
theorem parse_write
    {node : Node}
    (written : node.Written) :
    parse (encodeUtf8 node.write) = some node := by
  have read := written.readsBack (2 * (encodeUtf8 node.write).length + 2) [] (by omega) nofun
  rw [List.append_nil] at read
  rw [parse, read]
  rfl

end Fabula.Json
