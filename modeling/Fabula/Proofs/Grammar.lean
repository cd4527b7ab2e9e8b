import Fabula.Proofs.Utf8
import Fabula.Story.Format

namespace Fabula

/-!
# The grammar of stored stories

A reader follows a grammar when it reads exactly what the grammar spells out: octets that
spell a value are read as that value whatever comes after them, nothing else is read, and
octets that are cut short are refused.  Readers that follow grammars can be put one after
the other, so the reader of stored stories follows the grammar of its tables.
-/

namespace LittleEndian

theorem value_lt
    (bytes : List UInt8) :
    value bytes < Nat.pow 256 bytes.length := by
  induction bytes with
  | nil =>
      exact Nat.one_pos
  | cons octet rest inductionHypothesis =>
      have small := octet.toNat_lt
      change octet.toNat + 256 * value rest < Nat.pow 256 rest.length * 256
      omega

/-- The octets of the number of octets are these octets. -/
theorem octets_value
    (bytes : List UInt8) :
    octets bytes.length (value bytes) = bytes := by
  induction bytes with
  | nil =>
      rfl
  | cons octet rest inductionHypothesis =>
      have small := octet.toNat_lt
      have lowest : (octet.toNat + 256 * value rest) % 256 = octet.toNat := by omega
      have others : (octet.toNat + 256 * value rest) / 256 = value rest := by omega
      rw [List.length_cons, octets, value, lowest, others, inductionHypothesis,
        UInt8.ofNat_toNat]

/-- Four octets are those of the word that they are read as. -/
theorem word32_ofNat_value
    {bytes : List UInt8}
    (size : bytes.length = 4) :
    word32 (UInt32.ofNat (value bytes)) = bytes := by
  have small := value_lt bytes
  rw [size] at small
  rw [word32, UInt32.toNat_ofNat_of_lt' small]
  simpa [size] using octets_value bytes

theorem word16_ofNat_value
    {bytes : List UInt8}
    (size : bytes.length = 2) :
    word16 (UInt16.ofNat (value bytes)) = bytes := by
  have small := value_lt bytes
  rw [size] at small
  rw [word16, UInt16.toNat_ofNat_of_lt' small]
  simpa [size] using octets_value bytes

@[simp]
theorem length_word32
    (word : UInt32) :
    (word32 word).length = 4 :=
  length_octets 4 _

@[simp]
theorem length_word16
    (word : UInt16) :
    (word16 word).length = 2 :=
  length_octets 2 _

end LittleEndian

namespace StoryFormat

open LittleEndian

/-- The cursor at an offset before the octets that are left. -/
def Cursor.before (offset : Nat) (rest : List UInt8) : Cursor :=
  ⟨rest, offset, offset + rest.length⟩

/-- A reader that reads exactly the octets which spell out its values. -/
structure Follows
    {α : Type}
    (reader : Reader α)
    (Spells : List UInt8 → α → Prop) :
    Prop where
  /-- What spells a value is read as that value, whatever comes after it. -/
  reads :
    ∀ octets value,
      Spells octets value →
      ∀ offset rest,
        reader.run (.before offset (octets ++ rest)) =
          .ok (value, .before (offset + octets.length) rest)
  /-- Nothing else is read. -/
  spells :
    ∀ offset octets value cursor,
      reader.run (.before offset octets) = .ok (value, cursor) →
      ∃ own rest,
        Spells own value ∧ octets = own ++ rest ∧
          cursor = .before (offset + own.length) rest
  /-- What is cut short is refused. -/
  refuses :
    ∀ octets value,
      Spells octets value →
      ∀ offset cut,
        cut <+: octets →
        cut ≠ octets →
        ∃ cause, reader.run (.before offset cut) = .error (.invalidStory cause)

/-- What is cut short in two parts is cut short in the first, or in the second after it. -/
theorem cut_append
    {cut own others : List UInt8}
    (inside : cut <+: own ++ others)
    (short : cut ≠ own ++ others) :
    (cut <+: own ∧ cut ≠ own) ∨
      ∃ rest, cut = own ++ rest ∧ rest <+: others ∧ rest ≠ others := by
  have late (rest : List UInt8) (shape : cut = own ++ rest) :
      ∃ rest, cut = own ++ rest ∧ rest <+: others ∧ rest ≠ others := by
    subst shape
    refine ⟨rest, rfl, (List.prefix_append_right_inj own).mp inside, fun same => short ?_⟩
    rw [same]
  rcases List.prefix_or_prefix_of_prefix inside (List.prefix_append own others) with
    early | ⟨rest, shape⟩
  · by_cases whole : cut = own
    · exact .inr (late [] (by simpa using whole))
    · exact .inl ⟨early, whole⟩
  · exact .inr (late rest shape.symm)

namespace Follows

variable {α β : Type} {reader : Reader α} {continuation : α → Reader β}
  {Spells Other : List UInt8 → α → Prop} {Later : α → List UInt8 → β → Prop}

/-- Another description of the same grammar. -/
theorem congr
    (follows : Follows reader Spells)
    (same : ∀ octets value, Spells octets value ↔ Other octets value) :
    Follows reader Other := by
  have equal : Spells = Other := by
    funext octets value
    exact propext (same octets value)
  exact equal ▸ follows

/-- Nothing is spelled by no octets. -/
protected theorem pure
    (value : α) :
    Follows (pure value) (fun octets result => octets = [] ∧ result = value) where
  reads := by
    rintro _ _ ⟨rfl, rfl⟩ offset rest
    rfl
  spells := by
    rintro offset octets _ _ ⟨⟩
    exact ⟨[], octets, ⟨rfl, rfl⟩, rfl, rfl⟩
  refuses := by
    rintro _ _ ⟨rfl, rfl⟩ _ cut inside short
    exact absurd (List.prefix_nil.mp inside) short

/-- A reader that always fails reads nothing. -/
protected theorem throw
    (error : Error) :
    Follows (throw error : Reader α) (fun _ _ => False) where
  reads _ _ := False.elim
  spells _ _ _ _ read := by cases read
  refuses _ _ := False.elim

/-- One reader after another. -/
theorem bind
    (first : Follows reader Spells)
    (later : ∀ value, Follows (continuation value) (Later value)) :
    Follows (reader >>= continuation) fun octets result =>
      ∃ own value rest,
        Spells own value ∧ Later value rest result ∧ octets = own ++ rest where
  reads := by
    rintro _ result ⟨own, value, others, spelled, spelledLater, rfl⟩ offset rest
    rw [StateT.run_bind, List.append_assoc, first.reads own value spelled]
    simp only [Bind.bind, Except.bind]
    rw [(later value).reads others result spelledLater, List.length_append, Nat.add_assoc]
  spells := by
    intro offset octets result cursor read
    rw [StateT.run_bind] at read
    cases firstRead : reader.run (.before offset octets) with
    | error error =>
        simp [firstRead, Bind.bind, Except.bind] at read
    | ok parts =>
        obtain ⟨value, middle⟩ := parts
        obtain ⟨own, others, spelled, rfl, rfl⟩ := first.spells _ _ _ _ firstRead
        simp only [firstRead, Bind.bind, Except.bind] at read
        obtain ⟨next, rest, spelledLater, rfl, rfl⟩ := (later value).spells _ _ _ _ read
        refine ⟨own ++ next, rest, ⟨own, value, next, spelled, spelledLater, rfl⟩, ?_, ?_⟩
        · rw [List.append_assoc]
        · rw [List.length_append, Nat.add_assoc]
  refuses := by
    rintro _ result ⟨own, value, others, spelled, spelledLater, rfl⟩ offset cut inside short
    rw [StateT.run_bind]
    rcases cut_append inside short with ⟨early, other⟩ | ⟨rest, rfl, late, other⟩
    · obtain ⟨cause, refused⟩ := first.refuses own value spelled offset cut early other
      exact ⟨cause, by rw [refused]; rfl⟩
    · rw [first.reads own value spelled offset rest]
      exact (later value).refuses others result spelledLater _ rest late other

end Follows

/-! ## Words -/

theorem run_take
    (count : Nat)
    (cursor : Cursor) :
    (take count).run cursor =
      if cursor.offset + count ≤ cursor.total then
        .ok (cursor.rest.take count,
          { cursor with rest := cursor.rest.drop count, offset := cursor.offset + count })
      else
        .error (.invalidStory (.unexpectedEnd cursor.offset)) := by
  change (if cursor.offset + count ≤ cursor.total then _ else _ : Reader _).run cursor = _
  split <;> rfl

theorem take_follows
    (count : Nat) :
    Follows (take count) (fun octets bytes => octets = bytes ∧ bytes.length = count) where
  reads := by
    rintro _ bytes ⟨rfl, rfl⟩ offset rest
    simp [run_take, Cursor.before, Nat.add_assoc]
  spells := by
    intro offset octets bytes cursor read
    rw [run_take] at read
    split at read
    · next fits =>
        have inside : count ≤ octets.length := by
          simp only [Cursor.before] at fits
          omega
        simp only [Except.ok.injEq, Prod.mk.injEq] at read
        obtain ⟨rfl, rfl⟩ := read
        refine ⟨octets.take count, octets.drop count, ⟨rfl, ?_⟩, ?_, ?_⟩
        · exact List.length_take_of_le inside
        · exact (List.take_append_drop count octets).symm
        · simp [Cursor.before, Nat.min_eq_left inside]
          omega
    · cases read
  refuses := by
    rintro octets _ ⟨rfl, rfl⟩ offset cut inside short
    have shorter : cut.length < octets.length := by
      refine Nat.lt_of_le_of_ne inside.length_le fun same => short ?_
      exact inside.eq_of_length same
    have beyond : ¬offset + octets.length ≤ offset + cut.length := by omega
    exact ⟨_, (run_take _ _).trans (if_neg beyond)⟩

/-- Octets that are written for a value which fits the format. -/
def Written
    {α : Type}
    (Fits : α → Prop)
    (write : α → List UInt8)
    (octets : List UInt8)
    (value : α) :
    Prop :=
  Fits value ∧ octets = write value

/-- A value of fixed width is read as it is written. -/
theorem take_map_follows
    {α : Type}
    (count : Nat)
    (decode : List UInt8 → α)
    (write : α → List UInt8)
    (decode_write : ∀ value, decode (write value) = value ∧ (write value).length = count)
    (write_decode : ∀ bytes, bytes.length = count → write (decode bytes) = bytes) :
    Follows (take count >>= fun bytes => pure (decode bytes)) (Written (fun _ => True) write) := by
  refine ((take_follows count).bind fun bytes => .pure (decode bytes)).congr ?_
  intro octets value
  constructor
  · rintro ⟨_, bytes, _, ⟨rfl, size⟩, ⟨rfl, rfl⟩, rfl⟩
    exact ⟨trivial, by rw [write_decode _ size, List.append_nil]⟩
  · rintro ⟨-, rfl⟩
    obtain ⟨same, size⟩ := decode_write value
    exact ⟨_, _, [], ⟨rfl, size⟩, ⟨rfl, same.symm⟩, (List.append_nil _).symm⟩

theorem octet_follows :
    Follows octet (Written (fun _ => True) fun byte => [byte]) := by
  refine take_map_follows 1 _ _ (fun byte => ?_) (fun bytes size => ?_)
  · simp [value]
  · obtain ⟨byte, rfl⟩ := List.length_eq_one_iff.mp size
    simp [value]

theorem readWord16_follows :
    Follows readWord16 (Written (fun _ => True) word16) := by
  refine take_map_follows 2 _ _ (fun word => ?_) (fun bytes size => word16_ofNat_value size)
  simp

theorem readWord32_follows :
    Follows readWord32 (Written (fun _ => True) word32) := by
  refine take_map_follows 4 _ _ (fun word => ?_) (fun bytes size => word32_ofNat_value size)
  simp

/-! ## Tables -/

/-- Entries that are spelled out one after the other. -/
inductive Row
    {α : Type}
    (Spells : List UInt8 → α → Prop) :
    List UInt8 → List α → Prop where
  | nil : Row Spells [] []
  | cons
      {octets others : List UInt8}
      {entry : α}
      {rest : List α}
      (spelled : Spells octets entry)
      (later : Row Spells others rest) :
      Row Spells (octets ++ others) (entry :: rest)

/-- The number of entries and the entries. -/
def Tabled
    {α : Type}
    (Spells : List UInt8 → α → Prop)
    (octets : List UInt8)
    (entries : List α) :
    Prop :=
  entries.length < UInt32.size ∧
    ∃ row, Row Spells row entries ∧ octets = word32 (UInt32.ofNat entries.length) ++ row

section Tables

variable {α : Type} {Spells : List UInt8 → α → Prop} {read : Nat → Reader α}

theorem readMany_follows
    (each : ∀ position, Follows (read position) Spells)
    (position count : Nat) :
    Follows (readMany read position count)
      (fun octets entries => Row Spells octets entries ∧ entries.length = count) := by
  induction count generalizing position with
  | zero =>
      refine (Follows.pure []).congr fun octets entries => ?_
      constructor
      · rintro ⟨rfl, rfl⟩
        exact ⟨.nil, rfl⟩
      · rintro ⟨row, size⟩
        obtain rfl := List.length_eq_zero_iff.mp size
        cases row
        exact ⟨rfl, rfl⟩
  | succ count inductionHypothesis =>
      refine ((each position).bind fun entry =>
        (inductionHypothesis (position + 1)).bind fun rest => .pure (entry :: rest)).congr ?_
      intro octets entries
      constructor
      · rintro ⟨_, entry, _, spelled, ⟨others, rest, _, ⟨later, size⟩, ⟨rfl, rfl⟩, rfl⟩, rfl⟩
        rw [List.append_nil]
        exact ⟨.cons spelled later, by rw [List.length_cons, size]⟩
      · rintro ⟨row, size⟩
        cases row with
        | nil => cases size
        | cons spelled later =>
            refine ⟨_, _, _, spelled, ⟨_, _, [], ⟨later, ?_⟩, ⟨rfl, rfl⟩, rfl⟩, ?_⟩
            · exact Nat.succ.inj size
            · rw [List.append_nil]

/-- A row is at least as long as its entries have to be. -/
theorem Row.length_le
    {least : Nat}
    (long : ∀ octets entry, Spells octets entry → least ≤ octets.length)
    {octets : List UInt8}
    {entries : List α}
    (row : Row Spells octets entries) :
    entries.length * least ≤ octets.length := by
  induction row with
  | nil =>
      simp
  | cons spelled _ inductionHypothesis =>
      have own := long _ _ spelled
      rw [List.length_cons, List.length_append, Nat.add_mul]
      omega

end Tables

/-- The number of entries is checked against the octets that are left. -/
theorem run_readCount
    (least : Nat)
    (count : UInt32)
    (offset : Nat)
    (rest : List UInt8) :
    (readCount least).run (.before offset (word32 count ++ rest)) =
      if rest.length < count.toNat * least then
        .error (.invalidStory (.tableTooLong count.toNat rest.length))
      else
        .ok (count.toNat, .before (offset + 4) rest) := by
  have word := readWord32_follows.reads (word32 count) count ⟨trivial, rfl⟩ offset rest
  have left : offset + 4 + rest.length - (offset + 4) = rest.length := by omega
  rw [readCount, StateT.run_bind, word]
  change
    (if offset + 4 + rest.length - (offset + 4) < count.toNat * least then
        fault (.tableTooLong count.toNat (offset + 4 + rest.length - (offset + 4)))
      else
        pure count.toNat : Reader Nat).run (.before (offset + 4) rest) = _
  rw [left]
  split <;> rfl

/--
A reader of something with a number before it.  The check of that number never refuses
what the grammar spells out, since this is long enough.
-/
theorem counted_follows
    {β : Type}
    {least : Nat}
    {continuation : Nat → Reader β}
    {Spells : Nat → List UInt8 → β → Prop}
    (each : ∀ count, Follows (continuation count) (Spells count))
    (long : ∀ count octets result, Spells count octets result → count * least ≤ octets.length) :
    Follows (readCount least >>= continuation) fun octets result =>
      ∃ (count : UInt32) (rest : List UInt8),
        Spells count.toNat rest result ∧ octets = word32 count ++ rest where
  reads := by
    rintro _ result ⟨count, own, spelled, rfl⟩ offset rest
    have enough : ¬(own ++ rest).length < count.toNat * least := by
      have := long _ _ _ spelled
      rw [List.length_append]
      omega
    rw [StateT.run_bind, List.append_assoc, run_readCount, if_neg enough]
    simp only [Bind.bind, Except.bind]
    rw [(each _).reads own result spelled, List.length_append, length_word32, Nat.add_assoc]
  spells := by
    intro offset octets result cursor read
    cases word : readWord32.run (.before offset octets) with
    | error error =>
        rw [StateT.run_bind, readCount, StateT.run_bind, word] at read
        cases read
    | ok parts =>
        obtain ⟨count, middle⟩ := parts
        obtain ⟨_, rest, ⟨-, rfl⟩, rfl, -⟩ := readWord32_follows.spells _ _ _ _ word
        rw [StateT.run_bind, run_readCount] at read
        split at read
        · cases read
        · simp only [Bind.bind, Except.bind] at read
          obtain ⟨own, rest, spelled, rfl, rfl⟩ := (each _).spells _ _ _ _ read
          refine ⟨word32 count ++ own, rest, ⟨count, own, spelled, rfl⟩, ?_, ?_⟩
          · rw [List.append_assoc]
          · rw [List.length_append, length_word32, Nat.add_assoc]
  refuses := by
    rintro _ result ⟨count, own, spelled, rfl⟩ offset cut inside short
    rw [StateT.run_bind]
    rcases cut_append inside short with ⟨early, other⟩ | ⟨rest, rfl, late, other⟩
    · obtain ⟨cause, refused⟩ :=
        readWord32_follows.refuses _ count ⟨trivial, rfl⟩ offset cut early other
      exact ⟨cause, by rw [readCount, StateT.run_bind, refused]; rfl⟩
    -- A cut after the number may be noticed at once, by the check of the number.
    · rw [run_readCount]
      split
      · exact ⟨_, rfl⟩
      · exact (each _).refuses own result spelled _ rest late other

theorem readIndexed_follows
    {α : Type}
    {Spells : List UInt8 → α → Prop}
    {read : Nat → Reader α}
    {least : Nat}
    (each : ∀ position, Follows (read position) Spells)
    (long : ∀ octets entry, Spells octets entry → least ≤ octets.length) :
    Follows (readIndexed least read) (Tabled Spells) := by
  refine (counted_follows (readMany_follows each 0) ?_).congr ?_
  · rintro _ octets entries ⟨row, rfl⟩
    exact row.length_le long
  · intro octets entries
    constructor
    · rintro ⟨count, row, ⟨spelled, size⟩, rfl⟩
      refine ⟨size ▸ count.toNat_lt, row, spelled, ?_⟩
      rw [size, UInt32.ofNat_toNat]
    · rintro ⟨size, row, spelled, rfl⟩
      refine ⟨UInt32.ofNat entries.length, row, ⟨spelled, ?_⟩, rfl⟩
      exact (UInt32.toNat_ofNat_of_lt' size).symm

theorem readTable_follows
    {α : Type}
    {Spells : List UInt8 → α → Prop}
    {read : Reader α}
    {least : Nat}
    (each : Follows read Spells)
    (long : ∀ octets entry, Spells octets entry → least ≤ octets.length) :
    Follows (readTable least read) (Tabled Spells) :=
  readIndexed_follows (fun _ => each) long

/-- A row of entries that are written. -/
theorem row_written
    {α : Type}
    {Fits : α → Prop}
    {write : α → List UInt8}
    {octets : List UInt8}
    {entries : List α} :
    Row (Written Fits write) octets entries ↔
      (∀ entry ∈ entries, Fits entry) ∧ octets = entries.flatMap write := by
  constructor
  · intro row
    induction row with
    | nil =>
        exact ⟨by simp, rfl⟩
    | cons spelled _ inductionHypothesis =>
        obtain ⟨fits, rfl⟩ := spelled
        obtain ⟨allFit, rfl⟩ := inductionHypothesis
        exact ⟨by simpa using ⟨fits, allFit⟩, by rw [List.flatMap_cons]⟩
  · rintro ⟨fits, rfl⟩
    induction entries with
    | nil =>
        exact .nil
    | cons entry rest inductionHypothesis =>
        rw [List.flatMap_cons]
        refine .cons ⟨fits entry List.mem_cons_self, rfl⟩ (inductionHypothesis ?_)
        exact fun other member => fits other (List.mem_cons_of_mem entry member)

/-- Tables whose entries fit the format, and which are not too long for it. -/
def TableFits {α : Type} (Fits : α → Prop) (entries : List α) : Prop :=
  entries.length < UInt32.size ∧ ∀ entry ∈ entries, Fits entry

instance {α : Type} {Fits : α → Prop} [DecidablePred Fits] : DecidablePred (TableFits Fits) :=
  fun _ => inferInstanceAs (Decidable (_ ∧ _))

/-- A table of entries that are written is written. -/
theorem readIndexed_written
    {α : Type}
    {Fits : α → Prop}
    {write : α → List UInt8}
    {read : Nat → Reader α}
    (least : Nat)
    (each : ∀ position, Follows (read position) (Written Fits write))
    (long : ∀ entry, least ≤ (write entry).length) :
    Follows (readIndexed least read) (Written (TableFits Fits) (writeTable write)) := by
  refine (readIndexed_follows each ?_).congr fun octets entries => ?_
  · rintro _ entry ⟨-, rfl⟩
    exact long entry
  · constructor
    · rintro ⟨size, row, spelled, rfl⟩
      obtain ⟨fits, rfl⟩ := row_written.mp spelled
      exact ⟨⟨size, fits⟩, rfl⟩
    · rintro ⟨⟨size, fits⟩, rfl⟩
      exact ⟨size, _, row_written.mpr ⟨fits, rfl⟩, rfl⟩

theorem readTable_written
    {α : Type}
    {Fits : α → Prop}
    {write : α → List UInt8}
    {read : Reader α}
    (least : Nat)
    (each : Follows read (Written Fits write))
    (long : ∀ entry, least ≤ (write entry).length) :
    Follows (readTable least read) (Written (TableFits Fits) (writeTable write)) :=
  readIndexed_written least (fun _ => each) long

/-! ## Entries -/

/-- Texts that are not too long for the format. -/
def TextFits (text : String) : Prop :=
  (Text.octets text).length < UInt32.size

instance : DecidablePred TextFits := fun _ => inferInstanceAs (Decidable (_ < _))

theorem readText_follows
    (bytes : List UInt8) :
    Follows
      (match Text.ofOctets bytes with
        | .ok text => pure text
        | .error cause => fault (.invalidText cause))
      (fun octets text => octets = [] ∧ bytes = Text.octets text) := by
  cases read : Text.ofOctets bytes with
  | ok text =>
      have own := Text.ofOctets_eq_ok_iff.mp read
      refine (Follows.pure text).congr fun octets other => ?_
      constructor
      · rintro ⟨rfl, rfl⟩
        exact ⟨rfl, own⟩
      · rintro ⟨rfl, same⟩
        rw [Text.ofOctets_eq_ok_iff.mpr same, Except.ok.injEq] at read
        exact ⟨rfl, read⟩
  | error cause =>
      refine (Follows.throw _).congr fun octets text => ⟨False.elim, ?_⟩
      rintro ⟨-, same⟩
      rw [Text.ofOctets_eq_ok_iff.mpr same] at read
      cases read

theorem readString_follows :
    Follows readString (Written TextFits writeString) := by
  have each (count : Nat) :=
    (take_follows count).bind fun bytes => readText_follows bytes
  have write (text : String) :
      writeString text =
        word32 (UInt32.ofNat (Text.octets text).length) ++ Text.octets text := by
    simp [writeString, writeTable]
  refine (counted_follows each ?_).congr fun octets text => ?_
  · rintro _ octets text ⟨_, bytes, _, ⟨rfl, rfl⟩, ⟨rfl, -⟩, rfl⟩
    simp
  · constructor
    · rintro ⟨count, _, ⟨_, bytes, _, ⟨rfl, size⟩, ⟨rfl, rfl⟩, rfl⟩, rfl⟩
      refine ⟨?_, ?_⟩
      · rw [TextFits, size]
        exact count.toNat_lt
      · rw [write, size, UInt32.ofNat_toNat, List.append_nil]
    · rintro ⟨fits, rfl⟩
      refine ⟨UInt32.ofNat (Text.octets text).length, _,
        ⟨_, _, [], ⟨rfl, ?_⟩, ⟨rfl, rfl⟩, rfl⟩, ?_⟩
      · exact (UInt32.toNat_ofNat_of_lt' fits).symm
      · rw [write, List.append_nil]

/-- A value of two parts that are read one after the other. -/
theorem pair_written
    {α β γ : Type}
    {first : Reader α}
    {second : Reader β}
    {FirstFits : α → Prop}
    {SecondFits : β → Prop}
    {writeFirst : α → List UInt8}
    {writeSecond : β → List UInt8}
    (combine : α → β → γ)
    (left : γ → α)
    (right : γ → β)
    (whole : ∀ value, combine (left value) (right value) = value)
    (parts : ∀ one other, left (combine one other) = one ∧ right (combine one other) = other)
    (firstFollows : Follows first (Written FirstFits writeFirst))
    (secondFollows : Follows second (Written SecondFits writeSecond)) :
    Follows (first >>= fun one => second >>= fun other => pure (combine one other))
      (Written (fun value => FirstFits (left value) ∧ SecondFits (right value))
        (fun value => writeFirst (left value) ++ writeSecond (right value))) := by
  refine (firstFollows.bind fun one => secondFollows.bind fun other =>
    .pure (combine one other)).congr fun octets value => ?_
  constructor
  · rintro ⟨_, one, _, ⟨fits, rfl⟩, ⟨_, other, _, ⟨otherFits, rfl⟩, ⟨rfl, rfl⟩, rfl⟩, rfl⟩
    obtain ⟨sameOne, sameOther⟩ := parts one other
    simp only [Written, sameOne, sameOther, List.append_nil]
    exact ⟨⟨fits, otherFits⟩, trivial⟩
  · rintro ⟨⟨fits, otherFits⟩, rfl⟩
    refine ⟨_, left value, _, ⟨fits, rfl⟩,
      ⟨_, right value, [], ⟨otherFits, rfl⟩, ⟨rfl, (whole value).symm⟩, rfl⟩, ?_⟩
    rw [List.append_nil]

theorem readFlag_follows :
    Follows readFlag (Written (fun _ => True) writeFlag) := by
  refine (pair_written (fun name flagValue => (name, flagValue.toInt32)) Prod.fst
    (fun flag => flag.2.toUInt32) (by simp) (by simp) readWord32_follows
    readWord32_follows).congr fun octets flag => ?_
  simp [Written, writeFlag]

/-- Lists whose flags are not too many for the format. -/
def ListFits (list : StoredList) : Prop :=
  list.flags.length < UInt32.size

instance : DecidablePred ListFits := fun _ => inferInstanceAs (Decidable (_ < _))

theorem readList_follows :
    Follows readList (Written ListFits writeList) := by
  have flags := readTable_written 8 readFlag_follows (by simp [writeFlag])
  refine (pair_written StoredList.mk StoredList.name StoredList.flags (fun _ => rfl)
    (fun _ _ => ⟨rfl, rfl⟩) readWord32_follows flags).congr fun octets list => ?_
  simp [Written, writeList, ListFits, TableFits]

theorem readFlagId_follows :
    Follows readFlagId (Written (fun _ => True) writeFlagId) := by
  refine (pair_written FlagId.mk FlagId.list FlagId.flag (fun _ => rfl)
    (fun _ _ => ⟨rfl, rfl⟩) readWord16_follows readWord16_follows).congr fun octets id => ?_
  simp [Written, writeFlagId]

/-- Sets whose origins and items are not too many for the format. -/
def FlagsFit (flags : StoredFlags) : Prop :=
  flags.origins.length < UInt32.size ∧ flags.items.length < UInt32.size

instance : DecidablePred FlagsFit := fun _ => inferInstanceAs (Decidable (_ ∧ _))

theorem readFlags_follows :
    Follows readFlags (Written FlagsFit writeFlags) := by
  have origins := readTable_written 2 readWord16_follows (by simp)
  have items := readTable_written 4 readFlagId_follows (by simp [writeFlagId])
  refine (pair_written StoredFlags.mk StoredFlags.origins StoredFlags.items (fun _ => rfl)
    (fun _ _ => ⟨rfl, rfl⟩) origins items).congr fun octets flags => ?_
  simp [Written, writeFlags, FlagsFit, TableFits]

theorem readContainer_follows :
    Follows readContainer (Written (fun _ => True) writeContainer) := by
  refine (readWord32_follows.bind fun name => readWord32_follows.bind fun start =>
    readWord32_follows.bind fun stop => octet_follows.bind fun flags =>
      .pure (StoredContainer.mk name start stop flags)).congr fun octets container => ?_
  constructor
  · rintro ⟨_, name, _, ⟨-, rfl⟩, ⟨_, start, _, ⟨-, rfl⟩, ⟨_, stop, _, ⟨-, rfl⟩,
      ⟨_, flags, _, ⟨-, rfl⟩, ⟨rfl, rfl⟩, rfl⟩, rfl⟩, rfl⟩, rfl⟩
    exact ⟨trivial, by simp [writeContainer]⟩
  · rintro ⟨-, rfl⟩
    exact ⟨_, container.name, _, ⟨trivial, rfl⟩, ⟨_, container.start, _, ⟨trivial, rfl⟩,
      ⟨_, container.stop, _, ⟨trivial, rfl⟩, ⟨_, container.flags, [], ⟨trivial, rfl⟩,
        ⟨rfl, rfl⟩, rfl⟩, rfl⟩, rfl⟩, by simp [writeContainer]⟩

/-- A byte that is read as a command is the byte of that command. -/
theorem byte_of_ofByte?
    {byte : UInt8}
    {command : Command}
    (read : Command.ofByte? byte = some command) :
    command.byte = byte := by
  have all : ∀ position : Fin 256, ∀ command ∈ Command.ofByte? (UInt8.ofNat position.val),
      command.byte = UInt8.ofNat position.val := by
    decide +kernel
  have own := all ⟨byte.toNat, byte.toNat_lt⟩ command
  rw [UInt8.ofNat_toNat] at own
  exact own read

theorem readInstruction_follows
    (position : Nat) :
    Follows (readInstruction position) (Written (fun _ => True) writeInstruction) := by
  refine (@Follows.bind _ _ _ _ _
    (fun byte octets (instruction : Instruction) =>
      byte = instruction.command.byte ∧
        octets = instruction.flag :: word32 instruction.payload)
    octet_follows fun byte => ?_).congr fun octets instruction => ?_
  · cases read : Command.ofByte? byte with
    | none =>
        refine (Follows.throw _).congr fun octets instruction => ⟨False.elim, ?_⟩
        rintro ⟨rfl, -⟩
        rw [Command.ofByte?_byte] at read
        cases read
    | some command =>
        refine (octet_follows.bind fun flag => readWord32_follows.bind fun payload =>
          .pure (Instruction.mk command flag payload)).congr fun octets instruction => ?_
        constructor
        · rintro ⟨_, flag, _, ⟨-, rfl⟩, ⟨_, payload, _, ⟨-, rfl⟩, ⟨rfl, rfl⟩, rfl⟩, rfl⟩
          exact ⟨(byte_of_ofByte? read).symm, by simp⟩
        · rintro ⟨rfl, rfl⟩
          rw [Command.ofByte?_byte, Option.some.injEq] at read
          exact ⟨_, instruction.flag, _, ⟨trivial, rfl⟩, ⟨_, instruction.payload, [],
            ⟨trivial, rfl⟩, ⟨rfl, by rw [← read]⟩, rfl⟩, by simp⟩
  · constructor
    · rintro ⟨_, _, _, ⟨-, rfl⟩, ⟨rfl, rfl⟩, rfl⟩
      exact ⟨trivial, rfl⟩
    · rintro ⟨-, rfl⟩
      exact ⟨_, _, _, ⟨trivial, rfl⟩, ⟨rfl, rfl⟩, rfl⟩

/-! ## Values -/

/-- What spells a stored value: a truth value has more than one spelling. -/
def ValueSpelled (octets : List UInt8) : StoredValue → Prop
  | .bool b => ∃ byte : UInt8, b = (byte != 0) ∧ octets = [1, byte]
  | stored => octets = writeValue stored

/-- What is written for a value spells it. -/
theorem valueSpelled_writeValue
    (stored : StoredValue) :
    ValueSpelled (writeValue stored) stored := by
  cases stored with
  | bool b => exact ⟨if b then 1 else 0, by cases b <;> decide, rfl⟩
  | _ => rfl

/-- A kind of value whose content is one word. -/
theorem readKind_follows
    {kind : UInt8}
    (make : UInt32 → StoredValue)
    (own : ∀ octets stored,
      ValueSpelled (kind :: octets) stored ↔ ∃ word, stored = make word ∧ octets = word32 word) :
    Follows (readWord32 >>= fun word => pure (make word))
      (fun octets stored => ValueSpelled (kind :: octets) stored) := by
  refine (readWord32_follows.bind fun word => .pure (make word)).congr fun octets stored => ?_
  rw [own]
  constructor
  · rintro ⟨_, word, _, ⟨-, rfl⟩, ⟨rfl, rfl⟩, rfl⟩
    exact ⟨word, rfl, List.append_nil _⟩
  · rintro ⟨word, rfl, rfl⟩
    exact ⟨_, word, [], ⟨trivial, rfl⟩, ⟨rfl, rfl⟩, (List.append_nil _).symm⟩

theorem readValue_follows :
    Follows readValue ValueSpelled := by
  refine (@Follows.bind _ _ _ _ _
    (fun kind octets stored => ValueSpelled (kind :: octets) stored)
    octet_follows fun kind => ?_).congr fun octets stored => ?_
  · split
    · refine (Follows.pure StoredValue.void).congr fun octets stored => ?_
      cases stored <;> simp [ValueSpelled, writeValue]
    · refine (octet_follows.bind fun byte => .pure (StoredValue.bool (byte != 0))).congr
        fun octets stored => ?_
      constructor
      · rintro ⟨_, byte, _, ⟨-, rfl⟩, ⟨rfl, rfl⟩, rfl⟩
        exact ⟨byte, rfl, rfl⟩
      · cases stored with
        | bool b =>
            rintro ⟨byte, rfl, ⟨⟩⟩
            exact ⟨_, byte, [], ⟨trivial, rfl⟩, ⟨rfl, rfl⟩, rfl⟩
        | _ => simp [ValueSpelled, writeValue]
    · refine readKind_follows (fun word => .int word.toInt32) fun octets stored => ?_
      cases stored with
      | int i =>
          suffices octets = word32 i.toUInt32 ↔ ∃ word, i = word.toInt32 ∧ octets = word32 word by
            simpa [ValueSpelled, writeValue] using this
          exact ⟨fun same => ⟨i.toUInt32, by simp, same⟩,
            by rintro ⟨word, rfl, same⟩; simpa using same⟩
      | _ => simp [ValueSpelled, writeValue]
    · refine readKind_follows (fun word => .float ⟨word⟩) fun octets stored => ?_
      cases stored with
      | float x =>
          suffices octets = word32 x.bits ↔ ∃ word, x = ⟨word⟩ ∧ octets = word32 word by
            simpa [ValueSpelled, writeValue] using this
          exact ⟨fun same => ⟨x.bits, rfl, same⟩, by rintro ⟨word, rfl, same⟩; exact same⟩
      | _ => simp [ValueSpelled, writeValue]
    · refine readKind_follows .str fun octets stored => ?_
      cases stored <;> simp [ValueSpelled, writeValue]
    · refine readKind_follows .list fun octets stored => ?_
      cases stored <;> simp [ValueSpelled, writeValue]
    · refine readKind_follows .divert fun octets stored => ?_
      cases stored <;> simp [ValueSpelled, writeValue]
    · refine (Follows.throw _).congr fun octets stored => ?_
      cases stored <;> simp_all [ValueSpelled, writeValue]
  · constructor
    · rintro ⟨_, _, _, ⟨-, rfl⟩, spelled, rfl⟩
      exact spelled
    · intro spelled
      cases stored with
      | bool b =>
          obtain ⟨byte, rfl, rfl⟩ := spelled
          exact ⟨_, 1, [byte], ⟨trivial, rfl⟩, ⟨byte, rfl, rfl⟩, rfl⟩
      | _ => exact ⟨_, _, _, ⟨trivial, rfl⟩, rfl, spelled⟩

/-- What spells a global: its name and its value. -/
def GlobalSpelled (octets : List UInt8) (global : UInt32 × StoredValue) : Prop :=
  ∃ content, ValueSpelled content global.2 ∧ octets = word32 global.1 ++ content

theorem readGlobal_follows :
    Follows readGlobal GlobalSpelled := by
  refine (readWord32_follows.bind fun name => readValue_follows.bind fun stored =>
    .pure (name, stored)).congr fun octets global => ?_
  constructor
  · rintro ⟨_, name, _, ⟨-, rfl⟩, ⟨content, stored, _, spelled, ⟨rfl, rfl⟩, rfl⟩, rfl⟩
    exact ⟨content, spelled, by rw [List.append_nil]⟩
  · rintro ⟨content, spelled, rfl⟩
    exact ⟨_, global.1, _, ⟨trivial, rfl⟩,
      ⟨content, global.2, [], spelled, ⟨rfl, rfl⟩, rfl⟩, by rw [List.append_nil]⟩

/-- What spells a value has the length of what is written for it. -/
theorem ValueSpelled.length_eq
    {octets : List UInt8}
    {stored : StoredValue}
    (spelled : ValueSpelled octets stored) :
    octets.length = (writeValue stored).length := by
  cases stored with
  | bool b =>
      obtain ⟨byte, -, rfl⟩ := spelled
      rfl
  | _ => exact congrArg List.length spelled

theorem GlobalSpelled.length_eq
    {octets : List UInt8}
    {global : UInt32 × StoredValue}
    (spelled : GlobalSpelled octets global) :
    octets.length = (writeGlobal global).length := by
  obtain ⟨content, value, rfl⟩ := spelled
  rw [writeGlobal, List.length_append, List.length_append, value.length_eq]

/-- What is written for globals spells them. -/
theorem row_writeGlobal
    (globals : List (UInt32 × StoredValue)) :
    Row GlobalSpelled (globals.flatMap writeGlobal) globals := by
  induction globals with
  | nil =>
      exact .nil
  | cons global rest inductionHypothesis =>
      rw [List.flatMap_cons]
      exact .cons ⟨_, valueSpelled_writeValue global.2, rfl⟩ inductionHypothesis

end StoryFormat

end Fabula
