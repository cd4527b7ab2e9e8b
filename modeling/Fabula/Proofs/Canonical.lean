import Fabula.Proofs.Grammar
import Fabula.Story.Loader

namespace Fabula

/-!
# Canonical stories

The octets of a stored story are settled by its tables, but for the truth values of its
globals: any octet other than zero stands for truth, and one is written for it.  A story is
read back as it was written, and a story that is cut short or has more after it is refused.
-/

namespace StoryFormat

open LittleEndian

/-! ## The whole story -/

/-- The version of a story, which has to be one that is read. -/
def readVersion : Reader Unit := do
  let found ← readWord32
  if version < found then
    throw (.unsupportedVersion found version)
  else if found = 0 then
    fault .versionZero
  else
    pure ()

theorem readVersion_follows :
    Follows readVersion (fun octets _ => octets = word32 version) := by
  have later (found : UInt32) :
      Follows
        (if version < found then throw (.unsupportedVersion found version)
          else if found = 0 then fault .versionZero
          else pure ())
        (fun octets (_ : Unit) => octets = [] ∧ found = version) := by
    split
    · next newer =>
        refine (Follows.throw _).congr fun octets _ => ⟨False.elim, ?_⟩
        rintro ⟨-, rfl⟩
        exact absurd newer (by decide)
    · next known =>
        split
        · next zero =>
            refine (Follows.throw _).congr fun octets _ => ⟨False.elim, ?_⟩
            rintro ⟨-, rfl⟩
            exact absurd zero (by decide)
        · next positive =>
            have low : found.toNat ≤ 1 := UInt32.le_iff_toNat_le.mp (UInt32.not_lt.mp known)
            have high : found.toNat ≠ 0 := fun zero => positive (UInt32.toNat_inj.mp zero)
            have current : found = version := by
              refine UInt32.toNat_inj.mp ?_
              change found.toNat = 1
              omega
            refine (Follows.pure ()).congr fun octets _ => ?_
            simp [current]
  refine (readWord32_follows.bind later).congr fun octets _ => ?_
  constructor
  · rintro ⟨_, _, _, ⟨-, rfl⟩, ⟨rfl, rfl⟩, rfl⟩
    rw [List.append_nil]
  · rintro rfl
    exact ⟨_, _, [], ⟨trivial, rfl⟩, ⟨rfl, rfl⟩, (List.append_nil _).symm⟩

theorem length_magic :
    magic.length = 4 := by
  decide

/-- The mark is compared before it is read. -/
theorem run_readHeader
    (offset : Nat)
    (octets : List UInt8) :
    readHeader.run (.before offset octets) =
      if octets.take 4 = magic then
        (take 4 >>= fun _ => readVersion).run (.before offset octets)
      else
        .error (.invalidStory .missingMagic) := by
  change (if octets.take 4 = magic then _ else _ : Reader Unit).run (.before offset octets) = _
  split <;> rfl

theorem readHeader_follows :
    Follows readHeader (fun octets _ => octets = magic ++ word32 version) := by
  have marked := (take_follows 4).bind fun _ => readVersion_follows
  have start (rest : List UInt8) : (magic ++ rest).take 4 = magic := by
    rw [← length_magic, List.take_left]
  have own :
      ∃ mark bytes rest,
        (mark = bytes ∧ bytes.length = 4) ∧ rest = word32 version ∧
          magic ++ word32 version = mark ++ rest :=
    ⟨magic, magic, word32 version, ⟨rfl, length_magic⟩, rfl, rfl⟩
  constructor
  · rintro _ ⟨⟩ rfl offset rest
    rw [run_readHeader, if_pos (by rw [List.append_assoc, start])]
    exact marked.reads _ () own offset rest
  · rintro offset octets ⟨⟩ cursor read
    rw [run_readHeader] at read
    split at read
    · next found =>
        obtain ⟨_, rest, ⟨mark, _, _, ⟨rfl, size⟩, rfl, rfl⟩, rfl, rfl⟩ :=
          marked.spells _ _ _ _ read
        have same : mark = magic := by
          rw [← found, List.append_assoc, ← size, List.take_left]
        exact ⟨_, rest, rfl, by rw [same], by rw [same]⟩
    · cases read
  · rintro _ ⟨⟩ rfl offset cut inside short
    rw [run_readHeader]
    split
    · exact marked.refuses _ () own offset cut inside short
    · exact ⟨_, rfl⟩

/-- The tables of a story, whatever comes after them. -/
def readContent : Reader Tables := do
  readHeader
  let strings ← readTable 4 readString
  let lists ← readTable 8 readList
  let literals ← readTable 8 readFlags
  let globals ← readTable 5 readGlobal
  let containers ← readTable 13 readContainer
  let instructions ← readIndexed 6 readInstruction
  pure ⟨strings, lists, literals, globals, containers, instructions⟩

theorem readTables_eq :
    readTables = readContent >>= fun tables => readEnd >>= fun _ => pure tables := by
  simp [readTables, readContent]

/-- Tables whose entries are not too many, and whose texts are not too long, for the format. -/
structure TablesFit (tables : Tables) : Prop where
  strings : TableFits TextFits tables.strings
  lists : TableFits ListFits tables.lists
  literals : TableFits FlagsFit tables.literals
  globals : tables.globals.length < UInt32.size
  containers : tables.containers.length < UInt32.size
  instructions : tables.instructions.length < UInt32.size

instance : DecidablePred TablesFit := fun tables =>
  decidable_of_iff
    (TableFits TextFits tables.strings ∧ TableFits ListFits tables.lists ∧
      TableFits FlagsFit tables.literals ∧ tables.globals.length < UInt32.size ∧
      tables.containers.length < UInt32.size ∧ tables.instructions.length < UInt32.size)
    ⟨fun ⟨strings, lists, literals, globals, containers, instructions⟩ =>
        ⟨strings, lists, literals, globals, containers, instructions⟩,
      fun fit =>
        ⟨fit.strings, fit.lists, fit.literals, fit.globals, fit.containers, fit.instructions⟩⟩

/-- What is written before the globals. -/
def writeBefore (tables : Tables) : List UInt8 :=
  magic ++ word32 version ++ writeTable writeString tables.strings ++
    writeTable writeList tables.lists ++ writeTable writeFlags tables.literals ++
    word32 (UInt32.ofNat tables.globals.length)

/-- What is written after the globals. -/
def writeAfter (tables : Tables) : List UInt8 :=
  writeTable writeContainer tables.containers ++ writeTable writeInstruction tables.instructions

theorem encode_eq
    (tables : Tables) :
    encode tables =
      writeBefore tables ++ tables.globals.flatMap writeGlobal ++ writeAfter tables := by
  simp only [encode, writeBefore, writeAfter, writeTable, List.append_assoc]

/-- What spells the tables of a story: only its globals have more than one spelling. -/
def TablesSpelled (octets : List UInt8) (tables : Tables) : Prop :=
  TablesFit tables ∧
    ∃ row, Row GlobalSpelled row tables.globals ∧
      octets = writeBefore tables ++ row ++ writeAfter tables

theorem readContent_follows :
    Follows readContent TablesSpelled := by
  have strings := readTable_written 4 readString_follows (by simp [writeString, writeTable])
  have lists := readTable_written 8 readList_follows (by simp [writeList, writeTable]; omega)
  have literals := readTable_written 8 readFlags_follows (by simp [writeFlags, writeTable]; omega)
  have globals : Follows (readTable 5 readGlobal) (Tabled GlobalSpelled) := by
    refine readTable_follows readGlobal_follows fun octets global spelled => ?_
    rw [spelled.length_eq, writeGlobal, List.length_append, length_word32]
    have content : 1 ≤ (writeValue global.2).length := by
      cases global.2 <;> simp [writeValue]
    omega
  have containers := readTable_written 13 readContainer_follows (by simp [writeContainer])
  have instructions := readIndexed_written 6 readInstruction_follows (by simp [writeInstruction])
  refine (readHeader_follows.bind fun _ => strings.bind fun strings => lists.bind fun lists =>
    literals.bind fun literals => globals.bind fun globals => containers.bind fun containers =>
      instructions.bind fun instructions =>
        .pure (Tables.mk strings lists literals globals containers instructions)).congr
    fun octets tables => ?_
  constructor
  · rintro ⟨_, _, _, rfl, ⟨_, strings, _, ⟨stringsFit, rfl⟩, ⟨_, lists, _, ⟨listsFit, rfl⟩,
      ⟨_, literals, _, ⟨literalsFit, rfl⟩, ⟨_, globals, _, ⟨few, row, spelled, rfl⟩,
        ⟨_, containers, _, ⟨containersFit, rfl⟩, ⟨_, instructions, _, ⟨instructionsFit, rfl⟩,
          ⟨rfl, rfl⟩, rfl⟩, rfl⟩, rfl⟩, rfl⟩, rfl⟩, rfl⟩, rfl⟩
    refine ⟨⟨stringsFit, listsFit, literalsFit, few, containersFit.1, instructionsFit.1⟩,
      row, spelled, ?_⟩
    simp only [writeBefore, writeAfter, List.append_assoc, List.append_nil]
  · rintro ⟨fit, row, spelled, rfl⟩
    refine ⟨_, (), _, rfl, ⟨_, tables.strings, _, ⟨fit.strings, rfl⟩,
      ⟨_, tables.lists, _, ⟨fit.lists, rfl⟩, ⟨_, tables.literals, _, ⟨fit.literals, rfl⟩,
        ⟨_, tables.globals, _, ⟨fit.globals, row, spelled, rfl⟩,
          ⟨_, tables.containers, _, ⟨⟨fit.containers, by simp⟩, rfl⟩,
            ⟨_, tables.instructions, [], ⟨⟨fit.instructions, by simp⟩, rfl⟩, ⟨rfl, rfl⟩, rfl⟩,
            rfl⟩, rfl⟩, rfl⟩, rfl⟩, rfl⟩, ?_⟩
    simp only [writeBefore, writeAfter, List.append_assoc, List.append_nil]

theorem run_readEnd
    (cursor : Cursor) :
    readEnd.run cursor =
      if cursor.offset = cursor.total then .ok ((), cursor)
      else .error (.invalidStory (.trailingBytes (cursor.total - cursor.offset))) := by
  change (if cursor.offset = cursor.total then _ else _ : Reader Unit).run cursor = _
  split <;> rfl

/-- A story is read to its end. -/
theorem decode_eq
    (octets : List UInt8) :
    decode octets =
      match readContent.run (.before 0 octets) with
      | .error error => .error error
      | .ok (tables, cursor) =>
          if cursor.offset = cursor.total then .ok tables
          else .error (.invalidStory (.trailingBytes (cursor.total - cursor.offset))) := by
  have start : Cursor.start octets = .before 0 octets := by
    simp [Cursor.start, Cursor.before]
  rw [decode, readTables_eq, StateT.run_bind, start]
  cases readContent.run (.before 0 octets) with
  | error error =>
      rfl
  | ok parts =>
      obtain ⟨tables, cursor⟩ := parts
      change Except.map Prod.fst ((readEnd >>= fun _ => pure tables).run cursor) =
        if cursor.offset = cursor.total then _ else _
      rw [StateT.run_bind, run_readEnd]
      split <;> rfl

/-- Spelled tables are read, and what is left after them is refused. -/
theorem decode_append
    {octets : List UInt8}
    {tables : Tables}
    (spelled : TablesSpelled octets tables)
    (rest : List UInt8) :
    decode (octets ++ rest) =
      if rest = [] then .ok tables
      else .error (.invalidStory (.trailingBytes rest.length)) := by
  rw [decode_eq, readContent_follows.reads octets tables spelled]
  simp [Cursor.before]

theorem decode_eq_ok_iff
    {octets : List UInt8}
    {tables : Tables} :
    decode octets = .ok tables ↔ TablesSpelled octets tables := by
  constructor
  · intro read
    cases content : readContent.run (.before 0 octets) with
    | error error =>
        rw [decode_eq, content] at read
        cases read
    | ok parts =>
        obtain ⟨own, cursor⟩ := parts
        obtain ⟨used, rest, spelled, rfl, -⟩ := readContent_follows.spells _ _ _ _ content
        rw [decode_append spelled rest] at read
        split at read
        · next nothing =>
            obtain rfl := Except.ok.inj read
            rwa [nothing, List.append_nil]
        · cases read
  · intro spelled
    have read := decode_append spelled []
    rwa [List.append_nil, if_pos rfl] at read

theorem decode_cut
    {octets cut : List UInt8}
    {tables : Tables}
    (spelled : TablesSpelled octets tables)
    (inside : cut <+: octets)
    (short : cut ≠ octets) :
    ∃ cause, decode cut = .error (.invalidStory cause) := by
  obtain ⟨cause, refused⟩ := readContent_follows.refuses octets tables spelled 0 cut inside short
  exact ⟨cause, by rw [decode_eq, refused]⟩

/-- What is written for tables that fit the format spells them. -/
theorem tablesSpelled_encode
    {tables : Tables}
    (fit : TablesFit tables) :
    TablesSpelled (encode tables) tables :=
  ⟨fit, _, row_writeGlobal tables.globals, encode_eq tables⟩

/-- What is written for tables is loaded if the tables are. -/
theorem ofOctets_encode
    {tables : Tables}
    (fit : TablesFit tables) :
    Story.ofOctets (encode tables) = Story.ofTables tables := by
  have read : decode (encode tables) = .ok tables :=
    decode_eq_ok_iff.mpr (tablesSpelled_encode fit)
  simp only [Story.ofOctets, read, bind, Except.bind]

/--
Stories are read back as they were written: no check of the reader, that of the numbers of
entries included, refuses what the writer wrote.
-/
theorem decode_encode
    (tables : Tables)
    (fit : TablesFit tables) :
    decode (encode tables) = .ok tables :=
  decode_eq_ok_iff.mpr (tablesSpelled_encode fit)

/-- Tables with values of every kind, a float that is no number and a text beyond ASCII. -/
def harbourTables : Tables where
  strings := ["harbour", "", "Ænima 🌊", "tide"]
  lists := [⟨0, [(1, 1), (3, -7)]⟩, ⟨noName, []⟩]
  literals := [⟨[0, 65535], [⟨0, 1⟩, ⟨7, 9⟩]⟩, ⟨[], []⟩]
  globals :=
    [(0, .void), (1, .bool true), (2, .bool false), (3, .int (-1)), (9, .float ⟨0x7fc00001⟩),
      (4, .str 2), (5, .list 0), (noName, .divert 0xffffffff)]
  containers := [⟨noName, 0, 5, 255⟩, ⟨2, 9, 1, 0⟩]
  instructions := [⟨.startContainer, 3, 0⟩, ⟨.binary .listItem, 255, 0xdeadbeef⟩,
    ⟨.valuePointer, 0, 1⟩]

theorem decode_encode_harbour :
    TablesFit harbourTables ∧ decode (encode harbourTables) = .ok harbourTables := by
  have fit : TablesFit harbourTables := by decide +kernel
  exact ⟨fit, decode_encode harbourTables fit⟩

/-! ## Truth values -/

/-- The octet that is written for the truth value which an octet stands for. -/
def truthOctet (byte : UInt8) : UInt8 :=
  if byte = 0 then 0 else 1

/-- Where the truth value of a global is, if it has one, when it starts at an offset. -/
def truthPosition (offset : Nat) (global : UInt32 × StoredValue) : List Nat :=
  match global.2 with
  | .bool _ => [offset + 5]
  | _ => []

/-- Where the truth values of globals are, when these start at an offset. -/
def truthPositionsFrom (offset : Nat) : List (UInt32 × StoredValue) → List Nat
  | [] => []
  | global :: rest =>
      truthPosition offset global ++ truthPositionsFrom (offset + (writeGlobal global).length) rest

/-- Where the truth values of the globals of a story are. -/
def truthPositions (tables : Tables) : List Nat :=
  truthPositionsFrom (writeBefore tables).length tables.globals

/-- The octets from an offset on, with truth values at the given positions as they are written. -/
def settle (positions : List Nat) (offset : Nat) (octets : List UInt8) : List UInt8 :=
  octets.mapIdx fun index byte => if offset + index ∈ positions then truthOctet byte else byte

theorem settle_append
    (positions : List Nat)
    (offset : Nat)
    (octets others : List UInt8) :
    settle positions offset (octets ++ others) =
      settle positions offset octets ++ settle positions (offset + octets.length) others := by
  simp only [settle, List.mapIdx_append, Nat.add_assoc, Nat.add_comm octets.length]

/-- Only the positions of the octets matter. -/
theorem settle_congr
    {positions others : List Nat}
    {offset : Nat}
    {octets : List UInt8}
    (same : ∀ position, offset ≤ position → position < offset + octets.length →
      (position ∈ positions ↔ position ∈ others)) :
    settle positions offset octets = settle others offset octets := by
  refine List.mapIdx_eq_mapIdx_iff.mpr fun index inside => ?_
  have own := same (offset + index) (by omega) (by omega)
  simp only [own]

@[simp]
theorem settle_nil
    (offset : Nat)
    (octets : List UInt8) :
    settle [] offset octets = octets := by
  refine List.ext_getElem? fun index => ?_
  simp [settle, List.getElem?_mapIdx]

@[simp]
theorem length_settle
    (positions : List Nat)
    (offset : Nat)
    (octets : List UInt8) :
    (settle positions offset octets).length = octets.length :=
  List.length_mapIdx

theorem settle_of_outside
    {positions : List Nat}
    {offset : Nat}
    {octets : List UInt8}
    (outside : ∀ position ∈ positions, position < offset ∨ offset + octets.length ≤ position) :
    settle positions offset octets = octets := by
  refine (settle_congr fun position low high => ?_).trans (settle_nil offset octets)
  refine ⟨fun member => ?_, fun member => absurd member List.not_mem_nil⟩
  rcases outside position member with before | after <;> omega

theorem truthPosition_bounds
    {offset position : Nat}
    {global : UInt32 × StoredValue}
    (member : position ∈ truthPosition offset global) :
    offset ≤ position ∧ position < offset + (writeGlobal global).length := by
  obtain ⟨name, stored⟩ := global
  cases stored with
  | bool b =>
      obtain rfl := List.mem_singleton.mp member
      simp [writeGlobal, writeValue]
  | _ => exact absurd member List.not_mem_nil

theorem truthPositionsFrom_bounds
    {globals : List (UInt32 × StoredValue)}
    {offset position : Nat}
    (member : position ∈ truthPositionsFrom offset globals) :
    offset ≤ position ∧ position < offset + (globals.flatMap writeGlobal).length := by
  induction globals generalizing offset with
  | nil =>
      exact absurd member List.not_mem_nil
  | cons global rest inductionHypothesis =>
      rw [List.flatMap_cons, List.length_append]
      rcases List.mem_append.mp member with own | later
      · have := truthPosition_bounds own
        omega
      · have := inductionHypothesis later
        omega

theorem settle_global
    {offset : Nat}
    {octets : List UInt8}
    {global : UInt32 × StoredValue}
    (spelled : GlobalSpelled octets global) :
    settle (truthPosition offset global) offset octets = writeGlobal global := by
  obtain ⟨name, stored⟩ := global
  obtain ⟨content, value, rfl⟩ := spelled
  cases stored with
  | bool b =>
      obtain ⟨byte, rfl, rfl⟩ := value
      change settle [offset + 5] offset (word32 name ++ [1, byte]) =
        word32 name ++ [1, if byte != 0 then 1 else 0]
      rw [settle_append, settle_of_outside (by simp), length_word32]
      by_cases zero : byte = 0 <;> simp [settle, truthOctet, zero]
  | _ =>
      obtain rfl := value
      exact settle_nil offset _

/-- Globals are written as they are spelled, but for their truth values. -/
theorem settle_row
    (offset : Nat)
    {octets : List UInt8}
    {globals : List (UInt32 × StoredValue)}
    (row : Row GlobalSpelled octets globals) :
    settle (truthPositionsFrom offset globals) offset octets = globals.flatMap writeGlobal := by
  induction row generalizing offset with
  | nil =>
      rfl
  | @cons own others global rest spelled later inductionHypothesis =>
      have size := spelled.length_eq
      rw [settle_append, List.flatMap_cons]
      congr 1
      · refine (settle_congr fun position _ high => ?_).trans (settle_global spelled)
        refine List.mem_append.trans ⟨?_, .inl⟩
        rintro (member | member)
        · exact member
        · have := truthPositionsFrom_bounds member
          omega
      · rw [size]
        refine (settle_congr fun position low _ => ?_).trans (inductionHypothesis _)
        refine List.mem_append.trans ⟨?_, .inr⟩
        rintro (member | member)
        · have := truthPosition_bounds member
          omega
        · exact member

/-- Stories are written as they are spelled, but for the truth values of their globals. -/
theorem settle_tables
    {octets : List UInt8}
    {tables : Tables}
    (spelled : TablesSpelled octets tables) :
    settle (truthPositions tables) 0 octets = encode tables := by
  obtain ⟨-, row, globals, rfl⟩ := spelled
  have size : row.length = (tables.globals.flatMap writeGlobal).length := by
    rw [← settle_row 0 globals, length_settle]
  have inside {position : Nat} (member : position ∈ truthPositions tables) :=
    truthPositionsFrom_bounds member
  have before : settle (truthPositions tables) 0 (writeBefore tables) = writeBefore tables := by
    refine settle_of_outside fun position member => .inr ?_
    have := inside member
    omega
  have after :
      settle (truthPositions tables) (writeBefore tables ++ row).length (writeAfter tables) =
        writeAfter tables := by
    refine settle_of_outside fun position member => .inl ?_
    have := inside member
    rw [List.length_append]
    omega
  rw [settle_append, settle_append, Nat.zero_add, Nat.zero_add, encode_eq, before, after,
    truthPositions, settle_row _ globals]

/--
The octets of a story are settled by its tables, up to the truth values of its globals, for
which any octet other than zero may stand.  The end of a story is settled, too: what is cut
short and what has more after it is refused.
-/
theorem decode_ok_canonical
    {octets : List UInt8}
    {tables : Tables}
    (read : decode octets = .ok tables) :
    (encode tables).length = octets.length ∧
      (∀ position,
        (encode tables)[position]? =
          if position ∈ truthPositions tables then octets[position]?.map truthOctet
          else octets[position]?) ∧
      (∀ cut,
        cut <+: octets →
        cut ≠ octets →
        ∃ cause, decode cut = .error (.invalidStory cause)) ∧
      ∀ extra,
        extra ≠ [] →
        ∃ cause, decode (octets ++ extra) = .error (.invalidStory cause) := by
  have spelled := decode_eq_ok_iff.mp read
  have settled := settle_tables spelled
  refine ⟨?_, fun position => ?_, fun cut inside short => ?_, fun extra more => ?_⟩
  · rw [← settled, length_settle]
  · rw [← settled, settle, List.getElem?_mapIdx, Nat.zero_add]
    split <;> simp
  · exact decode_cut spelled inside short
  · exact ⟨_, (decode_append spelled extra).trans (if_neg more)⟩

/-- A story with one global, whose truth value is stored as the octet seven. -/
def lanternOctets : List UInt8 :=
  magic ++ word32 version ++ word32 0 ++ word32 0 ++ word32 0 ++
    word32 1 ++ word32 3 ++ [1, 7] ++ word32 0 ++ word32 0

def lanternTables : Tables :=
  { Tables.empty with globals := [(3, .bool true)] }

theorem decode_ok_canonical_lantern :
    decode lanternOctets = .ok lanternTables ∧
      truthPositions lanternTables = [29] ∧
      lanternOctets[29]? = some 7 ∧
      (encode lanternTables)[29]? = some 1 ∧
      (encode lanternTables).length = lanternOctets.length ∧
      ∃ cause, decode (lanternOctets ++ [0]) = .error (.invalidStory cause) := by
  have read : decode lanternOctets = .ok lanternTables := by rfl
  have positions : truthPositions lanternTables = [29] := by decide
  have stored : lanternOctets[29]? = some 7 := by decide
  obtain ⟨size, agree, -, extended⟩ := decode_ok_canonical read
  refine ⟨read, positions, stored, ?_, size, extended [0] (by decide)⟩
  rw [agree, positions, stored]
  decide

end StoryFormat

end Fabula
