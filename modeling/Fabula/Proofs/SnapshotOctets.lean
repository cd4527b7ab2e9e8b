import Fabula.Proofs.Records
import Fabula.Snapshot.Basic

namespace Fabula

/-!
# The octets of snapshots

The octets of a snapshot have its header before its body, and the parts of the header are found
again at their places.  The header states the length of the body, so octets that end too early or
too late are refused, and the body decodes to what was saved if all values in it are finite.
-/

open Json LittleEndian

/-! ## Headers -/

namespace Digest

theorem length_compute
    (message : List UInt8) :
    (compute message).length = Snapshot.fingerprintSize := by
  simp [compute, word32, Snapshot.fingerprintSize]

end Digest

theorem Declarations.length_fingerprint
    (declarations : Declarations) :
    declarations.fingerprint.length = Snapshot.fingerprintSize :=
  Digest.length_compute _

namespace Snapshot

/-- The octets that stand after some others. -/
theorem slice_append
    (before own after : List UInt8)
    {start stop : Nat}
    (first : before.length = start)
    (last : start + own.length = stop) :
    slice (before ++ (own ++ after)) start stop = own := by
  subst first last
  rw [slice, ← List.append_assoc, ← List.length_append, List.take_left, List.drop_left]

theorem ofByte?_byte
    (kind : SnapshotKind) :
    SnapshotKind.ofByte? kind.byte = some kind := by
  cases kind <;> rfl

theorem length_magic :
    magic.length = 4 := by
  decide

theorem length_word
    (word : UInt32) :
    (word32 word).length = 4 :=
  length_octets 4 word.toNat

section Header

variable
  {snapshot : Snapshot} (size : snapshot.fingerprint.length = fingerprintSize)
  {octets stored : List UInt8} {length : Nat} (split : octets = snapshot.header length ++ stored)

include size

theorem length_header :
    (snapshot.header length).length = headerSize := by
  simp [header, length_magic, length_word, size, headerSize, fingerprintSize]

include split

theorem parts_header :
    octets.take 4 = magic ∧ slice octets 4 8 = word32 version ∧
      (octets.drop 8).headD 0 = snapshot.kind.byte ∧ slice octets 9 25 = snapshot.fingerprint ∧
      slice octets 25 29 = word32 (UInt32.ofNat length) ∧ octets.drop headerSize = stored := by
  have whole : (snapshot.header length).length = headerSize := length_header size
  refine ⟨?_, ?_, ?_, ?_, ?_, by rw [split, List.drop_left' whole]⟩
  all_goals
    simp only [header, List.append_assoc] at split
    rw [split]
  · rw [← length_magic, List.take_left]
  · exact slice_append _ _ _ length_magic (by rw [length_word])
  · rw [← List.append_assoc,
      List.drop_left' (by rw [List.length_append, length_magic, length_word])]
    rfl
  · rw [← List.append_assoc, ← List.append_assoc]
    exact slice_append _ _ _ (by simp [length_magic, length_word])
      (by rw [size, fingerprintSize])
  · rw [← List.append_assoc, ← List.append_assoc, ← List.append_assoc]
    exact slice_append _ _ _ (by simp [length_magic, length_word, size, fingerprintSize])
      (by rw [length_word])

/-- A header says what it was made of, and what follows must have the length that it states. -/
theorem ofOctets_header
    (small : length < UInt32.size) :
    ofOctets octets =
      if stored.length = length then ofBody snapshot.kind snapshot.fingerprint stored
      else .error (.snapshotCorrupt (.bodyLength stored.length length)) := by
  obtain ⟨marked, versioned, kinded, printed, stated, remaining⟩ := parts_header size split
  have long : ¬ octets.length < headerSize := by
    rw [split, List.length_append, length_header size]
    omega
  have current : ¬ (UInt32.ofNat (value (word32 version)) = 0 ∨
      version < UInt32.ofNat (value (word32 version))) := by
    decide
  have count : value (word32 (UInt32.ofNat length)) = length := by
    rw [value_word32, UInt32.toNat_ofNat_of_lt' small]
  rw [ofOctets, if_neg long, if_neg (fun other => other marked), versioned]
  simp only [if_neg current, ofHeader, kinded, ofByte?_byte, stated, count, remaining, printed,
    refuseCorrupt]

end Header

end Snapshot

/-! ## Bodies -/

namespace SnapshotBody

theorem toNode_written
    (body : SnapshotBody) :
    body.toNode.Written := by
  refine .field (.ofOption fun saved _ => ?_)
    (.field (.ofList fun flow _ => flow.toNode_written) .noFields)
  exact .field (.ofList fun entry _ => entry.toNode_written) .noFields

/-- All values of a body: those of the variables and those of the flows. -/
def values (body : SnapshotBody) : List SavedValue :=
  (body.globals.getD []).map SavedVariable.value ++ body.flows.flatMap SavedFlow.values

theorem globalsOfNode?_globalsNode
    (saved : List SavedVariable)
    (room : Nat) :
    globalsOfNode? room (globalsNode saved) =
      if saved.all (fun entry => entry.value.isFinite) then some saved else none :=
  Decode.list_ofList (fun entry => entry.ofNode?_toNode _) saved

/-- A body decodes to what was saved unless a value has no numeral. -/
theorem ofNode?_toNode
    (body : SnapshotBody)
    (room : Nat) :
    ofNode? room body.toNode =
      if body.values.all SavedValue.isFinite then some body else none := by
  have all : body.values.all SavedValue.isFinite =
      (body.globals.all (fun saved => saved.all fun entry => entry.value.isFinite) &&
        ((body.flows.flatMap SavedFlow.values).all SavedValue.isFinite && true)) := by
    rw [values, List.all_append, List.all_map, Bool.and_true]
    cases body.globals <;> rfl
  rw [all]
  change (do
    let globals ← Decode.option (globalsOfNode? (room - 1)) (.ofOption globalsNode body.globals)
    let flows ← Decode.list (SavedFlow.ofNode? (room - 2)) (.ofList SavedFlow.toNode body.flows)
    pure (SnapshotBody.mk globals flows)) = _
  rw [Decode.option_ofOption nofun fun saved => globalsOfNode?_globalsNode saved _,
    Decode.list_ofList_values fun flow => SavedFlow.ofNode?_toNode flow _]
  exact Decode.bind_ite (Decode.bind_ite rfl)

theorem ofOctets?_toOctets
    (body : SnapshotBody) :
    ofOctets? body.toOctets = if body.values.all SavedValue.isFinite then some body else none := by
  rw [ofOctets?, toOctets, parse_write body.toNode_written]
  exact body.ofNode?_toNode _

end SnapshotBody

/-! ## Whole snapshots -/

/-- Different lists of which one goes on where the other ends differ in length. -/
theorem length_ne_of_prefix
    {α : Type}
    {first second : List α}
    (related : first <+: second ∨ second <+: first)
    (differs : first ≠ second) :
    first.length ≠ second.length := by
  intro same
  rcases related with cut | longer
  · exact differs (cut.eq_of_length same)
  · exact differs (longer.eq_of_length same.symm).symm

/-- A computation in two parts succeeds if both do. -/
theorem exists_of_bind_eq_ok
    {ε α β : Type}
    {first : Except ε α}
    {next : α → Except ε β}
    {b : β}
    (done : (first >>= next) = .ok b) :
    ∃ a, first = .ok a ∧ next a = .ok b := by
  cases first with
  | error e => cases done
  | ok a => exact ⟨a, rfl, done⟩

namespace Snapshot

theorem toOctets_of_lt
    {snapshot : Snapshot}
    (small : snapshot.body.toOctets.length < UInt32.size) :
    snapshot.toOctets =
      .ok (snapshot.header snapshot.body.toOctets.length ++ snapshot.body.toOctets) := by
  rw [toOctets, if_pos small]

theorem toOctets_of_le
    {snapshot : Snapshot}
    (large : UInt32.size ≤ snapshot.body.toOctets.length) :
    snapshot.toOctets = .error (.snapshotCorrupt .bodyTooLarge) := by
  rw [toOctets, if_neg (Nat.not_lt.mpr large), refuseCorrupt]

/-- A snapshot that can be stored: its parts fit the header, and it holds what its kind says. -/
structure Consistent (snapshot : Snapshot) : Prop where
  fingerprint : snapshot.fingerprint.length = fingerprintSize
  admits : snapshot.kind.admits snapshot.body = true

namespace Consistent

variable {snapshot : Snapshot} (consistent : snapshot.Consistent)

include consistent

/-- A snapshot is read back unless a value has no numeral. -/
theorem ofOctets_toOctets
    {octets : List UInt8}
    (written : snapshot.toOctets = .ok octets) :
    ofOctets octets =
      if snapshot.body.values.all SavedValue.isFinite then .ok snapshot
      else .error (.snapshotCorrupt .invalidBody) := by
  rw [toOctets] at written
  split at written
  · next small =>
      have whole := (Except.ok.inj written).symm
      rw [ofOctets_header consistent.fingerprint whole small, if_pos rfl, ofBody,
        SnapshotBody.ofOctets?_toOctets]
      cases snapshot.body.values.all SavedValue.isFinite with
      | true => exact if_pos consistent.admits
      | false => rfl
  · cases written

/-- Every snapshot of finite numbers that is not too long is accepted somewhere. -/
theorem accepted
    (small : snapshot.body.toOctets.length < UInt32.size)
    (finite : snapshot.body.values.all SavedValue.isFinite = true) :
    ∃ octets, ofOctets octets = .ok snapshot := by
  have read := consistent.ofOctets_toOctets (toOctets_of_lt small)
  exact ⟨_, read.trans (if_pos finite)⟩

/-- Octets that end before the end of a snapshot or after it are refused for their length. -/
theorem ofOctets_of_cut
    {octets other : List UInt8}
    (written : snapshot.toOctets = .ok octets)
    (related : other <+: octets ∨ octets <+: other)
    (differs : other ≠ octets) :
    ofOctets other = .error (.snapshotCorrupt
      (if other.length < headerSize then .truncatedHeader
        else .bodyLength (other.length - headerSize) snapshot.body.toOctets.length)) := by
  rw [toOctets] at written
  split at written
  · next small =>
      obtain rfl := Except.ok.inj written
      have headed : (snapshot.header snapshot.body.toOctets.length).length = headerSize :=
        length_header consistent.fingerprint
      by_cases short : other.length < headerSize
      · rw [ofOctets, if_pos short, if_pos short]
        rfl
      · -- Both have the header, so they differ in the length of what follows it.
        have starts : snapshot.header snapshot.body.toOctets.length <+: other := by
          rcases related with cut | longer
          · exact List.prefix_of_prefix_length_le (List.prefix_append _ _) cut (by omega)
          · exact (List.prefix_append _ _).trans longer
        obtain ⟨stored, rfl⟩ := starts
        have wrong : stored.length ≠ snapshot.body.toOctets.length := by
          have lengths := length_ne_of_prefix related differs
          simpa using lengths
        rw [ofOctets_header consistent.fingerprint rfl small, if_neg wrong, if_neg short,
          List.length_append, headed, Nat.add_sub_cancel_left]
  · cases written

end Consistent

/-- The ways to come by a snapshot. -/
inductive Made : Snapshot → Prop where
  | captured
      {snapshot : Snapshot}
      {subjects : List Subject}
      {withGlobals : Bool}
      (captured : capture subjects withGlobals = .ok snapshot) :
      Made snapshot
  | ofStore (store : Store) : Made (ofStore store)
  | read
      {snapshot : Snapshot}
      {octets : List UInt8}
      (read : ofOctets octets = .ok snapshot) :
      Made snapshot

theorem ofBody_eq_ok
    {kind : SnapshotKind}
    {fingerprint stored : List UInt8}
    {snapshot : Snapshot}
    (read : ofBody kind fingerprint stored = .ok snapshot) :
    snapshot.fingerprint = fingerprint ∧ snapshot.kind.admits snapshot.body = true := by
  rw [ofBody] at read
  split at read
  · cases read
  · next body _ =>
      split at read
      · next admitted =>
          obtain rfl := Except.ok.inj read
          exact ⟨rfl, admitted⟩
      · cases read

theorem ofOctets_consistent
    {octets : List UInt8}
    {snapshot : Snapshot}
    (read : ofOctets octets = .ok snapshot) :
    snapshot.Consistent := by
  rw [ofOctets] at read
  split at read
  · cases read
  next long =>
  split at read
  · cases read
  simp only at read
  split at read
  · cases read
  rw [ofHeader] at read
  split at read
  · cases read
  simp only at read
  split at read
  · obtain ⟨printed, admitted⟩ := ofBody_eq_ok read
    refine ⟨?_, admitted⟩
    rw [printed, slice, List.length_drop, List.length_take, fingerprintSize]
    rw [headerSize, fingerprintSize] at long
    omega
  · cases read

theorem capture_consistent
    {subjects : List Subject}
    {withGlobals : Bool}
    {snapshot : Snapshot}
    (captured : capture subjects withGlobals = .ok snapshot) :
    snapshot.Consistent := by
  cases subjects with
  | nil =>
      cases captured
  | cons first others =>
      obtain ⟨_, _, made⟩ := exists_of_bind_eq_ok captured
      obtain rfl := Except.ok.inj made
      refine ⟨Declarations.length_fingerprint _, ?_⟩
      cases withGlobals <;> rfl

theorem Made.consistent
    {snapshot : Snapshot}
    (made : snapshot.Made) :
    snapshot.Consistent := by
  cases made with
  | captured captured => exact capture_consistent captured
  | ofStore store => exact ⟨Declarations.length_fingerprint _, rfl⟩
  | read read => exact ofOctets_consistent read

/--
A snapshot, however it was come by, holds what its kind says, and unless its body is too long it
can be written.  What is written is read back as the same snapshot if all numbers in it are finite,
wherever they stand; what is cut off somewhere or goes on after its end is refused.
-/
theorem toOctets_read_back
    {snapshot : Snapshot}
    (made : snapshot.Made)
    (small : snapshot.body.toOctets.length < UInt32.size) :
    snapshot.kind.admits snapshot.body = true ∧
      ∃ octets, snapshot.toOctets = .ok octets ∧
        (ofOctets octets =
          if snapshot.body.values.all SavedValue.isFinite then .ok snapshot
          else .error (.snapshotCorrupt .invalidBody)) ∧
        ∀ other, other <+: octets ∨ octets <+: other → other ≠ octets →
          ofOctets other = .error (.snapshotCorrupt
            (if other.length < headerSize then .truncatedHeader
              else .bodyLength (other.length - headerSize) snapshot.body.toOctets.length)) := by
  have written := toOctets_of_lt small
  have consistent := made.consistent
  exact ⟨consistent.admits, _, written, consistent.ofOctets_toOctets written,
    fun other => consistent.ofOctets_of_cut written⟩

/-! ## A candle -/

/-- A single runner can be captured unless an error has stopped it. -/
theorem capture_singleton
    {subject : Subject}
    (usable : subject.runner.failure = none)
    (withGlobals : Bool) :
    capture [subject] withGlobals = .ok
      { kind := if withGlobals then .globalsAndRunners else .runnersOnly
        fingerprint := subject.story.declarations.fingerprint
        body := ⟨if withGlobals then some subject.store.saved else none,
          [SavedFlow.ofFlow subject.runner.flow]⟩ } := by
  have checked : subject.check withGlobals subject = .ok () := by
    have same : subject.story.declarations.sameStructure subject.story.declarations = true :=
      beq_self_eq_true _
    simp [Subject.check, Runner.ensureUsable, usable, same, bind, Except.bind]
  have all : [subject].forM (subject.check withGlobals) = .ok () := by
    rw [List.forM_eq_forM, List.forM_cons, checked]
    rfl
  simp only [capture, all]
  rfl

/-- A runner that is inside a function, with a thread that waits and a choice to make. -/
def candle : Subject where
  runner := .ofFlow
    { ip := some 7
      evalMode := true
      eval := [.str "a \"bright\"\nflame", .pointer "oil" (some 0)]
      callStack := ⟨[⟨.function, 4, false, [("wick", .str "\t\\"), ("lit", .bool true)]⟩], .root⟩
      threads := [⟨.start, 5, false⟩]
      output := ⟨[.text "Dark", .glue, .functionStart]⟩
      containers := [0]
      choices := [⟨0, "Light it", ["warm"], 2, .start⟩]
      fallback := none
      visits := [3]
      turnVisited := [none]
      turn := 1
      tags := ⟨.line, ["night"], [], ["é"], []⟩
      rng := ⟨18446744073709551615, 2⟩
      ended := false }
  story := ⟨#[], #[], #[], #[⟨some "cave", 0, 0, 0⟩], ⟨[⟨"oil", .int (-3)⟩], ⟨#[]⟩⟩⟩
  store := .start ⟨[⟨"oil", .int (-3)⟩], ⟨#[]⟩⟩
  storeId := 0

/-- The candle with its store, captured. -/
def candleSnapshot : Snapshot where
  kind := .globalsAndRunners
  fingerprint := candle.story.declarations.fingerprint
  body := ⟨some candle.store.saved, [.ofFlow candle.runner.flow]⟩

/--
The candle has texts with quotes, control characters and an accent, and a seed that needs all of
its bits.  It is read back, and neither without its last octet nor with another one.
-/
theorem toOctets_read_back_candle :
    capture [candle] true = .ok candleSnapshot ∧
      candleSnapshot.kind.admits candleSnapshot.body = true ∧
      ∃ octets,
        candleSnapshot.toOctets = .ok octets ∧
          ofOctets octets = .ok candleSnapshot ∧
          (∃ fault, ofOctets octets.dropLast = .error (.snapshotCorrupt fault)) ∧
          ∃ fault, ofOctets (octets ++ [32]) = .error (.snapshotCorrupt fault) := by
  have captured : capture [candle] true = .ok candleSnapshot := capture_singleton rfl true
  obtain ⟨admitted, octets, written, read, cut⟩ :=
    toOctets_read_back (.captured captured) (by decide +kernel)
  rw [if_pos (by decide +kernel)] at read
  have nonempty : octets ≠ [] := by
    rintro rfl
    cases read
  refine ⟨captured, admitted, octets, written, read, ?_, ?_⟩
  · refine ⟨_, cut _ (.inl octets.dropLast_prefix) fun same => nonempty ?_⟩
    have shorter := congrArg List.length same
    rw [List.length_dropLast] at shorter
    exact List.length_eq_zero_iff.mp (by omega)
  · exact ⟨_, cut _ (.inr (List.prefix_append _ _)) (by simp)⟩

end Snapshot

end Fabula
