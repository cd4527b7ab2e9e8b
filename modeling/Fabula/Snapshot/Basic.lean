import Fabula.LittleEndian
import Fabula.Json.Parser
import Fabula.Snapshot.Codec
import Fabula.Snapshot.Restore

namespace Fabula

/-!
# Snapshots

A snapshot holds saved runners, the saved values of their store, or both.  It is
stored as a header and a body: the header is the mark `INKS`, a version, the kind of
the snapshot, the fingerprint of the declarations it belongs to and the length of
the body; the body is a document.
-/

/-- What a snapshot holds. -/
inductive SnapshotKind where
  | globalsOnly
  | globalsAndRunners
  | runnersOnly
  deriving Repr, DecidableEq

namespace SnapshotKind

def name : SnapshotKind → String
  | .globalsOnly => "GlobalsOnly"
  | .globalsAndRunners => "GlobalsAndRunners"
  | .runnersOnly => "RunnersOnly"

def byte : SnapshotKind → UInt8
  | .globalsOnly => 0
  | .globalsAndRunners => 1
  | .runnersOnly => 2

def ofByte? (byte : UInt8) : Option SnapshotKind :=
  match byte.toNat with
  | 0 => some .globalsOnly
  | 1 => some .globalsAndRunners
  | 2 => some .runnersOnly
  | _ => none

end SnapshotKind

/-- Saved values and saved flows. -/
structure SnapshotBody where
  globals : Option (List SavedVariable)
  flows : List SavedFlow
  deriving Repr, DecidableEq

/-- A snapshot of runners or of a store. -/
structure Snapshot where
  kind : SnapshotKind
  /-- The fingerprint of the declarations. -/
  fingerprint : List UInt8
  body : SnapshotBody
  deriving Repr, DecidableEq

/-- Whether a body holds what its kind says. -/
def SnapshotKind.admits (kind : SnapshotKind) (body : SnapshotBody) : Bool :=
  match kind with
  | .globalsOnly => body.globals.isSome && body.flows.isEmpty
  | .globalsAndRunners => body.globals.isSome && !body.flows.isEmpty
  | .runnersOnly => body.globals.isNone && !body.flows.isEmpty

namespace SnapshotBody

open Json

def globalsNode (saved : List SavedVariable) : Node :=
  .ofFields [("variables", .ofList SavedVariable.toNode saved)]

def toNode (body : SnapshotBody) : Node :=
  .ofFields
    [("globals", .ofOption globalsNode body.globals),
      ("runners", .ofList SavedFlow.toNode body.flows)]

def toOctets (body : SnapshotBody) : List UInt8 :=
  Text.encodeUtf8 body.toNode.write

/-- Saved values in a document with at most the given number of levels. -/
def globalsOfNode? (room : Nat) : Decoder (List SavedVariable) := fun node => do
  let record ← Record.ofNode? ["variables"] node
  record.required "variables" (Decode.list (SavedVariable.ofNode? (room - 2)))

/-- A body in a document with at most the given number of levels. -/
def ofNode? (room : Nat) : Decoder SnapshotBody := fun node => do
  let record ← Record.ofNode? ["globals", "runners"] node
  let globals ← record.optional "globals" (globalsOfNode? (room - 1))
  let flows ← record.required "runners" (Decode.list (SavedFlow.ofNode? (room - 2)))
  pure ⟨globals, flows⟩

def ofOctets? (octets : List UInt8) : Option SnapshotBody :=
  (Json.parse octets).bind (ofNode? (Json.depthLimit - 1))

end SnapshotBody

namespace Snapshot

open LittleEndian

def magic : List UInt8 :=
  Text.octets "INKS"

def version : UInt32 := 1

/-- The number of octets of a fingerprint. -/
def fingerprintSize : Nat := 16

/-- The number of octets of a header. -/
def headerSize : Nat := 4 + 4 + 1 + fingerprintSize + 4

def runnerCount (snapshot : Snapshot) : Nat :=
  snapshot.body.flows.length

def hasGlobals (snapshot : Snapshot) : Bool :=
  snapshot.body.globals.isSome

/-! ## Octets -/

/-- The header before a body of the given length. -/
def header (snapshot : Snapshot) (length : Nat) : List UInt8 :=
  magic ++ word32 version ++ [snapshot.kind.byte] ++ snapshot.fingerprint ++
    word32 (UInt32.ofNat length)

def toOctets (snapshot : Snapshot) : Except Error (List UInt8) :=
  let body := snapshot.body.toOctets
  if body.length < UInt32.size then
    .ok (snapshot.header body.length ++ body)
  else
    refuseCorrupt .bodyTooLarge

/-- The octets from one position up to another. -/
def slice (octets : List UInt8) (start stop : Nat) : List UInt8 :=
  (octets.take stop).drop start

/-- The snapshot with a kind, a fingerprint and the octets of its body. -/
def ofBody (kind : SnapshotKind) (fingerprint stored : List UInt8) : Except Error Snapshot :=
  match SnapshotBody.ofOctets? stored with
  | none => refuseCorrupt .invalidBody
  | some body =>
      if kind.admits body then
        .ok ⟨kind, fingerprint, body⟩
      else
        refuseCorrupt (.bodyMismatch kind.name)

/-- The snapshot in octets with a header of the present version. -/
def ofHeader (octets : List UInt8) : Except Error Snapshot :=
  let byte := (octets.drop 8).headD 0
  match SnapshotKind.ofByte? byte with
  | none => refuseCorrupt (.unknownKind byte)
  | some kind =>
      let stated := value (slice octets 25 29)
      let stored := octets.drop headerSize
      if stored.length = stated then
        ofBody kind (slice octets 9 25) stored
      else
        refuseCorrupt (.bodyLength stored.length stated)

def ofOctets (octets : List UInt8) : Except Error Snapshot :=
  if octets.length < headerSize then
    refuseCorrupt .truncatedHeader
  else if octets.take 4 ≠ magic then
    refuseCorrupt .badMagic
  else
    let found := UInt32.ofNat (value (slice octets 4 8))
    if found = 0 ∨ version < found then
      .error (.snapshotVersion found version)
    else
      ofHeader octets

/-! ## Taking snapshots -/

/-- A runner with the story it runs and its store. -/
structure Subject where
  runner : Runner
  story : Story
  store : Store
  /-- The identity of the store, which several runners may share. -/
  storeId : Nat

/-- Whether a runner can be saved together with another one. -/
def Subject.check (first : Subject) (withGlobals : Bool) (subject : Subject) :
    Except Error Unit := do
  subject.runner.ensureUsable
  if withGlobals && subject.storeId != first.storeId then
    .error (.invalidState .storesDiffer)
  else if !subject.story.declarations.sameStructure first.story.declarations then
    refuseMismatch .differentStories
  else
    .ok ()

/-- A snapshot of runners, with or without the values of the store that they share. -/
def capture (subjects : List Subject) (withGlobals : Bool) : Except Error Snapshot := do
  match subjects with
  | [] => throw (.invalidState .noRunners)
  | first :: _ =>
      subjects.forM (first.check withGlobals)
      let flows := subjects.map fun subject => SavedFlow.ofFlow subject.runner.flow
      pure
        { kind := if withGlobals then .globalsAndRunners else .runnersOnly
          fingerprint := first.story.declarations.fingerprint
          body := ⟨if withGlobals then some first.store.saved else none, flows⟩ }

/-- A snapshot of the values of a store. -/
def ofStore (store : Store) : Snapshot where
  kind := .globalsOnly
  fingerprint := store.declarations.fingerprint
  body := ⟨some store.saved, []⟩

/-! ## Restoring -/

/-- A snapshot belongs to the declarations that it was taken from. -/
def checkStory (snapshot : Snapshot) (story : Story) : Except Error Unit :=
  if snapshot.fingerprint = story.declarations.fingerprint then
    .ok ()
  else
    refuseMismatch .otherStory

/-- The store with the saved values. -/
def restoreStore (snapshot : Snapshot) (story : Story) : Except Error Store := do
  snapshot.checkStory story
  match snapshot.body.globals with
  | none => throw (.invalidState .noSavedGlobals)
  | some saved => Store.restore story saved

end Snapshot

/-- The store that a runner of a story uses: the given one if it belongs to the story. -/
def Story.bindStore (story : Story) (given : Option Store) : Except Error Store :=
  match given with
  | none => .ok (.start story.declarations)
  | some store =>
      if store.declarations.sameStructure story.declarations then
        .ok store
      else
        refuseMismatch .foreignStore

namespace Snapshot

/--
A saved runner and its store: the given store, else one with the saved values, else
a new one.
-/
def restoreRunner (snapshot : Snapshot) (story : Story) (given : Option Store) (index : Nat) :
    Except Error (Runner × Store) := do
  snapshot.checkStory story
  match snapshot.body.flows[index]? with
  | none => throw (.invalidState (.noSavedRunner snapshot.runnerCount index))
  | some saved =>
      let store ←
        match given, snapshot.body.globals with
        | none, some globals => Store.restore story globals
        | _, _ => story.bindStore given
      let flow ← saved.restore story
      pure (.ofFlow flow, store)

end Snapshot

end Fabula
