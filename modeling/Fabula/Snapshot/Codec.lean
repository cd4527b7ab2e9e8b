import Fabula.Json.Decode
import Fabula.Json.Printer
import Fabula.Snapshot.Saved

namespace Fabula

/-!
# Saved state as documents

Records are written as objects with their fields in order.  A value is written as
its kind and its content, and the content may also stand before the kind: it is
then read as a document of limited nesting before its type is known.  So readers
are given the number of levels that a document may have.
-/

open Json

/-! ## Writing -/

def textNode (text : String) : Node :=
  .ofString text

/-- The document of a 32-bit word. -/
def wordNode (word : UInt32) : Node :=
  .ofNat word.toNat

/-- The document of a 64-bit word. -/
def longNode (word : UInt64) : Node :=
  .ofNat word.toNat

def textsNode (texts : List String) : Node :=
  .ofList textNode texts

namespace SavedValue

def tagged (kind : String) (content : Node) : Node :=
  .ofFields [("kind", textNode kind), ("value", content)]

/-- The document of a pair of names. -/
def namesNode (names : String × String) : Node :=
  .array [textNode names.1, textNode names.2]

def toNode : SavedValue → Node
  | .void => .ofFields [("kind", textNode "none")]
  | .bool b => tagged "bool" (.bool b)
  | .int i => tagged "int" (.ofInt i.toInt)
  | .float x => tagged "float" (.ofSingle x)
  | .str s => tagged "str" (textNode s)
  | .list items origins =>
      tagged "list" (.ofFields [("items", .ofList namesNode items), ("origins", textsNode origins)])
  | .divert target => tagged "divert" (wordNode target)
  | .pointer name frame =>
      tagged "pointer" (.ofFields [("name", textNode name), ("frame", .ofOption longNode frame)])

end SavedValue

def Kind.documentNames : List (String × Kind) :=
  [("None", .void), ("Bool", .bool), ("Int", .int), ("Float", .float), ("String", .string),
    ("List", .list), ("Divert", .divert), ("Pointer", .pointer)]

def Kind.documentName : Kind → String
  | .void => "None"
  | .bool => "Bool"
  | .int => "Int"
  | .float => "Float"
  | .string => "String"
  | .list => "List"
  | .divert => "Divert"
  | .pointer => "Pointer"

def SavedVariable.toNode (saved : SavedVariable) : Node :=
  .ofFields
    [("name", textNode saved.name), ("kind", textNode saved.kind.documentName),
      ("value", saved.value.toNode)]

def tempNode (entry : String × SavedValue) : Node :=
  .array [textNode entry.1, entry.2.toNode]

def SavedFrame.toNode (saved : SavedFrame) : Node :=
  .ofFields
    [("kind", textNode saved.kind.name), ("return_to", longNode saved.returnTo),
      ("caller_eval", .bool saved.callerEval), ("temps", .ofList tempNode saved.temps)]

def SavedChoice.toNode (saved : SavedChoice) : Node :=
  .ofFields
    [("text", textNode saved.text), ("tags", textsNode saved.tags),
      ("target", longNode saved.target), ("frames", .ofList SavedFrame.toNode saved.frames)]

/-- The document of a flow that waits. -/
def SavedThread.toNode (saved : SavedThread) : Node :=
  .ofFields
    [("frames", .ofList SavedFrame.toNode saved.frames), ("resume_at", longNode saved.resumeAt),
      ("eval_mode", .bool saved.evalMode)]

/-- The pieces without content, by their names. -/
def Piece.documentNames : List (String × Piece) :=
  [("Newline", .newline), ("Glue", .glue), ("StringMarker", .stringMarker),
    ("TagMarker", .tagMarker), ("FunctionStart", .functionStart), ("FunctionEnd", .functionEnd)]

/-- The document of a piece of output. -/
def Piece.toNode : Piece → Node
  | .text s => .ofFields [("Text", textNode s)]
  | .newline => textNode "Newline"
  | .glue => textNode "Glue"
  | .stringMarker => textNode "StringMarker"
  | .tagMarker => textNode "TagMarker"
  | .functionStart => textNode "FunctionStart"
  | .functionEnd => textNode "FunctionEnd"

/-- The phases of tags by name. -/
def TagPhase.documentNames : List (String × TagPhase) :=
  [("Global", .global), ("KnotHeader", .knotHeader), ("Line", .line)]

def TagPhase.name : TagPhase → String
  | .global => "Global"
  | .knotHeader => "KnotHeader"
  | .line => "Line"

def Tags.toNode (tags : Tags) : Node :=
  .ofFields
    [("phase", textNode tags.phase.name), ("global", textsNode tags.global),
      ("knot", textsNode tags.knot), ("line", textsNode tags.line),
      ("pending_choice", textsNode tags.pendingChoice)]

/-- The document of the state of random numbers. -/
def Random.State.toNode (state : Random.State) : Node :=
  .ofFields [("seed", longNode state.seed), ("draws", longNode state.draws)]

def SavedFlow.toNode (saved : SavedFlow) : Node :=
  .ofFields
    [("ip", .ofOption longNode saved.ip), ("eval_mode", .bool saved.evalMode),
      ("eval", .ofList SavedValue.toNode saved.eval),
      ("frames", .ofList SavedFrame.toNode saved.frames),
      ("threads", .ofList SavedThread.toNode saved.threads),
      ("output", .ofList Piece.toNode saved.output),
      ("containers", .ofList wordNode saved.containers),
      ("choices", .ofList SavedChoice.toNode saved.choices),
      ("fallback_choice", .ofOption SavedChoice.toNode saved.fallback),
      ("visits", .ofList wordNode saved.visits),
      ("turn_visited", .ofList (.ofOption wordNode) saved.turnVisited),
      ("turn", wordNode saved.turn), ("tags", saved.tags.toNode), ("rng", saved.rng.toNode),
      ("ended", .bool saved.ended)]

/-! ## Reading -/

namespace SavedValue

def listContent : Decoder SavedValue
  | .object fields => do
      let record ← Record.ofNode? ["items", "origins"] (.object fields)
      let items ← record.required "items" (Decode.list (Decode.pair Decode.string Decode.string))
      let origins ← record.required "origins" (Decode.list Decode.string)
      pure (.list items origins)
  | _ => none

def pointerContent : Decoder SavedValue
  | .object fields => do
      let record ← Record.ofNode? ["name", "frame"] (.object fields)
      let name ← record.required "name" Decode.string
      let frame ← record.optional "frame" Decode.uint64
      pure (.pointer name frame)
  | _ => none

/-- The value of a kind with its content; no value needs no content. -/
def ofContent (kind : String) (content : Option Node) : Option SavedValue :=
  match kind, content with
  | "none", none => some .void
  | "none", some .null => some .void
  | "bool", some node => (Decode.bool node).map .bool
  | "int", some node => (Decode.int32 node).map .int
  | "float", some node => (Decode.single node).map .float
  | "str", some node => (Decode.string node).map .str
  | "list", some node => listContent node
  | "divert", some node => (Decode.uint32 node).map .divert
  | "pointer", some node => pointerContent node
  | _, _ => none

/-- Whether the content of a value stands before its kind. -/
def contentFirst (fields : List (String × Node)) : Bool :=
  ((fields.map Prod.fst).find? (fun key => key == "kind" || key == "value")) == some "value"

/--
A value in a document with at most the given number of levels.  In an object the
kind is an alternative without content, and in an array it is a plain text.
-/
def ofNode? (room : Nat) : Decoder SavedValue
  | .object fields => do
      let record ← Record.ofNode? ["kind", "value"] (.object fields)
      let kind ← record.required "kind" Decode.unitName
      let content := record.fields.lookup "value"
      if contentFirst record.fields && !content.all (Node.isReadable (room - 1)) then
        none
      else
        ofContent kind content
  | .array [kind, content] => do
      let kind ← Decode.string kind
      ofContent kind (some content)
  | _ => none

end SavedValue

/-- A variable in a document with at most the given number of levels. -/
def SavedVariable.ofNode? (room : Nat) : Decoder SavedVariable := fun node => do
  let record ← Record.ofNode? ["name", "kind", "value"] node
  let name ← record.required "name" Decode.string
  let kind ← record.required "kind" (Decode.unit Kind.documentNames)
  let value ← record.required "value" (SavedValue.ofNode? (room - 1))
  pure ⟨name, kind, value⟩

/-- The kinds of frames by name. -/
def FrameKind.documentNames : List (String × FrameKind) :=
  [("Root", .root), ("Tunnel", .tunnel), ("Function", .function)]

/-- A frame in a document with at most the given number of levels. -/
def SavedFrame.ofNode? (room : Nat) : Decoder SavedFrame := fun node => do
  let record ← Record.ofNode? ["kind", "return_to", "caller_eval", "temps"] node
  let kind ← record.required "kind" (Decode.unit FrameKind.documentNames)
  let returnTo ← record.required "return_to" Decode.uint64
  let callerEval ← record.required "caller_eval" Decode.bool
  let temps ←
    record.required "temps"
      (Decode.list (Decode.pair Decode.string (SavedValue.ofNode? (room - 3))))
  pure ⟨kind, returnTo, callerEval, temps⟩

/-- A choice in a document with at most the given number of levels. -/
def SavedChoice.ofNode? (room : Nat) : Decoder SavedChoice := fun node => do
  let record ← Record.ofNode? ["text", "tags", "target", "frames"] node
  let text ← record.required "text" Decode.string
  let tags ← record.required "tags" (Decode.list Decode.string)
  let target ← record.required "target" Decode.uint64
  let frames ← record.required "frames" (Decode.list (SavedFrame.ofNode? (room - 2)))
  pure ⟨text, tags, target, frames⟩

/-- A flow that waits, in a document with at most the given number of levels. -/
def SavedThread.ofNode? (room : Nat) : Decoder SavedThread := fun node => do
  let record ← Record.ofNode? ["frames", "resume_at", "eval_mode"] node
  let frames ← record.required "frames" (Decode.list (SavedFrame.ofNode? (room - 2)))
  let resumeAt ← record.required "resume_at" Decode.uint64
  let evalMode ← record.required "eval_mode" Decode.bool
  pure ⟨frames, resumeAt, evalMode⟩

def Piece.ofNode? : Decoder Piece
  | .object [(some "Text", content)] => (Decode.string content).map .text
  | node => Decode.unit Piece.documentNames node

def Tags.ofNode? : Decoder Tags := fun node => do
  let record ← Record.ofNode? ["phase", "global", "knot", "line", "pending_choice"] node
  let phase ← record.required "phase" (Decode.unit TagPhase.documentNames)
  let global ← record.required "global" (Decode.list Decode.string)
  let knot ← record.required "knot" (Decode.list Decode.string)
  let line ← record.required "line" (Decode.list Decode.string)
  let pendingChoice ← record.required "pending_choice" (Decode.list Decode.string)
  pure ⟨phase, global, knot, line, pendingChoice⟩

def Random.State.ofNode? : Decoder Random.State := fun node => do
  let record ← Record.ofNode? ["seed", "draws"] node
  let seed ← record.required "seed" Decode.uint64
  let draws ← record.required "draws" Decode.uint64
  pure ⟨seed, draws⟩

namespace SavedFlow

/-- The fields of a flow in order. -/
def fieldNames : List String :=
  ["ip", "eval_mode", "eval", "frames", "threads", "output", "containers", "choices",
    "fallback_choice", "visits", "turn_visited", "turn", "tags", "rng", "ended"]

/-- A flow in a document with at most the given number of levels. -/
def ofNode? (room : Nat) : Decoder SavedFlow := fun node => do
  let record ← Record.ofNode? fieldNames node
  let ip ← record.optional "ip" Decode.uint64
  let evalMode ← record.required "eval_mode" Decode.bool
  let eval ← record.required "eval" (Decode.list (SavedValue.ofNode? (room - 2)))
  let frames ← record.required "frames" (Decode.list (SavedFrame.ofNode? (room - 2)))
  let threads ← record.defaulted "threads" [] (Decode.list (SavedThread.ofNode? (room - 2)))
  let output ← record.required "output" (Decode.list Piece.ofNode?)
  let containers ← record.required "containers" (Decode.list Decode.uint32)
  let choices ← record.required "choices" (Decode.list (SavedChoice.ofNode? (room - 2)))
  let fallback ← record.optional "fallback_choice" (SavedChoice.ofNode? (room - 1))
  let visits ← record.required "visits" (Decode.list Decode.uint32)
  let turnVisited ←
    record.required "turn_visited" (Decode.list (Decode.option Decode.uint32))
  let turn ← record.required "turn" Decode.uint32
  let tags ← record.required "tags" Tags.ofNode?
  let rng ← record.required "rng" Random.State.ofNode?
  let ended ← record.required "ended" Decode.bool
  pure
    { ip := ip
      evalMode := evalMode
      eval := eval
      frames := frames
      threads := threads
      output := output
      containers := containers
      choices := choices
      fallback := fallback
      visits := visits
      turnVisited := turnVisited
      turn := turn
      tags := tags
      rng := rng
      ended := ended }

end SavedFlow

end Fabula
