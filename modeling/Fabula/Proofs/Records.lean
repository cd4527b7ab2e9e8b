import Fabula.Proofs.Figures
import Fabula.Snapshot.Codec

namespace Fabula

/-!
# Saved state is read back

The document of a saved value can be written, and it decodes to that value unless it is a number
that is infinite or not a number: those have no numeral.  The document of a saved variable or flow
decodes to what was saved if and only if all values in it do.
-/

namespace Json

/-! ## Writing -/

namespace Node

theorem Written.ofList
    {α : Type}
    {encode : α → Node}
    {list : List α}
    (each : ∀ a ∈ list, (encode a).Written) :
    (Node.ofList encode list).Written := by
  refine .array fun item member => ?_
  obtain ⟨a, inside, rfl⟩ := List.mem_map.mp member
  exact each a inside

theorem Written.ofOption
    {α : Type}
    {encode : α → Node}
    {option : Option α}
    (each : ∀ a ∈ option, (encode a).Written) :
    (Node.ofOption encode option).Written := by
  cases option with
  | none => exact .null
  | some a => exact each a rfl

theorem Written.pair
    {first second : Node}
    (left : first.Written)
    (right : second.Written) :
    (Node.array [first, second]).Written := by
  refine .array ?_
  simp only [List.forall_mem_cons, List.not_mem_nil, false_implies, implies_true, and_true]
  exact ⟨left, right⟩

theorem Written.noFields :
    (Node.ofFields []).Written :=
  .object nofun nofun

theorem Written.field
    {key : String}
    {value : Node}
    {fields : List (String × Node)}
    (written : value.Written)
    (others : (Node.ofFields fields).Written) :
    (Node.ofFields ((key, value) :: fields)).Written := by
  cases others with
  | object keys each =>
      exact .object (List.forall_mem_cons.mpr ⟨rfl, keys⟩)
        (List.forall_mem_cons.mpr ⟨written, each⟩)

end Node

/-! ## Integers -/

/-- The digits of a natural number spell a numeral. -/
theorem Numeral.Spells.ofNat
    (negative : Bool)
    (n : Nat) :
    Numeral.Spells ⟨negative, Nat.toDigits 10 n, [], none⟩ where
  whole := Nat.toDigits_ne_nil
  leading := by
    intro rest zero
    rcases Nat.eq_zero_or_pos n with rfl | positive
    · exact (List.cons.inj zero).2.symm
    · obtain ⟨c, others, split, nonzero⟩ := toDigits_head_ne_zero positive
      rw [split] at zero
      exact absurd (List.cons.inj zero).1 nonzero
  digits := by
    intro c member
    rw [List.append_nil] at member
    exact Nat.isDigit_of_mem_toDigits (by decide) (by decide) member
  exponent := nofun

theorem Node.Written.ofNat
    (n : Nat) :
    (Node.ofNat n).Written :=
  .number (.ofNat false n)

theorem Node.Written.ofInt
    (i : Int) :
    (Node.ofInt i).Written :=
  .number (.ofNat _ i.natAbs)

namespace Decode

theorem int_ofNat
    {n : Nat}
    (word : n < 2 ^ 64) :
    int (.ofNat n) = some (n : Int) := by
  have fits : n ≤ Numeral.greatestWord := Nat.le_of_lt_succ word
  simp [int, Node.ofNat, Numeral.toInt?, fits]

theorem int_ofInt
    {i : Int}
    (low : -2 ^ 63 ≤ i)
    (high : i < 2 ^ 63) :
    int (.ofInt i) = some i := by
  by_cases negative : i < 0
  · have amount : 0 < i.natAbs ∧ i.natAbs ≤ 0x8000000000000000 := by omega
    have same : -(i.natAbs : Int) = i := by omega
    simp only [int, Node.ofInt, Numeral.toInt?, Numeral.natOf_toDigits, negative, amount, same,
      and_self, decide_true, if_true]
  · have fits : i.natAbs ≤ Numeral.greatestWord := by
      rw [Numeral.greatestWord]
      omega
    have same : (i.natAbs : Int) = i := by omega
    simp only [int, Node.ofInt, Numeral.toInt?, Numeral.natOf_toDigits, negative, fits, same,
      and_self, decide_false, Bool.false_eq_true, if_true, if_false]

theorem int32_ofInt
    (i : Int32) :
    int32 (.ofInt i.toInt) = some i := by
  have low := i.le_toInt
  have high := i.toInt_lt
  have read : int (.ofInt i.toInt) = some i.toInt := int_ofInt (by omega) (by omega)
  have within : -2147483648 ≤ i.toInt ∧ i.toInt ≤ 2147483647 := by omega
  simp [int32, intWithin, read, within]

theorem uint32_ofNat
    (word : UInt32) :
    uint32 (.ofNat word.toNat) = some word := by
  have high := word.toNat_lt
  have read : int (.ofNat word.toNat) = some (word.toNat : Int) := int_ofNat (by omega)
  have within : (word.toNat : Int) ≤ 4294967295 := by omega
  simp [uint32, intWithin, read, within]

theorem uint64_ofNat
    (word : UInt64) :
    uint64 (.ofNat word.toNat) = some word := by
  have high := word.toNat_lt
  have read : int (.ofNat word.toNat) = some (word.toNat : Int) := int_ofNat high
  have within : (word.toNat : Int) ≤ 18446744073709551615 := by omega
  simp [uint64, intWithin, read, within]

end Decode

/-! ## Lists and records -/

namespace Decode

/-- A list is read if all of its items are. -/
theorem list_ofList
    {α : Type}
    {encode : α → Node}
    {decode : Decoder α}
    {whole : α → Bool}
    (each : ∀ a, decode (encode a) = if whole a then some a else none)
    (list : List α) :
    Decode.list decode (.ofList encode list) = if list.all whole then some list else none := by
  change (list.map encode).mapM decode = _
  induction list with
  | nil =>
      rfl
  | cons a list inductionHypothesis =>
      rw [List.map_cons, List.mapM_cons, each, inductionHypothesis, List.all_cons]
      cases whole a <;> cases list.all whole <;> rfl

theorem list_ofList_of_forall
    {α : Type}
    {encode : α → Node}
    {decode : Decoder α}
    (each : ∀ a, decode (encode a) = some a)
    (list : List α) :
    Decode.list decode (.ofList encode list) = some list := by
  have read : Decode.list decode (.ofList encode list) =
      if list.all (fun _ => true) then some list else none :=
    list_ofList each list
  rwa [List.all_eq_true.mpr fun _ _ => rfl, if_pos rfl] at read

/-- A value that may be missing is read if it is there and can be read. -/
theorem option_ofOption
    {α : Type}
    {encode : α → Node}
    {decode : Decoder α}
    {whole : α → Bool}
    (present : ∀ a, encode a ≠ .null)
    (each : ∀ a, decode (encode a) = if whole a then some a else none)
    (option : Option α) :
    Decode.option decode (.ofOption encode option) =
      if option.all whole then some option else none := by
  cases option with
  | none =>
      rfl
  | some a =>
      have read : Decode.option decode (encode a) = (decode (encode a)).map some := by
        have present := present a
        revert present
        cases encode a <;> simp [Decode.option]
      rw [Node.ofOption, read, each, Option.all_some]
      cases whole a <;> rfl

theorem option_ofOption_of_forall
    {α : Type}
    {encode : α → Node}
    {decode : Decoder α}
    (present : ∀ a, encode a ≠ .null)
    (each : ∀ a, decode (encode a) = some a)
    (option : Option α) :
    Decode.option decode (.ofOption encode option) = some option := by
  have read : Decode.option decode (.ofOption encode option) =
      if option.all (fun _ => true) then some option else none :=
    option_ofOption present each option
  have all : option.all (fun _ => true) = true := by
    cases option <;> rfl
  rwa [all, if_pos rfl] at read

/-- A part of a record and what comes after it. -/
theorem bind_ite
    {α β : Type}
    {whole rest : Bool}
    {a : α}
    {b : β}
    {next : α → Option β}
    (others : next a = if rest then some b else none) :
    ((if whole then some a else none) >>= next) = if whole && rest then some b else none := by
  cases whole with
  | true => exact others
  | false => rfl

end Decode

end Json

open Json

namespace Json.Decode

theorem list_textsNode
    (texts : List String) :
    list string (textsNode texts) = some texts :=
  list_ofList_of_forall (fun (_ : String) => rfl) texts

theorem option_longNode
    (word : Option UInt64) :
    option uint64 (.ofOption longNode word) = some word :=
  option_ofOption_of_forall nofun uint64_ofNat word

theorem list_wordNode
    (words : List UInt32) :
    list uint32 (.ofList wordNode words) = some words :=
  list_ofList_of_forall uint32_ofNat words

end Json.Decode

namespace SavedValue

theorem tagged_written
    (kind : String)
    {content : Node}
    (written : content.Written) :
    (tagged kind content).Written :=
  .field (.text kind) (.field written .noFields)

theorem textsNode_written
    (texts : List String) :
    (textsNode texts).Written :=
  .ofList fun text _ => .text text

theorem toNode_written
    (saved : SavedValue) :
    saved.toNode.Written := by
  cases saved with
  | void =>
      exact .field (.text _) .noFields
  | bool b =>
      exact tagged_written _ (.bool b)
  | int i =>
      exact tagged_written _ (.ofInt i.toInt)
  | float x =>
      exact tagged_written _ (Node.ofSingle_written x)
  | str s =>
      exact tagged_written _ (.text s)
  | list items origins =>
      refine tagged_written _ (.field ?_ (.field (textsNode_written origins) .noFields))
      exact .ofList fun names _ => .pair (.text names.1) (.text names.2)
  | divert target =>
      exact tagged_written _ (.ofNat target.toNat)
  | pointer name frame =>
      exact tagged_written _ (.field (.text name)
        (.field (.ofOption fun frame _ => .ofNat frame.toNat) .noFields))

/-- Whether a value can be read back: every value but a number that has no numeral. -/
def isFinite : SavedValue → Bool
  | .float x => x.isFinite
  | _ => true

theorem listContent_toNode
    (items : List (String × String))
    (origins : List String) :
    listContent
        (.ofFields [("items", .ofList namesNode items), ("origins", textsNode origins)]) =
      some (.list items origins) := by
  have flags :
      Decode.list (Decode.pair Decode.string Decode.string) (.ofList namesNode items) =
        some items :=
    Decode.list_ofList_of_forall (fun (_ : String × String) => rfl) items
  change (Decode.list (Decode.pair Decode.string Decode.string) (.ofList namesNode items)).bind
    (fun items => (Decode.list Decode.string (textsNode origins)).bind
      fun origins => some (SavedValue.list items origins)) = _
  rw [flags, Decode.list_textsNode]
  rfl

theorem pointerContent_toNode
    (name : String)
    (frame : Option UInt64) :
    pointerContent
        (.ofFields [("name", textNode name), ("frame", .ofOption longNode frame)]) =
      some (.pointer name frame) := by
  change (Decode.option Decode.uint64 (.ofOption longNode frame)).bind
    (fun frame => some (SavedValue.pointer name frame)) = _
  rw [Decode.option_longNode]
  rfl

theorem ofNode?_toNode
    (saved : SavedValue)
    (room : Nat) :
    ofNode? room saved.toNode = if saved.isFinite then some saved else none := by
  cases saved with
  | void | bool | str =>
      rfl
  | int i =>
      change (Decode.int32 (.ofInt i.toInt)).map SavedValue.int = _
      rw [Decode.int32_ofInt]
      rfl
  | float x =>
      change (Decode.single (.ofSingle x)).map SavedValue.float = _
      rw [Decode.single_ofSingle]
      change _ = if x.isFinite then _ else _
      split <;> rfl
  | list items origins =>
      exact listContent_toNode items origins
  | divert target =>
      change (Decode.uint32 (.ofNat target.toNat)).map SavedValue.divert = _
      rw [Decode.uint32_ofNat]
      rfl
  | pointer name frame =>
      exact pointerContent_toNode name frame

end SavedValue

/-! ## Saved variables -/

namespace SavedVariable

theorem toNode_written
    (saved : SavedVariable) :
    saved.toNode.Written :=
  .field (.text _) (.field (.text _) (.field saved.value.toNode_written .noFields))

theorem unit_documentName
    (kind : Kind) :
    Decode.unit Kind.documentNames (textNode kind.documentName) = some kind := by
  cases kind <;> rfl

/-- A variable decodes to what was saved unless its value has no numeral. -/
theorem ofNode?_toNode
    (saved : SavedVariable)
    (room : Nat) :
    ofNode? room saved.toNode = if saved.value.isFinite then some saved else none := by
  change (do
    let kind ← Decode.unit Kind.documentNames (textNode saved.kind.documentName)
    let value ← SavedValue.ofNode? (room - 1) saved.value.toNode
    pure (SavedVariable.mk saved.name kind value)) = _
  rw [unit_documentName, SavedValue.ofNode?_toNode]
  split <;> rfl

end SavedVariable

/-! ## Saved call stacks -/

/-- A list of items with values is read if all of these values are finite. -/
theorem Json.Decode.list_ofList_values
    {α : Type}
    {encode : α → Node}
    {decode : Decoder α}
    {values : α → List SavedValue}
    (each : ∀ a, decode (encode a) =
      if (values a).all SavedValue.isFinite then some a else none)
    (list : List α) :
    Decode.list decode (.ofList encode list) =
      if (list.flatMap values).all SavedValue.isFinite then some list else none := by
  rw [List.all_flatMap]
  exact list_ofList each list

namespace SavedFrame

theorem toNode_written
    (saved : SavedFrame) :
    saved.toNode.Written := by
  refine .field (.text _) (.field (.ofNat _) (.field (.bool _) (.field ?_ .noFields)))
  exact .ofList fun entry _ => .pair (.text _) entry.2.toNode_written

/-- The values of the temporaries. -/
def values (saved : SavedFrame) : List SavedValue :=
  saved.temps.map Prod.snd

theorem unit_name
    (kind : FrameKind) :
    Decode.unit FrameKind.documentNames (textNode kind.name) = some kind := by
  cases kind <;> rfl

theorem pair_tempNode
    (entry : String × SavedValue)
    (room : Nat) :
    Decode.pair Decode.string (SavedValue.ofNode? room) (tempNode entry) =
      if entry.2.isFinite then some entry else none := by
  change (SavedValue.ofNode? room entry.2.toNode).bind (fun value => some (entry.1, value)) = _
  rw [SavedValue.ofNode?_toNode]
  split <;> rfl

theorem ofNode?_toNode
    (saved : SavedFrame)
    (room : Nat) :
    ofNode? room saved.toNode =
      if saved.values.all SavedValue.isFinite then some saved else none := by
  have temps :
      Decode.list (Decode.pair Decode.string (SavedValue.ofNode? (room - 3)))
          (.ofList tempNode saved.temps) =
        if saved.values.all SavedValue.isFinite then some saved.temps else none := by
    rw [values, List.all_map]
    exact Decode.list_ofList (fun entry => pair_tempNode entry _) saved.temps
  change (do
    let kind ← Decode.unit FrameKind.documentNames (textNode saved.kind.name)
    let returnTo ← Decode.uint64 (.ofNat saved.returnTo.toNat)
    let temps ←
      Decode.list (Decode.pair Decode.string (SavedValue.ofNode? (room - 3)))
        (.ofList tempNode saved.temps)
    pure (SavedFrame.mk kind returnTo saved.callerEval temps)) = _
  rw [unit_name, Decode.uint64_ofNat, temps]
  split <;> rfl

end SavedFrame

namespace SavedChoice

theorem toNode_written
    (saved : SavedChoice) :
    saved.toNode.Written :=
  .field (.text _) (.field (SavedValue.textsNode_written _) (.field (.ofNat _)
    (.field (.ofList fun frame _ => frame.toNode_written) .noFields)))

def values (saved : SavedChoice) : List SavedValue :=
  saved.frames.flatMap SavedFrame.values

theorem ofNode?_toNode
    (saved : SavedChoice)
    (room : Nat) :
    ofNode? room saved.toNode =
      if saved.values.all SavedValue.isFinite then some saved else none := by
  change (do
    let tags ← Decode.list Decode.string (textsNode saved.tags)
    let target ← Decode.uint64 (.ofNat saved.target.toNat)
    let frames ←
      Decode.list (SavedFrame.ofNode? (room - 2)) (.ofList SavedFrame.toNode saved.frames)
    pure (SavedChoice.mk saved.text tags target frames)) = _
  rw [Decode.list_textsNode, Decode.uint64_ofNat,
    Decode.list_ofList_values fun frame => SavedFrame.ofNode?_toNode frame _]
  change _ = if (saved.frames.flatMap SavedFrame.values).all SavedValue.isFinite then _ else _
  split <;> rfl

end SavedChoice

namespace SavedThread

theorem toNode_written
    (saved : SavedThread) :
    saved.toNode.Written :=
  .field (.ofList fun frame _ => frame.toNode_written)
    (.field (.ofNat _) (.field (.bool _) .noFields))

def values (saved : SavedThread) : List SavedValue :=
  saved.frames.flatMap SavedFrame.values

theorem ofNode?_toNode
    (saved : SavedThread)
    (room : Nat) :
    ofNode? room saved.toNode =
      if saved.values.all SavedValue.isFinite then some saved else none := by
  change (do
    let frames ←
      Decode.list (SavedFrame.ofNode? (room - 2)) (.ofList SavedFrame.toNode saved.frames)
    let resumeAt ← Decode.uint64 (.ofNat saved.resumeAt.toNat)
    pure (SavedThread.mk frames resumeAt saved.evalMode)) = _
  rw [Decode.list_ofList_values fun frame => SavedFrame.ofNode?_toNode frame _,
    Decode.uint64_ofNat]
  change _ = if (saved.frames.flatMap SavedFrame.values).all SavedValue.isFinite then _ else _
  split <;> rfl

end SavedThread

/-! ## Saved output, tags and random numbers -/

namespace Piece

theorem toNode_written
    (piece : Piece) :
    piece.toNode.Written := by
  cases piece with
  | text s =>
      exact .field (.text s) .noFields
  | _ =>
      exact .text _

theorem ofNode?_toNode
    (piece : Piece) :
    ofNode? piece.toNode = some piece := by
  cases piece <;> rfl

end Piece

namespace Tags

theorem toNode_written
    (tags : Tags) :
    tags.toNode.Written := by
  have texts := SavedValue.textsNode_written
  exact .field (.text _) (.field (texts _) (.field (texts _) (.field (texts _)
    (.field (texts _) .noFields))))

theorem ofNode?_toNode
    (tags : Tags) :
    ofNode? tags.toNode = some tags := by
  have phase : Decode.unit TagPhase.documentNames (textNode tags.phase.name) =
      some tags.phase := by
    cases tags.phase <;> rfl
  change (do
    let phase ← Decode.unit TagPhase.documentNames (textNode tags.phase.name)
    let global ← Decode.list Decode.string (textsNode tags.global)
    let knot ← Decode.list Decode.string (textsNode tags.knot)
    let line ← Decode.list Decode.string (textsNode tags.line)
    let pendingChoice ← Decode.list Decode.string (textsNode tags.pendingChoice)
    pure (Tags.mk phase global knot line pendingChoice)) = _
  simp only [phase, Decode.list_textsNode]
  rfl

end Tags

namespace Random.State

theorem toNode_written
    (state : Random.State) :
    state.toNode.Written :=
  .field (.ofNat _) (.field (.ofNat _) .noFields)

theorem ofNode?_toNode
    (state : Random.State) :
    ofNode? state.toNode = some state := by
  change (do
    let seed ← Decode.uint64 (.ofNat state.seed.toNat)
    let draws ← Decode.uint64 (.ofNat state.draws.toNat)
    pure (Random.State.mk seed draws)) = _
  rw [Decode.uint64_ofNat, Decode.uint64_ofNat]
  rfl

end Random.State

/-! ## Saved flows -/

namespace SavedFlow

theorem toNode_written
    (saved : SavedFlow) :
    saved.toNode.Written := by
  have words (list : List UInt32) : (Node.ofList wordNode list).Written :=
    .ofList fun _ _ => .ofNat _
  exact .field (.ofOption fun _ _ => .ofNat _) <|
    .field (.bool _) <|
    .field (.ofList fun value _ => value.toNode_written) <|
    .field (.ofList fun frame _ => frame.toNode_written) <|
    .field (.ofList fun thread _ => thread.toNode_written) <|
    .field (.ofList fun piece _ => piece.toNode_written) <|
    .field (words _) <|
    .field (.ofList fun choice _ => choice.toNode_written) <|
    .field (.ofOption fun choice _ => choice.toNode_written) <|
    .field (words _) <|
    .field (.ofList fun _ _ => .ofOption fun _ _ => .ofNat _) <|
    .field (.ofNat _) <|
    .field saved.tags.toNode_written <|
    .field saved.rng.toNode_written <|
    .field (.bool _) .noFields

/-- All values of a flow: those that are worked with and those of all temporaries. -/
def values (saved : SavedFlow) : List SavedValue :=
  saved.eval ++
    (saved.frames.flatMap SavedFrame.values ++
      (saved.threads.flatMap SavedThread.values ++
        (saved.choices.flatMap SavedChoice.values ++
          saved.fallback.toList.flatMap SavedChoice.values)))

theorem all_values
    (saved : SavedFlow)
    (whole : SavedValue → Bool) :
    saved.values.all whole =
      (saved.eval.all whole &&
        ((saved.frames.flatMap SavedFrame.values).all whole &&
          ((saved.threads.flatMap SavedThread.values).all whole &&
            ((saved.choices.flatMap SavedChoice.values).all whole &&
              (saved.fallback.all (fun choice => choice.values.all whole) && true))))) := by
  have fallback : (saved.fallback.toList.flatMap SavedChoice.values).all whole =
      saved.fallback.all fun choice => choice.values.all whole := by
    cases saved.fallback <;> simp
  simp only [values, List.all_append, fallback, Bool.and_true]

theorem ofNode?_toNode
    (saved : SavedFlow)
    (room : Nat) :
    ofNode? room saved.toNode =
      if saved.values.all SavedValue.isFinite then some saved else none := by
  rw [all_values]
  change (do
    let ip ← Decode.option Decode.uint64 (.ofOption longNode saved.ip)
    let eval ← Decode.list (SavedValue.ofNode? (room - 2)) (.ofList SavedValue.toNode saved.eval)
    let frames ←
      Decode.list (SavedFrame.ofNode? (room - 2)) (.ofList SavedFrame.toNode saved.frames)
    let threads ←
      Decode.list (SavedThread.ofNode? (room - 2)) (.ofList SavedThread.toNode saved.threads)
    let output ← Decode.list Piece.ofNode? (.ofList Piece.toNode saved.output)
    let containers ← Decode.list Decode.uint32 (.ofList wordNode saved.containers)
    let choices ←
      Decode.list (SavedChoice.ofNode? (room - 2)) (.ofList SavedChoice.toNode saved.choices)
    let fallback ←
      Decode.option (SavedChoice.ofNode? (room - 1)) (.ofOption SavedChoice.toNode saved.fallback)
    let visits ← Decode.list Decode.uint32 (.ofList wordNode saved.visits)
    let turnVisited ←
      Decode.list (Decode.option Decode.uint32) (.ofList (.ofOption wordNode) saved.turnVisited)
    let turn ← Decode.uint32 (.ofNat saved.turn.toNat)
    let tags ← Tags.ofNode? saved.tags.toNode
    let rng ← Random.State.ofNode? saved.rng.toNode
    pure (SavedFlow.mk ip saved.evalMode eval frames threads output containers choices fallback
      visits turnVisited turn tags rng saved.ended)) = _
  have dates (list : List (Option UInt32)) :
      Decode.list (Decode.option Decode.uint32) (.ofList (.ofOption wordNode) list) = some list :=
    Decode.list_ofList_of_forall
      (fun date => Decode.option_ofOption_of_forall nofun Decode.uint32_ofNat date) list
  simp only [Decode.option_longNode, Decode.list_wordNode, Decode.uint32_ofNat, dates,
    Decode.list_ofList_of_forall Piece.ofNode?_toNode, Tags.ofNode?_toNode,
    Random.State.ofNode?_toNode,
    Decode.list_ofList fun value => SavedValue.ofNode?_toNode value _,
    Decode.list_ofList_values fun frame => SavedFrame.ofNode?_toNode frame _,
    Decode.list_ofList_values fun thread => SavedThread.ofNode?_toNode thread _,
    Decode.list_ofList_values fun choice => SavedChoice.ofNode?_toNode choice _,
    Decode.option_ofOption nofun fun choice => SavedChoice.ofNode?_toNode choice _]
  exact Decode.bind_ite (Decode.bind_ite (Decode.bind_ite (Decode.bind_ite (Decode.bind_ite rfl))))

end SavedFlow

end Fabula
