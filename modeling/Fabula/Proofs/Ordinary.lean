import Fabula.Proofs.RealmFlow
import Fabula.Proofs.Rendering

namespace Fabula

/-!
# Ordinary texts

A text is ordinary when spaces, tabs and line ends are its only blanks.  Numbers, names of
ordinary lists and everything that is rendered are ordinary, so a story whose own texts are
ordinary writes nothing else, as long as the variables that it reads hold nothing else.  A
flow is ordinary when this is so of all that it may still write, and when no function has
been called: its output then has no glue and no ends of functions.
-/

namespace Text

def isOrdinary (c : Char) : Bool :=
  !isBlank c || c == ' ' || c == '\t' || c == '\n'

/-- A text whose only blanks are spaces, tabs and line ends. -/
def Ordinary (text : String) : Prop :=
  ∀ c ∈ text.toList, isOrdinary c = true

instance (text : String) : Decidable (Ordinary text) :=
  decidable_of_iff (text.toList.all isOrdinary = true) List.all_eq_true

theorem isOrdinary_of_solid
    {c : Char}
    (solid : isBlank c = false) :
    isOrdinary c = true := by
  simp [isOrdinary, solid]

/-- A digit is not blank. -/
theorem isBlank_of_isDigit
    {c : Char}
    (digit : c.isDigit = true) :
    isBlank c = false := by
  simp only [Char.isDigit, Bool.and_eq_true, decide_eq_true_eq] at digit
  have low : 48 ≤ c.toNat := UInt32.le_iff_toNat_le.mp digit.1
  have high : c.toNat ≤ 57 := UInt32.le_iff_toNat_le.mp digit.2
  simp only [isBlank, Bool.or_eq_false_iff, Bool.and_eq_false_iff, decide_eq_false_iff_not,
    beq_eq_false_iff_ne]
  omega

theorem Ordinary.append
    {left right : String}
    (leftOrdinary : Ordinary left)
    (rightOrdinary : Ordinary right) :
    Ordinary (left ++ right) := by
  intro c inside
  rw [String.toList_append, List.mem_append] at inside
  exact inside.elim (leftOrdinary c) (rightOrdinary c)

theorem ordinary_ofList
    {chars : List Char}
    (ordinary : ∀ c ∈ chars, isOrdinary c = true) :
    Ordinary (String.ofList chars) := by
  intro c inside
  rw [String.toList_ofList] at inside
  exact ordinary c inside

/-- The characters of parts with a separator between them. -/
theorem mem_intercalate
    {α : Type}
    {separator : List α}
    {parts : List (List α)}
    {c : α}
    (inside : c ∈ separator.intercalate parts) :
    c ∈ separator ∨ ∃ part ∈ parts, c ∈ part := by
  induction parts with
  | nil =>
      cases inside
  | cons part rest inductionHypothesis =>
      cases rest with
      | nil =>
          exact .inr ⟨part, List.mem_singleton_self part, by simpa using inside⟩
      | cons next others =>
          simp only [List.intercalate_cons_cons, List.mem_append] at inside
          rcases inside with (here | between) | later
          · exact .inr ⟨part, List.mem_cons_self, here⟩
          · exact .inl between
          · rcases inductionHypothesis later with between | ⟨other, listed, here⟩
            · exact .inl between
            · exact .inr ⟨other, List.mem_cons_of_mem part listed, here⟩

/-! ## Rendered texts -/

/-- A word has no blanks. -/
theorem isBlank_of_mem_words
    {text word : List Char}
    (inside : word ∈ words text)
    {c : Char}
    (here : c ∈ word) :
    isBlank c = false := by
  have part : word ∈ text.splitOnP isBlank := (List.mem_filter.mp inside).1
  clear inside
  induction text generalizing word with
  | nil =>
      simp only [List.splitOnP_nil, List.mem_singleton] at part
      subst part
      cases here
  | cons first rest inductionHypothesis =>
      rw [List.splitOnP_cons_eq_if_modifyHead] at part
      split at part
      · rcases List.mem_cons.mp part with rfl | later
        · cases here
        · exact inductionHypothesis here later
      · next solid =>
          cases parts : rest.splitOnP isBlank with
          | nil =>
              exact absurd parts (List.splitOnP_ne_nil _ _)
          | cons head others =>
              rw [parts] at part inductionHypothesis
              rcases List.mem_cons.mp part with rfl | later
              · rcases List.mem_cons.mp here with rfl | inner
                · simpa using solid
                · exact inductionHypothesis inner List.mem_cons_self
              · exact inductionHypothesis here (List.mem_cons_of_mem head later)

theorem isOrdinary_of_mem_collapse
    {text : List Char}
    {c : Char}
    (inside : c ∈ collapse text) :
    isOrdinary c = true := by
  rcases mem_intercalate inside with between | ⟨word, listed, here⟩
  · cases List.mem_singleton.mp between
    decide
  · exact isOrdinary_of_solid (isBlank_of_mem_words listed here)

end Text

/-- What is rendered is ordinary, whatever it is made of. -/
theorem render_ordinary
    (pieces : List Piece) :
    Text.Ordinary (render pieces) := by
  apply Text.ordinary_ofList
  intro c inside
  have body :
      c ∈ ['\n'].intercalate (cleanLines (rawText false pieces)) →
      Text.isOrdinary c = true := by
    intro inside
    rcases Text.mem_intercalate inside with between | ⟨line, listed, here⟩
    · cases List.mem_singleton.mp between
      decide
    · obtain ⟨raw, _, rfl⟩ := List.mem_map.mp (List.mem_filter.mp listed).1
      exact Text.isOrdinary_of_mem_collapse here
  simp only [cleanText] at inside
  split at inside
  · rcases List.mem_append.mp inside with here | last
    · exact body here
    · cases List.mem_singleton.mp last
      decide
  · exact body inside

/-! ## Numbers -/

namespace Decimal

theorem isBlank_digitsOf
    {amount : Nat}
    {c : Char}
    (inside : c ∈ digitsOf amount) :
    Text.isBlank c = false :=
  Text.isBlank_of_isDigit (Nat.isDigit_of_mem_toDigits (by decide) (by decide) inside)

theorem isBlank_search
    {tie : Tie}
    {x : Number.Scaled}
    {fuel : Nat}
    {ten : Int}
    {c : Char}
    (inside : c ∈ (search tie x fuel ten).digits) :
    Text.isBlank c = false := by
  induction fuel generalizing ten with
  | zero =>
      exact isBlank_digitsOf inside
  | succ fuel inductionHypothesis =>
      simp only [search] at inside
      split at inside
      · simp only [dropZeros, List.mem_reverse] at inside
        exact isBlank_digitsOf (List.mem_reverse.mp ((List.dropWhile_suffix _).mem inside))
      · exact inductionHypothesis inside

/-- Digits around a point are not blank. -/
theorem isBlank_positional
    {pointZero : Bool}
    {x : Decimal}
    (digits : ∀ c ∈ x.digits, Text.isBlank c = false)
    {c : Char}
    (inside : c ∈ positional pointZero x) :
    Text.isBlank c = false := by
  have zero : Text.isBlank '0' = false := by decide
  have point : Text.isBlank '.' = false := by decide
  simp only [positional] at inside
  split at inside
  · simp only [List.mem_append, List.mem_cons, List.not_mem_nil, or_false,
      List.mem_replicate] at inside
    rcases inside with ((rfl | rfl) | ⟨_, rfl⟩) | here
    · exact zero
    · exact point
    · exact zero
    · exact digits c here
  · split at inside
    · simp only [List.mem_append, List.mem_replicate] at inside
      rcases inside with (here | ⟨_, rfl⟩) | last
      · exact digits c here
      · exact zero
      · split at last
        · simp only [List.mem_cons, List.not_mem_nil, or_false] at last
          rcases last with rfl | rfl
          · exact point
          · exact zero
        · cases last
    · simp only [List.mem_append, List.mem_singleton] at inside
      rcases inside with (here | rfl) | here
      · exact digits c (List.mem_of_mem_take here)
      · exact point
      · exact digits c (List.mem_of_mem_drop here)

end Decimal

theorem Text.ordinary_nat
    (n : Nat) :
    Text.Ordinary (toString n) := by
  intro c inside
  rw [Nat.toString_eq_repr, Nat.toList_repr] at inside
  exact Text.isOrdinary_of_solid (Decimal.isBlank_digitsOf inside)

theorem Text.ordinary_int
    (i : Int) :
    Text.Ordinary (toString i) := by
  have sign : Text.Ordinary "-" := by decide
  rw [Int.toString_eq_repr, Int.repr_eq_if]
  split
  · exact Text.ordinary_nat _
  · exact sign.append (Text.ordinary_nat _)

theorem Single.text_ordinary
    (x : Single) :
    Text.Ordinary x.text := by
  have written : Text.Ordinary (x.write plainLayout) := by
    simp only [Single.write]
    split
    · decide
    · split <;> decide
    · next sign amount _ =>
        apply Text.ordinary_ofList
        intro c inside
        apply Text.isOrdinary_of_solid
        rcases List.mem_append.mp inside with first | here
        · split at first
          · cases List.mem_singleton.mp first
            decide
          · cases first
        · refine Decimal.isBlank_positional ?_ here
          intro digit listed
          split at listed
          · cases List.mem_singleton.mp listed
            decide
          · exact Decimal.isBlank_search listed
  simp only [Single.text]
  split
  · split
    · exact Text.ordinary_int _
    · exact written
  · exact written

/-! ## Values -/

/-- Lists whose flags have ordinary names. -/
def Definitions.Ordinary (defs : Definitions) : Prop :=
  ∀ list ∈ defs.lists, ∀ flag ∈ list.flags, Text.Ordinary flag.1

/-- A value that is written as an ordinary text. -/
def Value.Ordinary : Value → Prop
  | .str s => Text.Ordinary s
  | .list set => set.defs.Ordinary
  | .pointer name _ => Text.Ordinary name
  | _ => True

theorem FlagSet.text_ordinary
    {set : FlagSet}
    (ordinary : set.defs.Ordinary) :
    Text.Ordinary set.text := by
  intro c inside
  rw [FlagSet.text, String.toList_intercalate] at inside
  rcases Text.mem_intercalate inside with between | ⟨part, listed, here⟩
  · have separator : Text.Ordinary ", " := by decide
    exact separator c between
  · simp only [List.mem_map, FlagSet.flags, List.mem_mergeSort, List.mem_filterMap] at listed
    obtain ⟨_, ⟨flag, ⟨item, _, found⟩, rfl⟩, rfl⟩ := listed
    simp only [FlagSet.flag?, Option.bind_eq_some_iff, Option.map_eq_some_iff] at found
    obtain ⟨list, inLists, entry, inFlags, rfl⟩ := found
    exact ordinary list (Array.mem_of_getElem? inLists) entry (Array.mem_of_getElem? inFlags) c
      here

namespace Value.Ordinary

variable {value : Value}

theorem text
    (ordinary : value.Ordinary) :
    Text.Ordinary value.text := by
  cases value with
  | void =>
      exact fun c inside => nomatch inside
  | bool b =>
      cases b <;> decide
  | int i =>
      exact Text.ordinary_int _
  | float x =>
      exact x.text_ordinary
  | str s =>
      exact ordinary
  | list set =>
      exact FlagSet.text_ordinary ordinary
  | divert target =>
      have arrow : Text.Ordinary "-> " := by decide
      exact arrow.append (Text.ordinary_nat _)
  | pointer name frame =>
      have word : Text.Ordinary "ref " := by decide
      exact word.append ordinary

theorem coerceTo
    (ordinary : value.Ordinary)
    (declared : Kind) :
    (value.coerceTo declared).Ordinary := by
  cases declared <;> cases value <;> exact ordinary

/-- Operators make ordinary values of ordinary ones: a set keeps the lists it is built over. -/
theorem closed :
    Value.Closed Value.Ordinary where
  void := trivial
  bool _ := trivial
  int _ := trivial
  float _ := trivial
  text left right := left.text.append right.text
  lists :=
    { union := fun left _ => left
      difference := id
      intersection := id
      shift := fun _ => id
      all := id
      invert := id
      singleMin := id
      singleMax := id
      range := fun _ _ => id
      only := fun ordinary _ => ordinary
      itemWithValue := fun _ => id }

end Value.Ordinary

/-! ## Flows -/

/-- A piece that an ordinary flow may leave in the output. -/
def Piece.Ordinary : Piece → Prop
  | .text s => Text.Ordinary s
  | .newline | .stringMarker | .tagMarker => True
  | .glue | .functionStart | .functionEnd => False

/-- A frame of ordinary temporaries that is not that of a function. -/
structure Frame.Ordinary (frame : Frame) : Prop where
  kind : frame.kind ≠ .function
  temps : ∀ entry ∈ frame.temps, entry.2.Ordinary

/-- A call stack of ordinary frames. -/
def CallStack.Ordinary (stack : CallStack) : Prop :=
  ∀ frame ∈ stack.frames, frame.Ordinary

namespace CallStack.Ordinary

variable {stack : CallStack}

theorem start :
    CallStack.start.Ordinary := by
  intro frame member
  rw [frames_start, List.mem_singleton] at member
  exact member ▸ ⟨by decide, by simp [Frame.root]⟩

theorem push
    (ordinary : stack.Ordinary)
    (returnTo : Nat)
    (callerEval : Bool) :
    (stack.push .tunnel returnTo callerEval).Ordinary :=
  forall_push.mpr ⟨ordinary, by simp, by simp⟩

theorem pop?
    (ordinary : stack.Ordinary)
    {kind : FrameKind}
    {frame : Frame}
    {rest : CallStack}
    (popped : stack.pop? kind = some (frame, rest)) :
    kind ≠ .function ∧ rest.Ordinary := by
  obtain ⟨others, closed⟩ := forall_of_pop? popped ordinary
  exact ⟨(of_pop? popped).1 ▸ closed.kind, others⟩

theorem clear
    (ordinary : stack.Ordinary) :
    stack.clear.Ordinary := by
  intro frame member
  rw [frames_clear, List.mem_singleton] at member
  exact member ▸ ⟨(ordinary _ outermost_mem_frames).kind, by simp [ground]⟩

theorem setTempAt
    (ordinary : stack.Ordinary)
    (index : Nat)
    (name : String)
    {value : Value}
    (valueOrdinary : value.Ordinary) :
    (stack.setTempAt index name value).Ordinary := by
  refine forall_setTempAt ordinary fun frame old => ⟨old.kind, fun entry member => ?_⟩
  rcases Frame.mem_assign member with new | kept
  · exact new ▸ valueOrdinary
  · exact old.temps entry kept

theorem temp?
    (ordinary : stack.Ordinary)
    {index : Nat}
    {name : String}
    {value : Value}
    (held : (stack.frame? index).bind (fun found => found.temp? name) = some value) :
    value.Ordinary := by
  obtain ⟨frame, found, held⟩ := Option.bind_eq_some_iff.mp held
  exact (ordinary frame (List.mem_of_getElem? found)).temps _ (Frame.mem_of_temp? held)

end CallStack.Ordinary

/-- A flow that has only ordinary texts to write, and has written nothing else. -/
structure Flow.Ordinary (flow : Flow) : Prop where
  eval : ∀ value ∈ flow.eval, value.Ordinary
  callStack : flow.callStack.Ordinary
  threads : ∀ waiting ∈ flow.threads, waiting.callStack.Ordinary
  choices : ∀ choice ∈ flow.choices, choice.callStack.Ordinary
  fallback : ∀ choice ∈ flow.fallback, choice.callStack.Ordinary
  output : ∀ piece ∈ flow.output.pieces, piece.Ordinary

/-- A story whose own texts are ordinary, and which glues nothing and calls no function. -/
structure Story.Ordinary (story : Story) : Prop where
  strings : ∀ text ∈ story.strings, Text.Ordinary text
  literals : ∀ set ∈ story.literals, set.defs.Ordinary
  commands :
    ∀ instruction ∈ story.instructions,
      instruction.command ≠ .glue ∧
        instruction.command ≠ .function ∧
        instruction.command ≠ .callExternal

theorem Story.Ordinary.string
    {story : Story}
    (ordinary : story.Ordinary)
    (index : UInt32) :
    Text.Ordinary (story.string index) := by
  simp only [Story.string, Array.getD_eq_getD_getElem?]
  cases here : story.strings[index.toNat]? with
  | none =>
      exact fun c inside => nomatch inside
  | some text =>
      exact ordinary.strings text (Array.mem_of_getElem? here)

/-- A change that leads to an ordinary flow, and writes only ordinary values. -/
structure Change.Ordinary (change : Change) : Prop where
  flow : change.flow.Ordinary
  write : ∀ name value, change.request = some (.write name value) → value.Ordinary

namespace Change.Ordinary

variable {flow : Flow}

theorem of
    (ordinary : flow.Ordinary) :
    (Change.of flow).Ordinary :=
  ⟨ordinary, by simp [Change.of]⟩

theorem reported
    (ordinary : flow.Ordinary)
    (events : List Event) :
    (Change.reported flow events).Ordinary :=
  ⟨ordinary, by simp [Change.reported]⟩

theorem after
    {change : Change}
    (ordinary : change.Ordinary)
    (events : List Event) :
    (Change.after events change).Ordinary :=
  ⟨ordinary.flow, ordinary.write⟩

end Change.Ordinary

namespace Flow

theorem start_ordinary
    (story : Story)
    (seed : UInt64) :
    (Flow.start story seed).Ordinary where
  eval := by simp [Flow.start]
  callStack := .start
  threads := by simp [Flow.start]
  choices := by simp [Flow.start]
  fallback := by simp [Flow.start]
  output := by simp [Flow.start, Output.empty]

namespace Ordinary

variable {story : Story} {flow : Flow}

theorem push
    (ordinary : flow.Ordinary)
    {value : Value}
    (valueOrdinary : value.Ordinary) :
    (flow.push value).Ordinary :=
  { ordinary with
    eval := fun other member => by
      rcases List.mem_cons.mp member with rfl | below
      · exact valueOrdinary
      · exact ordinary.eval other below }

/-- The stack of a flow holds ordinary values. -/
theorem stocks :
    Stocks Value.Ordinary Flow.Ordinary where
  values := Value.Ordinary.closed
  stack ordinary := ordinary.eval
  push ordinary := ordinary.push
  drop ordinary rest :=
    { ordinary with eval := fun value member => ordinary.eval value (rest.mem member) }
  rng _ ordinary := { ordinary with }

/-! ### Output -/

/-- The same flow with other ordinary output. -/
theorem drawn
    (ordinary : flow.Ordinary)
    {output : Output}
    (pieces : ∀ piece ∈ output.pieces, piece.Ordinary)
    (tags : Tags)
    (evalMode : Bool) :
    Flow.Ordinary { flow with output := output, tags := tags, evalMode := evalMode } :=
  { ordinary with output := pieces }

theorem pushed
    (ordinary : flow.Ordinary)
    {piece : Piece}
    (pieceOrdinary : piece.Ordinary) :
    ∀ other ∈ (flow.output.push piece).pieces, other.Ordinary := by
  intro other member
  rcases List.mem_append.mp member with older | last
  · exact ordinary.output other older
  · exact List.mem_singleton.mp last ▸ pieceOrdinary

theorem appendText
    (ordinary : flow.Ordinary)
    {text : String}
    (textOrdinary : Text.Ordinary text) :
    (flow.appendText text).Ordinary := by
  have pieces : ∀ piece ∈ (flow.output.appendText text).pieces, piece.Ordinary := by
    simp only [Output.appendText]
    split
    · exact ordinary.output
    · have written : (Piece.text text).Ordinary := textOrdinary
      exact ordinary.pushed written
  simp only [Flow.appendText]
  split <;> exact ordinary.drawn pieces _ _

theorem pushOrWrite
    (ordinary : flow.Ordinary)
    {value : Value}
    (valueOrdinary : value.Ordinary) :
    (flow.pushOrWrite value).Ordinary := by
  simp only [Flow.pushOrWrite]
  split
  · exact ordinary.push valueOrdinary
  · exact ordinary.appendText valueOrdinary.text

theorem endLine
    (ordinary : flow.Ordinary) :
    flow.endLine.Ordinary := by
  simp only [Flow.endLine]
  split
  · have newline : Text.Ordinary "\n" := by decide
    have pushed : (Value.str "\n").Ordinary := newline
    exact ordinary.push pushed
  · refine ordinary.drawn ?_ _ _
    rcases flow.output.appendNewline_eq with same | added
    · rw [same]
      exact ordinary.output
    · rw [added]
      exact ordinary.pushed trivial

theorem addTag
    (ordinary : flow.Ordinary)
    (tag : String) :
    (flow.addTag tag).Ordinary := by
  simp only [Flow.addTag]
  split <;> exact ordinary.drawn ordinary.output _ _

/-- What is left of the output when a text is finished. -/
theorem closed
    (ordinary : flow.Ordinary)
    {marker : Piece}
    {text : String}
    {output : Output}
    (found : flow.output.closeMarker? marker = some (text, output)) :
    Text.Ordinary text ∧ ∀ piece ∈ output.pieces, piece.Ordinary := by
  obtain ⟨⟨before, after⟩, split, same⟩ := Option.map_eq_some_iff.mp found
  obtain ⟨rfl, rfl⟩ := Prod.mk.inj same
  constructor
  · apply Text.ordinary_ofList
    intro c inside
    have rendered :=
      (List.dropWhile_suffix _).mem (List.mem_reverse.mp inside)
    exact render_ordinary after c (List.mem_reverse.mp rendered)
  · intro piece member
    exact ordinary.output piece ((prefix_of_splitLast? split).subset member)

theorem closeText
    (ordinary : flow.Ordinary)
    (address : Nat) :
    Yields Flow.Ordinary (flow.closeText address) := by
  simp only [Flow.closeText]
  split
  · next text output found =>
      obtain ⟨written, pieces⟩ := ordinary.closed found
      have pushed : (Value.str text).Ordinary := written
      exact .ok ((ordinary.drawn pieces _ _).push pushed)
  · exact .error _

theorem closeTag
    (ordinary : flow.Ordinary)
    (address : Nat) :
    Yields Flow.Ordinary (flow.closeTag address) := by
  simp only [Flow.closeTag]
  split
  · next tag output found =>
      exact .ok ((ordinary.drawn (ordinary.closed found).2 flow.tags flow.evalMode).addTag tag)
  · exact .error _

/-! ### Variables -/

theorem readAt
    (ordinary : flow.Ordinary)
    {store : Store}
    (globals : ∀ value ∈ store.values, value.Ordinary)
    (place : Place) :
    Yields Value.Ordinary (flow.readAt store place) :=
  readAt_yields trivial (fun frame member => (ordinary.callStack frame member).temps)
    globals place

theorem writeAt
    (ordinary : flow.Ordinary)
    {value : Value}
    (valueOrdinary : value.Ordinary)
    (place : Place) :
    Yields Change.Ordinary (flow.writeAt value place) := by
  cases place with
  | temp index name =>
      simp only [Flow.writeAt]
      split
      · refine .ok (.of { ordinary with callStack := ?_ })
        exact ordinary.callStack.setTempAt index name valueOrdinary
      · exact .error _
  | global name =>
      refine .ok ⟨ordinary, ?_⟩
      rintro _ _ ⟨⟩
      exact valueOrdinary

theorem define
    (ordinary : flow.Ordinary)
    (redefine : Bool)
    (name : String)
    {value : Value}
    (valueOrdinary : value.Ordinary) :
    Yields Change.Ordinary (flow.define redefine name value) := by
  simp only [Flow.define]
  split
  · exact ordinary.writeAt valueOrdinary _
  · refine .ok (.of { ordinary with callStack := ?_ })
    exact ordinary.callStack.setTempAt _ name valueOrdinary

theorem reference
    (ordinary : flow.Ordinary)
    {name : String}
    (nameOrdinary : Text.Ordinary name)
    (flag : UInt8) :
    (flow.reference name flag).Ordinary := by
  simp only [Flow.reference]
  split
  · next target home held =>
      obtain ⟨index, _, held⟩ := Option.bind_eq_some_iff.mp held
      exact ordinary.callStack.temp? held
  · exact nameOrdinary

/-! ### Transfers of control -/

theorem goTo
    (ordinary : flow.Ordinary)
    (story : Story)
    (target : Nat) :
    (flow.goTo story target).Ordinary :=
  have moved : (flow.jump story target).Ordinary := { ordinary with }
  .reported moved _

theorem done
    (ordinary : flow.Ordinary)
    (story : Story) :
    (flow.done story).Ordinary := by
  obtain ⟨_, _, _, _, threads, _, _, _, _, _, _, _, _, _, _⟩ := flow
  cases threads with
  | nil =>
      exact .of { ordinary with }
  | cons parent rest =>
      refine .after (goTo ?_ _ _) _
      exact
        { ordinary with
          callStack := ordinary.threads parent List.mem_cons_self
          threads := fun other member =>
            ordinary.threads other (List.mem_cons_of_mem parent member) }

theorem finish
    (ordinary : flow.Ordinary) :
    flow.finish.Ordinary :=
  have ended :
      Flow.Ordinary
        { flow with
          ip := none
          ended := true
          choices := []
          fallback := none
          callStack := flow.callStack.clear
          threads := [] } :=
    { ordinary with
      choices := by simp
      fallback := by simp
      callStack := ordinary.callStack.clear
      threads := by simp }
  .reported ended _

theorem fork
    (ordinary : flow.Ordinary)
    (story : Story)
    (target resumeAt : Nat) :
    (flow.fork story target resumeAt).Ordinary := by
  refine .after (goTo ?_ _ _) _
  refine { ordinary with threads := ?_ }
  intro waiting member
  rcases List.mem_cons.mp member with rfl | older
  · exact ordinary.callStack
  · exact ordinary.threads waiting older

theorem tunnel
    (ordinary : flow.Ordinary)
    (story : Story)
    (target returnTo : Nat) :
    (flow.call story .tunnel target returnTo).Ordinary :=
  have opened :
      Flow.Ordinary
        { flow with callStack := flow.callStack.push .tunnel returnTo flow.evalMode } :=
    { ordinary with callStack := ordinary.callStack.push _ _ }
  .after (opened.goTo _ _) _

/-- Only tunnels are returned from: no function has been called. -/
theorem returnFrom
    (ordinary : flow.Ordinary)
    (story : Story)
    (kind : FrameKind)
    (address : Nat) :
    Yields Change.Ordinary (flow.returnFrom story kind address) := by
  simp only [Flow.returnFrom]
  split
  · exact .error _
  · next frame rest popped =>
      obtain ⟨called, restOrdinary⟩ := ordinary.callStack.pop? popped
      rw [if_neg called]
      refine .ok (goTo ?_ _ _)
      exact { ordinary with callStack := restOrdinary }

theorem enterContainer
    (ordinary : flow.Ordinary)
    (story : Story)
    (id : UInt32) :
    (flow.enterContainer story id).Ordinary := by
  refine .reported ?_ _
  simp only [Flow.enter]
  split <;> exact { ordinary with }

theorem leaveContainer
    (ordinary : flow.Ordinary)
    (story : Story)
    (id : UInt32)
    (address : Nat) :
    Yields Change.Ordinary (flow.leaveContainer story id address) := by
  simp only [Flow.leaveContainer]
  split
  · exact .error _
  · next left found =>
      obtain ⟨parts, _, rfl⟩ := Option.map_eq_some_iff.mp found
      have leftOrdinary : Flow.Ordinary { flow with containers := parts.1 } :=
        { ordinary with }
      split
      · have pushed : (Flow.push { flow with containers := parts.1 } .void).Ordinary :=
          leftOrdinary.push trivial
        exact pushed.returnFrom story .function address
      · exact .ok (.of leftOrdinary)

theorem divert
    (ordinary : flow.Ordinary)
    (story : Story)
    (instruction : Instruction)
    (address : Nat) :
    Yields Change.Ordinary (flow.divert story instruction address) := by
  refine (stocks.popIf ordinary _ address).bind fun _ ordinary => ?_
  simp only
  split
  · exact .ok (ordinary.goTo _ _)
  · exact .ok (.of ordinary)

theorem addChoice
    (ordinary : flow.Ordinary)
    (story : Story)
    (instruction : Instruction)
    (address : Nat) :
    Yields Flow.Ordinary (flow.addChoice story instruction address) := by
  refine (stocks.popIf ordinary _ address).bind fun _ ordinary => ?_
  refine (stocks.popIf ordinary _ address).bind fun _ ordinary => ?_
  refine (stocks.popIf ordinary _ address).bind fun popped ordinary => ?_
  simp only
  split
  · cases instruction.hasFlag ChoiceFlag.invisibleDefault with
    | true =>
        refine .ok { ordinary with fallback := ?_ }
        rintro _ ⟨⟩
        exact ordinary.callStack
    | false =>
        refine .ok { ordinary with choices := ?_ }
        intro choice member
        rcases List.mem_append.mp member with earlier | last
        · exact ordinary.choices choice earlier
        · exact List.mem_singleton.mp last ▸ ordinary.callStack
  · exact .ok { ordinary with }

/-- Going on with a choice takes up its calls again. -/
theorem select
    (ordinary : flow.Ordinary)
    (story : Story)
    {choice : Choice}
    (calls : choice.callStack.Ordinary) :
    (flow.select story choice).Ordinary :=
  { ordinary with
    callStack := calls
    threads := by simp [Flow.select, Flow.jump]
    choices := by simp [Flow.select, Flow.jump]
    fallback := by simp [Flow.select, Flow.jump] }

end Ordinary

/-- An instruction of an ordinary story makes an ordinary change to an ordinary flow. -/
theorem execute_ordinary
    {setup : Setup}
    (story : setup.story.Ordinary)
    {store : Store}
    (globals : ∀ value ∈ store.values, value.Ordinary)
    {address : Nat}
    {instruction : Instruction}
    (here : setup.story.instruction? address = some instruction)
    {flow : Flow}
    (ordinary : flow.Ordinary) :
    Yields Change.Ordinary (execute setup store instruction address flow) := by
  obtain ⟨notGlue, notFunction, notExternal⟩ :=
    story.commands instruction (Array.mem_of_getElem? here)
  obtain ⟨command, flag, payload⟩ := instruction
  have stocks := Ordinary.stocks
  have alone {result : Except Error Flow} (made : Yields Flow.Ordinary result) :
      Yields Change.Ordinary (Flow.alone result) :=
    made.map fun _ ordinary => .of ordinary
  have pushes {value : Value} (valueOrdinary : value.Ordinary) :
      Yields Change.Ordinary (.ok (.of (flow.push value)) : Except Error Change) :=
    .ok (.of (ordinary.push valueOrdinary))
  have writes {value : Value} (valueOrdinary : value.Ordinary) :
      Yields Change.Ordinary (.ok (.of (flow.pushOrWrite value)) : Except Error Change) :=
    .ok (.of (ordinary.pushOrWrite valueOrdinary))
  have any (result : Except Error Nat) : Yields (fun _ => True) result := fun _ _ => trivial
  cases command with
  | str =>
      have written : (Value.str (setup.story.string payload)).Ordinary := story.string payload
      exact writes written
  | int | bool | float =>
      exact writes trivial
  | divertValue | void | visit | turn | readCount | choiceCount =>
      exact pushes trivial
  | list =>
      refine writes ?_
      simp only [Story.literal]
      split
      · next set found => exact story.literals set (Array.mem_of_getElem? found)
      · trivial
  | newline =>
      exact .ok (.of ordinary.endLine)
  | glue =>
      exact absurd rfl notGlue
  | function =>
      exact absurd rfl notFunction
  | callExternal =>
      exact absurd rfl notExternal
  | startEval | endEval =>
      exact .ok (.of { ordinary with })
  | startTag | startStr =>
      exact .ok (.of { ordinary with output := ordinary.pushed trivial })
  | tag =>
      exact .ok (.of (ordinary.addTag _))
  | divert =>
      exact ordinary.divert _ _ address
  | divertToVariable =>
      exact (any _).bind fun _ _ => .ok (ordinary.goTo _ _)
  | tunnel =>
      exact (any _).bind fun _ _ => .ok (ordinary.tunnel _ _ _)
  | thread =>
      exact (any _).bind fun _ _ => .ok (ordinary.fork _ _ _)
  | done =>
      exact .ok (ordinary.done _)
  | finish =>
      exact .ok ordinary.finish
  | tunnelReturn | functionReturn =>
      exact ordinary.returnFrom _ _ address
  | defineTemp =>
      exact (stocks.pop ordinary address).bind fun _ popped =>
        popped.2.define _ _ popped.1
  | setVariable =>
      exact (stocks.pop ordinary address).bind fun _ popped =>
        popped.2.writeAt popped.1 _
  | output =>
      exact (stocks.pop ordinary address).bind fun _ popped =>
        .ok (.of (popped.2.appendText popped.1.text))
  | pop =>
      exact (stocks.pop ordinary address).bind fun _ popped => .ok (.of popped.2)
  | duplicate =>
      exact alone (stocks.duplicate ordinary address)
  | pushVariable =>
      exact (ordinary.readAt globals _).bind fun _ valueOrdinary => pushes valueOrdinary
  | valuePointer =>
      exact pushes (ordinary.reference (story.string payload) flag)
  | sequence =>
      exact alone (stocks.sequence ordinary address)
  | seed =>
      exact alone (stocks.reseed ordinary address)
  | endStr =>
      exact alone (ordinary.closeText address)
  | endTag =>
      exact alone (ordinary.closeTag address)
  | choice =>
      exact alone (ordinary.addChoice _ _ address)
  | listRange =>
      exact alone (stocks.listRange ordinary address)
  | binary operator =>
      exact alone (stocks.binary ordinary operator address)
  | unary operator =>
      exact alone (stocks.unary ordinary _ operator address)
  | startContainer =>
      exact .ok (ordinary.enterContainer _ _)
  | endContainer =>
      exact ordinary.leaveContainer _ payload address

end Flow

/-! ## Loaded stories -/

namespace Loader

theorem string_mem
    (strings : Array String)
    (index : UInt32) :
    Yields (· ∈ strings) (string strings index) := by
  simp only [string]
  split
  · next text here => exact .ok (Array.mem_of_getElem? here)
  · exact .error _

/-- The names of flags are texts of the story. -/
theorem definitions_names
    (strings : Array String)
    (stored : List StoredList) :
    Yields (fun defs => ∀ list ∈ defs.lists, ∀ flag ∈ list.flags, flag.1 ∈ strings)
      (definitions strings stored) := by
  have eachFlag (entry : UInt32 × Int32) :
      Yields (fun flag => flag.1 ∈ strings) (flag strings entry) :=
    (string_mem strings entry.1).bind fun _ named => .ok named
  have eachList (entry : StoredList) :
      Yields (fun list => ∀ flag ∈ list.flags, flag.1 ∈ strings) (list strings entry) := by
    refine (Yields.mapM fun flag (_ : flag ∈ entry.flags) => eachFlag flag).bind
      fun flags made => ?_
    refine (string_mem strings entry.name).bind fun name _ => .ok ?_
    intro flag member
    obtain ⟨_, _, named⟩ := made.2.1 flag (List.mem_toArray.mp member)
    exact named
  simp only [definitions]
  split
  · exact .error _
  · refine (Yields.mapM fun list (_ : list ∈ stored) => eachList list).bind
      fun lists made => .ok ?_
    intro list member flag inside
    simp only [Definitions.ofLists, List.mem_toArray, List.mem_map] at member
    obtain ⟨given, listed, rfl⟩ := member
    obtain ⟨_, _, named⟩ := made.2.1 given listed
    simp only [FlagList.sorted, List.mem_toArray, List.mem_mergeSort, Array.mem_toList_iff]
      at inside
    exact named flag inside

end Loader

namespace Story

theorem ofTables_names
    (tables : Tables) :
    Yields
      (fun story =>
        ∀ list ∈ story.declarations.lists.lists, ∀ flag ∈ list.flags, flag.1 ∈ story.strings)
      (ofTables tables) := by
  have any {α : Type} (result : Except Error α) : Yields (fun _ => True) result :=
    fun _ _ => trivial
  refine (Loader.definitions_names _ _).bind fun defs named => ?_
  refine (any _).bind fun literals _ => (any _).bind fun globals _ => ?_
  exact (any _).bind fun containers _ => (any _).bind fun _ _ => .ok named

/-- A loaded story is ordinary if its texts and instructions are. -/
theorem ordinary_of_loaded
    {octets : List UInt8}
    {story : Story}
    (loaded : ofOctets octets = .ok story)
    (strings : ∀ text ∈ story.strings, Text.Ordinary text)
    (commands :
      ∀ instruction ∈ story.instructions,
        instruction.command ≠ .glue ∧
          instruction.command ≠ .function ∧
          instruction.command ≠ .callExternal) :
    story.Ordinary where
  strings := strings
  literals := by
    intro set member
    have names := (Yields.bind (fun _ _ => trivial) fun tables _ => ofTables_names tables)
      story loaded
    rw [((ofOctets_sound loaded).literals set member).lists]
    exact fun list listed flag inside => strings flag.1 (names list listed flag inside)
  commands := commands

end Story

end Fabula
