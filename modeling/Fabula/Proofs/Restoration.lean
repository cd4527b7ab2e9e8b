import Fabula.Proofs.NativeRun
import Fabula.Proofs.Parallel
import Fabula.Snapshot.Restore

namespace Fabula

/-!
# Saving and restoring

Lists and flags are saved by their names, so they are found again if names are
distinct.  What is native to a story passes every check that restoring makes, and
comes back as it was; only the number of the fallback is not kept.
-/

/-- Lists that are told apart by their names, and so are the flags of each. -/
structure Definitions.Distinct (defs : Definitions) : Prop where
  lists : (defs.lists.toList.map FlagList.name).Nodup
  flags : ∀ list ∈ defs.lists, (list.flags.toList.map Prod.fst).Nodup

/--
References that can be saved: a global is declared, and the position of a frame is a
word.
-/
def Value.Refers (story : Story) : Value → Prop
  | .pointer name none => (story.declarations.index? name).isSome = true
  | .pointer _ (some frame) => frame < UInt64.size
  | _ => True

instance (story : Story) : DecidablePred (Value.Refers story) := fun value =>
  match value with
  | .pointer name none =>
      inferInstanceAs (Decidable ((story.declarations.index? name).isSome = true))
  | .pointer _ (some frame) => inferInstanceAs (Decidable (frame < UInt64.size))
  | .void | .bool _ | .int _ | .float _ | .str _ | .list _ | .divert _ => .isTrue trivial

/-- The values of the temporaries of a frame. -/
def Frame.values (frame : Frame) : List Value :=
  frame.temps.map Prod.snd

/-- The values in all frames of a call stack. -/
def CallStack.values (stack : CallStack) : List Value :=
  stack.frames.flatMap Frame.values

/-- All values that a flow holds. -/
def Flow.values (flow : Flow) : List Value :=
  flow.eval ++ flow.callStack.values ++
    flow.threads.flatMap (fun waiting => waiting.callStack.values) ++
    (flow.choices ++ flow.fallback.toList).flatMap (fun choice => choice.callStack.values)

/-- A flow apart from the number of its fallback. -/
def Flow.unnumbered (flow : Flow) : Flow :=
  { flow with fallback := flow.fallback.map Choice.unnumbered }

/-! ## Finding things by name -/

/-- An element is the first with its key if keys are distinct. -/
theorem findIdx?_key
    {α : Type}
    {key : α → String}
    {elements : List α}
    (distinct : (elements.map key).Nodup)
    {index : Nat}
    {element : α}
    (here : elements[index]? = some element) :
    elements.findIdx? (fun other => key other == key element) = some index := by
  obtain ⟨inside, rfl⟩ := List.getElem?_eq_some_iff.mp here
  rw [List.findIdx?_eq_some_iff_getElem]
  refine ⟨inside, by simp, fun earlier before => ?_⟩
  have different :=
    List.pairwise_iff_getElem.mp distinct earlier index
      (by simpa using Nat.lt_trans before inside) (by simpa using inside) before
  simpa using different

/-- Elements that are found again one by one are found again together. -/
theorem mapM_map_eq_ok
    {ε α β : Type}
    {save : α → β}
    {restore : β → Except ε α}
    {elements : List α}
    (each : ∀ element ∈ elements, restore (save element) = .ok element) :
    (elements.map save).mapM restore = .ok elements := by
  induction elements with
  | nil =>
      rfl
  | cons first rest inductionHypothesis =>
      have others := inductionHypothesis fun element member =>
        each element (List.mem_cons_of_mem first member)
      rw [List.map_cons, List.mapM_cons, each first List.mem_cons_self, others]
      rfl

theorem mapM_option_map_eq_ok
    {ε α β γ : Type}
    {save : α → β}
    {restore : β → Except ε γ}
    {result : α → γ}
    {element : Option α}
    (each : ∀ inside ∈ element, restore (save inside) = .ok (result inside)) :
    (element.map save).mapM restore = .ok (element.map result) := by
  cases element with
  | none =>
      rfl
  | some inside =>
      simp only [Option.map_some, Option.mapM_some, each inside rfl]
      rfl

namespace Definitions

variable {defs : Definitions}

theorem listIndex?_name
    (distinct : defs.Distinct)
    {index : UInt16}
    {found : FlagList}
    (here : defs.list? index = some found) :
    defs.listIndex? found.name = some index := by
  have position :
      defs.lists.toList.findIdx? (fun list => list.name == found.name) = some index.toNat :=
    findIdx?_key distinct.lists (Array.getElem?_toList.trans here)
  have same : defs.lists.findIdx? (fun list => list.name == found.name) = some index.toNat := by
    rw [← position, ← List.findIdx?_toArray]
  simp [listIndex?, same]

theorem flagByName?_entry
    (distinct : defs.Distinct)
    {item : FlagId}
    {entry : String × Int32}
    (here : defs.flagAt? item = some entry) :
    defs.flagByName? item.list entry.1 = some item := by
  obtain ⟨found, listed, flagged⟩ := Option.bind_eq_some_iff.mp here
  have position :
      found.flags.toList.findIdx? (fun flag => flag.1 == entry.1) = some item.flag.toNat :=
    findIdx?_key (distinct.flags found (Array.mem_of_getElem? listed))
      (Array.getElem?_toList.trans flagged)
  have same : found.findName? entry.1 = some item.flag.toNat := by
    rw [← position, ← List.findIdx?_toArray]
    rfl
  simp [flagByName?, listed, same]

end Definitions

/-! ## Values -/

namespace SavedValue

variable {story : Story}

theorem listNamed_listName
    (distinct : story.declarations.lists.Distinct)
    {list : UInt16}
    (declared : (story.declarations.lists.list? list).isSome = true) :
    listNamed story.declarations.lists (listName story.declarations.lists list) = .ok list := by
  obtain ⟨found, here⟩ := Option.isSome_iff_exists.mp declared
  have named := Definitions.listIndex?_name distinct here
  simp only [listNamed, listName, here, named]

theorem flagNamed_flagNames
    (distinct : story.declarations.lists.Distinct)
    {item : FlagId}
    (declared : (story.declarations.lists.flagAt? item).isSome = true) :
    flagNamed story.declarations.lists (flagNames story.declarations.lists item) =
      .ok item := by
  obtain ⟨entry, here⟩ := Option.isSome_iff_exists.mp declared
  have listed : (story.declarations.lists.list? item.list).isSome = true := by
    obtain ⟨found, listed, _⟩ := Option.bind_eq_some_iff.mp here
    simp [listed]
  have flagged := Definitions.flagByName?_entry distinct here
  have name : story.declarations.lists.flagName? item = some entry.1 := by
    simp [Definitions.flagName?, here]
  simp only [flagNamed, flagNames, listNamed_listName distinct listed, name,
    Option.getD_some, bind, Except.bind, flagged]

/-- A set of flags over the lists of a story is made of its flags and origins. -/
theorem ofParts_toList
    {set : FlagSet}
    (built : set.Over story.declarations.lists) :
    FlagSet.ofParts story.declarations.lists set.items.toList set.origins.toList = set := by
  have items : SortedSet.ofList set.items.toList = set.items :=
    SortedSet.eq_of_mem_iff fun item => by simp
  have origins :
      SortedSet.ofList (set.origins.toList ++ set.items.toList.map FlagId.list) =
        set.origins := by
    refine SortedSet.eq_of_mem_iff fun list => ?_
    simp only [SortedSet.mem_ofList, List.mem_append, List.mem_map, SortedSet.mem_toList]
    constructor
    · rintro (origin | ⟨item, inside, rfl⟩)
      · exact origin
      · exact (built.items item inside).2
    · exact .inl
  simp only [FlagSet.ofParts, items, origins, ← built.lists]

/-- A native value is restored as it was. -/
theorem restore_ofValue
    (distinct : story.declarations.lists.Distinct)
    {value : Value}
    (native : value.Native story)
    (refers : value.Refers story) :
    (ofValue value).restore story = .ok value := by
  cases value with
  | void | bool | int | float | str =>
      rfl
  | list set =>
      have built : set.Over story.declarations.lists := native
      have flags :=
        mapM_map_eq_ok fun item member =>
          flagNamed_flagNames distinct (built.items item member).1
      have lists :=
        mapM_map_eq_ok fun list member =>
          listNamed_listName distinct (built.origins list member)
      simp only [ofValue, built.lists, restore, flags, lists, bind, Except.bind, pure, Except.pure,
        ofParts_toList built]
  | divert target =>
      exact if_pos native
  | pointer name frame =>
      cases frame with
      | none =>
          exact if_pos refers
      | some frame =>
          have word : (UInt64.ofNat frame).toNat = frame := UInt64.toNat_ofNat_of_lt' refers
          simp only [ofValue, Option.map_some, restore, word]

end SavedValue

/-! ## Flows -/

section Flows

variable {story : Story}

theorem Story.checkAddress_ofNat
    (sound : story.Sound)
    (role : AddressRole)
    {address : Nat}
    (inside : address ≤ story.instructionCount) :
    story.checkAddress role (UInt64.ofNat address) = .ok address := by
  have word : (UInt64.ofNat address).toNat = address := by
    refine UInt64.toNat_ofNat_of_lt' ?_
    have bound := sound.instructionCount
    simp only [UInt32.size, UInt64.size] at bound ⊢
    omega
  simp only [checkAddress, word, inside, if_true]

theorem SavedFlow.checkContainers_ofFlow
    {flow : Flow}
    (native : flow.Native story) :
    SavedFlow.checkContainers story (SavedFlow.ofFlow flow) = .ok () := by
  have known :
      flow.containers.find? (fun id => decide (story.containerCount ≤ id.toNat)) = none := by
    rw [List.find?_eq_none]
    intro id member
    have inside := native.containers id member
    simp only [decide_eq_true_eq]
    omega
  simp only [SavedFlow.checkContainers, SavedFlow.ofFlow, native.visits, native.turnVisited,
    and_self, if_true, known]

variable (distinct : story.declarations.lists.Distinct) (sound : story.Sound)

include distinct sound

theorem SavedFrame.restore_ofFrame
    {frame : Frame}
    (native : frame.Native story)
    (refers : ∀ value ∈ frame.values, value.Refers story) :
    (SavedFrame.ofFrame frame).restore story = .ok frame := by
  have temps :
      (frame.temps.map fun entry => (entry.1, SavedValue.ofValue entry.2)).mapM
        (restoreTemp story) = .ok frame.temps := by
    refine mapM_map_eq_ok fun entry member => ?_
    have restored :=
      SavedValue.restore_ofValue distinct (native.temps entry member)
        (refers entry.2 (List.mem_map_of_mem member))
    simp only [restoreTemp, restored, bind, Except.bind, pure, Except.pure]
  simp only [SavedFrame.restore, SavedFrame.ofFrame, temps,
    story.checkAddress_ofNat sound _ native.returnTo, bind, Except.bind, pure, Except.pure]

theorem CallStack.restore_saved
    {stack : CallStack}
    (native : stack.Native story)
    (refers : ∀ value ∈ stack.values, value.Refers story) :
    CallStack.restore story stack.saved = .ok stack := by
  have frames : stack.saved.mapM (SavedFrame.restore story) = .ok stack.frames := by
    refine mapM_map_eq_ok fun frame member => ?_
    refine SavedFrame.restore_ofFrame distinct sound (native.frames frame member) ?_
    exact fun value held => refers value (List.mem_flatMap.mpr ⟨frame, member, held⟩)
  have root : stack.frames.head?.map Frame.kind = some .root := by
    simp [CallStack.frames, native.root]
  simp only [CallStack.restore, frames, bind, Except.bind, root, if_true,
    CallStack.ofFrames_frames, pure, Except.pure]

theorem SavedChoice.restore_ofChoice
    {choice : Choice}
    (native : choice.Native story)
    (refers : ∀ value ∈ choice.callStack.values, value.Refers story)
    (index : Nat) :
    (SavedChoice.ofChoice choice).restore story index = .ok { choice with index := index } := by
  simp only [SavedChoice.restore, SavedChoice.ofChoice,
    story.checkAddress_ofNat sound _ native.target,
    CallStack.restore_saved distinct sound native.callStack refers, bind, Except.bind, pure,
    Except.pure]

theorem SavedThread.restore_ofSuspended
    {waiting : SuspendedFlow}
    (native : waiting.Native story)
    (refers : ∀ value ∈ waiting.callStack.values, value.Refers story) :
    (SavedThread.ofSuspended waiting).restore story = .ok waiting := by
  simp only [SavedThread.restore, SavedThread.ofSuspended,
    story.checkAddress_ofNat sound _ native.resumeAt,
    CallStack.restore_saved distinct sound native.callStack refers, bind, Except.bind, pure,
    Except.pure]

/-- Choices are restored at their positions, which are their numbers. -/
theorem SavedChoice.restore_zipIdx
    {choices : List Choice}
    (native : ∀ choice ∈ choices, choice.Native story)
    (numbers : choices.map Choice.index = List.range choices.length)
    (refers : ∀ choice ∈ choices, ∀ value ∈ choice.callStack.values, value.Refers story) :
    (choices.map SavedChoice.ofChoice).zipIdx.mapM
        (fun entry => entry.1.restore story entry.2) = .ok choices := by
  have numbered :
      (choices.map SavedChoice.ofChoice).zipIdx =
        choices.map fun choice => (SavedChoice.ofChoice choice, choice.index) := by
    rw [List.zipIdx_eq_zip_range', List.length_map, ← List.range_eq_range', ← numbers,
      List.zip_map']
  rw [numbered]
  refine mapM_map_eq_ok fun choice member => ?_
  exact restore_ofChoice distinct sound (native choice member) (refers choice member) _

/-- A native flow is restored as it was, apart from the number of its fallback. -/
theorem SavedFlow.restore_ofFlow
    {flow : Flow}
    (native : flow.Native story)
    (refers : ∀ value ∈ flow.values, value.Refers story) :
    SavedFlow.restore story (SavedFlow.ofFlow flow) = .ok flow.unnumbered := by
  simp only [Flow.values, List.mem_append, List.mem_flatMap] at refers
  have checked := checkContainers_ofFlow native
  have ip :
      (flow.ip.map UInt64.ofNat).mapM (story.checkAddress .instructionPointer) =
        .ok flow.ip := by
    have checked :=
      mapM_option_map_eq_ok fun address here =>
        story.checkAddress_ofNat sound .instructionPointer (native.ip address here)
    simpa using checked
  have choices :=
    SavedChoice.restore_zipIdx distinct sound native.choices native.numbers
      fun choice member value held => refers value (.inr ⟨choice, .inl member, held⟩)
  have fallback :
      (flow.fallback.map SavedChoice.ofChoice).mapM (fun choice => choice.restore story 0) =
        .ok (flow.fallback.map Choice.unnumbered) := by
    refine mapM_option_map_eq_ok fun choice held => ?_
    refine SavedChoice.restore_ofChoice distinct sound (native.fallback choice held) ?_ 0
    exact fun value inside =>
      refers value (.inr ⟨choice, .inr (Option.mem_toList.mpr held), inside⟩)
  have eval :
      (flow.eval.reverse.map SavedValue.ofValue).mapM (SavedValue.restore story) =
        .ok flow.eval.reverse := by
    refine mapM_map_eq_ok fun value member => ?_
    have held := List.mem_reverse.mp member
    exact SavedValue.restore_ofValue distinct (native.eval value held)
      (refers value (.inl (.inl (.inl held))))
  have callStack :=
    CallStack.restore_saved distinct sound native.callStack
      fun value held => refers value (.inl (.inl (.inr held)))
  have threads :
      (flow.threads.reverse.map SavedThread.ofSuspended).mapM (SavedThread.restore story) =
        .ok flow.threads.reverse := by
    refine mapM_map_eq_ok fun waiting member => ?_
    have held := List.mem_reverse.mp member
    exact SavedThread.restore_ofSuspended distinct sound (native.threads waiting held)
      fun value inside => refers value (.inl (.inr ⟨waiting, held, inside⟩))
  simp only [SavedFlow.restore, checked, bind, Except.bind, pure, Except.pure]
  simp only [SavedFlow.ofFlow, ip, choices, fallback, eval, callStack, threads,
    List.reverse_reverse, Flow.unnumbered]

end Flows

/-! ## Stores -/

/-- The variables of a story are found at their positions. -/
theorem Story.Sound.index?
    {story : Story}
    (sound : story.Sound)
    {before after : List Declaration}
    {declaration : Declaration}
    (split : story.declarations.globals = before ++ declaration :: after) :
    story.declarations.index? declaration.name = some before.length :=
  findIdx?_key sound.names (by simp [split])

/-- Restoring the values of the variables after some others. -/
theorem SavedVariable.restore_foldlM
    {story : Story}
    (distinct : story.declarations.lists.Distinct)
    (sound : story.Sound)
    {before after : List Declaration}
    (split : story.declarations.globals = before ++ after)
    {first rest values : List Value}
    (firstLength : first.length = before.length)
    (restLength : rest.length = after.length)
    (valuesLength : values.length = after.length)
    (native : ∀ value ∈ values, value.Native story)
    (refers : ∀ value ∈ values, value.Refers story) :
    (((after.map Declaration.name).zip values).map SavedVariable.ofEntry).foldlM
        (SavedVariable.restore story) (first ++ rest) =
      .ok (first ++ values) := by
  induction after generalizing before first rest values with
  | nil =>
      rw [List.length_nil, List.length_eq_zero_iff] at restLength valuesLength
      subst restLength valuesLength
      rfl
  | cons declaration after inductionHypothesis =>
      obtain ⟨old, rest, rfl⟩ := List.exists_cons_of_length_eq_add_one restLength
      obtain ⟨value, values, rfl⟩ := List.exists_cons_of_length_eq_add_one valuesLength
      have restored :=
        SavedValue.restore_ofValue distinct (native value List.mem_cons_self)
          (refers value List.mem_cons_self)
      have placed :
          SavedVariable.restore story (first ++ old :: rest)
              (SavedVariable.ofEntry (declaration.name, value)) =
            .ok (first ++ value :: rest) := by
        simp [SavedVariable.restore, SavedVariable.ofEntry, sound.index? split, restored,
          ← firstLength, bind, Except.bind, pure, Except.pure]
      have splitAfter :
          story.declarations.globals = (before ++ [declaration]) ++ after := by
        simpa using split
      have lengthAfter : (first ++ [value]).length = (before ++ [declaration]).length := by
        simp [firstLength]
      have others :=
        inductionHypothesis splitAfter lengthAfter (by simpa using restLength)
          (by simpa using valuesLength)
          (fun value member => native value (List.mem_cons_of_mem _ member))
          (fun value member => refers value (List.mem_cons_of_mem _ member))
      rw [List.map_cons, List.zip_cons_cons, List.map_cons, List.foldlM_cons, placed]
      simpa [bind, Except.bind] using others

/-- A native store is restored with its values. -/
theorem Store.restore_saved
    {story : Story}
    (distinct : story.declarations.lists.Distinct)
    (sound : story.Sound)
    {store : Store}
    (native : store.Native story)
    (refers : ∀ value ∈ store.values, value.Refers story) :
    Store.restore story store.saved = .ok (.ofValues story.declarations store.values) := by
  have names : store.declarations.names = story.declarations.globals.map Declaration.name := by
    rw [native.declarations]
    rfl
  have restored :=
    SavedVariable.restore_foldlM distinct sound (List.nil_append _).symm List.length_nil
      (List.length_map Declaration.initial) native.length native.values refers
  simp only [List.nil_append] at restored
  simp only [Store.restore, Store.saved, Store.entries, names, Declarations.initialValues,
    restored, bind, Except.bind, pure, Except.pure]

end Fabula
