import Fabula.Proofs.Mentions
import Fabula.Proofs.Native
import Fabula.Proofs.Targets

namespace Fabula

/-!
# What is assembled can be loaded

A story whose orders are in order is built, and what is built is loaded: every position
that the assembler wrote down passes the check of the loader, jumps to labels lead to
where the labels were placed last, and a set of flags holds the flags that its paths name
in the loaded story.  Otherwise building fails, and for one of five reasons.
-/

namespace Assembler

/-! ## Proper orders -/

/-- Whether an order refers to nothing but what it names. -/
def Order.isProper : Order → Bool
  | .emit command _ _ | .op command => !command.refers
  | .global _ value => value.isScalar
  | _ => true

theorem Order.isProper_acts
    {order : Order}
    (proper : order.isProper = true) :
    ∀ act ∈ order.acts, act.isProper = true := by
  rw [← List.all_eq_true]
  cases order with
  | emit | op | global =>
      rw [acts, List.all_cons, List.all_nil, Bool.and_true]
      exact proper
  | choiceText content tags target =>
      have tagged : (tags.map (Act.named .tag 0)).all Act.isProper = true := by
        simp [Act.isProper, Command.namesText]
      rw [acts, List.all_append, List.all_append, tagged]
      rfl
  | _ =>
      rfl

theorem Order.isPlain_of_isProper
    {order : Order}
    (proper : order.isProper = true) :
    order.isPlain = true := by
  cases order with
  | emit command | op command =>
      simp only [isProper, Command.refers, Bool.not_eq_true', Bool.or_eq_false_iff] at proper
      simp only [isPlain, proper, Bool.not_false]
  | _ =>
      rfl

/-! ## Containers have their markers -/

variable {a b : Assembler}

/-- Every container starts at its marker, and ends at one once it is closed. -/
structure Marked (a : Assembler) : Prop where
  start :
    ∀ {id : Nat} {container : StoredContainer},
      a.tables.containers[id]? = some container →
      a.tables.instructions[container.start.toNat]? =
        some ⟨.startContainer, 0, UInt32.ofNat id⟩
  stop :
    ∀ {id : Nat} {container : StoredContainer},
      a.tables.containers[id]? = some container →
      id ∉ a.opened →
      container.start ≤ container.stop ∧
        a.tables.instructions[container.stop.toNat]? = some ⟨.endContainer, 0, UInt32.ofNat id⟩

namespace Marked

theorem empty :
    Marked .start := by
  constructor <;> simp [Assembler.start, Tables.empty]

theorem extend
    (marked : Marked a)
    (grown : Extends a b) :
    Marked b := by
  obtain ⟨more, shape, _⟩ := grown.instructions
  have kept {address : Nat} {instruction : Instruction}
      (here : a.tables.instructions[address]? = some instruction) :
      b.tables.instructions[address]? = some instruction :=
    getElem?_of_prefix ⟨more, shape.symm⟩ here
  constructor
  · intro id container found
    rw [grown.containers] at found
    exact kept (marked.start found)
  · intro id container found closed
    rw [grown.containers] at found
    rw [grown.opened] at closed
    obtain ⟨ordered, there⟩ := marked.stop found closed
    exact ⟨ordered, kept there⟩

theorem opening
    (marked : Marked a)
    (fits : a.Fits)
    (name : UInt32)
    (flags : UInt8) :
    Marked (a.opening name flags) := by
  have address : a.address.toNat = a.tables.instructions.length :=
    UInt32.toNat_ofNat_of_lt' fits.instructions
  constructor
  · intro id container found
    rcases getElem?_snoc_iff.mp found with old | ⟨rfl, rfl⟩
    · exact getElem?_snoc_iff.mpr (.inl (marked.start old))
    · exact getElem?_snoc_iff.mpr (.inr ⟨address, rfl⟩)
  · intro id container found closed
    obtain ⟨different, closed⟩ := List.ne_and_not_mem_of_not_mem_cons closed
    rcases getElem?_snoc_iff.mp found with old | ⟨last, _⟩
    · obtain ⟨ordered, there⟩ := marked.stop old closed
      exact ⟨ordered, getElem?_snoc_iff.mpr (.inl there)⟩
    · exact absurd last different

theorem closing
    (marked : Marked a)
    (fits : a.Fits)
    {id : Nat}
    {rest : List Nat}
    (innermost : a.opened = id :: rest) :
    Marked (a.closing id rest) := by
  have address : a.address.toNat = a.tables.instructions.length :=
    UInt32.toNat_ofNat_of_lt' fits.instructions
  constructor
  · intro other container found
    obtain ⟨before, same, there⟩ := start_closing found
    rw [same]
    exact getElem?_snoc_iff.mpr (.inl (marked.start there))
  · intro other container found closed
    by_cases same : other = id
    · subst same
      obtain ⟨before, start, there⟩ := start_closing found
      rw [closing_self there] at found
      cases found
      refine ⟨?_, getElem?_snoc_iff.mpr (.inr ⟨address, rfl⟩)⟩
      have begun := (List.getElem?_eq_some_iff.mp (marked.start there)).1
      rw [UInt32.le_iff_toNat_le, address]
      exact Nat.le_of_lt begun
    · rw [closing_other same] at found
      have outside : other ∉ a.opened := by
        rw [innermost]
        exact List.not_mem_cons_of_ne_of_not_mem same closed
      obtain ⟨ordered, there⟩ := marked.stop found outside
      exact ⟨ordered, getElem?_snoc_iff.mpr (.inl there)⟩

theorem foldl
    (marked : Marked a)
    {orders : List Order}
    (plain : ∀ order ∈ orders, order.isPlain = true)
    (fits : (orders.foldl Assembler.follow a).Fits) :
    Marked (orders.foldl Assembler.follow a) :=
  foldl_keeps .extend .opening .closing marked plain fits

end Marked

/-! ## Addresses -/

section Addresses

variable {acts : List Act}

theorem address_le
    (a : Assembler) :
    a.address.toNat ≤ a.tables.instructions.length := by
  rw [address, UInt32.toNat_ofNat']
  exact Nat.mod_le _ _

/-- A label is placed at an address up to the next one. -/
theorem labels_tell_le
    {label : Nat}
    {address : UInt32}
    (placed : (tell acts).labels[label]? = some (some address)) :
    address.toNat ≤ (tell acts).tables.instructions.length := by
  induction acts using List.reverseRecOn with
  | nil =>
      simp [Assembler.start] at placed
  | append_singleton acts act inductionHypothesis =>
      have longer := (Column.instructions.prefix_tell acts [act]).length_le
      refine Nat.le_trans ?_ longer
      by_cases own : act = .place label
      · subst own
        rw [tell_snoc, enact_eq] at placed
        simp only [Act.labels, List.getElem?_set_self', Option.map_eq_map,
          Option.map_eq_some_iff, Function.const_apply] at placed
        obtain ⟨_, _, same⟩ := placed
        cases same
        exact address_le _
      · rw [tell_snoc, labels_enact_of_ne own] at placed
        exact inductionHypothesis placed

theorem start_tell_le
    {container : StoredContainer}
    (inside : container ∈ (tell acts).tables.containers) :
    container.start.toNat ≤ (tell acts).tables.instructions.length := by
  obtain ⟨before, act, after, stored, rfl, adds, _, sameStart⟩ := exists_opening inside
  have start : stored.start = (tell before).address := by
    cases act with
    | opens name => cases name <;> cases adds <;> rfl
    | _ => cases adds
  rw [← sameStart, start]
  exact Nat.le_trans (address_le _) (Column.instructions.prefix_tell before _).length_le

/-- A target that is there is an address of the story, or the number of a container. -/
theorem payload_inside
    {target : Target}
    (resolves : (tell acts).Resolves target)
    {command : Command}
    (jumps : command ≠ .readCount) :
    ((tell acts).payload command target).toNat ≤ (tell acts).tables.instructions.length := by
  cases target with
  | label number =>
      obtain ⟨address, placed⟩ := resolves
      simp only [payload, placed]
      exact labels_tell_le placed
  | path path =>
      obtain ⟨⟨container, id⟩, found⟩ := Option.isSome_iff_exists.mp resolves
      simp only [payload, found, if_neg jumps]
      exact start_tell_le (List.mem_of_getElem? (getElem?_of_findContainer? found))

theorem readCount_inside
    {path : String}
    (resolves : (tell acts).Resolves (.path path))
    (few : (tell acts).tables.containers.length < UInt32.size) :
    ((tell acts).payload .readCount (.path path)).toNat <
      (tell acts).tables.containers.length := by
  obtain ⟨⟨container, id⟩, found⟩ := Option.isSome_iff_exists.mp resolves
  have inside := (List.getElem?_eq_some_iff.mp (getElem?_of_findContainer? found)).1
  simp only [payload, found, if_pos]
  rw [UInt32.toNat_ofNat_of_lt' (Nat.lt_trans inside few)]
  exact inside

end Addresses

/-! ## Instructions -/

section Instructions

variable {acts before after : List Act} {act : Act} {bounds : Loader.Bounds} {flag : UInt8}
  {payload : UInt32}

theorem admits_of_not_refers
    {command : Command}
    (none : command.refers = false) :
    bounds.admits ⟨command, flag, payload⟩ = true := by
  cases command with
  | str | tag | divertToVariable | defineTemp | setVariable | pushVariable | valuePointer
  | callExternal | divert | tunnel | function | thread | divertValue | choice | readCount
  | startContainer | endContainer | list =>
      cases none
  | _ =>
      rfl

theorem admits_of_namesText
    {command : Command}
    (names : command.namesText = true)
    (inside : payload.toNat < bounds.strings) :
    bounds.admits ⟨command, flag, payload⟩ = true := by
  cases command with
  | str | tag | divertToVariable | defineTemp | setVariable | pushVariable | valuePointer
  | callExternal =>
      exact decide_eq_true inside
  | _ =>
      cases names

theorem admits_jump
    (jump : Jump)
    (inside : payload.toNat ≤ bounds.instructions) :
    bounds.admits ⟨jump.command, jump.flag, payload⟩ = true := by
  cases jump with
  | tunnel | function | thread =>
      simpa [Loader.Bounds.admits, Jump.command, Jump.flag, Instruction.hasFlag] using inside
  | _ =>
      exact decide_eq_true inside

/-- Everything that an act refers to is there when its jumps have their targets. -/
theorem final?_admitted
    (shape : acts = before ++ act :: after)
    (proper : act.isProper = true)
    (balanced : Balanced (tell acts))
    (fit : StoryFormat.TablesFit (tell acts).tables)
    (resolves : ∀ target, act.target? = some target → (tell acts).Resolves target)
    {instruction : Instruction}
    (made : act.final? (tell acts) (tell before) = some instruction) :
    (tell acts).tables.bounds.admits instruction = true := by
  have here {original : Instruction} (adds : act.instruction? (tell before) = some original) :
      (tell acts).tables.instructions[(tell before).tables.instructions.length]? =
        some original := by
    rw [shape]
    exact Column.instructions.getElem?_tell adds after
  cases act with
  | emit command flag payload =>
      cases made
      exact admits_of_not_refers (by simpa [Act.isProper] using proper)
  | named command flag text =>
      cases made
      have there := getElem?_tell_intern shape fit.strings.1 rfl
      exact admits_of_namesText proper (Tables.hasText_of_getElem? there)
  | jump kind target =>
      cases made
      exact admits_jump kind (payload_inside (resolves target rfl) kind.command_ne_readCount)
  | readCount path =>
      cases made
      exact decide_eq_true (readCount_inside (resolves _ rfl) fit.containers)
  | flags paths =>
      cases made
      have inside := literals_lt_tell shape rfl
      have number := UInt32.toNat_ofNat_of_lt' (Nat.lt_trans inside fit.literals.1)
      exact decide_eq_true (Nat.lt_of_le_of_lt (Nat.le_of_eq number) inside)
  | opens name bits =>
      cases made
      obtain ⟨_, there, _⟩ := balanced.starts (here rfl)
      exact decide_eq_true (List.getElem?_eq_some_iff.mp there).1
  | closes =>
      obtain ⟨original, adds, rfl⟩ := Option.map_eq_some_iff.mp made
      obtain ⟨id, _, rfl⟩ := Option.map_eq_some_iff.mp adds
      obtain ⟨_, _, there, _⟩ := balanced.stops (here adds)
      exact decide_eq_true (List.getElem?_eq_some_iff.mp there).1
  | _ =>
      cases made

end Instructions

/-! ## Acceptable tables -/

section Accepting

variable {acts : List Act}

/-- Flags that were found are declared in the finished story. -/
theorem setOf_declared
    {before after : List Act}
    (shape : acts = before ++ after)
    (few : (tell acts).tables.strings.length < UInt32.size)
    (fewLists : (listsOf acts).length ≤ 65536)
    (paths : List String) :
    (tell acts).tables.Declares ((tell before).setOf paths) := by
  have named {item : FlagId} (found : item ∈ (tell before).gathered paths) :
      ((tell acts).tables.definitions.flagName? item).isSome = true := by
    obtain ⟨path, _, found⟩ := List.mem_filterMap.mp found
    rw [resolveFlag?_tell_iff shape few fewLists] at found
    have longer : listsOf before <+: listsOf acts := by
      rw [shape]
      exact (List.prefix_append before after).filterMap Act.declared?
    have names := Definitions.names_of_prefix longer fewLists found
    rw [Definitions.names_ofLists_iff fewLists] at names
    obtain ⟨_, _, number, list, position, _, _, here, there, rfl⟩ := names
    have listed := Definitions.list?_ofLists fewLists here
    have inside : position < list.sorted.flags.size := by
      simp only [FlagList.findName?, Array.findIdx?_eq_some_iff_getElem] at there
      exact there.1
    rw [definitions_tell few, Definitions.flagName?, Option.isSome_map]
    exact Definitions.flagAt?_ofNat_isSome listed inside
  constructor
  · intro origin inside
    obtain ⟨item, found, rfl⟩ := setOf_origins inside
    exact Definitions.list?_isSome_of_flagName? (named found)
  · intro item inside
    rw [setOf_items] at inside
    exact named inside

theorem bounds_finished
    (a : Assembler) :
    a.finished.bounds = a.tables.bounds := by
  simp only [Tables.bounds, finished, length_foldl_patch]

theorem hasValue_finished
    {a : Assembler}
    {value : StoredValue}
    (inside : a.tables.HasValue value) :
    a.finished.HasValue value := by
  cases value with
  | divert target =>
      rw [Tables.HasValue, finished, length_foldl_patch]
      exact inside
  | _ =>
      exact inside

/-- Markers wait for nothing. -/
theorem finished_marker
    {a : Assembler}
    (balanced : Balanced a)
    {address : Nat}
    {instruction : Instruction}
    (here : a.tables.instructions[address]? = some instruction)
    (marker : instruction.command.isMarker = true) :
    a.finished.instructions[address]? = some instruction := by
  rw [finished, foldl_patch_of_ne, here]
  rintro entry waits rfl
  obtain ⟨other, there, plain⟩ := balanced.fixups entry waits
  rw [here] at there
  cases there
  rw [marker] at plain
  cases plain

theorem delimits_finished
    {a : Assembler}
    (balanced : Balanced a)
    (marked : Marked a)
    (fits : a.Fits)
    (closed : a.opened = [])
    (named : ∀ c ∈ a.tables.containers, c.name ≠ noName → a.tables.HasText c.name)
    {id : Nat}
    {container : StoredContainer}
    (found : a.tables.containers[id]? = some container) :
    a.finished.Delimits container id := by
  have number : (UInt32.ofNat id).toNat = id :=
    UInt32.toNat_ofNat_of_lt'
      (Nat.lt_trans (List.getElem?_eq_some_iff.mp found).1 fits.containers)
  obtain ⟨ordered, stop⟩ := marked.stop found (by simp [closed])
  exact
    { ordered := ordered
      start := ⟨_, finished_marker balanced (marked.start found) rfl, rfl, number⟩
      stop := ⟨_, finished_marker balanced stop rfl, rfl, number⟩
      name := named container (List.mem_of_getElem? found) }

end Accepting

/-! ## Orders in order -/

/-- The acts that orders are made of. -/
def actsOf (orders : List Order) : List Act :=
  orders.flatMap Order.acts

/-- The label that an act places or leads to. -/
def Act.label? : Act → Option Nat
  | .place label | .jump _ (.label label) => some label
  | _ => none

/--
Orders that stay inside what an assembler offers.  Their labels are their own: one is made
before it is placed or used.
-/
structure Proper (orders : List Order) : Prop where
  each : ∀ order ∈ orders, order.isProper = true
  ownLabels :
    ∀ {before after : List Act} {act : Act} {label : Nat},
      actsOf orders = before ++ act :: after →
      act.label? = some label →
      label < before.count .newLabel
  distinct : ((actsOf orders).filterMap Act.variable?).Nodup
  fewLists : (listsOf (actsOf orders)).length ≤ Loader.greatestListCount
  fit : StoryFormat.TablesFit (assemble orders).tables

/-- What makes building fail. -/
inductive Faulty (acts : List Act) : Prop where
  | strayEnd {before after : List Act}
      (shape : acts = before ++ .closes :: after)
      (level : depth before = 0)
  | unclosed (level : depth acts ≠ 0)
  | unknownFlag {before after : List Act} {act : Act} {paths : List String} {path : String}
      (shape : acts = before ++ act :: after)
      (told : act.paths? = some paths)
      (mentioned : path ∈ paths)
      (unknown : ∀ id, ¬(Definitions.ofLists (listsOf before)).Names path id)
  | unplacedLabel {act : Act} {label : Nat}
      (inside : act ∈ acts)
      (used : act.target? = some (.label label))
      (never : .place label ∉ acts)
  | unknownPath {act : Act} {path : String}
      (inside : act ∈ acts)
      (used : act.target? = some (.path path))
      (never : ∀ flags, .opens (some path) flags ∉ acts)

section Orders

variable {orders : List Order}

theorem Proper.acts
    (proper : Proper orders) :
    ∀ act ∈ actsOf orders, act.isProper = true := by
  intro act inside
  obtain ⟨order, told, own⟩ := List.mem_flatMap.mp inside
  exact Order.isProper_acts (proper.each order told) act own

theorem Proper.plain
    (proper : Proper orders) :
    ∀ order ∈ orders, order.isPlain = true :=
  fun order told => Order.isPlain_of_isProper (proper.each order told)

theorem Proper.listsNumbered
    (proper : Proper orders) :
    (listsOf (actsOf orders)).length ≤ 65536 :=
  Nat.le_succ_of_le proper.fewLists

/-- What is finished is accepted. -/
theorem Proper.acceptable
    (proper : Proper orders)
    (closed : (assemble orders).opened = [])
    (resolves : ∀ entry ∈ (assemble orders).fixups, (assemble orders).Resolves entry.2) :
    (assemble orders).finished.Acceptable := by
  have fit := proper.fit
  have fits : (assemble orders).Fits := ⟨fit.instructions, fit.containers⟩
  have balanced := Balanced.start.foldl proper.plain fits
  have marked := Marked.empty.foldl proper.plain fits
  change Balanced (assemble orders) at balanced
  change Marked (assemble orders) at marked
  have told : assemble orders = tell (actsOf orders) := assemble_eq_tell orders
  rw [told] at fit fits balanced marked closed resolves ⊢
  have few := fit.strings.1
  have counted := congrArg List.length (map_flagList_tell few)
  rw [List.length_map] at counted
  exact
    { listCount := by
        rw [finished, counted]
        exact proper.fewLists
      lists := listsRead_tell few
      literals := by
        intro literal inside
        obtain ⟨before, act, after, shape, adds⟩ := Column.literals.exists_act_of_mem inside
        obtain ⟨paths, _, rfl⟩ := Option.map_eq_some_iff.mp adds
        have declared := setOf_declared shape few proper.listsNumbered paths
        exact ⟨declared.origins, declared.items⟩
      globals := by
        intro stored inside
        obtain ⟨before, act, after, shape, adds⟩ := Column.globals.exists_act_of_mem inside
        have own := proper.acts act (by simp [shape])
        obtain ⟨name, value, _⟩ := global?_read shape few fit.literals.1 own adds
        exact ⟨name, hasValue_finished value⟩
      names := by
        have distinct := proper.distinct
        rw [← map_variable_tell few fit.literals.1 proper.acts] at distinct
        exact distinct
      containers := fun found =>
        delimits_finished balanced marked fits closed (fun _ => hasText_name few) found
      instructions := by
        intro instruction inside
        obtain ⟨address, here⟩ := List.mem_iff_getElem?.mp inside
        obtain ⟨before, act, after, shape, _, made⟩ := exists_act_finished here
        have own : act ∈ actsOf orders := by simp [shape]
        have admitted := final?_admitted shape (proper.acts act own) balanced fit
          (forall_fixups_iff.mp resolves act own) made
        rw [bounds_finished]
        exact admitted }

/-! ## Faults -/

/-- An entry of a list has a last place in it. -/
theorem exists_last_of_mem
    {α : Type}
    {entry : α}
    {entries : List α}
    (inside : entry ∈ entries) :
    ∃ before after, entries = before ++ entry :: after ∧ entry ∉ after := by
  obtain ⟨after, before, shape, absent⟩ :=
    List.eq_append_cons_of_mem (List.mem_reverse.mpr inside)
  refine ⟨before.reverse, after.reverse, ?_, by simpa using absent⟩
  rw [← List.reverse_reverse entries, shape]
  simp

theorem resolves_path_iff
    {acts : List Act}
    (few : (tell acts).tables.strings.length < UInt32.size)
    {path : String} :
    (tell acts).Resolves (.path path) ↔ ∃ flags, .opens (some path) flags ∈ acts := by
  have titled : (titles (tell acts).tables) = acts.filterMap Act.title? := map_title_tell few
  rw [Resolves, ← Option.isSome_map, findContainer?_map_snd fun _ => hasText_name few,
    List.findIdx?_isSome, titled]
  simp only [List.any_eq_true, List.mem_filterMap, beq_iff_eq]
  constructor
  · rintro ⟨_, ⟨act, inside, told⟩, rfl⟩
    cases act with
    | opens name flags =>
        cases told
        exact ⟨flags, inside⟩
    | _ =>
        cases told
  · rintro ⟨flags, inside⟩
    exact ⟨some path, ⟨_, inside, rfl⟩, rfl⟩

theorem Proper.fitsTold
    (proper : Proper orders) :
    StoryFormat.TablesFit (tell (actsOf orders)).tables := by
  rw [actsOf, ← assemble_eq_tell]
  exact proper.fit

theorem Proper.fewTexts
    (proper : Proper orders) :
    (tell (actsOf orders)).tables.strings.length < UInt32.size :=
  proper.fitsTold.strings.1

theorem Proper.blameless_iff
    (proper : Proper orders) :
    (tell (actsOf orders)).faults = [] ↔
      (∀ before after,
        actsOf orders = before ++ .closes :: after → depth before ≠ 0) ∧
      ∀ before act after paths,
        actsOf orders = before ++ act :: after →
        act.paths? = some paths →
        ∀ path ∈ paths, ∃ id, (Definitions.ofLists (listsOf before)).Names path id := by
  simp only [faults_tell_eq_nil_iff, act_faults_eq_nil_iff, Ne, opened_tell_eq_nil_iff]
  constructor
  · intro blameless
    refine ⟨fun before after shape => (blameless before _ after shape).1 rfl, ?_⟩
    intro before act after paths shape told path mentioned
    obtain ⟨id, found⟩ := (blameless before act after shape).2 paths told path mentioned
    exact ⟨id, (resolveFlag?_tell_iff shape proper.fewTexts proper.listsNumbered).mp found⟩
  · rintro ⟨ends, flags⟩ before act after shape
    refine ⟨fun own => ends before after (own ▸ shape), fun paths told path mentioned => ?_⟩
    obtain ⟨id, names⟩ := flags before act after paths shape told path mentioned
    exact ⟨id, (resolveFlag?_tell_iff shape proper.fewTexts proper.listsNumbered).mpr names⟩

/-- Building succeeds exactly when there is no fault. -/
theorem Proper.finishes_iff
    (proper : Proper orders) :
    ((tell (actsOf orders)).faults = [] ∧ (tell (actsOf orders)).opened = [] ∧
        ∀ entry ∈ (tell (actsOf orders)).fixups, (tell (actsOf orders)).Resolves entry.2) ↔
      ¬Faulty (actsOf orders) := by
  have few := proper.fewTexts
  rw [proper.blameless_iff, opened_tell_eq_nil_iff, forall_fixups_iff]
  constructor
  · rintro ⟨⟨ends, flags⟩, closed, resolves⟩ faulty
    cases faulty with
    | strayEnd shape level => exact ends _ _ shape level
    | unclosed level => exact level closed
    | unknownFlag shape told mentioned unknown =>
        obtain ⟨id, names⟩ := flags _ _ _ _ shape told _ mentioned
        exact unknown id names
    | unplacedLabel inside used never =>
        obtain ⟨address, placed⟩ := resolves _ inside _ used
        exact labels_tell_unplaced never address placed
    | unknownPath inside used never =>
        obtain ⟨flags, opened⟩ := (resolves_path_iff few).mp (resolves _ inside _ used)
        exact never flags opened
  · intro faultless
    refine ⟨⟨?_, ?_⟩, ?_, ?_⟩
    · exact fun before after shape level => faultless (.strayEnd shape level)
    · intro before act after paths shape told path mentioned
      by_contra unknown
      exact faultless (.unknownFlag shape told mentioned (not_exists.mp unknown))
    · by_contra level
      exact faultless (.unclosed level)
    · intro act inside target used
      cases target with
      | label label =>
          by_cases placed : .place label ∈ actsOf orders
          · obtain ⟨before, after, shape, last⟩ := exists_last_of_mem placed
            have own := proper.ownLabels shape rfl
            rw [shape]
            exact ⟨_, labels_tell_placed own last⟩
          · exact absurd (.unplacedLabel inside used placed) faultless
      | path path =>
          rw [resolves_path_iff few]
          by_contra never
          exact faultless (.unknownPath inside used (not_exists.mp never))

end Orders

end Assembler

end Fabula
