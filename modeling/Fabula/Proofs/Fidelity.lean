import Fabula.Proofs.Acceptance
import Fabula.Proofs.Canonical
import Mathlib.Data.List.Permutation

namespace Fabula

/-!
# Stories say what was told

The story that is loaded after proper orders were built refers to what the orders named:
labels, containers, texts and flags.  Building fails for the five faults alone, so these
statements are about every other row of orders.
-/

/-- A set of flags holds the flags that paths name in a story, and no others. -/
structure Story.Denotes (story : Story) (set : FlagSet) (paths : List String) : Prop where
  named : ∀ path ∈ paths, ∃ id, story.declarations.lists.Names path id
  items : ∀ id, id ∈ set.items ↔ ∃ path ∈ paths, story.declarations.lists.Names path id

namespace Assembler

/-- The address of the next instruction after acts. -/
def addressAfter (acts : List Act) : Nat :=
  (tell acts).tables.instructions.length

/-- What acts named is what a story refers to. -/
structure Faithful (acts : List Act) (story : Story) : Prop where
  /-- A jump to a label leads to where the label was placed last. -/
  labels :
    ∀ {before after : List Act} {kind : Jump} {label : Nat},
      acts = before ++ .jump kind (.label label) :: after →
      ∃ earlier later,
        acts = earlier ++ .place label :: later ∧ .place label ∉ later ∧
          story.instruction? (addressAfter before) =
            some ⟨kind.command, kind.flag, UInt32.ofNat (addressAfter earlier)⟩
  /-- A jump to a path leads to the start of the first container of that name. -/
  paths :
    ∀ {before after : List Act} {kind : Jump} {path : String},
      acts = before ++ .jump kind (.path path) :: after →
      ∃ id container,
        story.firstNamed? path = some id ∧ story.containers[id]? = some container ∧
          story.instruction? (addressAfter before) =
            some ⟨kind.command, kind.flag, UInt32.ofNat container.start⟩
  counts :
    ∀ {before after : List Act} {path : String},
      acts = before ++ .readCount path :: after →
      ∃ id,
        story.firstNamed? path = some id ∧
          story.instruction? (addressAfter before) = some ⟨.readCount, 0, UInt32.ofNat id⟩
  texts :
    ∀ {before after : List Act} {command : Command} {flag : UInt8} {text : String},
      acts = before ++ .named command flag text :: after →
      ∃ payload,
        story.instruction? (addressAfter before) = some ⟨command, flag, payload⟩ ∧
          story.string payload = text
  flags :
    ∀ {before after : List Act} {paths : List String},
      acts = before ++ .flags paths :: after →
      ∃ payload set,
        story.instruction? (addressAfter before) = some ⟨.list, 0, payload⟩ ∧
          story.literal payload = .list set ∧ story.Denotes set paths
  globals :
    ∀ {before after : List Act} {name : String} {paths : List String},
      acts = before ++ .globalList name paths :: after →
      ∃ set, ⟨name, .list set⟩ ∈ story.declarations.globals ∧ story.Denotes set paths

section Telling

variable {acts before after : List Act}

/-- Flags that were known when they were mentioned are those of the finished story. -/
theorem denotes_setOf
    (shape : acts = before ++ after)
    (few : (tell acts).tables.strings.length < UInt32.size)
    (fewLists : (listsOf acts).length ≤ 65536)
    {paths : List String}
    (known :
      ∀ path ∈ paths, ∃ id, (Definitions.ofLists (listsOf before)).Names path id) :
    (tell acts).finished.story.Denotes
      ((tell acts).finished.flagSet ((tell before).setOf paths)) paths := by
  have definitions :
      (tell acts).finished.story.declarations.lists = .ofLists (listsOf acts) :=
    definitions_tell few
  have longer : listsOf before <+: listsOf acts := by
    rw [shape]
    exact (List.prefix_append before after).filterMap Act.declared?
  have later {path : String} {id : FlagId}
      (names : (Definitions.ofLists (listsOf before)).Names path id) :
      (Definitions.ofLists (listsOf acts)).Names path id :=
    Definitions.names_of_prefix longer fewLists names
  have same {path : String} (mentioned : path ∈ paths) {id : FlagId} :
      (Definitions.ofLists (listsOf acts)).Names path id ↔
        (tell before).resolveFlag? path = some id := by
    rw [resolveFlag?_tell_iff shape few fewLists]
    refine ⟨fun names => ?_, later⟩
    obtain ⟨other, namesBefore⟩ := known path mentioned
    have equal := names.found .empty
    rw [(later namesBefore).found .empty] at equal
    cases equal
    exact namesBefore
  constructor
  · intro path mentioned
    obtain ⟨id, names⟩ := known path mentioned
    rw [definitions]
    exact ⟨id, later names⟩
  · intro id
    have held :
        id ∈ ((tell acts).finished.flagSet ((tell before).setOf paths)).items ↔
          id ∈ (tell before).gathered paths := by
      rw [Tables.flagSet, FlagSet.ofParts, SortedSet.mem_ofList, setOf_items]
    rw [held, gathered, List.mem_filterMap, definitions]
    exact exists_congr fun path => and_congr_right fun mentioned => (same mentioned).symm

theorem instruction?_finished
    {act : Act}
    (shape : acts = before ++ act :: after)
    {instruction : Instruction}
    (made : act.final? (tell acts) (tell before) = some instruction) :
    (tell acts).finished.story.instruction? (addressAfter before) = some instruction := by
  rw [Story.instruction?, Tables.story, List.getElem?_toArray]
  exact getElem?_finished shape made

/-- A literal is the set that was put together for its paths. -/
theorem literals_finished
    {act : Act}
    {paths : List String}
    (shape : acts = before ++ act :: after)
    (few : (tell acts).tables.literals.length < UInt32.size)
    (told : act.paths? = some paths) :
    (tell acts).finished.literals[
        (UInt32.ofNat (tell before).tables.literals.length).toNat]? =
      some ((tell before).setOf paths) := by
  rw [UInt32.toNat_ofNat_of_lt' (Nat.lt_trans (literals_lt_tell shape told) few)]
  exact getElem?_literals_tell shape told

end Telling

section Orders

variable {orders : List Order}

section Sentences

variable {before after : List Act} {act : Act} {paths : List String} {path text : String}

theorem exists_names_of_faultless
    (faultless : ¬Faulty (actsOf orders))
    (shape : actsOf orders = before ++ act :: after)
    (told : act.paths? = some paths) :
    ∀ path ∈ paths, ∃ id, (Definitions.ofLists (listsOf before)).Names path id := by
  intro path mentioned
  by_contra unknown
  exact faultless (.unknownFlag shape told mentioned (not_exists.mp unknown))

theorem Proper.denotes
    (proper : Proper orders)
    (faultless : ¬Faulty (actsOf orders))
    (shape : actsOf orders = before ++ act :: after)
    (told : act.paths? = some paths) :
    (tell (actsOf orders)).finished.story.Denotes
      ((tell (actsOf orders)).finished.flagSet ((tell before).setOf paths)) paths :=
  denotes_setOf shape proper.fewTexts proper.listsNumbered
    (exists_names_of_faultless faultless shape told)

theorem Proper.label_leads
    (proper : Proper orders)
    (faultless : ¬Faulty (actsOf orders))
    {kind : Jump}
    {label : Nat}
    (shape : actsOf orders = before ++ .jump kind (.label label) :: after) :
    ∃ earlier later,
      actsOf orders = earlier ++ .place label :: later ∧ .place label ∉ later ∧
        (tell (actsOf orders)).finished.story.instruction? (addressAfter before) =
          some ⟨kind.command, kind.flag, UInt32.ofNat (addressAfter earlier)⟩ := by
  have inside : .jump kind (.label label) ∈ actsOf orders := by simp [shape]
  by_cases placed : .place label ∈ actsOf orders
  · obtain ⟨earlier, later, split, last⟩ := exists_last_of_mem placed
    have address := labels_tell_placed (proper.ownLabels split rfl) last
    rw [← split] at address
    refine ⟨earlier, later, split, last, instruction?_finished shape ?_⟩
    rw [Act.final?, Act.instruction?, Option.map_some]
    simp only [Act.target?, payload, address]
    rfl
  · exact absurd (.unplacedLabel inside rfl placed) faultless

/-- Whatever names a path gets a payload of the first container of that name. -/
theorem Proper.path_leads
    (proper : Proper orders)
    (faultless : ¬Faulty (actsOf orders))
    (shape : actsOf orders = before ++ act :: after)
    (told : act.target? = some (.path path)) :
    ∃ id container,
      (tell (actsOf orders)).finished.story.firstNamed? path = some id ∧
        (tell (actsOf orders)).finished.story.containers[id]? = some container ∧
        ∀ command,
          (tell (actsOf orders)).payload command (.path path) =
            if command = .readCount then UInt32.ofNat id else UInt32.ofNat container.start := by
  obtain ⟨_, _, resolves⟩ := proper.finishes_iff.mpr faultless
  have resolved := forall_fixups_iff.mp resolves act (by simp [shape]) _ told
  obtain ⟨id, stored, first, _, held, leads⟩ :=
    payload_path (fun _ => hasText_name proper.fewTexts) resolved
  refine ⟨id, _, first, held, fun command => ?_⟩
  rw [leads, Tables.container, UInt32.ofNat_toNat]

theorem Proper.jump_leads
    (proper : Proper orders)
    (faultless : ¬Faulty (actsOf orders))
    {kind : Jump}
    (shape : actsOf orders = before ++ .jump kind (.path path) :: after) :
    ∃ id container,
      (tell (actsOf orders)).finished.story.firstNamed? path = some id ∧
        (tell (actsOf orders)).finished.story.containers[id]? = some container ∧
        (tell (actsOf orders)).finished.story.instruction? (addressAfter before) =
          some ⟨kind.command, kind.flag, UInt32.ofNat container.start⟩ := by
  obtain ⟨id, container, first, held, leads⟩ := proper.path_leads faultless shape rfl
  refine ⟨id, container, first, held, instruction?_finished shape ?_⟩
  rw [Act.final?, Act.instruction?, Option.map_some]
  simp only [Act.target?, leads, if_neg kind.command_ne_readCount]

theorem Proper.count_leads
    (proper : Proper orders)
    (faultless : ¬Faulty (actsOf orders))
    (shape : actsOf orders = before ++ .readCount path :: after) :
    ∃ id,
      (tell (actsOf orders)).finished.story.firstNamed? path = some id ∧
        (tell (actsOf orders)).finished.story.instruction? (addressAfter before) =
          some ⟨.readCount, 0, UInt32.ofNat id⟩ := by
  obtain ⟨id, _, first, _, leads⟩ := proper.path_leads faultless shape rfl
  refine ⟨id, first, instruction?_finished shape ?_⟩
  rw [Act.final?, Act.instruction?, Option.map_some]
  simp only [Act.target?, leads, if_pos]

theorem Proper.text_said
    (proper : Proper orders)
    {command : Command}
    {flag : UInt8}
    (shape : actsOf orders = before ++ .named command flag text :: after) :
    ∃ payload,
      (tell (actsOf orders)).finished.story.instruction? (addressAfter before) =
          some ⟨command, flag, payload⟩ ∧
        (tell (actsOf orders)).finished.story.string payload = text := by
  refine ⟨_, instruction?_finished shape rfl, ?_⟩
  rw [Tables.string_story]
  exact Tables.text_of_getElem? (getElem?_tell_intern shape proper.fewTexts rfl)

theorem Proper.flags_said
    (proper : Proper orders)
    (faultless : ¬Faulty (actsOf orders))
    (shape : actsOf orders = before ++ .flags paths :: after) :
    ∃ payload set,
      (tell (actsOf orders)).finished.story.instruction? (addressAfter before) =
          some ⟨.list, 0, payload⟩ ∧
        (tell (actsOf orders)).finished.story.literal payload = .list set ∧
        (tell (actsOf orders)).finished.story.Denotes set paths :=
  ⟨_, _, instruction?_finished shape rfl,
    Tables.literal_story (literals_finished shape proper.fitsTold.literals.1 rfl),
    proper.denotes faultless shape rfl⟩

theorem Proper.global_said
    (proper : Proper orders)
    (faultless : ¬Faulty (actsOf orders))
    {name : String}
    (shape : actsOf orders = before ++ .globalList name paths :: after) :
    ∃ set,
      ⟨name, .list set⟩ ∈ (tell (actsOf orders)).finished.story.declarations.globals ∧
        (tell (actsOf orders)).finished.story.Denotes set paths := by
  refine ⟨_, ?_, proper.denotes faultless shape rfl⟩
  have named : (tell (actsOf orders)).finished.text ((tell before).intern name).1 = name :=
    Tables.text_of_getElem? (getElem?_tell_intern shape proper.fewTexts rfl)
  have added :
      (((tell before).intern name).1,
          StoredValue.list (UInt32.ofNat (tell before).tables.literals.length)) ∈
        (tell (actsOf orders)).tables.globals := by
    rw [shape]
    exact List.mem_of_getElem? (Column.globals.getElem?_tell rfl after)
  have declared := List.mem_map_of_mem (f := (tell (actsOf orders)).finished.declaration) added
  have value := Tables.value_list (literals_finished shape proper.fitsTold.literals.1 rfl)
  simp only [Tables.declaration, named, value] at declared
  exact declared

end Sentences

theorem Proper.faithful
    (proper : Proper orders)
    (faultless : ¬Faulty (actsOf orders)) :
    Faithful (actsOf orders) (assemble orders).finished.story := by
  rw [show assemble orders = tell (actsOf orders) from assemble_eq_tell orders]
  exact
    { labels := proper.label_leads faultless
      paths := proper.jump_leads faultless
      counts := proper.count_leads faultless
      texts := proper.text_said
      flags := proper.flags_said faultless
      globals := proper.global_said faultless }

/-- Jumps that get their targets take no more room. -/
theorem finished_fits
    {a : Assembler}
    (fit : StoryFormat.TablesFit a.tables) :
    StoryFormat.TablesFit a.finished :=
  { fit with
    instructions := by
      rw [finished, length_foldl_patch]
      exact fit.instructions }

/-- What is built from an assembler that fits is read back, and loaded if it is acceptable. -/
theorem ofOctets_gives
    {a : Assembler}
    (fit : StoryFormat.TablesFit a.tables) :
    Gives a.finished.Acceptable a.finished.story
      (Story.ofOctets (StoryFormat.encode a.finished)) := by
  rw [StoryFormat.ofOctets_encode (finished_fits fit)]
  exact Story.ofTables_gives a.finished

theorem build_gives
    {a : Assembler}
    (spread : a.Spread) :
    Gives (a.faults = [] ∧ a.opened = [] ∧ ∀ entry ∈ a.fixups, a.Resolves entry.2)
      (StoryFormat.encode a.finished) a.build :=
  (finish_gives spread).bind_pure StoryFormat.encode

/--
Building fails for five faults alone.  What is built otherwise is loaded, and the story says
what was told.
-/
theorem build_accepted
    (proper : Proper orders) :
    ((∃ error, (assemble orders).build = .error error) ↔ Faulty (actsOf orders)) ∧
      (¬Faulty (actsOf orders) →
        ∃ octets story,
          (assemble orders).build = .ok octets ∧ Story.ofOctets octets = .ok story ∧
            Faithful (actsOf orders) story) := by
  have told : assemble orders = tell (actsOf orders) := assemble_eq_tell orders
  have spread : (assemble orders).Spread := told ▸ spread_tell (actsOf orders)
  have finishes := proper.finishes_iff
  rw [← told] at finishes
  have builds :
      (assemble orders).build = .ok (StoryFormat.encode (assemble orders).finished) ↔
        ¬Faulty (actsOf orders) := by
    rw [build_gives spread, finishes, and_iff_left rfl]
  refine ⟨⟨?_, ?_⟩, ?_⟩
  · rintro ⟨error, fails⟩
    by_contra faultless
    rw [builds.mpr faultless] at fails
    cases fails
  · intro faulty
    cases built : (assemble orders).build with
    | error error =>
        exact ⟨error, rfl⟩
    | ok octets =>
        obtain ⟨ready, _⟩ := (build_gives spread octets).mp built
        exact absurd faulty (finishes.mp ready)
  · intro faultless
    obtain ⟨_, closed, resolves⟩ := finishes.mpr faultless
    have loads := (ofOctets_gives proper.fit _).mpr ⟨proper.acceptable closed resolves, rfl⟩
    exact ⟨_, _, builds.mpr faultless, loads, proper.faithful faultless⟩

end Orders

/-! ## A market -/

/--
A story that leads past its first line to a label that is placed twice, and that has two
lists of one name.
-/
def marketOrders : List Order :=
  [.newLabel, .jump .divert (.label 0), .place 0, .line "Closed.",
    .list "fruit" [("pear", 2), ("apple", 1)], .list "fruit" [("plum", 1)],
    .globalList "basket" ["fruit.pear", "fruit.apple"], .globalString "greeting" "Good day.",
    .beginKnot "market", .place 0, .outputVariable "greeting", .listValue ["fruit.apple"],
    .choiceText "Leave" ["quiet"] (.path "market"), .endContainer, .readCount "market"]

def marketTables : Tables where
  strings :=
    ["Closed.", "fruit", "pear", "apple", "plum", "basket", "Good day.", "greeting", "market",
      "Leave", "quiet"]
  lists := [⟨1, [(2, 2), (3, 1)]⟩, ⟨1, [(4, 1)]⟩]
  literals := [⟨[0], [⟨0, 1⟩, ⟨0, 0⟩]⟩, ⟨[0], [⟨0, 0⟩]⟩]
  globals := [(5, .list 0), (7, .str 6)]
  containers := [⟨8, 3, 16, 7⟩]
  instructions :=
    [⟨.divert, 0, 4⟩, ⟨.str, 0, 0⟩, ⟨.newline, 0, 0⟩, ⟨.startContainer, 0, 0⟩,
      ⟨.startEval, 0, 0⟩, ⟨.pushVariable, 0, 7⟩, ⟨.output, 0, 0⟩, ⟨.endEval, 0, 0⟩,
      ⟨.list, 0, 1⟩, ⟨.startEval, 0, 0⟩, ⟨.startStr, 0, 0⟩, ⟨.str, 0, 9⟩, ⟨.tag, 0, 10⟩,
      ⟨.endStr, 0, 0⟩, ⟨.endEval, 0, 0⟩, ⟨.choice, 4, 3⟩, ⟨.endContainer, 0, 0⟩,
      ⟨.readCount, 0, 0⟩]

/-- The market before its jumps get their targets. -/
def market : Assembler where
  tables :=
    { marketTables with
      instructions :=
        (marketTables.instructions.set 0 ⟨.divert, 0, 0⟩).set 15 ⟨.choice, 4, 0⟩ }
  opened := []
  labels := [some 4]
  fixups := [(0, .label 0), (15, .path "market"), (17, .path "market")]
  faults := []

theorem build_accepted_market :
    Proper marketOrders ∧ ¬Faulty (actsOf marketOrders) ∧
      ∃ octets story,
        (assemble marketOrders).build = .ok octets ∧ Story.ofOctets octets = .ok story ∧
          Faithful (actsOf marketOrders) story ∧
          story.instruction? 0 = some ⟨.divert, 0, 4⟩ := by
  have assembled : assemble marketOrders = market := by cbv
  have finished : market.finish = .ok marketTables := by rfl
  have fit : StoryFormat.TablesFit marketTables := by decide +kernel
  have labelled :
      ∀ place < (actsOf marketOrders).length,
        ∀ label ∈ (actsOf marketOrders)[place]?.bind Act.label?,
          label < ((actsOf marketOrders).take place).count .newLabel := by
    decide
  have proper : Proper marketOrders :=
    { each := by decide
      ownLabels := by
        intro before after act label shape told
        have inside : before.length < (actsOf marketOrders).length := by simp [shape]
        have own := labelled before.length inside label (by simp [shape, told])
        simpa [shape] using own
      distinct := by decide
      fewLists := by decide
      fit := by
        rw [assembled]
        exact { fit with instructions := by decide } }
  have built : (assemble marketOrders).build = .ok (StoryFormat.encode marketTables) := by
    simp only [build, assembled, finished]
    rfl
  have faultless : ¬Faulty (actsOf marketOrders) := by
    rw [← (build_accepted proper).1, built]
    simp
  obtain ⟨octets, story, again, loaded, faithful⟩ := (build_accepted proper).2 faultless
  refine ⟨proper, faultless, octets, story, again, loaded, faithful, ?_⟩
  rw [built] at again
  cases again
  rw [StoryFormat.ofOctets_encode fit] at loaded
  obtain ⟨_, rfl⟩ := (Story.ofTables_gives marketTables story).mp loaded
  rfl

end Assembler

end Fabula
