import Fabula.Proofs.Dictation
import Mathlib.Data.List.Basic
import Mathlib.Data.List.Find

namespace Fabula

/-!
# Where jumps lead

Jumps get their payloads when everything was said.  One that names a label gets the
address where the label was placed last, and one that names a container gets the first
container of that name.  A story is finished exactly when nothing was blamed, nothing is
open and every target is there.
-/

namespace Assembler

variable {a : Assembler} {acts before after : List Act} {act : Act}

/-! ## Labels -/

theorem labels_enact_length
    (a : Assembler)
    (act : Act) :
    (a.enact act).labels.length =
      a.labels.length + if act = .newLabel then 1 else 0 := by
  rw [enact_eq]
  cases act <;> simp

theorem labels_length_tell
    (acts : List Act) :
    (tell acts).labels.length = acts.count .newLabel := by
  induction acts using List.reverseRecOn with
  | nil =>
      rfl
  | append_singleton acts act inductionHypothesis =>
      rw [tell_snoc, labels_enact_length, inductionHypothesis, List.count_append,
        List.count_singleton]
      simp [beq_iff_eq]

/-- Only placing a label moves it. -/
theorem labels_enact_of_ne
    {label : Nat}
    (other : act ≠ .place label)
    {address : UInt32} :
    (a.enact act).labels[label]? = some (some address) ↔
      a.labels[label]? = some (some address) := by
  rw [enact_eq]
  cases act with
  | newLabel =>
      simp only [Act.labels, getElem?_snoc_iff]
      simp
  | place moved =>
      have different : moved ≠ label := fun same => other (same ▸ rfl)
      simp [different]
  | _ =>
      rfl

/-- A label is where it was placed last. -/
theorem labels_tell_placed
    {label : Nat}
    (own : label < before.count .newLabel)
    (last : .place label ∉ after) :
    (tell (before ++ .place label :: after)).labels[label]? =
      some (some (tell before).address) := by
  induction after using List.reverseRecOn with
  | nil =>
      rw [tell_snoc, enact_eq]
      simp [labels_length_tell, own]
  | append_singleton after act inductionHypothesis =>
      simp only [List.mem_append, List.mem_singleton, not_or] at last
      rw [← List.cons_append, ← List.append_assoc, tell_snoc,
        labels_enact_of_ne (Ne.symm last.2)]
      exact inductionHypothesis last.1

theorem labels_tell_unplaced
    {label : Nat}
    (never : .place label ∉ acts)
    (address : UInt32) :
    (tell acts).labels[label]? ≠ some (some address) := by
  induction acts using List.reverseRecOn with
  | nil =>
      simp [Assembler.start]
  | append_singleton acts act inductionHypothesis =>
      simp only [List.mem_append, List.mem_singleton, not_or] at never
      rw [tell_snoc, Ne, labels_enact_of_ne (Ne.symm never.2)]
      exact inductionHypothesis never.1

/-! ## Containers -/

/-- The names of containers, as a loader reads them. -/
def titles (tables : Tables) : List (Option String) :=
  tables.containers.map fun c => tables.title c.name

/-- A path names the first container of that name. -/
theorem findContainer?_map_snd
    {tables : Tables}
    (named : ∀ c ∈ tables.containers, c.name ≠ noName → tables.HasText c.name)
    (path : String) :
    (findContainer? tables path).map Prod.snd =
      (titles tables).findIdx? (· == some path) := by
  have read (entry : StoredContainer × Nat) (inside : entry ∈ tables.containers.zipIdx) :
      (entry.1.name != noName && tables.strings[entry.1.name.toNat]? == some path) =
        (tables.title entry.1.name == some path) := by
    by_cases none : entry.1.name = noName
    · simp [none, Tables.title]
    · have here := List.mem_of_getElem? (List.mem_zipIdx_iff_getElem?.mp inside)
      rw [Tables.getElem?_of_hasText (named entry.1 here none), Tables.title, if_neg none]
      simp [none]
  rw [titles, List.findIdx?_map, List.findIdx?_eq_fst_find?_zipIdx, findContainer?,
    List.find?_congr read]
  rfl

theorem getElem?_of_findContainer?
    {tables : Tables}
    {path : String}
    {container : StoredContainer}
    {id : Nat}
    (found : findContainer? tables path = some (container, id)) :
    tables.containers[id]? = some container :=
  List.mem_zipIdx_iff_getElem?.mp (List.mem_of_find?_eq_some found)

/-! ## Payloads -/

/-- Whether a target is there. -/
def Resolves (a : Assembler) : Target → Prop
  | .label number => ∃ address, a.labels[number]? = some (some address)
  | .path path => (findContainer? a.tables path).isSome = true

/-- The payload that a target stands for. -/
def payload (a : Assembler) (command : Command) : Target → UInt32
  | .label number => (a.labels[number]?.join).getD 0
  | .path path =>
      match findContainer? a.tables path with
      | some (container, id) =>
          if command = .readCount then UInt32.ofNat id else container.start
      | none => 0

theorem payloadOf_gives
    (a : Assembler)
    (command : Command)
    (target : Target) :
    Gives (a.Resolves target) (a.payload command target) (a.payloadOf command target) := by
  intro value
  cases target with
  | label number =>
      simp only [payloadOf, Resolves, payload]
      cases a.labels[number]? with
      | none =>
          simp
      | some placed =>
          cases placed <;> simp [eq_comm]
  | path path =>
      simp only [payloadOf, Resolves, payload]
      cases findContainer? a.tables path <;> simp [eq_comm]

theorem Jump.command_ne_readCount
    (jump : Jump) :
    jump.command ≠ .readCount := by
  cases jump <;> nofun

/-- The instructions with one that got its payload. -/
def patch (a : Assembler) (instructions : List Instruction) (entry : Nat × Target) :
    List Instruction :=
  instructions.modify entry.1 fun instruction =>
    { instruction with payload := a.payload instruction.command entry.2 }

theorem fixup_gives
    {instructions : List Instruction}
    {entry : Nat × Target}
    (inside : entry.1 < instructions.length) :
    Gives (a.Resolves entry.2) (a.patch instructions entry) (a.fixup instructions entry) := by
  have here := List.getElem?_eq_getElem inside
  simp only [fixup, here, patch, List.modify_eq_set_get _ inside]
  exact (payloadOf_gives a instructions[entry.1].command entry.2).bind_pure fun value =>
    instructions.set entry.1 { instructions[entry.1] with payload := value }

theorem foldlM_fixup_gives
    {fixups : List (Nat × Target)}
    {instructions : List Instruction}
    (inside : ∀ entry ∈ fixups, entry.1 < instructions.length) :
    Gives (∀ entry ∈ fixups, a.Resolves entry.2) (fixups.foldl a.patch instructions)
      (fixups.foldlM a.fixup instructions) := by
  induction fixups generalizing instructions with
  | nil =>
      exact (Gives.ok _).congr (by simp)
  | cons entry rest inductionHypothesis =>
      rw [List.foldlM_cons, List.foldl_cons]
      refine ((fixup_gives (inside entry List.mem_cons_self)).bind fun _ =>
        inductionHypothesis fun other later => ?_).congr (by rw [List.forall_mem_cons])
      simpa [patch] using inside other (List.mem_cons_of_mem entry later)

/-- The tables of a story whose jumps got their payloads. -/
def finished (a : Assembler) : Tables :=
  { a.tables with instructions := a.fixups.foldl a.patch a.tables.instructions }

/-- Jumps wait at different addresses, in ascending order. -/
structure Spread (a : Assembler) : Prop where
  ascending : a.fixups.Pairwise fun earlier later => earlier.1 < later.1
  inside : ∀ entry ∈ a.fixups, entry.1 < a.tables.instructions.length

theorem finish_gives
    (spread : a.Spread) :
    Gives (a.faults = [] ∧ a.opened = [] ∧ ∀ entry ∈ a.fixups, a.Resolves entry.2) a.finished
      a.finish := by
  intro tables
  simp only [finish]
  split
  · next blamed =>
      simp [blamed]
  · next isOpen =>
      simp [isOpen]
  · next blameless closed =>
      rw [blameless, closed]
      simpa [finished] using ((foldlM_fixup_gives spread.inside).bind_pure fun instructions =>
        { a.tables with instructions := instructions }) tables

theorem spread_tell
    (acts : List Act) :
    (tell acts).Spread := by
  induction acts using List.reverseRecOn with
  | nil =>
      exact ⟨.nil, nofun⟩
  | append_singleton acts act inductionHypothesis =>
      obtain ⟨ascending, inside⟩ := inductionHypothesis
      rw [tell_snoc, enact_eq]
      have older (entry : Nat × Target) (waits : entry ∈ (tell acts).fixups) (more : Nat) :
          entry.1 < (tell acts).tables.instructions.length + more :=
        Nat.lt_add_right more (inside entry waits)
      cases act with
      | jump kind target | readCount path =>
          refine ⟨List.pairwise_append.mpr ⟨ascending, List.pairwise_singleton _ _, ?_⟩, ?_⟩
          · intro earlier waits later last
            cases List.mem_singleton.mp last
            exact inside earlier waits
          · intro entry waits
            rcases List.mem_append.mp waits with old | last
            · simpa using older entry old 1
            · cases List.mem_singleton.mp last
              simp
      | _ =>
          refine ⟨by simpa using ascending, fun entry waits => ?_⟩
          rw [List.length_append]
          exact older entry (by simpa using waits) _

/-- Targets wait in the order of their acts. -/
theorem map_fixups_tell
    (acts : List Act) :
    (tell acts).fixups.map Prod.snd = acts.filterMap Act.target? :=
  Column.fixups.map_tell fun before act after _ => by
    rw [Act.fixup?, Option.map_map]
    exact congrFun Option.map_id act.target?

theorem forall_fixups_iff
    {Property : Target → Prop} :
    (∀ entry ∈ (tell acts).fixups, Property entry.2) ↔
      ∀ act ∈ acts, ∀ target, act.target? = some target → Property target := by
  have targets (target : Target) :
      (∃ entry ∈ (tell acts).fixups, entry.2 = target) ↔
        ∃ act ∈ acts, act.target? = some target := by
    rw [← List.mem_map, map_fixups_tell, List.mem_filterMap]
  constructor
  · intro all act inside target told
    obtain ⟨entry, waits, rfl⟩ := (targets target).mpr ⟨act, inside, told⟩
    exact all entry waits
  · intro all entry waits
    obtain ⟨act, inside, told⟩ := (targets entry.2).mp ⟨entry, waits, rfl⟩
    exact all act inside entry.2 told

/-! ## Payloads of a finished story -/

theorem length_foldl_patch
    (fixups : List (Nat × Target))
    {instructions : List Instruction} :
    (fixups.foldl a.patch instructions).length = instructions.length := by
  induction fixups generalizing instructions with
  | nil =>
      rfl
  | cons entry rest inductionHypothesis =>
      rw [List.foldl_cons, inductionHypothesis, patch, List.length_modify]

theorem foldl_patch_of_ne
    {fixups : List (Nat × Target)}
    {instructions : List Instruction}
    {address : Nat}
    (other : ∀ entry ∈ fixups, entry.1 ≠ address) :
    (fixups.foldl a.patch instructions)[address]? = instructions[address]? := by
  induction fixups generalizing instructions with
  | nil =>
      rfl
  | cons entry rest inductionHypothesis =>
      rw [List.foldl_cons, inductionHypothesis fun later inside =>
        other later (List.mem_cons_of_mem entry inside)]
      exact List.getElem?_modify_ne _ _ (other entry List.mem_cons_self)

theorem foldl_patch_of_mem
    {fixups : List (Nat × Target)}
    (ascending : fixups.Pairwise fun earlier later => earlier.1 < later.1)
    {instructions : List Instruction}
    {entry : Nat × Target}
    (waits : entry ∈ fixups)
    {instruction : Instruction}
    (here : instructions[entry.1]? = some instruction) :
    (fixups.foldl a.patch instructions)[entry.1]? =
      some { instruction with payload := a.payload instruction.command entry.2 } := by
  induction fixups generalizing instructions with
  | nil =>
      cases waits
  | cons first rest inductionHypothesis =>
      obtain ⟨before, ascending⟩ := List.pairwise_cons.mp ascending
      rw [List.foldl_cons]
      rcases List.mem_cons.mp waits with rfl | later
      · rw [foldl_patch_of_ne fun later inside => Nat.ne_of_gt (before later inside)]
        simp [patch, here]
      · refine inductionHypothesis ascending later ?_
        rw [patch, List.getElem?_modify_ne _ _ (Nat.ne_of_lt (before entry later)), here]

/-- Acts that come later wait at later addresses. -/
theorem fixups_tell_cases
    (early late : List Act)
    {entry : Nat × Target}
    (waits : entry ∈ (tell (early ++ late)).fixups) :
    entry ∈ (tell early).fixups ∨ (tell early).tables.instructions.length ≤ entry.1 := by
  induction late using List.reverseRecOn with
  | nil =>
      rw [List.append_nil] at waits
      exact .inl waits
  | append_singleton late act inductionHypothesis =>
      rw [← List.append_assoc, Column.fixups.tell_snoc] at waits
      rcases List.mem_append.mp waits with old | new
      · exact inductionHypothesis old
      · obtain ⟨target, _, same⟩ := Option.map_eq_some_iff.mp (Option.mem_toList.mp new)
        have longer := (Column.instructions.prefix_tell early late).length_le
        rw [← same]
        exact .inr longer

/-- The instruction of an act in a finished story. -/
def Act.final? (last a : Assembler) (act : Act) : Option Instruction :=
  (act.instruction? a).map fun instruction =>
    match act.target? with
    | some target =>
        { instruction with payload := last.payload instruction.command target }
    | none => instruction

theorem getElem?_finished
    (shape : acts = before ++ act :: after)
    {instruction : Instruction}
    (made : act.final? (tell acts) (tell before) = some instruction) :
    (tell acts).finished.instructions[(tell before).tables.instructions.length]? =
      some instruction := by
  obtain ⟨original, adds, same⟩ := Option.map_eq_some_iff.mp made
  have here :
      (tell acts).tables.instructions[(tell before).tables.instructions.length]? =
        some original := by
    rw [shape]
    exact Column.instructions.getElem?_tell adds after
  cases told : act.target? with
  | some target =>
      have waits :
          ((tell before).tables.instructions.length, target) ∈ (tell acts).fixups := by
        rw [shape]
        refine List.mem_of_getElem? (Column.fixups.getElem?_tell ?_ after)
        rw [Act.fixup?, told, Option.map_some]
      rw [told] at same
      rw [finished, foldl_patch_of_mem (spread_tell acts).ascending waits here, ← same]
  | none =>
      rw [told] at same
      rw [finished, foldl_patch_of_ne, here, ← same]
      intro entry waits
      rw [shape, List.append_cons] at waits
      rcases fixups_tell_cases (before ++ [act]) after waits with old | later
      · rw [Column.fixups.tell_snoc, Act.fixup?, told, Option.map_none, Option.toList_none,
          List.append_nil] at old
        exact Nat.ne_of_lt ((spread_tell before).inside entry old)
      · rw [Column.instructions.tell_snoc, adds, List.length_append] at later
        exact Nat.ne_of_gt later

/-- Every instruction of a finished story is that of an act. -/
theorem exists_act_finished
    {address : Nat}
    {instruction : Instruction}
    (here : (tell acts).finished.instructions[address]? = some instruction) :
    ∃ before act after,
      acts = before ++ act :: after ∧ (tell before).tables.instructions.length = address ∧
        act.final? (tell acts) (tell before) = some instruction := by
  have inside : address < (tell acts).tables.instructions.length := by
    rw [← length_foldl_patch (tell acts).fixups]
    exact (List.getElem?_eq_some_iff.mp here).1
  obtain ⟨before, act, after, shape, number, adds⟩ :=
    Column.instructions.exists_act (List.getElem?_eq_getElem inside)
  obtain ⟨final, made⟩ : ∃ final, act.final? (tell acts) (tell before) = some final :=
    ⟨_, Option.map_eq_some_iff.mpr ⟨_, adds, rfl⟩⟩
  have there := getElem?_finished shape made
  rw [number, here] at there
  exact ⟨before, act, after, shape, number, made.trans there.symm⟩

end Assembler

/-- The first container with a name. -/
def Story.firstNamed? (story : Story) (path : String) : Option Nat :=
  story.containers.toList.findIdx? fun container => container.name == some path

theorem Tables.firstNamed?_story
    (tables : Tables)
    (path : String) :
    tables.story.firstNamed? path = (Assembler.titles tables).findIdx? (· == some path) := by
  rw [Story.firstNamed?, Assembler.titles, Tables.story, List.findIdx?_map, List.findIdx?_map]
  rfl

/-- The payload of a path belongs to the first container of that name. -/
theorem Assembler.payload_path
    {a : Assembler}
    (named : ∀ c ∈ a.tables.containers, c.name ≠ noName → a.tables.HasText c.name)
    {path : String}
    (resolves : a.Resolves (.path path)) :
    ∃ id stored,
      a.finished.story.firstNamed? path = some id ∧
        a.tables.containers[id]? = some stored ∧
        a.finished.story.containers[id]? = some (a.finished.container stored) ∧
        ∀ command,
          a.payload command (.path path) =
            if command = .readCount then UInt32.ofNat id else stored.start := by
  obtain ⟨⟨stored, id⟩, found⟩ := Option.isSome_iff_exists.mp resolves
  have here := getElem?_of_findContainer? found
  refine ⟨id, stored, ?_, here, ?_, fun command => ?_⟩
  · have first := findContainer?_map_snd named path
    rw [found] at first
    rw [Tables.firstNamed?_story]
    exact first.symm
  · rw [Tables.story, List.getElem?_toArray, List.getElem?_map]
    exact congrArg (Option.map a.finished.container) here
  · simp only [payload, found]

end Fabula
