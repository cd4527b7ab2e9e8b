import Fabula.Proofs.Assembly
import Fabula.Proofs.Loading
import Mathlib.Data.List.Induction

namespace Fabula

/-!
# What an assembler writes down

An order is one elementary act of an assembler or a row of them, and an act adds at most
one entry to each table.  So every entry of a table goes back to one act, and what stood
in a table before is still there after.  Texts are found again at the positions that were
written down for them.
-/

/-- Whether the payload of a command is a text. -/
def Command.namesText : Command → Bool
  | .str | .tag | .divertToVariable | .defineTemp | .setVariable | .pushVariable
  | .valuePointer | .callExternal => true
  | _ => false

/-- Whether the payload of a command refers to something in the story. -/
def Command.refers (command : Command) : Bool :=
  command.namesText || command.hasAddress || command.isMarker ||
    command == .readCount || command == .list

/-- Whether a stored value refers to nothing. -/
def StoredValue.isScalar : StoredValue → Bool
  | .str _ | .list _ | .divert _ => false
  | _ => true

namespace Assembler

/-- An elementary act of an assembler. -/
inductive Act where
  | emit (command : Command) (flag : UInt8) (payload : UInt32)
  /-- An instruction with a text. -/
  | named (command : Command) (flag : UInt8) (text : String)
  | jump (jump : Jump) (target : Target)
  | readCount (path : String)
  /-- An instruction with a set of flags. -/
  | flags (paths : List String)
  | list (name : String) (flags : List (String × Int32))
  | global (name : String) (value : StoredValue)
  | globalString (name text : String)
  | globalList (name : String) (paths : List String)
  | opens (name : Option String) (flags : UInt8)
  | closes
  | newLabel
  | place (label : Nat)
  deriving Repr, DecidableEq

def enact (a : Assembler) : Act → Assembler
  | .emit command flag payload => a.emit command flag payload
  | .named command flag text => a.emitNamed command flag text
  | .jump jump target => a.emitJump jump.command jump.flag target
  | .readCount path => a.readCount path
  | .flags paths => a.listValue paths
  | .list name flags => a.list name flags
  | .global name value => a.global name value
  | .globalString name text => a.globalString name text
  | .globalList name paths => a.globalList name paths
  | .opens name flags => a.beginContainer name flags
  | .closes => a.endContainer
  | .newLabel => a.newLabel.2
  | .place label => a.place label

/-- The acts that an order is made of. -/
def Order.acts : Order → List Act
  | .emit command flag payload => [.emit command flag payload]
  | .op command => [.emit command 0 0]
  | .list name flags => [.list name flags]
  | .global name value => [.global name value]
  | .globalString name content => [.globalString name content]
  | .globalList name paths => [.globalList name paths]
  | .beginContainer name flags => [.opens name flags]
  | .beginKnot path =>
      [.opens (some path) (Container.knotBit ||| Container.visitsBit ||| Container.turnsBit)]
  | .beginFunction name => [.opens (some name) Container.functionBit]
  | .beginAnonymous => [.opens none Container.visitsBit]
  | .endContainer => [.closes]
  | .newLabel => [.newLabel]
  | .place label => [.place label]
  | .text content => [.named .str 0 content]
  | .line content => [.named .str 0 content, .emit .newline 0 0]
  | .tag content => [.named .tag 0 content]
  | .int i => [.emit .int 0 i.toUInt32]
  | .float x => [.emit .float 0 x.bits]
  | .bool b => [.emit .bool 0 (if b then 1 else 0)]
  | .listValue paths => [.flags paths]
  | .outputInt i =>
      [.emit .startEval 0 0, .emit .int 0 i.toUInt32, .emit .output 0 0, .emit .endEval 0 0]
  | .getVariable name => [.named .pushVariable 0 name]
  | .outputVariable name =>
      [.emit .startEval 0 0, .named .pushVariable 0 name, .emit .output 0 0, .emit .endEval 0 0]
  | .setVariable name => [.named .setVariable 0 name]
  | .temp name => [.named .defineTemp 0 name]
  | .reassignTemp name => [.named .defineTemp AssignmentFlag.redefine name]
  | .pointer name => [.named .valuePointer 0 name]
  | .divertToVariable name => [.named .divertToVariable 0 name]
  | .callExternal name arguments => [.named .callExternal arguments name]
  | .jump kind target => [.jump kind target]
  | .choiceText content tags target =>
      [.emit .startEval 0 0, .emit .startStr 0 0, .named .str 0 content] ++
        tags.map (.named .tag 0) ++
        [.emit .endStr 0 0, .emit .endEval 0 0,
          .jump (.choice ChoiceFlag.choiceOnlyContent) target]
  | .readCount path => [.readCount path]

/-- The assembler after a row of acts. -/
def tell (acts : List Act) : Assembler :=
  acts.foldl enact .start

theorem follow_eq_acts
    (a : Assembler)
    (order : Order) :
    a.follow order = order.acts.foldl enact a := by
  cases order with
  | choiceText text tags target =>
      simp only [Order.acts, List.foldl_append, List.foldl_map]
      rfl
  | _ =>
      rfl

/-- To follow orders is to do their acts. -/
theorem assemble_eq_tell
    (orders : List Order) :
    assemble orders = tell (orders.flatMap Order.acts) := by
  have follow : follow = fun a order => order.acts.foldl enact a :=
    funext fun a => funext fun order => follow_eq_acts a order
  rw [assemble, tell, follow, List.foldl_flatMap]

@[simp]
theorem tell_nil :
    tell [] = .start :=
  rfl

@[simp]
theorem tell_snoc
    (acts : List Act)
    (act : Act) :
    tell (acts ++ [act]) = (tell acts).enact act := by
  simp [tell]

/-! ## Texts -/

variable {a : Assembler}

/-- The texts with one that is added unless it is there. -/
def addText (strings : List String) (text : String) : List String :=
  if text ∈ strings then strings else strings ++ [text]

def withStrings (a : Assembler) (strings : List String) : Assembler :=
  { a with tables := { a.tables with strings := strings } }

/-- A text gets a position at which the texts, with it added, have it. -/
theorem intern_position
    (a : Assembler)
    (text : String) :
    ∃ index,
      a.intern text = (UInt32.ofNat index, a.withStrings (addText a.tables.strings text)) ∧
        (addText a.tables.strings text)[index]? = some text := by
  simp only [intern, addText]
  cases found : a.tables.strings.findIdx? (· == text) with
  | none =>
      have absent : text ∉ a.tables.strings := by
        intro inside
        simpa using List.findIdx?_eq_none_iff.mp found text inside
      rw [if_neg absent]
      exact ⟨_, rfl, by simp⟩
  | some index =>
      obtain ⟨here, same, _⟩ := List.findIdx?_eq_some_iff_getElem.mp found
      have equal : a.tables.strings[index] = text := beq_iff_eq.mp same
      have inside : text ∈ a.tables.strings := equal ▸ List.getElem_mem here
      rw [if_pos inside]
      exact ⟨index, rfl, by simp [here, equal]⟩

@[simp]
theorem intern_snd
    (a : Assembler)
    (text : String) :
    (a.intern text).2 = a.withStrings (addText a.tables.strings text) := by
  obtain ⟨index, interned, _⟩ := a.intern_position text
  rw [interned]

theorem prefix_addText
    (strings : List String)
    (text : String) :
    strings <+: addText strings text := by
  simp only [addText]
  split
  · exact List.prefix_refl strings
  · exact List.prefix_append strings [text]

theorem prefix_addTexts
    (strings texts : List String) :
    strings <+: texts.foldl addText strings := by
  induction texts generalizing strings with
  | nil =>
      exact List.prefix_refl strings
  | cons text rest inductionHypothesis =>
      exact (prefix_addText strings text).trans (inductionHypothesis _)

theorem getElem?_of_prefix
    {α : Type}
    {early late : List α}
    (later : early <+: late)
    {index : Nat}
    {entry : α}
    (here : early[index]? = some entry) :
    late[index]? = some entry := by
  obtain ⟨inside, rfl⟩ := List.getElem?_eq_some_iff.mp here
  exact List.prefix_iff_getElem?.mp later index inside

/-- A text is at its position, whatever texts come later. -/
theorem getElem?_intern
    {text : String}
    {strings : List String}
    (later : addText a.tables.strings text <+: strings)
    (few : strings.length < UInt32.size) :
    strings[(a.intern text).1.toNat]? = some text := by
  obtain ⟨index, interned, here⟩ := a.intern_position text
  have there := getElem?_of_prefix later here
  have small : index < UInt32.size :=
    Nat.lt_trans (List.getElem?_eq_some_iff.mp there).1 few
  rw [interned, UInt32.toNat_ofNat_of_lt' small, there]

@[simp]
theorem internFlags_snd
    (a : Assembler)
    (flags : List (String × Int32)) :
    (a.internFlags flags).2 =
      a.withStrings ((flags.map Prod.fst).foldl addText a.tables.strings) := by
  induction flags generalizing a with
  | nil =>
      rfl
  | cons flag rest inductionHypothesis =>
      simp [internFlags, inductionHypothesis, withStrings]

/-- The names of flags are at their positions. -/
theorem internFlags_fst
    {flags : List (String × Int32)}
    {strings : List String}
    (later : (flags.map Prod.fst).foldl addText a.tables.strings <+: strings)
    (few : strings.length < UInt32.size) :
    (a.internFlags flags).1.map (fun flag => (strings[flag.1.toNat]?, flag.2)) =
      flags.map (fun flag => (some flag.1, flag.2)) := by
  induction flags generalizing a with
  | nil =>
      rfl
  | cons flag rest inductionHypothesis =>
      have first : addText a.tables.strings flag.1 <+: strings :=
        (prefix_addTexts _ _).trans later
      have others :=
        inductionHypothesis (a := a.withStrings (addText a.tables.strings flag.1)) later
      simp [internFlags, getElem?_intern first few, others]

/-! ## Sets of flags -/

/-- The flags among paths that are known now. -/
def gathered (a : Assembler) (paths : List String) : List FlagId :=
  paths.filterMap a.resolveFlag?

/-- What is blamed for the paths that name no flag now. -/
def complaints (a : Assembler) (paths : List String) : List FormatFault :=
  (paths.filter fun path => (a.resolveFlag? path).isNone).map .unknownFlag

/-- Every path adds its flag, with the list of the flag, or is blamed. -/
theorem foldl_addFlag
    (a : Assembler)
    (faults : List FormatFault)
    (set : StoredFlags)
    (paths : List String) :
    ∃ origins,
      (∀ origin ∈ origins,
        origin ∈ set.origins ∨ ∃ item ∈ a.gathered paths, item.list = origin) ∧
      paths.foldl addFlag (set, { a with faults := faults }) =
        (⟨origins, set.items ++ a.gathered paths⟩,
          { a with faults := faults ++ a.complaints paths }) := by
  induction paths generalizing faults set with
  | nil =>
      exact ⟨set.origins, fun _ => .inl, by simp [gathered, complaints]⟩
  | cons path rest inductionHypothesis =>
      have same : resolveFlag? { a with faults := faults } path = a.resolveFlag? path := rfl
      cases found : a.resolveFlag? path with
      | none =>
          obtain ⟨origins, declared, filled⟩ :=
            inductionHypothesis (faults ++ [.unknownFlag path]) set
          refine ⟨origins, by simpa [gathered, found] using declared, ?_⟩
          simp only [List.foldl_cons, addFlag, same, found, blame, filled]
          simp [gathered, complaints, found]
      | some item =>
          obtain ⟨origins, declared, filled⟩ :=
            inductionHypothesis faults
              ⟨if set.origins.contains item.list then set.origins
                else set.origins ++ [item.list], set.items ++ [item]⟩
          refine ⟨origins, fun origin inside => ?_, ?_⟩
          · rw [show a.gathered (path :: rest) = item :: a.gathered rest by simp [gathered, found]]
            rcases declared origin inside with old | ⟨other, later, listed⟩
            · have own : origin ∈ set.origins ∨ origin = item.list := by
                split at old <;> simp_all
              rcases own with old | rfl
              · exact .inl old
              · exact .inr ⟨item, List.mem_cons_self, rfl⟩
            · exact .inr ⟨other, List.mem_cons_of_mem item later, listed⟩
          · simp only [List.foldl_cons, addFlag, same, found, filled]
            simp [gathered, complaints, found]

/-- The set that is written down for paths. -/
def setOf (a : Assembler) (paths : List String) : StoredFlags :=
  (paths.foldl addFlag (⟨[], []⟩, a)).1

theorem setOf_items
    (a : Assembler)
    (paths : List String) :
    (a.setOf paths).items = a.gathered paths := by
  obtain ⟨origins, _, filled⟩ := foldl_addFlag a a.faults ⟨[], []⟩ paths
  simp [setOf, filled]

theorem setOf_origins
    {paths : List String}
    {origin : UInt16}
    (inside : origin ∈ (a.setOf paths).origins) :
    ∃ item ∈ a.gathered paths, item.list = origin := by
  obtain ⟨origins, declared, filled⟩ := foldl_addFlag a a.faults ⟨[], []⟩ paths
  simp only [setOf, filled] at inside
  simpa using declared origin inside

@[simp]
theorem literal_snd
    (a : Assembler)
    (paths : List String) :
    (a.literal paths).2 =
      { a with
        tables := { a.tables with literals := a.tables.literals ++ [a.setOf paths] }
        faults := a.faults ++ a.complaints paths } := by
  obtain ⟨origins, _, filled⟩ := foldl_addFlag a a.faults ⟨[], []⟩ paths
  simp [literal, setOf, filled]

@[simp]
theorem literal_fst
    (a : Assembler)
    (paths : List String) :
    (a.literal paths).1 = UInt32.ofNat a.tables.literals.length := by
  obtain ⟨origins, _, filled⟩ := foldl_addFlag a a.faults ⟨[], []⟩ paths
  simp [literal, filled]

/-! ## Columns -/

/-- A part of an assembler to which every act adds at most one entry. -/
structure Column
    {α : Type}
    (read : Assembler → List α)
    (added : Act → Assembler → Option α) :
    Prop where
  start : read .start = []
  enact : ∀ a act, read (a.enact act) = read a ++ (added act a).toList

namespace Column

variable {α β : Type} {read : Assembler → List α} {added : Act → Assembler → Option α}

theorem tell_snoc
    (column : Column read added)
    (acts : List Act)
    (act : Act) :
    read (tell (acts ++ [act])) = read (tell acts) ++ (added act (tell acts)).toList := by
  rw [Assembler.tell_snoc, column.enact]

/-- What was written down stays. -/
theorem prefix_tell
    (column : Column read added)
    (before after : List Act) :
    read (tell before) <+: read (tell (before ++ after)) := by
  induction after using List.reverseRecOn with
  | nil =>
      simp
  | append_singleton after act inductionHypothesis =>
      rw [← List.append_assoc, column.tell_snoc]
      exact inductionHypothesis.trans (List.prefix_append _ _)

/-- The entry of an act stands after those of the acts before it. -/
theorem getElem?_tell
    (column : Column read added)
    {before : List Act}
    {act : Act}
    {entry : α}
    (adds : added act (tell before) = some entry)
    (after : List Act) :
    (read (tell (before ++ act :: after)))[(read (tell before)).length]? = some entry := by
  rw [List.append_cons]
  refine getElem?_of_prefix (column.prefix_tell (before ++ [act]) after) ?_
  rw [column.tell_snoc, adds]
  simp

/-- Every entry goes back to an act. -/
theorem exists_act
    (column : Column read added)
    {acts : List Act}
    {index : Nat}
    {entry : α}
    (here : (read (tell acts))[index]? = some entry) :
    ∃ before act after,
      acts = before ++ act :: after ∧ (read (tell before)).length = index ∧
        added act (tell before) = some entry := by
  induction acts using List.reverseRecOn with
  | nil =>
      rw [tell_nil, column.start] at here
      cases here
  | append_singleton acts act inductionHypothesis =>
      rw [column.tell_snoc] at here
      cases adds : added act (tell acts) with
      | none =>
          rw [adds, Option.toList_none, List.append_nil] at here
          obtain ⟨before, own, after, rfl, number, made⟩ := inductionHypothesis here
          exact ⟨before, own, after ++ [act], by simp, number, made⟩
      | some last =>
          rw [adds, Option.toList_some] at here
          rcases getElem?_snoc_iff.mp here with old | ⟨rfl, rfl⟩
          · obtain ⟨before, own, after, rfl, number, made⟩ := inductionHypothesis old
            exact ⟨before, own, after ++ [act], by simp, number, made⟩
          · exact ⟨acts, act, [], rfl, rfl, adds⟩

theorem exists_act_of_mem
    (column : Column read added)
    {acts : List Act}
    {entry : α}
    (inside : entry ∈ read (tell acts)) :
    ∃ before act after,
      acts = before ++ act :: after ∧ added act (tell before) = some entry := by
  obtain ⟨index, here⟩ := List.mem_iff_getElem?.mp inside
  obtain ⟨before, act, after, shape, _, adds⟩ := column.exists_act here
  exact ⟨before, act, after, shape, adds⟩

/-- A view of a column is what the acts say, one after the other. -/
theorem map_tell
    (column : Column read added)
    {acts : List Act}
    {view : α → β}
    {say : Act → Option β}
    (each :
      ∀ before act after,
        acts = before ++ act :: after → (added act (tell before)).map view = say act) :
    (read (tell acts)).map view = acts.filterMap say := by
  induction acts using List.reverseRecOn with
  | nil =>
      rw [tell_nil, column.start]
      rfl
  | append_singleton acts act inductionHypothesis =>
      have earlier := inductionHypothesis fun before own after shape =>
        each before own (after ++ [act]) (by simp [shape])
      have last := each acts act [] rfl
      rw [column.tell_snoc, List.map_append, earlier, List.filterMap_append]
      cases adds : added act (tell acts) with
      | none =>
          rw [adds, Option.map_none] at last
          simp [← last]
      | some entry =>
          rw [adds, Option.map_some] at last
          simp [← last]

end Column

/-! ## The columns of an assembler -/

namespace Act

/-- The list that an act declares. -/
@[simp]
def list? (a : Assembler) : Act → Option StoredList
  | .list name declared =>
      some ⟨(a.intern name).1, ((a.intern name).2.internFlags declared).1⟩
  | _ => none

/-- The paths of the set that an act writes down. -/
@[simp]
def paths? : Act → Option (List String)
  | .flags paths | .globalList _ paths => some paths
  | _ => none

@[simp]
def literal? (a : Assembler) (act : Act) : Option StoredFlags :=
  act.paths?.map a.setOf

@[simp]
def global? (a : Assembler) : Act → Option (UInt32 × StoredValue)
  | .global name value => some ((a.intern name).1, value)
  | .globalString name text =>
      some (((a.intern text).2.intern name).1, .str (a.intern text).1)
  | .globalList name _ =>
      some ((a.intern name).1, .list (UInt32.ofNat a.tables.literals.length))
  | _ => none

/-- The container that an act opens. -/
@[simp]
def container? (a : Assembler) : Act → Option StoredContainer
  | .opens (some name) bits => some ⟨(a.intern name).1, a.address, a.address, bits⟩
  | .opens none bits => some ⟨noName, a.address, a.address, bits⟩
  | _ => none

@[simp]
def instruction? (a : Assembler) : Act → Option Instruction
  | .emit command flag payload => some ⟨command, flag, payload⟩
  | .named command flag text => some ⟨command, flag, (a.intern text).1⟩
  | .jump kind _ => some ⟨kind.command, kind.flag, 0⟩
  | .readCount _ => some ⟨.readCount, 0, 0⟩
  | .flags _ => some ⟨.list, 0, UInt32.ofNat a.tables.literals.length⟩
  | .opens _ _ => some ⟨.startContainer, 0, UInt32.ofNat a.tables.containers.length⟩
  | .closes => a.opened.head?.map fun id => ⟨.endContainer, 0, UInt32.ofNat id⟩
  | _ => none

/-- What the instruction of an act waits for. -/
@[simp]
def target? : Act → Option Target
  | .jump _ target => some target
  | .readCount path => some (.path path)
  | _ => none

@[simp]
def fixup? (a : Assembler) (act : Act) : Option (Nat × Target) :=
  act.target?.map fun target => (a.tables.instructions.length, target)

/-- The texts that an act writes down, in order. -/
@[simp]
def texts : Act → List String
  | .named _ _ text => [text]
  | .list name declared => name :: declared.map Prod.fst
  | .global name _ => [name]
  | .globalString name text => [text, name]
  | .globalList name _ => [name]
  | .opens (some name) _ => [name]
  | _ => []

/-- The containers after an act. -/
@[simp]
def containers (a : Assembler) (act : Act) : List StoredContainer :=
  match act, a.opened with
  | .closes, id :: _ => a.tables.containers.modify id fun c => { c with stop := a.address }
  | _, _ => a.tables.containers ++ (act.container? a).toList

/-- The open containers after an act. -/
@[simp]
def opened (a : Assembler) : Act → List Nat
  | .opens _ _ => a.tables.containers.length :: a.opened
  | .closes => a.opened.tail
  | _ => a.opened

/-- The labels after an act. -/
@[simp]
def labels (a : Assembler) : Act → List (Option UInt32)
  | .newLabel => a.labels ++ [none]
  | .place label => a.labels.set label (some a.address)
  | _ => a.labels

/-- What an act is blamed for. -/
@[simp]
def faults (a : Assembler) : Act → List FormatFault
  | .closes => if a.opened = [] then [.endWithoutContainer] else []
  | .flags paths | .globalList _ paths => a.complaints paths
  | _ => []

end Act

/-- The position of a text depends on the texts alone. -/
theorem intern_fst_congr
    {a b : Assembler}
    (same : a.tables.strings = b.tables.strings)
    (text : String) :
    (a.intern text).1 = (b.intern text).1 := by
  simp only [intern, same]
  cases b.tables.strings.findIdx? (· == text) <;> rfl

/-- Everything that an act does. -/
theorem enact_eq
    (a : Assembler)
    (act : Act) :
    a.enact act =
      { tables :=
          { strings := act.texts.foldl addText a.tables.strings
            lists := a.tables.lists ++ (act.list? a).toList
            literals := a.tables.literals ++ (act.literal? a).toList
            globals := a.tables.globals ++ (act.global? a).toList
            containers := act.containers a
            instructions := a.tables.instructions ++ (act.instruction? a).toList }
        opened := act.opened a
        labels := act.labels a
        fixups := a.fixups ++ (act.fixup? a).toList
        faults := a.faults ++ act.faults a } := by
  cases act with
  | opens name =>
      cases name <;> simp [enact, beginContainer, emit, withStrings, address]
  | closes =>
      cases innermost : a.opened <;>
        simp [enact, endContainer, innermost, blame, emit, address]
  | globalList name paths =>
      have position : ((a.literal paths).2.intern name).1 = (a.intern name).1 :=
        intern_fst_congr (by simp) name
      simpa [enact, globalList, global, withStrings] using position
  | _ =>
      simp [enact, emit, emitNamed, emitJump, readCount, listValue, list, global, globalString,
        newLabel, place, withStrings]

/-- A change that a view does not show. -/
theorem map_modify_of_eq
    {α β : Type}
    {view : α → β}
    {change : α → α}
    (same : ∀ entry, view (change entry) = view entry)
    (index : Nat)
    (entries : List α) :
    (entries.modify index change).map view = entries.map view := by
  refine List.ext_getElem? fun place => ?_
  rw [List.getElem?_map, List.getElem?_map, List.getElem?_modify]
  cases entries[place]? with
  | none =>
      rfl
  | some entry =>
      by_cases here : index = place <;> simp [here, same]

namespace Column

theorem lists :
    Column (fun a => a.tables.lists) fun act a => act.list? a :=
  ⟨rfl, fun a act => by rw [enact_eq]⟩

theorem literals :
    Column (fun a => a.tables.literals) fun act a => act.literal? a :=
  ⟨rfl, fun a act => by rw [enact_eq]⟩

theorem globals :
    Column (fun a => a.tables.globals) fun act a => act.global? a :=
  ⟨rfl, fun a act => by rw [enact_eq]⟩

theorem instructions :
    Column (fun a => a.tables.instructions) fun act a => act.instruction? a :=
  ⟨rfl, fun a act => by rw [enact_eq]⟩

theorem fixups :
    Column Assembler.fixups fun act a => act.fixup? a :=
  ⟨rfl, fun a act => by rw [enact_eq]⟩

/-- Closing a container changes neither its name nor its start. -/
theorem openings :
    Column (fun a => a.tables.containers.map fun c => (c.name, c.start)) fun act a =>
      (act.container? a).map fun c => (c.name, c.start) := by
  refine ⟨rfl, fun a act => ?_⟩
  rw [enact_eq]
  simp only [Act.containers]
  split
  · simp [map_modify_of_eq]
  · rw [List.map_append, Option.toList_map]

end Column

theorem strings_prefix_tell
    (before after : List Act) :
    (tell before).tables.strings <+: (tell (before ++ after)).tables.strings := by
  induction after using List.reverseRecOn with
  | nil =>
      simp
  | append_singleton after act inductionHypothesis =>
      rw [← List.append_assoc, tell_snoc, enact_eq]
      exact inductionHypothesis.trans (prefix_addTexts _ _)

/-! ## What is read back -/

section Reading

variable {acts before after : List Act} {act : Act}

/-- The texts of an act are at hand from then on. -/
theorem addTexts_prefix_tell
    (shape : acts = before ++ act :: after) :
    act.texts.foldl addText (tell before).tables.strings <+: (tell acts).tables.strings := by
  have later := strings_prefix_tell (before ++ [act]) after
  rw [tell_snoc, enact_eq, ← List.append_cons, ← shape] at later
  exact later

/-- The only text of an act is at its position. -/
theorem getElem?_tell_intern
    (shape : acts = before ++ act :: after)
    (few : (tell acts).tables.strings.length < UInt32.size)
    {text : String}
    (own : act.texts = [text]) :
    (tell acts).tables.strings[((tell before).intern text).1.toNat]? = some text := by
  have later := addTexts_prefix_tell shape
  rw [own] at later
  exact getElem?_intern later few

end Reading

end Assembler

namespace Tables

variable {tables : Tables} {index : UInt32} {text : String}

theorem hasText_of_getElem?
    (here : tables.strings[index.toNat]? = some text) :
    tables.HasText index :=
  (List.getElem?_eq_some_iff.mp here).1

theorem getElem?_of_hasText
    (inside : tables.HasText index) :
    tables.strings[index.toNat]? = some (tables.text index) := by
  have here := List.getElem?_eq_getElem inside
  rw [here, text, List.getD_eq_getElem?_getD, here, Option.getD_some]

theorem text_of_getElem?
    (here : tables.strings[index.toNat]? = some text) :
    tables.text index = text := by
  simp [Tables.text, here]

/-- What a loader makes of the position of a name. -/
def title (tables : Tables) (name : UInt32) : Option String :=
  if name = noName then none else some (tables.text name)

/-- The number of texts keeps positions apart from the mark for no name. -/
theorem ne_noName_of_hasText
    (few : tables.strings.length < UInt32.size)
    (inside : tables.HasText index) :
    index ≠ noName := by
  rintro rfl
  have beyond : noName.toNat = UInt32.size - 1 := rfl
  simp only [HasText] at inside
  omega

end Tables

namespace Assembler

section Reading

variable {acts before after : List Act} {act : Act}

/-- Whether an act refers to nothing but what it names. -/
def Act.isProper : Act → Bool
  | .emit command _ _ => !command.refers
  | .named command _ _ => command.namesText
  | .global _ value => value.isScalar
  | _ => true

/-- What is declared for a list, as it was said. -/
def Act.declared? : Act → Option FlagList
  | .list name entries => some ⟨name, entries.toArray⟩
  | _ => none

/-- The name of the container that an act opens, if it has one. -/
def Act.title? : Act → Option (Option String)
  | .opens name _ => some name
  | _ => none

/-- The variable that an act declares. -/
def Act.variable? : Act → Option String
  | .global name _ | .globalString name _ | .globalList name _ => some name
  | _ => none

theorem list?_read
    (shape : acts = before ++ act :: after)
    (few : (tell acts).tables.strings.length < UInt32.size)
    {stored : StoredList}
    (adds : act.list? (tell before) = some stored) :
    (tell acts).tables.HasText stored.name ∧
      (∀ flag ∈ stored.flags, (tell acts).tables.HasText flag.1) ∧
      act.declared? = some ((tell acts).tables.flagList stored) := by
  cases act with
  | list name declared =>
      cases adds
      have later := addTexts_prefix_tell shape
      have named := getElem?_intern ((prefix_addTexts _ _).trans later) few
      have flagged := internFlags_fst (a := ((tell before).intern name).2)
        (by simpa [withStrings] using later) few
      have texts :
          ((((tell before).intern name).2.internFlags declared).1.map fun flag =>
            ((tell acts).tables.text flag.1, flag.2)) = declared := by
        have read :=
          congrArg (List.map fun flag : Option String × Int32 => (flag.1.getD "", flag.2)) flagged
        simpa [Function.comp_def, Tables.text, List.getD_eq_getElem?_getD] using read
      refine ⟨Tables.hasText_of_getElem? named, fun flag inside => ?_, ?_⟩
      · have read := List.mem_map_of_mem
          (f := fun flag : UInt32 × Int32 =>
            ((tell acts).tables.strings[flag.1.toNat]?, flag.2)) inside
        rw [flagged] at read
        obtain ⟨own, _, same⟩ := List.mem_map.mp read
        exact Tables.hasText_of_getElem? (congrArg Prod.fst same).symm
      · rw [Act.declared?, Tables.flagList, texts, Tables.text_of_getElem? named]
  | _ =>
      cases adds

/-- The lists are declared as they were said. -/
theorem map_flagList_tell
    (few : (tell acts).tables.strings.length < UInt32.size) :
    (tell acts).tables.lists.map (tell acts).tables.flagList = acts.filterMap Act.declared? := by
  refine Column.lists.map_tell fun before act after shape => ?_
  cases adds : act.list? (tell before) with
  | none =>
      cases act with
      | list => cases adds
      | _ => rfl
  | some stored =>
      exact (list?_read shape few adds).2.2.symm

theorem title?_read
    (shape : acts = before ++ act :: after)
    (few : (tell acts).tables.strings.length < UInt32.size)
    {stored : StoredContainer}
    (adds : act.container? (tell before) = some stored) :
    (stored.name ≠ noName → (tell acts).tables.HasText stored.name) ∧
      act.title? = some ((tell acts).tables.title stored.name) := by
  cases act with
  | opens name =>
      cases name with
      | none =>
          cases adds
          exact ⟨fun other => absurd rfl other, rfl⟩
      | some text =>
          cases adds
          have here := getElem?_tell_intern shape few rfl
          have inside := Tables.hasText_of_getElem? here
          have other := Tables.ne_noName_of_hasText few inside
          refine ⟨fun _ => inside, ?_⟩
          simp only [Tables.title, if_neg other, Tables.text_of_getElem? here]
          rfl
  | _ =>
      cases adds

/-- The containers are named as they were said. -/
theorem map_title_tell
    (few : (tell acts).tables.strings.length < UInt32.size) :
    (tell acts).tables.containers.map (fun c => (tell acts).tables.title c.name) =
      acts.filterMap Act.title? := by
  have read :
      ((tell acts).tables.containers.map fun c => (c.name, c.start)).map
        (fun opening => (tell acts).tables.title opening.1) = acts.filterMap Act.title? := by
    refine Column.openings.map_tell fun before act after shape => ?_
    cases adds : act.container? (tell before) with
    | none =>
        cases act with
        | opens name => cases name <;> cases adds
        | _ => rfl
    | some stored =>
        exact (title?_read shape few adds).2.symm
  simpa [Function.comp_def] using read

/-- Every container was opened by an act, which said its name and where it starts. -/
theorem exists_opening
    {container : StoredContainer}
    (inside : container ∈ (tell acts).tables.containers) :
    ∃ before act after stored,
      acts = before ++ act :: after ∧ act.container? (tell before) = some stored ∧
        stored.name = container.name ∧ stored.start = container.start := by
  have opening := List.mem_map_of_mem (f := fun c : StoredContainer => (c.name, c.start)) inside
  obtain ⟨before, act, after, shape, adds⟩ := Column.openings.exists_act_of_mem opening
  obtain ⟨stored, adds, same⟩ := Option.map_eq_some_iff.mp adds
  exact ⟨before, act, after, stored, shape, adds, congrArg Prod.fst same, congrArg Prod.snd same⟩

theorem hasText_name
    (few : (tell acts).tables.strings.length < UInt32.size)
    {container : StoredContainer}
    (inside : container ∈ (tell acts).tables.containers)
    (named : container.name ≠ noName) :
    (tell acts).tables.HasText container.name := by
  obtain ⟨before, act, after, stored, shape, adds, sameName, _⟩ := exists_opening inside
  rw [← sameName] at named ⊢
  exact (title?_read shape few adds).1 named

/-- The set that an act writes down stands at its number. -/
theorem getElem?_literals_tell
    (shape : acts = before ++ act :: after)
    {paths : List String}
    (told : act.paths? = some paths) :
    (tell acts).tables.literals[(tell before).tables.literals.length]? =
      some ((tell before).setOf paths) := by
  subst shape
  refine Column.literals.getElem?_tell ?_ after
  rw [Act.literal?, told, Option.map_some]

theorem literals_lt_tell
    (shape : acts = before ++ act :: after)
    {paths : List String}
    (told : act.paths? = some paths) :
    (tell before).tables.literals.length < (tell acts).tables.literals.length :=
  (List.getElem?_eq_some_iff.mp (getElem?_literals_tell shape told)).1

theorem global?_read
    (shape : acts = before ++ act :: after)
    (few : (tell acts).tables.strings.length < UInt32.size)
    (fewSets : (tell acts).tables.literals.length < UInt32.size)
    (proper : act.isProper = true)
    {stored : UInt32 × StoredValue}
    (adds : act.global? (tell before) = some stored) :
    (tell acts).tables.HasText stored.1 ∧ (tell acts).tables.HasValue stored.2 ∧
      act.variable? = some ((tell acts).tables.text stored.1) := by
  cases act with
  | global name value =>
      cases adds
      have named := getElem?_tell_intern shape few rfl
      refine ⟨Tables.hasText_of_getElem? named, ?_, ?_⟩
      · cases value with
        | str | list | divert => cases proper
        | _ => trivial
      · rw [Tables.text_of_getElem? named]
        rfl
  | globalString name content =>
      cases adds
      have later := addTexts_prefix_tell shape
      have valued := getElem?_intern ((prefix_addText _ _).trans later) few
      have named := getElem?_intern (a := ((tell before).intern content).2)
        (by simpa [withStrings] using later) few
      refine ⟨Tables.hasText_of_getElem? named, Tables.hasText_of_getElem? valued, ?_⟩
      rw [Tables.text_of_getElem? named]
      rfl
  | globalList name paths =>
      cases adds
      have named := getElem?_tell_intern shape few rfl
      have inside := literals_lt_tell shape rfl
      refine ⟨Tables.hasText_of_getElem? named, ?_, ?_⟩
      · rw [Tables.HasValue, UInt32.toNat_ofNat_of_lt' (Nat.lt_trans inside fewSets)]
        exact inside
      · rw [Tables.text_of_getElem? named]
        rfl
  | _ =>
      cases adds

/-- The variables are named as they were said. -/
theorem map_variable_tell
    (few : (tell acts).tables.strings.length < UInt32.size)
    (fewSets : (tell acts).tables.literals.length < UInt32.size)
    (proper : ∀ act ∈ acts, act.isProper = true) :
    ((tell acts).tables.globals.map fun stored => (tell acts).tables.text stored.1) =
      acts.filterMap Act.variable? := by
  refine Column.globals.map_tell fun before act after shape => ?_
  cases adds : act.global? (tell before) with
  | none =>
      cases act with
      | global | globalString | globalList => cases adds
      | _ => rfl
  | some stored =>
      have told := proper act (by simp [shape])
      exact (global?_read shape few fewSets told adds).2.2.symm

end Reading

end Assembler

end Fabula
