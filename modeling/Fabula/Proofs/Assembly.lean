import Fabula.Proofs.Canonical
import Fabula.Proofs.Loaded
import Fabula.Proofs.Nesting
import Fabula.Story.Assembler

namespace Fabula

/-!
# Assembled stories are nested

An assembler opens and closes containers like brackets, and everything else that it is
told adds instructions that are no markers.  So the markers of a finished story are those
of its containers, and of two containers one lies inside the other or both lie apart.
Jumps that get their targets at the end do not touch the markers.
-/

/-- Whether a command marks the start or the end of a container. -/
def Command.isMarker : Command → Bool
  | .startContainer | .endContainer => true
  | _ => false

namespace Assembler

/-! ## What an assembler is told -/

/-- An instruction that leads somewhere. -/
inductive Jump where
  | divertValue
  | divert
  | divertIf
  | tunnel
  | function
  | thread
  | choice (flags : UInt8)
  deriving Repr, DecidableEq

def Jump.command : Jump → Command
  | .divertValue => .divertValue
  | .divert | .divertIf => .divert
  | .tunnel => .tunnel
  | .function => .function
  | .thread => .thread
  | .choice _ => .choice

def Jump.flag : Jump → UInt8
  | .divertIf => DivertFlag.condition
  | .choice flags => flags
  | _ => 0

/-- Everything that an assembler can be told. -/
inductive Order where
  | emit (command : Command) (flag : UInt8) (payload : UInt32)
  | op (command : Command)
  | list (name : String) (flags : List (String × Int32))
  | global (name : String) (value : StoredValue)
  | globalString (name text : String)
  | globalList (name : String) (paths : List String)
  | beginContainer (name : Option String) (flags : UInt8)
  | beginKnot (path : String)
  | beginFunction (name : String)
  | beginAnonymous
  | endContainer
  | newLabel
  | place (label : Nat)
  | text (text : String)
  | line (text : String)
  | tag (tag : String)
  | int (i : Int32)
  | float (x : Single)
  | bool (b : Bool)
  | listValue (paths : List String)
  | outputInt (i : Int32)
  | getVariable (name : String)
  | outputVariable (name : String)
  | setVariable (name : String)
  | temp (name : String)
  | reassignTemp (name : String)
  | pointer (name : String)
  | divertToVariable (name : String)
  | callExternal (name : String) (arguments : UInt8)
  | jump (jump : Jump) (target : Target)
  | choiceText (text : String) (tags : List String) (target : Target)
  | readCount (path : String)
  deriving Repr, DecidableEq

/-- Do what is told. -/
def follow (a : Assembler) : Order → Assembler
  | .emit command flag payload => a.emit command flag payload
  | .op command => a.op command
  | .list name flags => a.list name flags
  | .global name value => a.global name value
  | .globalString name text => a.globalString name text
  | .globalList name paths => a.globalList name paths
  | .beginContainer name flags => a.beginContainer name flags
  | .beginKnot path => a.beginKnot path
  | .beginFunction name => a.beginFunction name
  | .beginAnonymous => a.beginAnonymous
  | .endContainer => a.endContainer
  | .newLabel => a.newLabel.2
  | .place label => a.place label
  | .text text => a.text text
  | .line text => a.line text
  | .tag tag => a.tag tag
  | .int i => a.int i
  | .float x => a.float x
  | .bool b => a.bool b
  | .listValue paths => a.listValue paths
  | .outputInt i => a.outputInt i
  | .getVariable name => a.getVariable name
  | .outputVariable name => a.outputVariable name
  | .setVariable name => a.setVariable name
  | .temp name => a.temp name
  | .reassignTemp name => a.reassignTemp name
  | .pointer name => a.pointer name
  | .divertToVariable name => a.divertToVariable name
  | .callExternal name arguments => a.callExternal name arguments
  | .jump jump target => a.emitJump jump.command jump.flag target
  | .choiceText text tags target => a.choiceText text tags target
  | .readCount path => a.readCount path

/-- The assembler that was told everything in a list. -/
def assemble (orders : List Order) : Assembler :=
  orders.foldl follow .start

/-- Whether an order adds no marker of its own. -/
def Order.isPlain : Order → Bool
  | .emit command _ _ => !command.isMarker
  | .op command => !command.isMarker
  | _ => true

/-! ## Orders that leave containers alone -/

variable {a b c : Assembler}

/-- An instruction that is no marker. -/
def PlainAt (instructions : List Instruction) (address : Nat) : Prop :=
  ∃ instruction,
    instructions[address]? = some instruction ∧ instruction.command.isMarker = false

/-- A jump waits at an instruction that is no marker. -/
def Waits (a : Assembler) (entry : Nat × Target) : Prop :=
  PlainAt a.tables.instructions entry.1

/-- Instructions that are no markers were added, and nothing was opened or closed. -/
structure Extends (a b : Assembler) : Prop where
  containers : b.tables.containers = a.tables.containers
  opened : b.opened = a.opened
  instructions :
    ∃ more,
      b.tables.instructions = a.tables.instructions ++ more ∧
        ∀ instruction ∈ more, instruction.command.isMarker = false
  fixups : ∀ entry ∈ b.fixups, entry ∈ a.fixups ∨ b.Waits entry

namespace Extends

theorem refl
    (a : Assembler) :
    Extends a a :=
  ⟨rfl, rfl, ⟨[], by simp, by simp⟩, fun _ inside => .inl inside⟩

theorem waits
    (grown : Extends a b)
    {entry : Nat × Target}
    (waits : a.Waits entry) :
    b.Waits entry := by
  obtain ⟨more, shape, _⟩ := grown.instructions
  obtain ⟨instruction, here, plain⟩ := waits
  refine ⟨instruction, ?_, plain⟩
  rw [shape, List.getElem?_append_left (List.getElem?_eq_some_iff.mp here).1, here]

theorem trans
    (first : Extends a b)
    (second : Extends b c) :
    Extends a c where
  containers := second.containers.trans first.containers
  opened := second.opened.trans first.opened
  instructions := by
    obtain ⟨some, shape, plain⟩ := first.instructions
    obtain ⟨more, longer, others⟩ := second.instructions
    refine ⟨some ++ more, by rw [longer, shape, List.append_assoc], ?_⟩
    intro instruction inside
    rcases List.mem_append.mp inside with early | late
    · exact plain instruction early
    · exact others instruction late
  fixups := by
    intro entry inside
    rcases second.fixups entry inside with known | waits
    · rcases first.fixups entry known with older | waits
      · exact .inl older
      · exact .inr (second.waits waits)
    · exact .inr waits

/-- Nothing but strings, declarations, labels and faults has changed. -/
theorem of_same
    (containers : b.tables.containers = a.tables.containers)
    (opened : b.opened = a.opened)
    (instructions : b.tables.instructions = a.tables.instructions)
    (fixups : b.fixups = a.fixups) :
    Extends a b :=
  ⟨containers, opened, ⟨[], by simp [instructions], by simp⟩,
    fun _ inside => .inl (fixups ▸ inside)⟩

theorem emit
    (grown : Extends a b)
    {command : Command}
    (plain : command.isMarker = false)
    (flag : UInt8)
    (payload : UInt32) :
    Extends a (b.emit command flag payload) :=
  grown.trans
    ⟨rfl, rfl, ⟨[⟨command, flag, payload⟩], rfl, by simpa using plain⟩,
      fun _ inside => .inl inside⟩

theorem op
    (grown : Extends a b)
    {command : Command}
    (plain : command.isMarker = false) :
    Extends a (b.op command) :=
  grown.emit plain 0 0

theorem intern
    (grown : Extends a b)
    (text : String) :
    Extends a (b.intern text).2 := by
  refine grown.trans ?_
  simp only [Assembler.intern]
  split
  · exact refl b
  · exact of_same rfl rfl rfl rfl

theorem emitNamed
    (grown : Extends a b)
    {command : Command}
    (plain : command.isMarker = false)
    (flag : UInt8)
    (name : String) :
    Extends a (b.emitNamed command flag name) :=
  (grown.intern name).emit plain flag _

theorem emitJump
    (grown : Extends a b)
    {command : Command}
    (plain : command.isMarker = false)
    (flag : UInt8)
    (target : Target) :
    Extends a (b.emitJump command flag target) := by
  refine grown.trans ⟨rfl, rfl, ⟨[⟨command, flag, 0⟩], rfl, by simpa using plain⟩, ?_⟩
  intro entry inside
  rcases List.mem_append.mp inside with older | newer
  · exact .inl older
  · rw [List.mem_singleton.mp newer]
    exact .inr ⟨⟨command, flag, 0⟩, by simp [Assembler.emitJump, Assembler.emit], plain⟩

theorem internFlags
    (grown : Extends a b)
    (flags : List (String × Int32)) :
    Extends a (b.internFlags flags).2 := by
  induction flags generalizing b with
  | nil =>
      exact grown
  | cons flag rest inductionHypothesis =>
      exact inductionHypothesis (grown.intern flag.1)

theorem list
    (grown : Extends a b)
    (name : String)
    (flags : List (String × Int32)) :
    Extends a (b.list name flags) :=
  ((grown.intern name).internFlags flags).trans (of_same rfl rfl rfl rfl)

theorem addFlag
    (set : StoredFlags)
    (grown : Extends a b)
    (path : String) :
    Extends a (Assembler.addFlag (set, b) path).2 := by
  simp only [Assembler.addFlag]
  split
  · exact grown
  · exact grown.trans (of_same rfl rfl rfl rfl)

theorem literal
    (grown : Extends a b)
    (paths : List String) :
    Extends a (b.literal paths).2 := by
  have filled (set : StoredFlags) :
      Extends a (paths.foldl Assembler.addFlag (set, b)).2 := by
    induction paths generalizing b set with
    | nil =>
        exact grown
    | cons path rest inductionHypothesis =>
        exact inductionHypothesis (addFlag set grown path) _
  exact (filled ⟨[], []⟩).trans (of_same rfl rfl rfl rfl)

theorem global
    (grown : Extends a b)
    (name : String)
    (value : StoredValue) :
    Extends a (b.global name value) :=
  (grown.intern name).trans (of_same rfl rfl rfl rfl)

theorem tags
    (grown : Extends a b)
    (tags : List String) :
    Extends a (tags.foldl Assembler.tag b) := by
  induction tags generalizing b with
  | nil =>
      exact grown
  | cons tag rest inductionHypothesis =>
      exact inductionHypothesis (grown.emitNamed rfl 0 tag)

end Extends

/-! ## Orders -/

/-- What opening a container does once its name is known. -/
def opening (a : Assembler) (name : UInt32) (flags : UInt8) : Assembler :=
  { a with
    tables :=
      { a.tables with
        containers := a.tables.containers ++ [⟨name, a.address, a.address, flags⟩]
        instructions :=
          a.tables.instructions ++
            [⟨.startContainer, 0, UInt32.ofNat a.tables.containers.length⟩] }
    opened := a.tables.containers.length :: a.opened }

/-- What closing the innermost container does. -/
def closing (a : Assembler) (id : Nat) (rest : List Nat) : Assembler :=
  { a with
    tables :=
      { a.tables with
        containers := a.tables.containers.modify id fun c => { c with stop := a.address }
        instructions := a.tables.instructions ++ [⟨.endContainer, 0, UInt32.ofNat id⟩] }
    opened := rest }

/-- An order opens a container, closes the innermost one or leaves containers alone. -/
theorem follow_cases
    (a : Assembler)
    {order : Order}
    (plain : order.isPlain = true) :
    (∃ named name flags, Extends a named ∧ a.follow order = named.opening name flags) ∨
      (∃ id rest, a.opened = id :: rest ∧ a.follow order = a.closing id rest) ∨
      Extends a (a.follow order) := by
  have here := Extends.refl a
  cases order with
  | beginContainer name flags =>
      cases name with
      | none =>
          exact .inl ⟨a, _, _, here, rfl⟩
      | some text =>
          exact .inl ⟨_, _, _, here.intern text, rfl⟩
  | beginKnot name | beginFunction name =>
      exact .inl ⟨_, _, _, here.intern name, rfl⟩
  | beginAnonymous =>
      exact .inl ⟨a, _, _, here, rfl⟩
  | endContainer =>
      cases innermost : a.opened with
      | nil =>
          refine .inr (.inr ?_)
          simp only [follow, endContainer, innermost]
          exact .of_same rfl rfl rfl rfl
      | cons id rest =>
          refine .inr (.inl ⟨id, rest, rfl, ?_⟩)
          simp only [follow, endContainer, innermost]
          rfl
  | emit command flag payload =>
      exact .inr (.inr (here.emit (by simpa [Order.isPlain] using plain) flag payload))
  | op command =>
      exact .inr (.inr (here.op (by simpa [Order.isPlain] using plain)))
  | list name flags =>
      exact .inr (.inr (here.list name flags))
  | global name value =>
      exact .inr (.inr (here.global name value))
  | globalString name text =>
      exact .inr (.inr ((here.intern text).global name _))
  | globalList name paths =>
      exact .inr (.inr ((here.literal paths).global name _))
  | newLabel | place =>
      exact .inr (.inr (.of_same rfl rfl rfl rfl))
  | text name | tag name | getVariable name | setVariable name | temp name
  | reassignTemp name | pointer name | divertToVariable name | callExternal name =>
      exact .inr (.inr (here.emitNamed rfl _ name))
  | line text =>
      exact .inr (.inr ((here.emitNamed rfl 0 text).op rfl))
  | int | float | bool =>
      exact .inr (.inr (here.emit rfl 0 _))
  | listValue paths =>
      exact .inr (.inr ((here.literal paths).emit rfl 0 _))
  | outputInt i =>
      exact .inr (.inr ((((here.op rfl).emit rfl 0 _).op rfl).op rfl))
  | outputVariable name =>
      exact .inr (.inr ((((here.op rfl).emitNamed rfl 0 name).op rfl).op rfl))
  | jump jump target =>
      exact .inr (.inr (here.emitJump (by cases jump <;> rfl) jump.flag target))
  | choiceText text tags target =>
      have started : Extends a (((a.op .startEval).op .startStr).text text) :=
        ((here.op rfl).op rfl).emitNamed rfl 0 text
      exact .inr (.inr ((((started.tags tags).op rfl).op rfl).emitJump rfl _ target))
  | readCount path =>
      exact .inr (.inr (here.emitJump rfl 0 (.path path)))

/-! ## Brackets -/

/--
Markers are those of containers, and containers are closed from the inside out.  `opened`
are those that have no end yet.
-/
structure Balanced (a : Assembler) : Prop where
  starts :
    ∀ {address : Nat} {flag : UInt8} {payload : UInt32},
      a.tables.instructions[address]? = some ⟨.startContainer, flag, payload⟩ →
      ∃ container,
        a.tables.containers[payload.toNat]? = some container ∧
          container.start.toNat = address
  stops :
    ∀ {address : Nat} {flag : UInt8} {payload : UInt32},
      a.tables.instructions[address]? = some ⟨.endContainer, flag, payload⟩ →
      payload.toNat ∉ a.opened ∧
        ∃ container,
          a.tables.containers[payload.toNat]? = some container ∧
            container.stop.toNat = address
  begun :
    ∀ {id : Nat} {container : StoredContainer},
      a.tables.containers[id]? = some container →
      container.start.toNat < a.tables.instructions.length
  ended :
    ∀ {id : Nat} {container : StoredContainer},
      a.tables.containers[id]? = some container →
      id ∉ a.opened →
      container.stop.toNat < a.tables.instructions.length
  /-- What starts inside a closed container is closed, and ends before it. -/
  inside :
    ∀ {outerId innerId : Nat} {outer inner : StoredContainer},
      a.tables.containers[outerId]? = some outer →
      outerId ∉ a.opened →
      a.tables.containers[innerId]? = some inner →
      outer.start < inner.start →
      inner.start < outer.stop →
      innerId ∉ a.opened ∧ inner.stop < outer.stop
  /-- The innermost open container started last. -/
  sorted :
    a.opened.Pairwise fun inner outer =>
      ∃ innerContainer outerContainer,
        a.tables.containers[inner]? = some innerContainer ∧
          a.tables.containers[outer]? = some outerContainer ∧
          outerContainer.start < innerContainer.start
  known : ∀ id ∈ a.opened, id < a.tables.containers.length
  fixups : ∀ entry ∈ a.fixups, a.Waits entry

/-- Addresses and the numbers of containers fit into words. -/
structure Fits (a : Assembler) : Prop where
  instructions : a.tables.instructions.length < UInt32.size
  containers : a.tables.containers.length < UInt32.size

theorem getElem?_snoc_iff
    {α : Type}
    {list : List α}
    {last value : α}
    {index : Nat} :
    (list ++ [last])[index]? = some value ↔
      list[index]? = some value ∨ index = list.length ∧ last = value := by
  rw [List.getElem?_append]
  split
  · next before =>
      simp [Nat.ne_of_lt before]
  · next after =>
      have none : list[index]? = none := List.getElem?_eq_none (Nat.le_of_not_lt after)
      simp only [none, reduceCtorEq, false_or, List.getElem?_singleton]
      split
      · next first =>
          simp only [Option.some.injEq]
          exact ⟨fun same => ⟨by omega, same⟩, fun both => both.2⟩
      · next beyond =>
          simp only [reduceCtorEq, false_iff, not_and]
          omega

section Closing

variable {id other : Nat} {rest : List Nat} {container : StoredContainer}

theorem closing_self
    (found : a.tables.containers[id]? = some container) :
    (a.closing id rest).tables.containers[id]? = some { container with stop := a.address } := by
  simp [closing, found]

theorem closing_other
    (different : other ≠ id) :
    (a.closing id rest).tables.containers[other]? = a.tables.containers[other]? := by
  simp [closing, different.symm]

/-- Closing a container moves no start. -/
theorem closing_start
    (found : a.tables.containers[other]? = some container) :
    ∃ after,
      after.start = container.start ∧
        (a.closing id rest).tables.containers[other]? = some after := by
  by_cases same : other = id
  · subst same
    exact ⟨{ container with stop := a.address }, rfl, closing_self found⟩
  · exact ⟨container, rfl, (closing_other same).trans found⟩

theorem start_closing
    (found : (a.closing id rest).tables.containers[other]? = some container) :
    ∃ before,
      container.start = before.start ∧ a.tables.containers[other]? = some before := by
  by_cases same : other = id
  · subst same
    cases there : a.tables.containers[other]? with
    | none =>
        simp [closing, there] at found
    | some before =>
        rw [closing_self there] at found
        cases found
        exact ⟨before, rfl, rfl⟩
  · exact ⟨container, rfl, (closing_other same).symm.trans found⟩

theorem closing_length :
    (a.closing id rest).tables.instructions.length = a.tables.instructions.length + 1 := by
  simp [closing]

end Closing

theorem opening_length
    {name : UInt32}
    {flags : UInt8} :
    (a.opening name flags).tables.instructions.length = a.tables.instructions.length + 1 := by
  simp [opening]

theorem opening_count
    {name : UInt32}
    {flags : UInt8} :
    (a.opening name flags).tables.containers.length = a.tables.containers.length + 1 := by
  simp [opening]

namespace Balanced

theorem start :
    Balanced .start := by
  constructor <;> simp [Assembler.start, Tables.empty]

/-- A marker in a longer list of instructions was there before. -/
theorem marker_of_extends
    (grown : Extends a b)
    {address : Nat}
    {instruction : Instruction}
    (here : b.tables.instructions[address]? = some instruction)
    (marker : instruction.command.isMarker = true) :
    a.tables.instructions[address]? = some instruction := by
  obtain ⟨more, shape, plain⟩ := grown.instructions
  rw [shape, List.getElem?_append] at here
  split at here
  · exact here
  · have none := plain instruction (List.mem_of_getElem? here)
    rw [marker] at none
    cases none

theorem extend
    (balanced : Balanced a)
    (grown : Extends a b) :
    Balanced b := by
  obtain ⟨more, shape, _⟩ := grown.instructions
  have longer : a.tables.instructions.length ≤ b.tables.instructions.length := by
    rw [shape, List.length_append]
    exact Nat.le_add_right _ _
  constructor
  case starts =>
    intro address flag payload here
    rw [grown.containers]
    exact balanced.starts (marker_of_extends grown here rfl)
  case stops =>
    intro address flag payload here
    rw [grown.containers, grown.opened]
    exact balanced.stops (marker_of_extends grown here rfl)
  case begun =>
    intro id container found
    rw [grown.containers] at found
    exact Nat.lt_of_lt_of_le (balanced.begun found) longer
  case ended =>
    intro id container found closed
    rw [grown.containers] at found
    rw [grown.opened] at closed
    exact Nat.lt_of_lt_of_le (balanced.ended found closed) longer
  case inside =>
    intro outerId innerId outer inner outerAt closed innerAt after before
    rw [grown.containers] at outerAt innerAt
    rw [grown.opened] at closed ⊢
    exact balanced.inside outerAt closed innerAt after before
  case sorted =>
    rw [grown.opened, grown.containers]
    exact balanced.sorted
  case known =>
    rw [grown.opened, grown.containers]
    exact balanced.known
  case fixups =>
    intro entry inside
    rcases grown.fixups entry inside with older | waits
    · exact grown.waits (balanced.fixups entry older)
    · exact waits

/-- Opening a container keeps brackets balanced. -/
theorem opening
    (balanced : Balanced a)
    (fits : a.Fits)
    (name : UInt32)
    (flags : UInt8) :
    Balanced (a.opening name flags) := by
  have address : a.address.toNat = a.tables.instructions.length :=
    UInt32.toNat_ofNat_of_lt' fits.instructions
  have number :
      (UInt32.ofNat a.tables.containers.length).toNat = a.tables.containers.length :=
    UInt32.toNat_ofNat_of_lt' fits.containers
  have kept
      {id : Nat}
      {container : StoredContainer}
      (found : a.tables.containers[id]? = some container) :
      (a.opening name flags).tables.containers[id]? = some container :=
    getElem?_snoc_iff.mpr (.inl found)
  have older
      {id : Nat}
      {container : StoredContainer}
      (found : a.tables.containers[id]? = some container) :
      id < a.tables.containers.length :=
    (List.getElem?_eq_some_iff.mp found).1
  constructor
  case starts =>
    intro here flag payload marker
    rcases getElem?_snoc_iff.mp marker with old | ⟨last, new⟩
    · obtain ⟨container, found, start⟩ := balanced.starts old
      exact ⟨container, kept found, start⟩
    · cases new
      rw [number, last]
      exact ⟨_, getElem?_snoc_iff.mpr (.inr ⟨rfl, rfl⟩), address⟩
  case stops =>
    intro here flag payload marker
    rcases getElem?_snoc_iff.mp marker with old | ⟨_, new⟩
    · obtain ⟨closed, container, found, stop⟩ := balanced.stops old
      refine ⟨?_, container, kept found, stop⟩
      exact List.not_mem_cons_of_ne_of_not_mem (Nat.ne_of_lt (older found)) closed
    · cases new
  case begun =>
    intro id container found
    rw [opening_length]
    rcases getElem?_snoc_iff.mp found with old | ⟨_, rfl⟩
    · exact Nat.lt_succ_of_lt (balanced.begun old)
    · exact Nat.lt_succ_of_le (Nat.le_of_eq address)
  case ended =>
    intro id container found closed
    obtain ⟨different, closed⟩ := List.ne_and_not_mem_of_not_mem_cons closed
    rw [opening_length]
    rcases getElem?_snoc_iff.mp found with old | ⟨last, _⟩
    · exact Nat.lt_succ_of_lt (balanced.ended old closed)
    · exact absurd last different
  case inside =>
    intro outerId innerId outer inner outerAt closed innerAt after before
    obtain ⟨different, closed⟩ := List.ne_and_not_mem_of_not_mem_cons closed
    rcases getElem?_snoc_iff.mp outerAt with outerOld | ⟨last, _⟩
    · rcases getElem?_snoc_iff.mp innerAt with innerOld | ⟨_, rfl⟩
      · obtain ⟨innerClosed, ends⟩ := balanced.inside outerOld closed innerOld after before
        have shut :=
          List.not_mem_cons_of_ne_of_not_mem (Nat.ne_of_lt (older innerOld)) innerClosed
        exact ⟨shut, ends⟩
      · have stop := balanced.ended outerOld closed
        have late := UInt32.lt_iff_toNat_lt.mp before
        rw [address] at late
        exact absurd late (Nat.lt_asymm stop)
    · exact absurd last different
  case sorted =>
    refine List.pairwise_cons.mpr ⟨?_, balanced.sorted.imp ?_⟩
    · intro outer isOpen
      have found := List.getElem?_eq_getElem (balanced.known outer isOpen)
      refine ⟨_, _, getElem?_snoc_iff.mpr (.inr ⟨rfl, rfl⟩), kept found, ?_⟩
      rw [UInt32.lt_iff_toNat_lt, address]
      exact balanced.begun found
    · rintro inner outer ⟨innerContainer, outerContainer, innerAt, outerAt, before⟩
      exact ⟨innerContainer, outerContainer, kept innerAt, kept outerAt, before⟩
  case known =>
    intro id isOpen
    rw [opening_count]
    rcases List.mem_cons.mp isOpen with rfl | older
    · exact Nat.lt_succ_self _
    · exact Nat.lt_succ_of_lt (balanced.known id older)
  case fixups =>
    intro entry waiting
    obtain ⟨instruction, here, plain⟩ := balanced.fixups entry waiting
    exact ⟨instruction, getElem?_snoc_iff.mpr (.inl here), plain⟩

/-- No container is open twice. -/
theorem opened_nodup
    (balanced : Balanced a) :
    a.opened.Nodup := by
  refine balanced.sorted.imp ?_
  rintro inner _ ⟨_, _, here, there, before⟩ rfl
  rw [here] at there
  cases there
  exact UInt32.lt_irrefl _ before

/-- What started later than the innermost open container is closed already. -/
theorem closed_of_later
    (balanced : Balanced a)
    {id other : Nat}
    {rest : List Nat}
    {innermost later : StoredContainer}
    (opened : a.opened = id :: rest)
    (here : a.tables.containers[id]? = some innermost)
    (there : a.tables.containers[other]? = some later)
    (after : innermost.start < later.start) :
    other ∉ a.opened := by
  intro isOpen
  rw [opened] at isOpen
  rcases List.mem_cons.mp isOpen with rfl | outer
  · rw [here] at there
    cases there
    exact UInt32.lt_irrefl _ after
  · have sorted := balanced.sorted
    rw [opened] at sorted
    obtain ⟨_, _, sameHere, sameThere, earlier⟩ := (List.pairwise_cons.mp sorted).1 other outer
    rw [here] at sameHere
    rw [there] at sameThere
    cases sameHere
    cases sameThere
    exact UInt32.lt_irrefl _ (UInt32.lt_trans earlier after)

/-- Closing the innermost container keeps brackets balanced. -/
theorem closing
    (balanced : Balanced a)
    (fits : a.Fits)
    {id : Nat}
    {rest : List Nat}
    (innermost : a.opened = id :: rest) :
    Balanced (a.closing id rest) := by
  have address : a.address.toNat = a.tables.instructions.length :=
    UInt32.toNat_ofNat_of_lt' fits.instructions
  have valid : id < a.tables.containers.length :=
    balanced.known id (innermost ▸ List.mem_cons_self)
  have found := List.getElem?_eq_getElem valid
  have number : (UInt32.ofNat id).toNat = id :=
    UInt32.toNat_ofNat_of_lt' (Nat.lt_trans valid fits.containers)
  have once : id ∉ rest := (List.nodup_cons.mp (innermost ▸ balanced.opened_nodup)).1
  have apart {other : Nat} : other ∉ a.opened ↔ other ≠ id ∧ other ∉ rest := by
    rw [innermost, List.mem_cons, not_or]
  constructor
  case starts =>
    intro here flag payload marker
    rcases getElem?_snoc_iff.mp marker with old | ⟨_, new⟩
    · obtain ⟨container, found, start⟩ := balanced.starts old
      obtain ⟨other, same, there⟩ := closing_start found
      exact ⟨other, there, (congrArg UInt32.toNat same).trans start⟩
    · cases new
  case stops =>
    intro here flag payload marker
    rcases getElem?_snoc_iff.mp marker with old | ⟨last, new⟩
    · obtain ⟨closed, container, found, stop⟩ := balanced.stops old
      obtain ⟨different, closed⟩ := apart.mp closed
      exact ⟨closed, container, (closing_other different).trans found, stop⟩
    · cases new
      rw [number, last]
      exact ⟨once, _, closing_self found, address⟩
  case begun =>
    intro other container found
    rw [closing_length]
    obtain ⟨before, same, there⟩ := start_closing found
    rw [same]
    exact Nat.lt_succ_of_lt (balanced.begun there)
  case ended =>
    intro other container here closed
    rw [closing_length]
    by_cases same : other = id
    · subst same
      rw [closing_self found] at here
      cases here
      exact Nat.lt_succ_of_le (Nat.le_of_eq address)
    · rw [closing_other same] at here
      exact Nat.lt_succ_of_lt (balanced.ended here (apart.mpr ⟨same, closed⟩))
  case inside =>
    intro outerId innerId outer inner outerAt closed innerAt after before
    obtain ⟨innerBefore, innerStart, innerThere⟩ := start_closing innerAt
    rw [innerStart] at after before
    by_cases same : outerId = id
    · subst same
      rw [closing_self found] at outerAt
      cases outerAt
      have shut := balanced.closed_of_later innermost found innerThere after
      obtain ⟨different, outside⟩ := apart.mp shut
      refine ⟨outside, ?_⟩
      rw [closing_other different, innerThere] at innerAt
      cases innerAt
      rw [UInt32.lt_iff_toNat_lt, address]
      exact balanced.ended innerThere shut
    · rw [closing_other same] at outerAt
      obtain ⟨shut, ends⟩ :=
        balanced.inside outerAt (apart.mpr ⟨same, closed⟩) innerThere after before
      obtain ⟨different, outside⟩ := apart.mp shut
      rw [closing_other different, innerThere] at innerAt
      cases innerAt
      exact ⟨outside, ends⟩
  case sorted =>
    have sorted := balanced.sorted
    rw [innermost] at sorted
    refine (List.pairwise_cons.mp sorted).2.imp ?_
    rintro inner outer ⟨innerContainer, outerContainer, innerAt, outerAt, before⟩
    obtain ⟨newInner, sameInner, innerThere⟩ := closing_start innerAt
    obtain ⟨newOuter, sameOuter, outerThere⟩ := closing_start outerAt
    exact ⟨newInner, newOuter, innerThere, outerThere, by rw [sameInner, sameOuter]; exact before⟩
  case known =>
    intro other isOpen
    have known := balanced.known other (innermost ▸ List.mem_cons_of_mem id isOpen)
    simpa [Assembler.closing] using known
  case fixups =>
    intro entry waiting
    obtain ⟨instruction, here, plain⟩ := balanced.fixups entry waiting
    exact ⟨instruction, getElem?_snoc_iff.mpr (.inl here), plain⟩

end Balanced

namespace Fits

/-- An assembler that fits did so before it was told more. -/
theorem of_extends
    (grown : Extends a b)
    (fits : b.Fits) :
    a.Fits := by
  obtain ⟨more, shape, _⟩ := grown.instructions
  have instructions := fits.instructions
  rw [shape, List.length_append] at instructions
  refine ⟨Nat.lt_of_le_of_lt (Nat.le_add_right _ _) instructions, ?_⟩
  rw [← grown.containers]
  exact fits.containers

theorem of_opening
    {name : UInt32}
    {flags : UInt8}
    (fits : (a.opening name flags).Fits) :
    a.Fits := by
  have instructions := fits.instructions
  have containers := fits.containers
  rw [opening_length] at instructions
  rw [opening_count] at containers
  exact ⟨Nat.lt_of_succ_lt instructions, Nat.lt_of_succ_lt containers⟩

theorem of_closing
    {id : Nat}
    {rest : List Nat}
    (fits : (a.closing id rest).Fits) :
    a.Fits := by
  have instructions := fits.instructions
  have containers := fits.containers
  rw [closing_length] at instructions
  simp only [closing, List.length_modify] at containers
  exact ⟨Nat.lt_of_succ_lt instructions, containers⟩

theorem of_follow
    {order : Order}
    (plain : order.isPlain = true)
    (fits : (a.follow order).Fits) :
    a.Fits := by
  rcases follow_cases a plain with ⟨_, _, _, grown, same⟩ | ⟨_, _, _, same⟩ | grown
  · rw [same] at fits
    exact of_extends grown fits.of_opening
  · rw [same] at fits
    exact fits.of_closing
  · exact of_extends grown fits

theorem of_foldl
    {orders : List Order}
    (plain : ∀ order ∈ orders, order.isPlain = true)
    (fits : (orders.foldl Assembler.follow a).Fits) :
    a.Fits := by
  induction orders generalizing a with
  | nil =>
      exact fits
  | cons order rest inductionHypothesis =>
      have later := inductionHypothesis
        (fun other inside => plain other (List.mem_cons_of_mem order inside)) fits
      exact of_follow (plain order List.mem_cons_self) later

end Fits

/--
What growing without containers, opening one and closing the innermost one keep is kept by
every order.
-/
theorem follow_keeps
    {motive : Assembler → Prop}
    (extend : ∀ {a b}, motive a → Extends a b → motive b)
    (opening : ∀ {a}, motive a → a.Fits → ∀ name flags, motive (a.opening name flags))
    (closing :
      ∀ {a}, motive a → a.Fits → ∀ {id rest}, a.opened = id :: rest → motive (a.closing id rest))
    (kept : motive a)
    {order : Order}
    (plain : order.isPlain = true)
    (fits : (a.follow order).Fits) :
    motive (a.follow order) := by
  rcases follow_cases a plain with
    ⟨named, name, flags, grown, same⟩ | ⟨_, _, innermost, same⟩ | grown
  · rw [same] at fits ⊢
    exact opening (extend kept grown) fits.of_opening name flags
  · rw [same] at fits ⊢
    exact closing kept fits.of_closing innermost
  · exact extend kept grown

/-- So it is kept by all orders together. -/
theorem foldl_keeps
    {motive : Assembler → Prop}
    (extend : ∀ {a b}, motive a → Extends a b → motive b)
    (opening : ∀ {a}, motive a → a.Fits → ∀ name flags, motive (a.opening name flags))
    (closing :
      ∀ {a}, motive a → a.Fits → ∀ {id rest}, a.opened = id :: rest → motive (a.closing id rest))
    (kept : motive a)
    {orders : List Order}
    (plain : ∀ order ∈ orders, order.isPlain = true)
    (fits : (orders.foldl Assembler.follow a).Fits) :
    motive (orders.foldl Assembler.follow a) := by
  induction orders generalizing a with
  | nil =>
      exact kept
  | cons order rest inductionHypothesis =>
      obtain ⟨first, others⟩ := List.forall_mem_cons.mp plain
      have followed := follow_keeps extend opening closing kept first (.of_foldl others fits)
      exact inductionHypothesis followed others fits

namespace Balanced

/-- Whatever is told keeps brackets balanced. -/
theorem foldl
    (balanced : Balanced a)
    {orders : List Order}
    (plain : ∀ order ∈ orders, order.isPlain = true)
    (fits : (orders.foldl Assembler.follow a).Fits) :
    Balanced (orders.foldl Assembler.follow a) :=
  foldl_keeps .extend .opening .closing balanced plain fits

end Balanced

/-! ## Finishing -/

/-- The same markers at the same addresses. -/
structure SameMarkers (old new : List Instruction) : Prop where
  length : new.length = old.length
  markers :
    ∀ (address : Nat) (instruction : Instruction),
      instruction.command.isMarker = true →
      (new[address]? = some instruction ↔ old[address]? = some instruction)

namespace SameMarkers

variable {old middle new : List Instruction}

theorem refl
    (old : List Instruction) :
    SameMarkers old old :=
  ⟨rfl, fun _ _ _ => Iff.rfl⟩

theorem trans
    (first : SameMarkers old middle)
    (second : SameMarkers middle new) :
    SameMarkers old new where
  length := second.length.trans first.length
  markers address instruction marker :=
    (second.markers address instruction marker).trans
      (first.markers address instruction marker)

/-- What was no marker is none. -/
theorem plainAt
    (same : SameMarkers old new)
    {address : Nat}
    (plain : PlainAt old address) :
    PlainAt new address := by
  obtain ⟨instruction, here, isPlain⟩ := plain
  have inside : address < new.length := by
    rw [same.length]
    exact (List.getElem?_eq_some_iff.mp here).1
  have there := List.getElem?_eq_getElem inside
  cases marker : (new.get ⟨address, inside⟩).command.isMarker with
  | false =>
      exact ⟨_, there, marker⟩
  | true =>
      have before := (same.markers address _ marker).mp there
      rw [here] at before
      cases before
      rw [isPlain] at marker
      cases marker

end SameMarkers

/-- A jump that waits gets a payload, and nothing else changes. -/
theorem fixup_cases
    {old new : List Instruction}
    {entry : Nat × Target}
    (fixed : a.fixup old entry = .ok new) :
    (old[entry.1]? = none ∧ new = old) ∨
      ∃ instruction payload,
        old[entry.1]? = some instruction ∧
          new = old.set entry.1 { instruction with payload := payload } := by
  simp only [fixup] at fixed
  split at fixed
  · next none =>
      cases fixed
      exact .inl ⟨none, rfl⟩
  · next instruction here =>
      cases target : a.payloadOf instruction.command entry.2 with
      | error error =>
          rw [target] at fixed
          cases fixed
      | ok payload =>
          rw [target] at fixed
          cases fixed
          exact .inr ⟨instruction, payload, here, rfl⟩

/-- A jump that gets its target is no marker before and after. -/
theorem fixup_sameMarkers
    {old new : List Instruction}
    {entry : Nat × Target}
    (waits : PlainAt old entry.1)
    (fixed : a.fixup old entry = .ok new) :
    SameMarkers old new := by
  obtain ⟨instruction, here, plain⟩ := waits
  rcases fixup_cases fixed with ⟨none, _⟩ | ⟨_, payload, found, rfl⟩
  · rw [here] at none
    cases none
  · rw [here] at found
    cases found
    refine ⟨List.length_set, fun address marker isMarker => ?_⟩
    by_cases same : entry.1 = address
    · subst same
      have inside := (List.getElem?_eq_some_iff.mp here).1
      have other : instruction.command ≠ marker.command := by
        intro equal
        rw [equal, isMarker] at plain
        cases plain
      rw [List.getElem?_set_self inside, here]
      constructor
      · rintro ⟨⟩
        exact absurd rfl other
      · rintro ⟨⟩
        exact absurd rfl other
    · rw [List.getElem?_set_ne same]

theorem fixups_sameMarkers
    {fixups : List (Nat × Target)}
    {old new : List Instruction}
    (waiting : ∀ entry ∈ fixups, PlainAt old entry.1)
    (fixed : fixups.foldlM a.fixup old = .ok new) :
    SameMarkers old new := by
  induction fixups generalizing old with
  | nil =>
      cases fixed
      exact .refl _
  | cons entry rest inductionHypothesis =>
      rw [List.foldlM_cons] at fixed
      cases first : a.fixup old entry with
      | error error =>
          rw [first] at fixed
          cases fixed
      | ok middle =>
          rw [first] at fixed
          have same := fixup_sameMarkers (waiting entry List.mem_cons_self) first
          refine same.trans (inductionHypothesis (fun other inside => ?_) fixed)
          exact same.plainAt (waiting other (List.mem_cons_of_mem entry inside))

end Assembler

/-- The markers of stored tables belong to nested containers. -/
structure Tables.Nested (tables : Tables) : Prop where
  starts :
    ∀ {address : Nat} {flag : UInt8} {payload : UInt32},
      tables.instructions[address]? = some ⟨.startContainer, flag, payload⟩ →
      ∃ container,
        tables.containers[payload.toNat]? = some container ∧ container.start.toNat = address
  stops :
    ∀ {address : Nat} {flag : UInt8} {payload : UInt32},
      tables.instructions[address]? = some ⟨.endContainer, flag, payload⟩ →
      ∃ container,
        tables.containers[payload.toNat]? = some container ∧ container.stop.toNat = address
  inside :
    ∀ outer ∈ tables.containers,
      ∀ inner ∈ tables.containers,
        outer.start < inner.start →
        inner.start < outer.stop →
        inner.stop < outer.stop

namespace Assembler

variable {a : Assembler}

/-- A balanced assembler finishes with nested containers. -/
theorem Balanced.finish
    (balanced : Balanced a)
    {tables : Tables}
    (finished : a.finish = .ok tables) :
    tables.Nested := by
  simp only [Assembler.finish] at finished
  split at finished
  · cases finished
  · cases finished
  · next closed =>
      cases fixed : a.fixups.foldlM a.fixup a.tables.instructions with
      | error error =>
          rw [fixed] at finished
          cases finished
      | ok instructions =>
          rw [fixed] at finished
          cases finished
          have same := fixups_sameMarkers balanced.fixups fixed
          constructor
          · intro address flag payload here
            exact balanced.starts ((same.markers _ _ rfl).mp here)
          · intro address flag payload here
            exact (balanced.stops ((same.markers _ _ rfl).mp here)).2
          · intro outer outerInside inner innerInside after before
            obtain ⟨outerId, outerAt⟩ := List.mem_iff_getElem?.mp outerInside
            obtain ⟨innerId, innerAt⟩ := List.mem_iff_getElem?.mp innerInside
            exact (balanced.inside outerAt (by simp [closed]) innerAt after before).2

theorem fixups_length
    {fixups : List (Nat × Target)}
    {old new : List Instruction}
    (fixed : fixups.foldlM a.fixup old = .ok new) :
    new.length = old.length := by
  induction fixups generalizing old with
  | nil =>
      cases fixed
      rfl
  | cons entry rest inductionHypothesis =>
      rw [List.foldlM_cons] at fixed
      cases first : a.fixup old entry with
      | error error =>
          rw [first] at fixed
          cases fixed
      | ok middle =>
          rw [first] at fixed
          refine (inductionHypothesis fixed).trans ?_
          rcases fixup_cases first with ⟨_, rfl⟩ | ⟨_, _, _, rfl⟩
          · rfl
          · exact List.length_set

/-- An assembler fits when the tables that it finishes with do. -/
theorem fits_of_finish
    {tables : Tables}
    (finished : a.finish = .ok tables)
    (fit : StoryFormat.TablesFit tables) :
    a.Fits := by
  simp only [finish] at finished
  split at finished
  · cases finished
  · cases finished
  · cases fixed : a.fixups.foldlM a.fixup a.tables.instructions with
    | error error =>
        rw [fixed] at finished
        cases finished
    | ok instructions =>
        rw [fixed] at finished
        cases finished
        exact ⟨fixups_length fixed ▸ fit.instructions, fit.containers⟩

/-- What an assembler is told without raw markers gives nested containers. -/
theorem finish_nested
    {orders : List Order}
    (plain : ∀ order ∈ orders, order.isPlain = true)
    (fits : (assemble orders).Fits)
    {tables : Tables}
    (finished : (assemble orders).finish = .ok tables) :
    tables.Nested :=
  Balanced.finish (Balanced.start.foldl plain fits) finished

end Assembler

/-! ## Loading -/

namespace Loader

/-- A loaded container keeps its addresses, and its markers are there. -/
structure Placed
    (instructions : Array Instruction)
    (entry : StoredContainer × Nat)
    (container : Container) :
    Prop where
  start : container.start = entry.1.start.toNat
  stop : container.stop = entry.1.stop.toNat
  ordered : container.start ≤ container.stop
  startMarker : isMarker instructions container.start .startContainer entry.2 = true
  stopMarker : isMarker instructions container.stop .endContainer entry.2 = true

theorem container_placed
    (strings : Array String)
    (instructions : Array Instruction)
    (entry : StoredContainer × Nat) :
    Yields (Placed instructions entry) (container strings instructions entry) := by
  simp only [container]
  split
  · next marked =>
      simp only [Bool.and_eq_true, decide_eq_true_eq] at marked
      obtain ⟨⟨ordered, startMarker⟩, stopMarker⟩ := marked
      split
      · exact .ok ⟨rfl, rfl, ordered, startMarker, stopMarker⟩
      · have any : Yields (fun _ => True) (string strings entry.1.name) := fun _ _ => trivial
        exact any.bind fun _ _ => .ok ⟨rfl, rfl, ordered, startMarker, stopMarker⟩
  · exact .error _

theorem exists_of_isMarker
    {instructions : Array Instruction}
    {address : Nat}
    {command : Command}
    {id : Nat}
    (marker : isMarker instructions address command id = true) :
    ∃ flag payload,
      instructions[address]? = some ⟨command, flag, payload⟩ ∧ payload.toNat = id := by
  simp only [isMarker] at marker
  cases here : instructions[address]? with
  | none =>
      simp [here] at marker
  | some instruction =>
      obtain ⟨found, flag, payload⟩ := instruction
      simp only [here, Bool.and_eq_true, beq_iff_eq] at marker
      obtain ⟨rfl, number⟩ := marker
      exact ⟨flag, payload, rfl, number⟩

end Loader

namespace Story

/-- Nested tables load as a nested story. -/
theorem ofTables_nested
    {tables : Tables}
    (nested : tables.Nested) :
    Yields Nested (ofTables tables) := by
  simp only [ofTables]
  have any {ε α : Type} (result : Except ε α) : Yields (fun _ => True) result :=
    fun _ _ => trivial
  refine (any _).bind fun defs _ => ?_
  refine (any _).bind fun literals _ => ?_
  refine (any _).bind fun globals _ => ?_
  refine
    (Yields.mapM_getElem? fun entry _ => Loader.container_placed tables.strings.toArray
      tables.instructions.toArray entry).bind fun containers made => ?_
  refine (any _).bind fun _ _ => .ok ?_
  obtain ⟨count, placed⟩ := made
  have stored
      {id : Nat}
      {container : Container}
      (found : containers[id]? = some container) :
      ∃ original,
        tables.containers[id]? = some original ∧
          Loader.Placed tables.instructions.toArray (original, id) container := by
    obtain ⟨⟨original, number⟩, here, related⟩ := placed id container found
    simp only [List.getElem?_zipIdx, Option.map_eq_some_iff, Prod.mk.injEq] at here
    obtain ⟨_, there, rfl, rfl⟩ := here
    rw [Nat.zero_add] at related
    exact ⟨_, there, related⟩
  have loaded
      {id : Nat}
      {original : StoredContainer}
      (there : tables.containers[id]? = some original) :
      ∃ container,
        containers[id]? = some container ∧
          Loader.Placed tables.instructions.toArray (original, id) container := by
    have inside : id < containers.length := by
      rw [count, List.length_zipIdx]
      exact (List.getElem?_eq_some_iff.mp there).1
    have found := List.getElem?_eq_getElem inside
    obtain ⟨other, here, related⟩ := stored found
    rw [there] at here
    cases here
    exact ⟨_, found, related⟩
  constructor
  · intro address flag payload here
    obtain ⟨original, there, start⟩ := nested.starts (by simpa [instruction?] using here)
    obtain ⟨container, found, placed⟩ := loaded there
    exact ⟨container, by simpa [container?] using found, placed.start.trans start⟩
  · intro address flag payload here
    obtain ⟨original, there, stop⟩ := nested.stops (by simpa [instruction?] using here)
    obtain ⟨container, found, placed⟩ := loaded there
    exact ⟨container, by simpa [container?] using found, placed.stop.trans stop⟩
  · intro id container found
    obtain ⟨_, _, placed⟩ := stored (by simpa using found)
    exact Loader.exists_of_isMarker placed.startMarker
  · intro id container found
    obtain ⟨_, _, placed⟩ := stored (by simpa using found)
    exact Loader.exists_of_isMarker placed.stopMarker
  · intro container inside
    obtain ⟨id, found⟩ := List.mem_iff_getElem?.mp (List.mem_toArray.mp inside)
    obtain ⟨_, _, placed⟩ := stored found
    refine Nat.lt_of_le_of_ne placed.ordered fun same => ?_
    obtain ⟨_, _, start, _⟩ := Loader.exists_of_isMarker placed.startMarker
    obtain ⟨_, _, stop, _⟩ := Loader.exists_of_isMarker placed.stopMarker
    rw [same, stop] at start
    cases start
  · intro outer outerInside inner innerInside after before
    obtain ⟨outerId, outerAt⟩ := List.mem_iff_getElem?.mp (List.mem_toArray.mp outerInside)
    obtain ⟨innerId, innerAt⟩ := List.mem_iff_getElem?.mp (List.mem_toArray.mp innerInside)
    obtain ⟨outerStored, outerThere, outerPlaced⟩ := stored outerAt
    obtain ⟨innerStored, innerThere, innerPlaced⟩ := stored innerAt
    have ends :=
      nested.inside outerStored (List.mem_of_getElem? outerThere) innerStored
        (List.mem_of_getElem? innerThere)
    simp only [UInt32.lt_iff_toNat_lt, ← outerPlaced.start, ← innerPlaced.start,
      ← outerPlaced.stop, ← innerPlaced.stop] at ends
    exact ends after before

end Story

/-- A story that was assembled without raw markers is nested when it is loaded. -/
theorem Assembler.build_nested
    {orders : List Order}
    (plain : ∀ order ∈ orders, order.isPlain = true)
    (fit : ∀ tables, (assemble orders).finish = .ok tables → StoryFormat.TablesFit tables)
    {octets : List UInt8}
    (built : (assemble orders).build = .ok octets)
    {story : Story}
    (loaded : Story.ofOctets octets = .ok story) :
    story.Nested := by
  simp only [build] at built
  cases finished : (assemble orders).finish with
  | error error =>
      rw [finished] at built
      cases built
  | ok tables =>
      rw [finished] at built
      cases built
      have small := fit tables finished
      rw [StoryFormat.ofOctets_encode small] at loaded
      have nested := finish_nested plain (fits_of_finish finished small) finished
      exact Story.ofTables_nested nested story loaded

end Fabula
