import Fabula.Proofs.Steady
import Fabula.Proofs.Telling

namespace Fabula

/-!
# Variables keep their kinds

A store evolves by writes, by speculations that are opened, kept or taken back, and by observers
that come and go.  Whoever makes these moves, and in whatever order, every variable that is
declared with a kind holds a value of that kind.  Values also come back from journals, so the
invariant speaks of the values that writes have replaced as well.
-/

/-- Variables at one position have one name. -/
theorem Declarations.name_unique
    {declarations : Declarations}
    {first second : String}
    {index : Nat}
    (one : declarations.index? first = some index)
    (other : declarations.index? second = some index) :
    first = second := by
  obtain ⟨inside, named, -⟩ := List.findIdx?_eq_some_iff_getElem.mp one
  obtain ⟨_, alike, -⟩ := List.findIdx?_eq_some_iff_getElem.mp other
  rw [← beq_iff_eq.mp named, ← beq_iff_eq.mp alike]

namespace Store

/--
What becomes of a store, move by move, when only variables at some positions are written.  An
observer that writes while it is told of a write makes its moves between those of others.
-/
inductive Evolves
    (Touched : Nat → Prop)
    (first : Store) :
    Store → Prop where
  | stay : Evolves Touched first first
  | write
      {store : Store}
      {name : String}
      {value : Value}
      {write : Write}
      (before : Evolves Touched first store)
      (prepared : store.prepare name value = .ok write)
      (touched : Touched write.index) :
      Evolves Touched first (store.apply write)
  | speculate
      {store : Store}
      (before : Evolves Touched first store) :
      Evolves Touched first store.beginSpeculation.2
  | commit
      {store : Store}
      (before : Evolves Touched first store)
      (id : Nat) :
      Evolves Touched first (store.commit id).2
  | rollback
      {store : Store}
      (before : Evolves Touched first store)
      (id : Nat) :
      Evolves Touched first (store.rollback id)
  | register
      {store : Store}
      (before : Evolves Touched first store)
      (index : Nat)
      (kind : ObserverKind)
      (callback : CallbackId) :
      Evolves Touched first (store.register index kind callback).2
  | unobserve
      {store : Store}
      (before : Evolves Touched first store)
      (id : Nat) :
      Evolves Touched first (store.unobserve id).2

theorem Evolves.trans
    {Touched : Nat → Prop}
    {first middle last : Store}
    (before : Evolves Touched first middle)
    (after : Evolves Touched middle last) :
    Evolves Touched first last := by
  induction after with
  | stay => exact before
  | write _ prepared touched inductionHypothesis =>
      exact inductionHypothesis.write prepared touched
  | speculate _ inductionHypothesis => exact inductionHypothesis.speculate
  | commit _ id inductionHypothesis => exact inductionHypothesis.commit id
  | rollback _ id inductionHypothesis => exact inductionHypothesis.rollback id
  | register _ index kind callback inductionHypothesis =>
      exact inductionHypothesis.register index kind callback
  | unobserve _ id inductionHypothesis => exact inductionHypothesis.unobserve id

theorem index_lt
    {store : Store}
    {name : String}
    {index : Nat}
    (found : store.declarations.index? name = some index) :
    index < store.declarations.globals.length :=
  (List.findIdx?_eq_some_iff_findIdx_eq.mp found).1

theorem valueAt_apply
    (store : Store)
    (write : Write)
    (index : Nat) :
    (store.apply write).valueAt index =
      if write.index = index ∧ index < store.values.length then write.new
      else store.valueAt index := by
  simp only [valueAt, apply, List.getD_eq_getElem?_getD, List.getElem?_set]
  by_cases same : write.index = index
  · subst same
    by_cases inside : write.index < store.values.length
    · simp [inside]
    · simp [inside]
  · simp [same]

/-! ## Invariants -/

/-- All values have a property of their position, also those that journals lead back to. -/
structure Holds (Good : Nat → Value → Prop) (store : Store) : Prop where
  values : ∀ index, Good index (store.valueAt index)
  journals : ∀ write ∈ store.journals.flatten, Good write.index write.old

/-- The writes of a speculation and those around it. -/
theorem flatten_journals
    (store : Store)
    (id : Nat) :
    store.journals.flatten = store.writesSince id ++ (store.journalsAround id).flatten := by
  rw [writesSince, journalsAround, ← List.flatten_append, List.take_append_drop]

namespace Holds

variable {Good : Nat → Value → Prop} {store : Store}

theorem apply
    (holds : store.Holds Good)
    {write : Write}
    (old : write.old = store.valueAt write.index)
    (new : Good write.index write.new) :
    (store.apply write).Holds Good where
  values index := by
    rw [valueAt_apply]
    split
    · next written => exact written.1 ▸ new
    · exact holds.values index
  journals later member := by
    have remembered := holds.journals
    simp only [Store.apply] at member
    cases opened : store.journals with
    | nil =>
        simp [opened, journal] at member
    | cons innermost outer =>
        rw [opened] at remembered
        simp only [opened, journal, List.flatten_cons, List.cons_append, List.mem_cons] at member
        rcases member with rfl | earlier
        · exact old ▸ holds.values _
        · exact remembered later earlier

/-- Taking writes back brings back values with the property. -/
theorem undo
    {writes : List Write}
    (remembered : ∀ write ∈ writes, Good write.index write.old)
    {values : List Value}
    (held : ∀ index, Good index (values.getD index .void)) :
    ∀ index, Good index ((writes.foldl Store.undo values).getD index .void) := by
  induction writes generalizing values with
  | nil =>
      exact held
  | cons write rest inductionHypothesis =>
      refine inductionHypothesis
        (fun other member => remembered other (List.mem_cons_of_mem write member)) fun index => ?_
      have unmoved := held index
      simp only [Store.undo, List.getD_eq_getElem?_getD, List.getElem?_set] at unmoved ⊢
      split
      · next same =>
          split
          · exact same ▸ remembered write List.mem_cons_self
          · next outside =>
              rwa [List.getElem?_eq_none (by omega)] at unmoved
      · exact unmoved

theorem rollback
    (holds : store.Holds Good)
    (id : Nat) :
    (store.rollback id).Holds Good := by
  have remembered := holds.journals
  rw [store.flatten_journals id] at remembered
  exact
    { values := undo (fun write member => remembered write (List.mem_append_left _ member))
        holds.values
      journals := fun write member => remembered write (List.mem_append_right _ member) }

theorem commit
    (holds : store.Holds Good)
    (id : Nat) :
    (store.commit id).2.Holds Good := by
  have remembered := holds.journals
  rw [store.flatten_journals id] at remembered
  simp only [Store.commit]
  cases around : store.journalsAround id with
  | nil =>
      exact ⟨holds.values, by simp⟩
  | cons innermost outer =>
      rw [around] at remembered
      exact ⟨holds.values, by simpa using remembered⟩

end Holds

namespace Evolves

variable {Touched : Nat → Prop} {first store : Store}

theorem declarations
    (evolves : Evolves Touched first store) :
    store.declarations = first.declarations := by
  induction evolves with
  | commit _ id inductionHypothesis => exact (commit_declarations _ id).trans inductionHypothesis
  | stay => rfl
  | _ => assumption

theorem length
    (evolves : Evolves Touched first store) :
    store.values.length = first.values.length := by
  have undone (writes : List Write) (values : List Value) :
      (writes.foldl Store.undo values).length = values.length := by
    induction writes generalizing values with
    | nil => rfl
    | cons write rest inductionHypothesis =>
        exact (inductionHypothesis _).trans List.length_set
  induction evolves with
  | stay => rfl
  | write _ _ _ inductionHypothesis => exact List.length_set.trans inductionHypothesis
  | commit _ id inductionHypothesis =>
      exact (congrArg List.length (commit_values _ id)).trans inductionHypothesis
  | rollback _ id inductionHypothesis => exact (undone _ _).trans inductionHypothesis
  | _ => assumption

/-- What every write upholds holds whatever becomes of a store. -/
theorem holds
    {Good : Nat → Value → Prop}
    (upheld :
      ∀ (store : Store) name value write,
        store.declarations = first.declarations →
        store.prepare name value = .ok write →
        Touched write.index →
        Good write.index write.new)
    (evolves : Evolves Touched first store)
    (holds : first.Holds Good) :
    store.Holds Good := by
  induction evolves with
  | stay => exact holds
  | write before prepared touched inductionHypothesis =>
      exact inductionHypothesis.apply (prepare_old prepared)
        (upheld _ _ _ _ before.declarations prepared touched)
  | speculate _ inductionHypothesis =>
      exact ⟨inductionHypothesis.values, inductionHypothesis.journals⟩
  | commit _ id inductionHypothesis => exact inductionHypothesis.commit id
  | rollback _ id inductionHypothesis => exact inductionHypothesis.rollback id
  | register _ index kind callback inductionHypothesis =>
      exact ⟨inductionHypothesis.values, inductionHypothesis.journals⟩
  | unobserve _ id inductionHypothesis =>
      exact ⟨inductionHypothesis.values, inductionHypothesis.journals⟩

end Evolves

/-! ## Kinds -/

end Store

/-- A value of the kind that the variable at a position is declared with, if it has one. -/
def Declarations.Admits (declarations : Declarations) (index : Nat) (value : Value) : Prop :=
  ∀ declaration,
    declarations.globals[index]? = some declaration →
    declaration.kind ≠ .void →
    value.kind = declaration.kind

namespace Store

/-- Every variable that is declared with a kind holds a value of that kind. -/
def HoldsKinds (store : Store) : Prop :=
  ∀ index, store.declarations.Admits index (store.valueAt index)

theorem start_admits
    (declarations : Declarations)
    (index : Nat) :
    declarations.Admits index ((Store.start declarations).valueAt index) := by
  intro declaration declared typed
  simp [Store.start, ofValues, valueAt, Declarations.initialValues, declared, Declaration.kind]

/-- A prepared write has a value of the declared kind. -/
theorem prepare_admits
    {store : Store}
    {name : String}
    {value : Value}
    {write : Write}
    (prepared : store.prepare name value = .ok write) :
    store.declarations.Admits write.index write.new := by
  obtain ⟨index, found, accepted, rfl⟩ := prepare_eq_ok_iff.mp prepared
  intro declaration declared typed
  have same : store.kindAt index = declaration.kind := by
    simp [kindAt, declared]
  rw [same] at accepted ⊢
  exact Value.kind_coerceTo accepted typed

/-- Whatever becomes of a new store, its variables keep their kinds. -/
theorem Evolves.holdsKinds
    {Touched : Nat → Prop}
    {declarations : Declarations}
    {store : Store}
    (evolves : Evolves Touched (.start declarations) store) :
    store.HoldsKinds := by
  have started : (Store.start declarations).Holds declarations.Admits :=
    ⟨start_admits declarations, by simp [Store.start, ofValues]⟩
  have held :=
    evolves.holds
      (fun _ _ _ _ same prepared _ => by
        have admitted := prepare_admits prepared
        rwa [same] at admitted)
      started
  intro index
  rw [evolves.declarations]
  exact held.values index

/-- A variable that is not written outside speculations keeps its value. -/
theorem Evolves.valueAt
    {first store : Store}
    {index : Nat}
    (settled : first.journals = [])
    (evolves : Evolves (· ≠ index) first store) :
    store.valueAt index = first.valueAt index := by
  have started : first.Holds fun position value =>
      position = index → value = first.valueAt index :=
    ⟨fun position same => same ▸ rfl, by simp [settled]⟩
  have held :=
    evolves.holds (fun _ _ _ _ _ _ touched same => absurd same touched) started
  exact held.values index rfl

end Store

/-! ## Hosts -/

/--
A host whose observers use a store of some declarations as everybody can, and write only variables
at some positions: what an observer leaves behind is what became of the store, move by move.
-/
def Host.Confined
    {σ : Type}
    (declarations : Declarations)
    (Touched : Nat → Prop)
    (host : Host σ) :
    Prop :=
  ∀ callback notice (world : World σ),
    world.store.declarations = declarations →
    world.store.Evolves Touched (host.notify callback notice world).2.store

namespace Host.Confined

variable {σ : Type} {declarations : Declarations} {Touched : Nat → Prop} {host : Host σ}
  {world : World σ}

theorem tell
    (confined : host.Confined declarations Touched)
    (own : world.store.declarations = declarations)
    (observer : Observer)
    (new : Value)
    (old : Option Value) :
    world.store.Evolves Touched (world.tell host observer new old).2.store := by
  simp only [World.tell]
  split
  · exact confined _ _ world own
  · exact .stay

theorem tellAll
    (confined : host.Confined declarations Touched)
    (own : world.store.declarations = declarations)
    (name : String)
    (new : Value)
    (old : Option Value)
    (observers : List Observer) :
    world.store.Evolves Touched (World.tellAll host name new old observers world).2.store := by
  refine World.tellAll_keeps (motive := fun after => world.store.Evolves Touched after.store)
    (fun observer _ after evolved => ?_) (fun _ _ evolved => evolved) .stay
  exact evolved.trans (confined.tell (evolved.declarations.trans own) observer new old)

theorem deliver
    (confined : host.Confined declarations Touched)
    (own : world.store.declarations = declarations)
    (write : Write) :
    world.store.Evolves Touched (world.deliver host write).2.store :=
  confined.tellAll own _ _ _ _

theorem deliverAll
    (confined : host.Confined declarations Touched)
    (own : world.store.declarations = declarations)
    (writes : List Write) :
    world.store.Evolves Touched (World.deliverAll host writes world).2.store := by
  refine World.deliverAll_keeps (motive := fun after => world.store.Evolves Touched after.store)
    (fun write _ after evolved => ?_) .stay
  exact evolved.trans (confined.deliver (evolved.declarations.trans own) write)

theorem assign
    (confined : host.Confined declarations Touched)
    (own : world.store.declarations = declarations)
    {name : String}
    (touched : ∀ index, declarations.index? name = some index → Touched index)
    (value : Value) :
    world.store.Evolves Touched (world.assign host name value).2.store := by
  refine World.assign_keeps (motive := fun after => world.store.Evolves Touched after.store)
    (fun write prepared => ?_) .stay
  obtain ⟨index, found, -, position⟩ := Store.prepare_eq_ok_iff.mp prepared
  have allowed : Touched write.index := by
    rw [position]
    exact touched index (own ▸ found)
  have written := Store.Evolves.stay.write prepared allowed
  let after : World σ := { world with store := world.store.apply write }
  have kept : after.store.declarations = declarations := own
  exact ⟨written, written.trans (confined.deliver kept write)⟩

theorem perform
    (confined : host.Confined declarations fun _ => True)
    (own : world.store.declarations = declarations)
    (operation : Operation) :
    world.store.Evolves (fun _ => True) (world.perform host operation).store := by
  cases operation with
  | assign name value =>
      exact confined.assign own (fun _ _ => trivial) value
  | speculate =>
      exact .speculate .stay
  | commit id =>
      have committed : world.store.Evolves (fun _ => True) (world.store.commit id).2 :=
        .commit .stay id
      let after : World σ := { world with store := (world.store.commit id).2 }
      have kept : after.store.declarations = declarations := committed.declarations.trans own
      exact committed.trans (confined.deliverAll kept (world.store.commit id).1)
  | rollback id =>
      exact .rollback .stay id

theorem observe
    (confined : host.Confined declarations Touched)
    (own : world.store.declarations = declarations)
    (name : String)
    (kind : ObserverKind)
    (callback : CallbackId) :
    world.store.Evolves Touched (world.observe host name kind callback).2.store := by
  simp only [World.observe]
  split
  · exact .stay
  · next index _ =>
      have registered : world.store.Evolves Touched (world.store.register index kind callback).2 :=
        .register .stay index kind callback
      let after : World σ := { world with store := (world.store.register index kind callback).2 }
      have kept : after.store.declarations = declarations := own
      have told :=
        registered.trans
          (confined.tell kept (world.store.register index kind callback).1
            (world.store.valueAt index) none)
      split
      · exact told
      · exact told.unobserve _

end Host.Confined

/-! ## Giving variables values -/

/-- What giving a variable a value does. -/
structure World.Assigns
    {σ : Type}
    (host : Host σ)
    (world : World σ)
    (name : String)
    (value : Value) :
    Prop where
  /-- It succeeds, observers that fail aside, if the variable is declared and accepts the value. -/
  accepted :
    (∀ error, (world.assign host name value).1 = .error error → error.isCallback = true) ↔
      ∃ index,
        world.store.declarations.index? name = some index ∧
        (world.store.kindAt index).accepts value.kind = true
  /-- The write itself brings the value to the declared kind and changes no other variable. -/
  written :
    ∀ write,
      world.store.prepare name value = .ok write →
      (world.store.apply write).get name =
          .ok (value.coerceTo (world.store.kindAt write.index)) ∧
        ∀ other ≠ write.index,
          (world.store.apply write).valueAt other = world.store.valueAt other
  /-- The variable has its new value afterwards if no observer writes it. -/
  kept :
    ∀ index,
      world.store.declarations.index? name = some index →
      (world.store.kindAt index).accepts value.kind = true →
      host.Confined world.store.declarations (· ≠ index) →
      (world.assign host name value).2.store.get name =
        .ok (value.coerceTo (world.store.kindAt index))
  /-- A refused value changes nothing, and nobody hears of it. -/
  refused :
    ∀ error,
      (world.assign host name value).1 = .error error →
      error.isCallback = false →
      (error = .unknownVariable name ∨
          ∃ declared, error = .typeMismatch name declared value.kind) ∧
        ∀ other : Host σ, world.assign other name value = (.error error, world)

namespace World

variable {σ : Type} {host : Host σ} {world : World σ} {name : String} {value : Value}

/-- A variable that observers leave alone has its new value after a write. -/
theorem valueAt_assign
    {write : Write}
    (prepared : world.store.prepare name value = .ok write)
    (confined : host.Confined world.store.declarations (· ≠ write.index)) :
    (world.assign host name value).2.store.valueAt write.index =
      (world.store.apply write).valueAt write.index := by
  simp only [assign, prepared]
  split
  · rfl
  · next settled =>
      have closed : (world.store.apply write).journals = [] := by
        simp only [Store.isSpeculating, Bool.not_eq_true', Bool.not_eq_false,
          List.isEmpty_iff] at settled
        simp [Store.apply, settled, Store.journal]
      let after : World σ := { world with store := world.store.apply write }
      have kept : after.store.declarations = world.store.declarations := rfl
      have delivered := (confined.deliver kept write).valueAt closed
      split <;> exact delivered

/-- Every write does what it should when all variables have a value. -/
theorem assigns
    (complete : world.store.values.length = world.store.declarations.globals.length)
    (confined : host.Confined world.store.declarations fun _ => True) :
    world.Assigns host name value := by
  have inside {index : Nat} (found : world.store.declarations.index? name = some index) :
      index < world.store.values.length :=
    complete ▸ Store.index_lt found
  refine ⟨⟨fun succeeds => ?_, ?_⟩, ?_, ?_, ?_⟩
  · cases prepared : world.store.prepare name value with
    | error error =>
        have failed : (world.assign host name value).1 = .error error := by
          rw [assign_of_refused prepared]
        have callback := succeeds error failed
        rcases Store.prepare_eq_error prepared with rfl | ⟨declared, rfl⟩ <;> cases callback
    | ok write =>
        obtain ⟨index, found, accepted, -⟩ := Store.prepare_eq_ok_iff.mp prepared
        exact ⟨index, found, accepted⟩
  · rintro ⟨index, found, accepted⟩ error failed
    have prepared := Store.prepare_eq_ok_iff.mpr ⟨index, found, accepted, rfl⟩
    exact isCallback_of_prepared prepared failed
  · intro write prepared
    obtain ⟨index, found, accepted, rfl⟩ := Store.prepare_eq_ok_iff.mp prepared
    refine ⟨?_, fun other apart => ?_⟩
    · have known (write : Write) : (world.store.apply write).index name = .ok index := by
        simp only [Store.index, Store.apply, found]
      simp only [Store.get, known, bind, Except.bind, pure, Except.pure, Store.valueAt_apply,
        inside found, and_self, if_true]
    · rw [Store.valueAt_apply, if_neg fun same => apart same.1.symm]
  · intro index found accepted spared
    have prepared := Store.prepare_eq_ok_iff.mpr ⟨index, found, accepted, rfl⟩
    have held := valueAt_assign prepared spared
    have declared :
        (world.assign host name value).2.store.declarations = world.store.declarations :=
      (confined.assign rfl (fun _ _ => trivial) value).declarations
    have known : (world.assign host name value).2.store.index name = .ok index := by
      simp only [Store.index, declared, found]
    simp only [Store.get, known, bind, Except.bind, pure, Except.pure, held, Store.valueAt_apply,
      inside found, and_self, if_true]
  · intro error failed other
    cases prepared : world.store.prepare name value with
    | ok write =>
        have callback := isCallback_of_prepared prepared failed
        rw [callback] at other
        cases other
    | error cause =>
        rw [assign_of_refused prepared] at failed
        obtain rfl := Except.error.inj failed
        exact ⟨Store.prepare_eq_error prepared, fun _ => assign_of_refused prepared⟩

/-- A world whose store has become what it is from the first values of some declarations. -/
def Descends (declarations : Declarations) (world : World σ) : Prop :=
  (Store.start declarations).Evolves (fun _ => True) world.store

end World

/-- A host whose functions and observers use a store of some declarations as everybody can. -/
structure Host.Orderly
    {σ : Type}
    (declarations : Declarations)
    (host : Host σ) :
    Prop where
  call :
    ∀ callback arguments (world : World σ),
      world.store.declarations = declarations →
      world.store.Evolves (fun _ => True) (host.call callback arguments world).2.store
  notify : host.Confined declarations fun _ => True

namespace World

variable {σ : Type} {host : Host σ} {declarations : Declarations} {world : World σ}

theorem Descends.own
    (descends : world.Descends declarations) :
    world.store.declarations = declarations :=
  Store.Evolves.declarations descends

/-- Every operation goes on from where a world has come to. -/
theorem Descends.perform
    (descends : world.Descends declarations)
    (orderly : host.Orderly declarations)
    (operation : Operation) :
    (world.perform host operation).Descends declarations :=
  Store.Evolves.trans descends (orderly.notify.perform descends.own operation)

theorem Descends.performAll
    (descends : world.Descends declarations)
    (orderly : host.Orderly declarations)
    (operations : List Operation) :
    (world.performAll host operations).Descends declarations := by
  induction operations generalizing world with
  | nil => exact descends
  | cons operation rest inductionHypothesis =>
      exact inductionHypothesis (descends.perform orderly operation)

theorem Descends.observe
    (descends : world.Descends declarations)
    (orderly : host.Orderly declarations)
    (name : String)
    (kind : ObserverKind)
    (callback : CallbackId) :
    (world.observe host name kind callback).2.Descends declarations :=
  Store.Evolves.trans descends (orderly.notify.observe descends.own name kind callback)

/-- A story that runs makes no other moves. -/
theorem Descends.steady
    (orderly : host.Orderly declarations)
    (setup : Setup) :
    Steady setup host (Descends declarations) where
  log _ descends := descends
  assign name value descends := descends.perform orderly (.assign name value)
  call arguments _ descends :=
    Store.Evolves.trans descends (orderly.call _ arguments _ descends.own)
  beginSpeculation descends := descends.perform orderly .speculate
  rollback id descends := descends.perform orderly (.rollback id)
  commit id descends := descends.perform orderly (.commit id)

/--
Variables keep their kinds.  Take any world that has become what it is from the first values of a
story's variables by moves of hosts, stories and observers, in any order and also in the middle of
a notice.  Every variable that is declared with a kind holds a value of that kind; more operations,
another observer or another line that is read lead to such a world again; and giving a variable a
value succeeds, observers that fail aside, if and only if it is declared with a kind that accepts
the value.
-/
theorem descends_keeps_kinds
    (orderly : host.Orderly declarations)
    (descends : world.Descends declarations) :
    world.store.HoldsKinds ∧
      (∀ operations, (world.performAll host operations).Descends declarations) ∧
      (∀ name kind callback, (world.observe host name kind callback).2.Descends declarations) ∧
      (∀ id, (world.unobserve id).2.Descends declarations) ∧
      (∀ setup fuel (play : Play σ),
        play.world = world →
        (play.getline setup host fuel).2.world.Descends declarations) ∧
      ∀ name value, world.Assigns host name value := by
  refine ⟨descends.holdsKinds, descends.performAll orderly, descends.observe orderly, ?_, ?_, ?_⟩
  · exact fun id => Store.Evolves.unobserve descends id
  · rintro setup fuel play rfl
    exact (Descends.steady orderly setup).getline fuel descends
  · intro name value
    have own := descends.own
    refine assigns ?_ (own ▸ orderly.notify)
    rw [Store.Evolves.length descends, own]
    exact List.length_map _

/-! ## An echo -/

/-- Gold, an echo of it, and something that is declared without a kind. -/
def echoDeclarations : Declarations :=
  ⟨[⟨"gold", .int 1⟩, ⟨"echo", .bool false⟩, ⟨"mood", .void⟩], ⟨#[]⟩⟩

/-- A host whose observer gives the echo a value while it is told of gold. -/
def echoHost : Host Unit where
  call _ _ world := (.ok .void, world)
  notify _ _ world := (.ok (), (world.assign idleHost "echo" (.int 7)).2)

/-- Gold is observed, and of two writes in speculations one was taken back. -/
def echoWorld : World Unit :=
  let started : World Unit := ⟨.start echoDeclarations, #[], ()⟩
  (started.observe echoHost "gold" .changed 0).2.performAll echoHost
    [.speculate, .assign "gold" (.bool true), .speculate, .assign "gold" (.int 9), .rollback 1,
      .commit 0]

/-- The observer writes the echo and nothing else. -/
theorem echoHost_confined
    {Touched : Nat → Prop}
    (echoes : Touched 1) :
    echoHost.Confined echoDeclarations Touched := by
  intro callback notice world own
  have silent : idleHost.Confined echoDeclarations Touched := fun _ _ _ _ => .stay
  refine silent.assign own (fun index found => ?_) (.int 7)
  have position : echoDeclarations.index? "echo" = some 1 := by decide
  obtain rfl := Option.some.inj (position.symm.trans found)
  exact echoes

theorem descends_keeps_kinds_echo :
    echoHost.Orderly echoDeclarations ∧
      echoWorld.Descends echoDeclarations ∧
      echoWorld.store.values = [.int 1, .bool true, .void] ∧
      echoWorld.store.HoldsKinds ∧
      (echoWorld.assign echoHost "gold" (.bool false)).2.store.get "gold" = .ok (.int 0) ∧
      (echoWorld.assign echoHost "gold" (.str "none")).2 = echoWorld := by
  have orderly : echoHost.Orderly echoDeclarations :=
    ⟨fun _ _ _ _ => .stay, echoHost_confined trivial⟩
  have started : Descends echoDeclarations (⟨.start echoDeclarations, #[], ()⟩ : World Unit) :=
    .stay
  have descends : echoWorld.Descends echoDeclarations :=
    (started.observe orderly "gold" .changed 0).performAll orderly _
  obtain ⟨kinds, -, -, -, -, assigns⟩ := descends_keeps_kinds orderly descends
  have gold : echoWorld.store.declarations.index? "gold" = some 0 := by decide +kernel
  have accepted : (echoWorld.store.kindAt 0).accepts (Value.bool false).kind = true := by
    decide +kernel
  have spared : echoHost.Confined echoWorld.store.declarations (· ≠ 0) :=
    descends.own ▸ echoHost_confined (by decide)
  have refused :
      (echoWorld.assign echoHost "gold" (.str "none")).1 =
        .error (.typeMismatch "gold" .int .string) :=
    rfl
  refine ⟨orderly, descends, by decide +kernel, kinds, ?_, ?_⟩
  · exact (assigns "gold" (.bool false)).kept 0 gold accepted spared
  · have unmoved := ((assigns "gold" (.str "none")).refused _ refused rfl).2 echoHost
    rw [unmoved]

end World

end Fabula
