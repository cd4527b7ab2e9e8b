import Fabula.Proofs.Speculation
import Fabula.Proofs.Telling

namespace Fabula

/-!
# Notices of kept writes

A write is kept when no speculation around it is taken back after it.  Whenever no
speculation is open, observers have been told of exactly the kept writes, each one once
and in the order of the writes.  For every variable these writes form a chain from the
value that it had at first to the value that it has now.

The proof follows the writes that wait in journals.  Every operation delivers the oldest
part of what is waiting and will be kept, and leaves the rest waiting.
-/

/--
Whether the operations after a write keep it, when the given number of the speculations
around it are still open.
-/
def Operation.keep (around : Nat) : List Operation → Bool
  | [] => true
  | .assign .. :: rest | .speculate :: rest => keep around rest
  | .commit id :: rest => keep (min around id) rest
  | .rollback id :: rest => decide (around ≤ id) && keep around rest

/-- A write outside all speculations is kept. -/
@[simp]
theorem Operation.keep_zero
    (operations : List Operation) :
    keep 0 operations = true := by
  induction operations with
  | nil =>
      rfl
  | cons operation rest inductionHypothesis =>
      cases operation <;> simpa [keep] using inductionHypothesis

/--
Writes to one variable that lead from a value to another: each one replaces the value
that the one before it has written.
-/
inductive Chain : Value → List Write → Value → Prop where
  | nil (value : Value) : Chain value [] value
  | cons
      (write : Write)
      {rest : List Write}
      {last : Value}
      (later : Chain write.new rest last) :
      Chain write.old (write :: rest) last

/-! ## Values and writes -/

namespace Store

/-- Writes that lead from values to others, each one replacing the value before it. -/
def Leads : List Value → List Write → List Value → Prop
  | values, [], last => values = last
  | values, write :: rest, last =>
      write.old = values.getD write.index .void ∧
        Leads (values.set write.index write.new) rest last

namespace Leads

variable {first middle last : List Value} {writes later : List Write}

theorem append
    (before : Leads first writes middle)
    (after : Leads middle later last) :
    Leads first (writes ++ later) last := by
  induction writes generalizing first with
  | nil =>
      exact before ▸ after
  | cons write rest inductionHypothesis =>
      exact ⟨before.1, inductionHypothesis before.2⟩

theorem split
    (leads : Leads first (writes ++ later) last) :
    ∃ middle, Leads first writes middle ∧ Leads middle later last := by
  induction writes generalizing first with
  | nil =>
      exact ⟨first, rfl, leads⟩
  | cons write rest inductionHypothesis =>
      obtain ⟨middle, before, after⟩ := inductionHypothesis leads.2
      exact ⟨middle, ⟨leads.1, before⟩, after⟩

/-- Taking the writes back, the latest first, leads back. -/
theorem undo
    (leads : Leads first writes last) :
    writes.reverse.foldl Store.undo last = first := by
  induction writes generalizing first with
  | nil =>
      exact leads.symm
  | cons write rest inductionHypothesis =>
      have restored : first.set write.index (first.getD write.index .void) = first :=
        set_valueAt (.ofValues ⟨[], ⟨#[]⟩⟩ first) write.index
      simp only [List.reverse_cons, List.foldl_append, inductionHypothesis leads.2,
        List.foldl_cons, List.foldl_nil, Store.undo, List.set_set, leads.1, restored]

/-- The writes to one variable form a chain. -/
theorem chain
    (leads : Leads first writes last)
    {index : Nat}
    (inside : index < first.length) :
    Chain (first.getD index .void)
      (writes.filter fun write => write.index == index)
      (last.getD index .void) := by
  induction writes generalizing first with
  | nil =>
      exact leads ▸ .nil _
  | cons write rest inductionHypothesis =>
      have others := inductionHypothesis leads.2 (by simpa using inside)
      by_cases own : write.index = index
      · have written : (first.set write.index write.new).getD index .void = write.new := by
          simp [own, inside]
        rw [written] at others
        have replaced : write.old = first.getD index .void := own ▸ leads.1
        rw [← replaced, List.filter_cons_of_pos (by simpa using own)]
        exact .cons write others
      · have untouched :
            (first.set write.index write.new).getD index .void = first.getD index .void := by
          simp [own]
        rw [untouched] at others
        rwa [List.filter_cons_of_neg (by simpa using own)]

end Leads

/-! ## Operations on a store -/

/-- What an operation does to a store whose observers leave it alone. -/
def perform (store : Store) : Operation → Store
  | .assign name value =>
      match store.prepare name value with
      | .ok write => store.apply write
      | .error _ => store
  | .speculate => store.beginSpeculation.2
  | .commit id => (store.commit id).2
  | .rollback id => store.rollback id

/-- The write that an operation carries out, if it is one that succeeds. -/
def written? (store : Store) : Operation → Option Write
  | .assign name value => (store.prepare name value).toOption
  | _ => none

/-- The writes that observers are told of when an operation is carried out. -/
def delivered (store : Store) : Operation → List Write
  | .assign name value =>
      if store.isSpeculating then [] else (store.prepare name value).toOption.toList
  | .commit id => (store.commit id).1
  | .speculate | .rollback _ => []

@[simp]
theorem perform_observers
    (store : Store)
    (operation : Operation) :
    (store.perform operation).observers = store.observers := by
  cases operation with
  | assign name value =>
      simp only [perform]
      split <;> rfl
  | speculate | rollback =>
      rfl
  | commit id =>
      exact store.commit_observers id

/-! ## Waiting writes -/

/-- The waiting writes of journals that operations will keep, oldest first. -/
def waiting : List (List Write) → List Operation → List Write
  | [], _ => []
  | innermost :: outer, operations =>
      waiting outer operations ++
        if Operation.keep (outer.length + 1) operations then innermost.reverse else []

/-- Only what becomes of the open speculations matters. -/
theorem waiting_congr
    {journals : List (List Write)}
    {left right : List Operation}
    (same :
      ∀ around ≤ journals.length,
        Operation.keep around left = Operation.keep around right) :
    waiting journals left = waiting journals right := by
  induction journals with
  | nil =>
      rfl
  | cons innermost outer inductionHypothesis =>
      simp only [waiting, same _ (Nat.le_refl _ : outer.length + 1 ≤ _),
        inductionHypothesis fun around bound => same around (Nat.le_succ_of_le bound)]

/-- Inner journals that share one fate are kept or dropped as a whole. -/
theorem waiting_append
    {inner outer : List (List Write)}
    {operations : List Operation}
    {kept : Bool}
    (fate :
      ∀ around,
        outer.length < around →
        around ≤ inner.length + outer.length →
        Operation.keep around operations = kept) :
    waiting (inner ++ outer) operations =
      waiting outer operations ++ if kept then inner.flatten.reverse else [] := by
  induction inner with
  | nil =>
      simp
  | cons innermost rest inductionHypothesis =>
      have size : (innermost :: rest).length + outer.length = rest.length + outer.length + 1 := by
        rw [List.length_cons, Nat.add_right_comm]
      have own := fate (rest.length + outer.length + 1) (by omega) (Nat.le_of_eq size.symm)
      have others := inductionHypothesis fun around above below =>
        fate around above (by omega)
      simp only [List.cons_append, waiting, others, List.length_append, own]
      cases kept <;> simp

/-- Closing a speculation decides on its journal and on those inside it. -/
theorem waiting_close
    (store : Store)
    (id : Nat)
    (operation : Operation)
    (rest : List Operation)
    (kept : Bool)
    (inside : ∀ around, id < around → Operation.keep around (operation :: rest) = kept)
    (outside :
      ∀ around ≤ id,
        Operation.keep around (operation :: rest) = Operation.keep around rest) :
    waiting store.journals (operation :: rest) =
      waiting (store.journalsAround id) rest ++
        if kept then (store.writesSince id).reverse else [] := by
  have size : (store.journalsAround id).length ≤ id := by
    simp only [journalsAround, List.length_drop]
    omega
  have parts :
      store.journals.take (store.journals.length - id) ++ store.journalsAround id =
        store.journals :=
    List.take_append_drop _ _
  have unmoved :
      waiting (store.journalsAround id) (operation :: rest) =
        waiting (store.journalsAround id) rest :=
    waiting_congr fun around bound => outside around (Nat.le_trans bound size)
  rw [← unmoved, writesSince]
  conv => lhs; rw [← parts]
  refine waiting_append fun around above below => inside around ?_
  simp only [journalsAround, List.length_take, List.length_drop] at above below
  omega

/--
An operation delivers the oldest of the writes that are kept, and leaves the others
waiting.  Its own write is the latest.
-/
theorem waiting_perform
    (store : Store)
    (operation : Operation)
    (rest : List Operation) :
    waiting store.journals (operation :: rest) ++
        (store.written? operation).toList.filter
          (fun _ => Operation.keep store.journals.length rest) =
      store.delivered operation ++ waiting (store.perform operation).journals rest := by
  cases operation with
  | assign name value =>
      have unmoved :
          waiting store.journals (.assign name value :: rest) = waiting store.journals rest :=
        waiting_congr fun _ _ => rfl
      simp only [unmoved, written?, delivered, perform]
      cases store.prepare name value with
      | error error =>
          simp [Except.toOption]
      | ok write =>
          cases journals : store.journals with
          | nil =>
              simp [Except.toOption, isSpeculating, journals, waiting, apply, journal]
          | cons innermost outer =>
              simp only [Except.toOption, isSpeculating, journals, waiting, apply, journal,
                List.length_cons, Option.toList_some, List.isEmpty_cons, Bool.not_false,
                if_true, List.nil_append, List.append_assoc]
              cases Operation.keep (outer.length + 1) rest <;> simp
  | speculate =>
      have unmoved :
          waiting store.journals (.speculate :: rest) = waiting store.journals rest :=
        waiting_congr fun _ _ => rfl
      simp [unmoved, written?, delivered, perform, beginSpeculation, waiting]
  | commit id =>
      have closed :=
        store.waiting_close id (.commit id) rest (Operation.keep id rest)
          (fun around inside => by simp [Operation.keep, Nat.min_eq_right (Nat.le_of_lt inside)])
          (fun around outside => by simp [Operation.keep, Nat.min_eq_left outside])
      -- A speculation that is not open has no writes to keep.
      have shape : store.writesSince id = [] ∨ (store.journalsAround id).length = id := by
        rcases Nat.lt_or_ge store.journals.length id with outside | inside
        · left
          simp [writesSince, Nat.sub_eq_zero_of_le (Nat.le_of_lt outside)]
        · right
          simp only [journalsAround, List.length_drop]
          omega
      simp only [closed, written?, delivered, perform, commit, Option.toList_none,
        List.filter_nil, List.append_nil]
      cases around : store.journalsAround id with
      | nil =>
          rcases shape with nothing | size
          · simp [waiting, nothing]
          · have outermost : id = 0 := by simpa [around] using size.symm
            simp [waiting, outermost]
      | cons innermost outer =>
          rcases shape with nothing | size
          · simp [waiting, nothing]
          · have number : outer.length + 1 = id := by simpa [around] using size
            simp only [waiting, number, List.nil_append, List.reverse_append,
              List.append_assoc]
            cases Operation.keep id rest <;> simp
  | rollback id =>
      have closed :=
        store.waiting_close id (.rollback id) rest false
          (fun around inside => by simp [Operation.keep, Nat.not_le_of_lt inside])
          (fun around outside => by simp [Operation.keep, outside])
      simp [closed, written?, delivered, perform, rollback]

/-! ## Values before all speculations -/

/--
An operation carries on from where the waiting writes began: what it delivers leads to
the new beginning.
-/
theorem Leads.perform
    {store : Store}
    {first : List Value}
    (leads : Leads first store.journals.flatten.reverse store.values)
    (operation : Operation) :
    ∃ next,
      Leads first (store.delivered operation) next ∧
        Leads next (store.perform operation).journals.flatten.reverse
          (store.perform operation).values := by
  have parts (id : Nat) :
      store.journals.flatten.reverse =
        (store.journalsAround id).flatten.reverse ++ (store.writesSince id).reverse := by
    rw [← List.reverse_append, writesSince, journalsAround, ← List.flatten_append,
      List.take_append_drop]
  cases operation with
  | assign name value =>
      simp only [delivered, Store.perform]
      cases prepared : store.prepare name value with
      | error error =>
          exact ⟨first, by simp [Except.toOption, Leads], leads⟩
      | ok write =>
          have own : Leads store.values [write] (store.apply write).values :=
            ⟨prepare_old prepared, rfl⟩
          cases journals : store.journals with
          | nil =>
              rw [journals] at leads
              have unmoved : first = store.values := leads
              subst unmoved
              refine ⟨(store.apply write).values, ?_, ?_⟩
              · simpa [isSpeculating, journals, Except.toOption] using own
              · simp [apply, journals, journal, Leads]
          | cons innermost outer =>
              refine ⟨first, by simp [isSpeculating, journals, Leads], ?_⟩
              rw [journals] at leads
              simpa [apply, journals, journal] using leads.append own
  | speculate =>
      exact ⟨first, rfl, by simpa [Store.perform, beginSpeculation] using leads⟩
  | commit id =>
      simp only [delivered, Store.perform, commit_values]
      simp only [commit]
      rw [parts id] at leads
      cases around : store.journalsAround id with
      | nil =>
          exact ⟨store.values, by simpa [around] using leads, rfl⟩
      | cons innermost outer =>
          exact ⟨first, rfl, by simpa [around] using leads⟩
  | rollback id =>
      rw [parts id] at leads
      obtain ⟨middle, before, since⟩ := leads.split
      have back := since.undo
      rw [List.reverse_reverse] at back
      refine ⟨first, rfl, ?_⟩
      simpa [Store.perform, rollback, back] using before

end Store

/-- What an observer is told of a write, with its callback. -/
def World.heard? (new : Value) (old : Option Value) (observer : Observer) :
    Option (CallbackId × Notice) :=
  (noticeOf observer.kind new old).map (observer.callback, ·)

namespace Store

/-- What observers are told of a write, in the order of their registration. -/
def notices (store : Store) (write : Write) : List (CallbackId × Notice) :=
  (store.observersOf write.index).filterMap (World.heard? write.new (some write.old))

/-- Notices depend on the observers of a store only. -/
theorem notices_congr
    {left right : Store}
    (same : left.observers = right.observers) :
    left.notices = right.notices := by
  funext write
  simp only [notices, observersOf, same]

end Store

/-! ## Recording hosts -/

variable {σ : Type}

/-- The world of a host that keeps a record of what its observers are told, oldest first. -/
def World.recorded (world : World σ) (record : List (CallbackId × Notice)) :
    World (σ × List (CallbackId × Notice)) :=
  ⟨world.store, world.log, (world.host, record)⟩

/-- A world without its record. -/
def World.unrecorded (world : World (σ × List (CallbackId × Notice))) : World σ :=
  ⟨world.store, world.log, world.host.1⟩

namespace Host

/-- A host that does what another one does, and records what its observers are told. -/
def recording (host : Host σ) : Host (σ × List (CallbackId × Notice)) where
  call callback arguments world :=
    let called := host.call callback arguments world.unrecorded
    (called.1, called.2.recorded world.host.2)
  notify callback notice world :=
    let notified := host.notify callback notice world.unrecorded
    (notified.1, notified.2.recorded (world.host.2 ++ [(callback, notice)]))

/-- A host whose observers leave the store alone. -/
def Aloof (host : Host σ) : Prop :=
  ∀ callback notice (world : World σ),
    (host.notify callback notice world).2.store = world.store

end Host

namespace World

variable {host : Host σ}

/-- Telling an observer adds to the record what it is told. -/
theorem tell_recording
    (world : World σ)
    (record : List (CallbackId × Notice))
    (observer : Observer)
    (new : Value)
    (old : Option Value) :
    (world.recorded record).tell host.recording observer new old =
      ((world.tell host observer new old).1,
        (world.tell host observer new old).2.recorded
          (record ++ (heard? new old observer).toList)) := by
  simp only [tell, heard?]
  cases noticeOf observer.kind new old with
  | none => simp
  | some notice => rfl

/-- Telling observers adds to the record what they are told. -/
theorem tellAll_recording
    (world : World σ)
    (record : List (CallbackId × Notice))
    (name : String)
    (new : Value)
    (old : Option Value)
    (observers : List Observer) :
    tellAll host.recording name new old observers (world.recorded record) =
      ((tellAll host name new old observers world).1,
        (tellAll host name new old observers world).2.recorded
          (record ++ observers.filterMap (heard? new old))) := by
  induction observers generalizing world record with
  | nil =>
      simp [tellAll]
  | cons observer rest inductionHypothesis =>
      have split :
          (observer :: rest).filterMap (heard? new old) =
            (heard? new old observer).toList ++ rest.filterMap (heard? new old) := by
        rw [List.filterMap_cons]
        cases heard? new old observer <;> rfl
      simp only [tellAll, tell_recording, split, ← List.append_assoc]
      cases (world.tell host observer new old).1 with
      | ok _ =>
          exact inductionHypothesis _ _
      | error failure =>
          have others :=
            inductionHypothesis
              ((world.tell host observer new old).2.record (observerFailed name failure))
              (record ++ (heard? new old observer).toList)
          exact congrArg (fun told => (some (Error.callback name failure), told.2)) others

theorem deliver_recording
    (world : World σ)
    (record : List (CallbackId × Notice))
    (write : Write) :
    (world.recorded record).deliver host.recording write =
      ((world.deliver host write).1,
        (world.deliver host write).2.recorded (record ++ world.store.notices write)) :=
  world.tellAll_recording record _ _ _ _

section View

variable {α : Type} (view : Store → α)

/-- What no observer changes of a store stays as it is when one is told. -/
theorem tell_view
    (kept :
      ∀ callback notice (world : World σ),
        view (host.notify callback notice world).2.store = view world.store)
    (world : World σ)
    (observer : Observer)
    (new : Value)
    (old : Option Value) :
    view (world.tell host observer new old).2.store = view world.store := by
  simp only [tell]
  split
  · exact kept _ _ world
  · rfl

/-- So it does when all are told. -/
theorem tellAll_view
    (kept :
      ∀ callback notice (world : World σ),
        view (host.notify callback notice world).2.store = view world.store)
    (world : World σ)
    (name : String)
    (new : Value)
    (old : Option Value)
    (observers : List Observer) :
    view (tellAll host name new old observers world).2.store = view world.store :=
  tellAll_keeps (motive := fun after => view after.store = view world.store)
    (fun observer _ after same => (tell_view view kept after observer new old).trans same)
    (fun _ _ same => same) rfl

end View

/-- Observers of an aloof host leave the store alone. -/
theorem tellAll_store
    (aloof : host.Aloof)
    (world : World σ)
    (name : String)
    (new : Value)
    (old : Option Value)
    (observers : List Observer) :
    (tellAll host name new old observers world).2.store = world.store :=
  tellAll_view id aloof world name new old observers

theorem deliver_store
    (aloof : host.Aloof)
    (world : World σ)
    (write : Write) :
    (world.deliver host write).2.store = world.store :=
  tellAll_store aloof world _ _ _ _

theorem deliverAll_store
    (aloof : host.Aloof)
    (world : World σ)
    (writes : List Write) :
    (deliverAll host writes world).2.store = world.store :=
  deliverAll_keeps (motive := fun after => after.store = world.store)
    (fun write _ after same => (after.deliver_store aloof write).trans same) rfl

/-- Delivering writes adds to the record what observers are told of each. -/
theorem deliverAll_recording
    (aloof : host.Aloof)
    (world : World σ)
    (record : List (CallbackId × Notice))
    (writes : List Write) :
    deliverAll host.recording writes (world.recorded record) =
      ((deliverAll host writes world).1,
        (deliverAll host writes world).2.recorded
          (record ++ writes.flatMap world.store.notices)) := by
  induction writes generalizing world record with
  | nil =>
      simp [deliverAll]
  | cons write rest inductionHypothesis =>
      have others := inductionHypothesis (world.deliver host write).2
      rw [world.deliver_store aloof write] at others
      simp only [deliverAll, deliver_recording, others, List.flatMap_cons, List.append_assoc]

/-- An operation changes the store as if nobody observed it. -/
theorem perform_store
    (aloof : host.Aloof)
    (world : World σ)
    (operation : Operation) :
    (world.perform host operation).store = world.store.perform operation := by
  cases operation with
  | assign name value =>
      simp only [World.perform, Store.perform, assign]
      cases world.store.prepare name value with
      | error error =>
          rfl
      | ok write =>
          simp only
          split
          · rfl
          · split <;> exact deliver_store aloof _ write
  | speculate | rollback =>
      rfl
  | commit id =>
      exact deliverAll_store aloof _ _

/-- An operation adds to the record what observers are told of the writes it delivers. -/
theorem perform_recording
    (aloof : host.Aloof)
    (world : World σ)
    (record : List (CallbackId × Notice))
    (operation : Operation) :
    (world.recorded record).perform host.recording operation =
      (world.perform host operation).recorded
        (record ++ (world.store.delivered operation).flatMap world.store.notices) := by
  cases operation with
  | assign name value =>
      have sameStore : (world.recorded record).store = world.store := rfl
      simp only [World.perform, assign, Store.delivered, sameStore]
      cases world.store.prepare name value with
      | error error =>
          simp [Except.toOption]
      | ok write =>
          have told :=
            @deliver_recording σ host { world with store := world.store.apply write } record write
          have sameNotices : (world.store.apply write).notices = world.store.notices :=
            Store.notices_congr rfl
          cases world.store.isSpeculating with
          | true =>
              simp [recorded]
          | false =>
              simp only [recorded, sameNotices] at told
              simp only [recorded, told, Except.toOption, Bool.false_eq_true, if_false,
                Option.toList_some, List.flatMap_cons, List.flatMap_nil, List.append_nil]
              generalize World.deliver host write { world with store := world.store.apply write } =
                delivered
              obtain ⟨failed, after⟩ := delivered
              cases failed with
              | none => rfl
              | some error => rfl
  | speculate =>
      simp [World.perform, Store.delivered, recorded, beginSpeculation]
  | rollback id =>
      simp [World.perform, Store.delivered, recorded, rollback]
  | commit id =>
      have told :=
        deliverAll_recording aloof { world with store := (world.store.commit id).2 } record
          (world.store.commit id).1
      rw [Store.notices_congr (world.store.commit_observers id)] at told
      exact congrArg Prod.snd told

/-! ## Kept writes -/

/-- The writes that operations carry out and do not take back, in order. -/
def keptWrites (host : Host σ) : World σ → List Operation → List Write
  | _, [] => []
  | world, operation :: rest =>
      (world.store.written? operation).toList.filter
          (fun _ => Operation.keep world.store.journals.length rest) ++
        keptWrites host (world.perform host operation) rest

/--
When no speculation is open in the end, the writes that were waiting and the writes since
have been delivered in order, as far as they are kept, and lead to the present values.
-/
theorem performAll_delivers
    (aloof : host.Aloof)
    {world : World σ}
    {operations : List Operation}
    (closed : (world.performAll host operations).store.journals = [])
    (record : List (CallbackId × Notice))
    {first : List Value}
    (leads : Store.Leads first world.store.journals.flatten.reverse world.store.values) :
    let delivered :=
      Store.waiting world.store.journals operations ++ world.keptWrites host operations
    (world.recorded record).performAll host.recording operations =
        (world.performAll host operations).recorded
          (record ++ delivered.flatMap world.store.notices) ∧
      Store.Leads first delivered (world.performAll host operations).store.values := by
  induction operations generalizing world record first with
  | nil =>
      have settled : world.store.journals = [] := closed
      rw [settled] at leads ⊢
      exact ⟨by simp [performAll, keptWrites, Store.waiting], leads⟩
  | cons operation rest inductionHypothesis =>
      obtain ⟨next, before, after⟩ := leads.perform operation
      have store := world.perform_store aloof operation
      rw [← store] at after
      obtain ⟨recorded, leadsToEnd⟩ :=
        inductionHypothesis closed
          (record ++ (world.store.delivered operation).flatMap world.store.notices) after
      have order :
          Store.waiting world.store.journals (operation :: rest) ++
              world.keptWrites host (operation :: rest) =
            world.store.delivered operation ++
              (Store.waiting (world.perform host operation).store.journals rest ++
                (world.perform host operation).keptWrites host rest) := by
        rw [keptWrites, ← List.append_assoc, Store.waiting_perform, store, List.append_assoc]
      have sameNotices : (world.perform host operation).store.notices = world.store.notices := by
        rw [store]
        exact Store.notices_congr (world.store.perform_observers operation)
      rw [sameNotices, List.append_assoc, ← List.flatMap_append, ← order] at recorded
      refine ⟨?_, order ▸ before.append leadsToEnd⟩
      simp only [performAll, List.foldl_cons, perform_recording aloof] at recorded ⊢
      exact recorded

/--
Every kept write is notified once and in order, and no write that is taken back is.
Whatever is written, opened, kept or taken back over a store whose observers leave it
alone: when no speculation is open, what observers have been told so far are the notices
of the kept writes, in the order of the writes.  For every variable the kept writes form
a chain from the value that it had at first to the value that it has now.
-/
theorem performAll_notifies_keptWrites
    (host : Host σ)
    (aloof : host.Aloof)
    (world : World σ)
    (settled : world.store.journals = [])
    (operations : List Operation)
    (closed : (world.performAll host operations).store.journals = []) :
    (world.recorded []).performAll host.recording operations =
        (world.performAll host operations).recorded
          ((world.keptWrites host operations).flatMap world.store.notices) ∧
      ∀ index < world.store.values.length,
        Chain (world.store.valueAt index)
          ((world.keptWrites host operations).filter fun write => write.index == index)
          ((world.performAll host operations).store.valueAt index) := by
  have unmoved :
      Store.Leads world.store.values world.store.journals.flatten.reverse
        world.store.values := by
    simp [settled, Store.Leads]
  obtain ⟨recorded, leads⟩ := performAll_delivers aloof closed [] unmoved
  simp only [settled, Store.waiting, List.nil_append] at recorded leads
  exact ⟨recorded, fun index inside => leads.chain inside⟩

/--
Gold is written outside and inside speculations of which one is kept, one is taken back
and one is kept inside one that is taken back; the observer hears of the first two writes.
-/
theorem performAll_notifies_purse :
    let purse : Store :=
      { Store.start ⟨[⟨"gold", .int 1⟩, ⟨"name", .str "Sam"⟩], ⟨#[]⟩⟩ with
        observers := [⟨0, 0, .changed, 7⟩, ⟨1, 0, .delta, 8⟩]
        nextObserver := 2 }
    let host : Host Nat :=
      { call := fun _ _ world => (.ok .void, world)
        notify := fun _ _ world => (.ok (), { world with host := world.host + 1 }) }
    let world : World Nat := ⟨purse, #[], 0⟩
    let operations : List Operation :=
      [.assign "gold" (.int 2), .assign "name" (.int 2), .speculate, .speculate,
        .assign "gold" (.int 2), .commit 1, .speculate, .assign "gold" (.int 4), .rollback 1,
        .commit 0, .speculate, .speculate, .assign "gold" (.int 5), .commit 1, .rollback 0]
    host.Aloof ∧
      world.store.journals = [] ∧
      (world.performAll host operations).store.journals = [] ∧
      ((world.recorded []).performAll host.recording operations).host.2 =
        [(7, .changed (.int 2) (some (.int 1))), (8, .delta (.int 2) (.int 1)),
          (7, .changed (.int 2) (some (.int 2)))] ∧
      Chain (.int 1) [⟨0, .int 2, .int 1⟩, ⟨0, .int 2, .int 2⟩] (.int 2) := by
  intro purse host world operations
  have aloof : host.Aloof := fun _ _ _ => rfl
  have closed : (world.performAll host operations).store.journals = [] := by decide +kernel
  obtain ⟨recorded, chain⟩ :=
    performAll_notifies_keptWrites host aloof world rfl operations closed
  have kept :
      world.keptWrites host operations = [⟨0, .int 2, .int 1⟩, ⟨0, .int 2, .int 2⟩] := by
    decide +kernel
  have last : (world.performAll host operations).store.valueAt 0 = .int 2 := by decide +kernel
  have gold := chain 0 (by decide)
  rw [kept, last] at gold
  refine ⟨aloof, rfl, closed, ?_, gold⟩
  rw [recorded, kept]
  decide +kernel

end World

end Fabula
