import Fabula.Proofs.Notification
import Fabula.Proofs.References

namespace Fabula

/-!
# Observation

What a store has been asked and what it has answered tells who observes it: a subscription
is live when its registration was answered with a number and no removal of that number has
been confirmed.  Every write is told to the live subscriptions of its variable, whatever they
answer, and to nobody else.  The proof keeps the observers of the store in step with the live
subscriptions of the transcript.
-/

/-- What the program around a story asks of its variables. -/
inductive Dealing where
  | observe (name : String) (kind : ObserverKind) (callback : CallbackId)
  | unobserve (id : Nat)
  | assign (name : String) (value : Value)

/-- What it is answered. -/
inductive Answer where
  | observed (result : Except Error Nat)
  | unobserved (found : Bool)
  | assigned (result : Except Error Unit)

/-- What was asked and answered, oldest first. -/
abbrev Transcript :=
  List (Dealing × Answer)

/-- A registration by its number. -/
structure Subscription where
  id : Nat
  name : String
  kind : ObserverKind
  callback : CallbackId
  deriving Repr, DecidableEq

namespace Subscription

/-- Whether a write is of interest. -/
def wants (subscription : Subscription) (new old : Value) : Bool :=
  match subscription.kind with
  | .changed | .ping => true
  | .delta => !old.same new

/-- What is told of a write: the value it wrote and the value it replaced. -/
def news (subscription : Subscription) (new old : Value) : Notice :=
  match subscription.kind with
  | .changed => .changed new (some old)
  | .ping => .ping
  | .delta => .delta new old

end Subscription

/-- What is told at registration. -/
def ObserverKind.greeting? (kind : ObserverKind) (current : Value) : Option Notice :=
  match kind with
  | .changed => some (.changed current none)
  | .ping => some .ping
  | .delta => none

namespace Transcript

variable {transcript : Transcript}

def registration? : Dealing × Answer → Option Subscription
  | (.observe name kind callback, .observed (.ok id)) => some ⟨id, name, kind, callback⟩
  | _ => none

def withdrawal? : Dealing × Answer → Option Nat
  | (.unobserve id, .unobserved true) => some id
  | _ => none

/-- The registrations that succeeded, oldest first. -/
def registered (transcript : Transcript) : List Subscription :=
  transcript.filterMap registration?

/-- The numbers whose removal was confirmed. -/
def withdrawn (transcript : Transcript) : List Nat :=
  transcript.filterMap withdrawal?

/-- The subscriptions that are registered and have not been removed. -/
def live (transcript : Transcript) : List Subscription :=
  transcript.registered.filter fun subscription => !transcript.withdrawn.contains subscription.id

theorem registered_snoc
    (transcript : Transcript)
    (entry : Dealing × Answer) :
    registered (transcript ++ [entry]) =
      transcript.registered ++ (registration? entry).toList := by
  rw [registered, List.filterMap_append, List.filterMap_cons, List.filterMap_nil]
  cases registration? entry <;> rfl

theorem withdrawn_snoc
    (transcript : Transcript)
    (entry : Dealing × Answer) :
    withdrawn (transcript ++ [entry]) =
      transcript.withdrawn ++ (withdrawal? entry).toList := by
  rw [withdrawn, List.filterMap_append, List.filterMap_cons, List.filterMap_nil]
  cases withdrawal? entry <;> rfl

theorem mem_live
    {subscription : Subscription} :
    subscription ∈ transcript.live ↔
      subscription ∈ transcript.registered ∧ subscription.id ∉ transcript.withdrawn := by
  simp [live]

/-- A number that nobody had before makes one more subscription. -/
theorem live_register
    {name : String}
    {kind : ObserverKind}
    {callback : CallbackId}
    {id : Nat}
    (fresh : id ∉ transcript.withdrawn) :
    live (transcript ++ [(.observe name kind callback, .observed (.ok id))]) =
      transcript.live ++ [⟨id, name, kind, callback⟩] := by
  rw [live, registered_snoc, withdrawn_snoc]
  simp [live, registration?, withdrawal?, fresh]

/-- A removal that is confirmed takes the subscription with its number, and no other. -/
theorem live_withdraw
    (transcript : Transcript)
    (id : Nat) :
    live (transcript ++ [(.unobserve id, .unobserved true)]) =
      transcript.live.filter fun subscription => subscription.id != id := by
  rw [live, registered_snoc, withdrawn_snoc]
  simp only [live, registration?, withdrawal?, Option.toList_none, Option.toList_some,
    List.append_nil, List.filter_filter]
  refine List.filter_congr fun subscription _ => ?_
  rw [Bool.eq_iff_iff]
  simp [and_comm]

end Transcript

/-- Who is told of a write and what. -/
def announcement
    (subscriptions : List Subscription)
    (name : String)
    (new old : Value) :
    List (CallbackId × Notice) :=
  (subscriptions.filter fun subscription =>
      subscription.name == name && subscription.wants new old).map
    fun subscription => (subscription.callback, subscription.news new old)

/-- A callback that was called, with what, and what it answered. -/
structure Delivery where
  callback : CallbackId
  notice : Notice
  result : Except Failure Unit

namespace Delivery

def told (delivery : Delivery) : CallbackId × Notice :=
  (delivery.callback, delivery.notice)

def failure? (delivery : Delivery) : Option Failure :=
  match delivery.result with
  | .ok () => none
  | .error failure => some failure

end Delivery

/-- The first failure among deliveries, which were made for a variable. -/
def verdict (name : String) (deliveries : List Delivery) : Except Error Unit :=
  match deliveries.findSome? Delivery.failure? with
  | none => .ok ()
  | some failure => .error (.callback name failure)

namespace World

variable {σ : Type} {host : Host σ} {world : World σ}

/-- Callbacks are called in turn, and nothing happens between them but records in the log. -/
inductive Delivers (host : Host σ) : World σ → List Delivery → World σ → Prop where
  | nil
      (world : World σ) :
      Delivers host world [] world
  | call
      {world last : World σ}
      {deliveries : List Delivery}
      (callback : CallbackId)
      (notice : Notice)
      (later : Delivers host (host.notify callback notice world).2 deliveries last) :
      Delivers host world (⟨callback, notice, (host.notify callback notice world).1⟩ :: deliveries)
        last
  | log
      {world last : World σ}
      {deliveries : List Delivery}
      (record : LogRecord)
      (later : Delivers host (world.record record) deliveries last) :
      Delivers host world deliveries last

/-- Ask one thing. -/
def deal (host : Host σ) (dealing : Dealing) (world : World σ) : Answer × World σ :=
  match dealing with
  | .observe name kind callback =>
      let observed := world.observe host name kind callback
      (.observed observed.1, observed.2)
  | .unobserve id =>
      let unobserved := world.unobserve id
      (.unobserved unobserved.1, unobserved.2)
  | .assign name value =>
      let assigned := world.assign host name value
      (.assigned assigned.1, assigned.2)

/-- Ask one thing after the other. -/
def dealAll (host : Host σ) : List Dealing → World σ → Transcript × World σ
  | [], world => ([], world)
  | dealing :: rest, world =>
      let dealt := world.deal host dealing
      let later := dealAll host rest dealt.2
      ((dealing, dealt.1) :: later.1, later.2)

/-! ## Deliveries -/

theorem noticeOf_some
    (subscription : Subscription)
    (new old : Value) :
    noticeOf subscription.kind new (some old) =
      if subscription.wants new old then some (subscription.news new old) else none := by
  obtain ⟨id, name, kind, callback⟩ := subscription
  cases kind with
  | changed | ping =>
      rfl
  | delta =>
      simp only [noticeOf, Subscription.wants, Subscription.news]
      by_cases same : old.same new = true <;> simp [same]

theorem noticeOf_none
    (kind : ObserverKind)
    (current : Value) :
    noticeOf kind current none = kind.greeting? current := by
  cases kind <;> rfl

/-- An observer is called once, or not at all. -/
theorem tell_delivers
    (host : Host σ)
    (observer : Observer)
    (new : Value)
    (old : Option Value)
    (world : World σ)
    (name : String) :
    ∃ deliveries,
      deliveries.map Delivery.told = (heard? new old observer).toList ∧
        Delivers host world deliveries (world.tell host observer new old).2 ∧
        verdict name deliveries =
          (world.tell host observer new old).1.mapError (.callback name) := by
  simp only [tell, heard?]
  cases noticeOf observer.kind new old with
  | none =>
      exact ⟨[], rfl, .nil world, rfl⟩
  | some notice =>
      refine ⟨_, rfl, .call observer.callback notice (.nil _), ?_⟩
      cases answered : (host.notify observer.callback notice world).1 with
      | ok _ =>
          simp [verdict, Delivery.failure?, Except.mapError]
      | error failure =>
          simp [verdict, Delivery.failure?, Except.mapError]

/-- Observers are called in turn; the first failure is the answer. -/
theorem tellAll_delivers
    (host : Host σ)
    (name : String)
    (new : Value)
    (old : Option Value)
    (observers : List Observer)
    (world : World σ) :
    ∃ deliveries,
      deliveries.map Delivery.told = observers.filterMap (heard? new old) ∧
        Delivers host world deliveries (tellAll host name new old observers world).2 ∧
        (tellAll host name new old observers world).1 =
          (deliveries.findSome? Delivery.failure?).map (.callback name) := by
  induction observers generalizing world with
  | nil =>
      exact ⟨[], rfl, .nil world, rfl⟩
  | cons observer rest inductionHypothesis =>
      simp only [tellAll, tell, List.filterMap_cons, heard?]
      cases noticeOf observer.kind new old with
      | none =>
          exact inductionHypothesis world
      | some notice =>
          simp only [Option.map_some]
          cases answered : (host.notify observer.callback notice world).1 with
          | ok _ =>
              obtain ⟨deliveries, told, delivers, failed⟩ :=
                inductionHypothesis (host.notify observer.callback notice world).2
              refine ⟨_, ?_, delivers.call observer.callback notice, ?_⟩
              · rw [List.map_cons, told]
                rfl
              · rw [failed, List.findSome?_cons]
                simp only [Delivery.failure?, answered]
          | error failure =>
              obtain ⟨deliveries, told, delivers, failed⟩ :=
                inductionHypothesis
                  ((host.notify observer.callback notice world).2.record
                    (observerFailed name failure))
              refine ⟨_, ?_, (delivers.log _).call observer.callback notice, ?_⟩
              · rw [List.map_cons, told]
                rfl
              · rw [List.findSome?_cons]
                simp only [Delivery.failure?, answered]
                rfl

/--
A write was announced: those who were to be told have been told of it, one after the other
and with the write in place, and the answer is the first failure.  The variable holds the
new value and the others what they held.
-/
structure Announced
    (host : Host σ)
    (world : World σ)
    (name : String)
    (new : Value)
    (told : List (CallbackId × Notice))
    (outcome : Except Error Unit × World σ) :
    Prop where
  deliveries :
    ∃ deliveries,
      deliveries.map Delivery.told = told ∧
        Delivers host { world with store := outcome.2.store } deliveries outcome.2 ∧
        outcome.1 = verdict name deliveries
  read : outcome.2.store.get name = .ok new
  others : ∀ other, other ≠ name → outcome.2.store.get other = world.store.get other

/--
A registration was answered: the newcomer was greeted and has a number that nobody had
before.  If it fails, nobody observes who did not before.
-/
structure Greeted
    (host : Host σ)
    (transcript : Transcript)
    (world : World σ)
    (name : String)
    (greeting : List (CallbackId × Notice))
    (outcome : Except Error Nat × World σ) :
    Prop where
  deliveries :
    ∃ id deliveries store last,
      (∀ subscription ∈ transcript.registered, subscription.id ≠ id) ∧
        deliveries.map Delivery.told = greeting ∧
        store.get = world.store.get ∧
        Delivers host { world with store := store } deliveries last ∧
        outcome.2 = { last with store := outcome.2.store } ∧
        outcome.1 = (verdict name deliveries).map fun _ => id
  get : outcome.2.store.get = world.store.get
  failed :
    ∀ error, outcome.1 = .error error → outcome.2.store.observers = world.store.observers

/-- What is asked of a world after a transcript is answered as the transcript says. -/
structure Served (host : Host σ) (transcript : Transcript) (world : World σ) : Prop where
  /-- A write is told to the live subscriptions of its variable that want to hear of it. -/
  written :
    ∀ name value declared old,
      world.store.declarations.kind? name = some declared →
      declared.accepts value.kind = true →
      world.store.get name = .ok old →
      Announced host world name (value.coerceTo declared)
        (announcement transcript.live name (value.coerceTo declared) old)
        (world.assign host name value)
  /-- Other writes are refused and change nothing. -/
  refused :
    ∀ name value,
      (∀ declared,
        world.store.declarations.kind? name = some declared →
        declared.accepts value.kind = false) →
      ∃ error, error.isCallback = false ∧ world.assign host name value = (.error error, world)
  observed :
    ∀ name kind callback current,
      world.store.get name = .ok current →
      Greeted host transcript world name
        ((kind.greeting? current).toList.map fun notice => (callback, notice))
        (world.observe host name kind callback)
  unknown :
    ∀ name kind callback error,
      world.store.get name = .error error →
      world.observe host name kind callback = (.error error, world)
  /-- A removal is confirmed when there is something to remove. -/
  unobserved :
    ∀ id,
      ((world.unobserve id).1 = true ↔
        ∃ subscription ∈ transcript.live, subscription.id = id) ∧
      (world.unobserve id).2.store.get = world.store.get
  /-- No number is given twice. -/
  distinct : (transcript.registered.map Subscription.id).Nodup
  /-- The removal of a number is confirmed at most once, and only if it was given. -/
  once :
    transcript.withdrawn.Nodup ∧
      transcript.withdrawn ⊆ transcript.registered.map Subscription.id

end World

/-! ## Observers and subscriptions -/

namespace Store

variable {store : Store} {name : String} {value : Value}

/-- The subscription that an observer stands for. -/
def subscription (store : Store) (observer : Observer) : Subscription :=
  ⟨observer.id, store.nameAt observer.index, observer.kind, observer.callback⟩

theorem nameAt_index
    {index : Nat}
    (found : store.declarations.index? name = some index) :
    store.nameAt index = name := by
  obtain ⟨inside, named, -⟩ := List.findIdx?_eq_some_iff_getElem.mp found
  simp only [nameAt, List.getElem?_eq_getElem inside]
  exact beq_iff_eq.mp named

theorem get_eq_ok_iff
    {current : Value} :
    store.get name = .ok current ↔
      ∃ index, store.declarations.index? name = some index ∧ store.valueAt index = current := by
  simp only [get, Store.index]
  cases store.declarations.index? name with
  | none =>
      simp [bind, Except.bind]
  | some index =>
      simp [bind, Except.bind, pure, Except.pure]

/-- A value that the kind of a variable accepts can be written. -/
theorem prepare_of_accepts
    {declared : Kind}
    (known : store.declarations.kind? name = some declared)
    (accepted : declared.accepts value.kind = true)
    {old : Value}
    (held : store.get name = .ok old) :
    ∃ index,
      store.declarations.index? name = some index ∧
        store.prepare name value = .ok ⟨index, value.coerceTo declared, old⟩ := by
  obtain ⟨index, found, rfl⟩ := get_eq_ok_iff.mp held
  obtain rfl := Option.some.inj ((kind?_eq found).symm.trans known)
  exact ⟨index, found, prepare_eq_ok_iff.mpr ⟨index, found, accepted, rfl⟩⟩

/-- Any other value is refused, and not on behalf of an observer. -/
theorem prepare_of_rejects
    (rejected :
      ∀ declared,
        store.declarations.kind? name = some declared →
        declared.accepts value.kind = false) :
    ∃ error, error.isCallback = false ∧ store.prepare name value = .error error := by
  cases prepared : store.prepare name value with
  | error error =>
      rcases prepare_eq_error prepared with rfl | ⟨declared, rfl⟩
      · exact ⟨_, rfl, rfl⟩
      · exact ⟨_, rfl, rfl⟩
  | ok write =>
      obtain ⟨_, declared, known, accepted, _⟩ := prepare_named prepared
      rw [rejected declared known] at accepted
      cases accepted

/-- The observers of a store are the live subscriptions of a transcript. -/
structure Follows (transcript : Transcript) (store : Store) : Prop where
  settled : store.journals = []
  complete : store.Complete
  live : transcript.live = store.observers.map store.subscription
  /-- An observer has the position of a name. -/
  placed :
    ∀ observer ∈ store.observers,
      store.declarations.index? (store.nameAt observer.index) = some observer.index
  /-- Numbers that will be given are larger than those that were given. -/
  numbered : ∀ subscription ∈ transcript.registered, subscription.id < store.nextObserver
  distinct : (transcript.registered.map Subscription.id).Nodup
  once : transcript.withdrawn.Nodup
  known : transcript.withdrawn ⊆ transcript.registered.map Subscription.id

/-- Observers of a variable hear what is announced to its live subscriptions. -/
theorem announcement_eq
    {index : Nat}
    (found : store.declarations.index? name = some index)
    {observers : List Observer}
    (placed :
      ∀ observer ∈ observers,
        store.declarations.index? (store.nameAt observer.index) = some observer.index)
    (new old : Value) :
    announcement (observers.map store.subscription) name new old =
      (observers.filter fun observer => observer.index == index).filterMap
        (World.heard? new (some old)) := by
  induction observers with
  | nil =>
      rfl
  | cons observer rest inductionHypothesis =>
      obtain ⟨here, later⟩ := List.forall_mem_cons.mp placed
      -- Observers are found by position and subscriptions by name.
      have own : (store.nameAt observer.index == name) = (observer.index == index) := by
        rw [Bool.eq_iff_iff, beq_iff_eq, beq_iff_eq]
        constructor
        · intro same
          rw [same, found] at here
          exact (Option.some.inj here).symm
        · intro same
          rw [same]
          exact nameAt_index found
      have heard :
          World.heard? new (some old) observer =
            if (store.subscription observer).wants new old then
              some (observer.callback, (store.subscription observer).news new old)
            else none := by
        have noticed := World.noticeOf_some (store.subscription observer) new old
        simp only [World.heard?, show observer.kind = (store.subscription observer).kind from rfl,
          noticed]
        split <;> rfl
      have others := inductionHypothesis later
      simp only [announcement] at others ⊢
      simp only [List.map_cons, List.filter_cons,
        show (store.subscription observer).name = store.nameAt observer.index from rfl, own]
      cases observer.index == index with
      | false =>
          simpa using others
      | true =>
          simp only [Bool.true_and, List.filterMap_cons, heard, if_true]
          split
          · rw [List.map_cons, others]
            rfl
          · exact others

section Removal

/-- A removal says whether somebody had the number. -/
theorem unobserve_fst
    (store : Store)
    (id : Nat) :
    (store.unobserve id).1 = true ↔ ∃ observer ∈ store.observers, observer.id = id := by
  simp [unobserve, List.length_filter_eq_length_iff]

/-- Who removes what nobody has leaves the store as it is. -/
theorem unobserve_of_absent
    {id : Nat}
    (absent : ∀ observer ∈ store.observers, observer.id ≠ id) :
    (store.unobserve id).2 = store := by
  have kept : store.observers.filter (fun observer => observer.id != id) = store.observers :=
    List.filter_eq_self.mpr fun observer among => bne_iff_ne.mpr (absent observer among)
  simp only [unobserve, kept]

/-- A newcomer that is removed at once leaves nothing behind but the next number. -/
theorem unobserve_register
    (younger : ∀ observer ∈ store.observers, observer.id < store.nextObserver)
    (index : Nat)
    (kind : ObserverKind)
    (callback : CallbackId) :
    ((store.register index kind callback).2.unobserve store.nextObserver).2 =
      { store with nextObserver := store.nextObserver + 1 } := by
  have kept :
      store.observers.filter (fun observer => observer.id != store.nextObserver) =
        store.observers :=
    List.filter_eq_self.mpr fun observer among =>
      bne_iff_ne.mpr (Nat.ne_of_lt (younger observer among))
  simp [unobserve, register, List.filter_append, kept]

end Removal

namespace Follows

variable {transcript : Transcript}

theorem mem_subscription
    (follows : Follows transcript store)
    {observer : Observer}
    (among : observer ∈ store.observers) :
    store.subscription observer ∈ transcript.live :=
  follows.live ▸ List.mem_map_of_mem among

theorem younger
    (follows : Follows transcript store)
    (observer : Observer)
    (among : observer ∈ store.observers) :
    observer.id < store.nextObserver :=
  follows.numbered _ (Transcript.mem_live.mp (follows.mem_subscription among)).1

/-- A number that was removed had been given before. -/
theorem fresh
    (follows : Follows transcript store) :
    store.nextObserver ∉ transcript.withdrawn := by
  intro gone
  obtain ⟨subscription, among, same⟩ := List.mem_map.mp (follows.known gone)
  exact Nat.lt_irrefl _ (same ▸ follows.numbered subscription among)

/-- What neither registers nor removes leaves the subscriptions as they are. -/
theorem quiet
    (follows : Follows transcript store)
    {entry : Dealing × Answer}
    (registers : Transcript.registration? entry = none)
    (withdraws : Transcript.withdrawal? entry = none) :
    Follows (transcript ++ [entry]) store := by
  have registered : Transcript.registered (transcript ++ [entry]) = transcript.registered := by
    rw [Transcript.registered_snoc, registers, Option.toList_none, List.append_nil]
  have withdrawn : Transcript.withdrawn (transcript ++ [entry]) = transcript.withdrawn := by
    rw [Transcript.withdrawn_snoc, withdraws, Option.toList_none, List.append_nil]
  constructor
  · exact follows.settled
  · exact follows.complete
  · rw [Transcript.live, registered, withdrawn]
    exact follows.live
  · exact follows.placed
  · exact registered ▸ follows.numbered
  · exact registered ▸ follows.distinct
  · exact withdrawn ▸ follows.once
  · rw [registered, withdrawn]
    exact follows.known

/-- So does a write. -/
theorem apply
    (follows : Follows transcript store)
    (write : Write) :
    Follows transcript (store.apply write) := by
  refine ⟨?_, ?_, follows.live, follows.placed, follows.numbered, follows.distinct,
    follows.once, follows.known⟩
  · simp only [Store.apply, follows.settled, journal]
  · exact (List.length_set ..).trans follows.complete

/-- A newcomer is the last of the live subscriptions. -/
theorem register
    (follows : Follows transcript store)
    {index : Nat}
    (found : store.declarations.index? name = some index)
    (kind : ObserverKind)
    (callback : CallbackId) :
    Follows
      (transcript ++ [(.observe name kind callback, .observed (.ok store.nextObserver))])
      (store.register index kind callback).2 := by
  have registered := transcript.registered_snoc
    (.observe name kind callback, .observed (.ok store.nextObserver))
  have withdrawn := transcript.withdrawn_snoc
    (.observe name kind callback, .observed (.ok store.nextObserver))
  simp only [Transcript.registration?, Transcript.withdrawal?, Option.toList_some,
    Option.toList_none, List.append_nil] at registered withdrawn
  constructor
  · exact follows.settled
  · exact follows.complete
  · have newest :
        store.subscription (store.register index kind callback).1 =
          ⟨store.nextObserver, name, kind, callback⟩ := by
      simp only [subscription, Store.register, nameAt_index found]
    rw [Transcript.live_register follows.fresh, follows.live, ← newest]
    change _ = (store.observers ++ [_]).map store.subscription
    rw [List.map_append]
    rfl
  · intro observer among
    rcases List.mem_append.mp among with older | newest
    · exact follows.placed observer older
    · obtain rfl := List.mem_singleton.mp newest
      exact (congrArg store.declarations.index? (nameAt_index found)).trans found
  · rw [registered]
    intro subscription among
    rcases List.mem_append.mp among with older | newest
    · exact Nat.lt_succ_of_lt (follows.numbered subscription older)
    · obtain rfl := List.mem_singleton.mp newest
      exact Nat.lt_succ_self _
  · rw [registered, List.map_append, List.nodup_append]
    refine ⟨follows.distinct, by simp, ?_⟩
    simp only [List.map_cons, List.map_nil, List.mem_singleton, forall_eq]
    intro id given
    obtain ⟨subscription, among, rfl⟩ := List.mem_map.mp given
    exact Nat.ne_of_lt (follows.numbered subscription among)
  · exact withdrawn ▸ follows.once
  · rw [registered, withdrawn, List.map_append]
    exact List.subset_append_of_subset_left _ follows.known

/-- A number may be left out. -/
theorem skip
    (follows : Follows transcript store) :
    Follows transcript { store with nextObserver := store.nextObserver + 1 } :=
  ⟨follows.settled, follows.complete, follows.live, follows.placed,
    fun subscription among => Nat.lt_succ_of_lt (follows.numbered subscription among),
    follows.distinct, follows.once, follows.known⟩

/-- Who is removed is a live subscription. -/
theorem unobserve_fst
    (follows : Follows transcript store)
    (id : Nat) :
    (store.unobserve id).1 = true ↔ ∃ subscription ∈ transcript.live, subscription.id = id := by
  rw [Store.unobserve_fst, follows.live]
  simp [subscription]

/-- A removal that is confirmed takes an observer, and another one changes nothing. -/
theorem unobserve
    (follows : Follows transcript store)
    (id : Nat) :
    Follows (transcript ++ [(.unobserve id, .unobserved (store.unobserve id).1)])
      (store.unobserve id).2 := by
  cases found : (store.unobserve id).1 with
  | false =>
      have absent : ∀ observer ∈ store.observers, observer.id ≠ id := by
        intro observer among same
        have present := (store.unobserve_fst id).mpr ⟨observer, among, same⟩
        rw [found] at present
        cases present
      rw [unobserve_of_absent absent]
      exact follows.quiet rfl rfl
  | true =>
      obtain ⟨subscription, among, rfl⟩ := (follows.unobserve_fst id).mp found
      obtain ⟨given, remaining⟩ := Transcript.mem_live.mp among
      have registered :=
        transcript.registered_snoc (.unobserve subscription.id, .unobserved true)
      have withdrawn :=
        transcript.withdrawn_snoc (.unobserve subscription.id, .unobserved true)
      simp only [Transcript.registration?, Transcript.withdrawal?, Option.toList_some,
        Option.toList_none, List.append_nil] at registered withdrawn
      constructor
      · exact follows.settled
      · exact follows.complete
      · rw [Transcript.live_withdraw, follows.live, List.filter_map]
        rfl
      · exact fun observer among => follows.placed observer (List.mem_of_mem_filter among)
      · exact registered ▸ follows.numbered
      · exact registered ▸ follows.distinct
      · rw [withdrawn, List.nodup_append]
        refine ⟨follows.once, by simp, ?_⟩
        simp only [List.mem_singleton, forall_eq]
        exact fun id gone same => remaining (same ▸ gone)
      · rw [registered, withdrawn]
        refine List.append_subset.mpr ⟨follows.known, ?_⟩
        exact List.cons_subset.mpr ⟨List.mem_map_of_mem given, List.nil_subset _⟩

end Follows

end Store

namespace World

variable {σ : Type} {host : Host σ} {world : World σ} {transcript : Transcript}

/-! ## Answers -/

/-- A write outside speculations is kept, and the observers of its variable are told of it. -/
theorem assign_delivers
    (aloof : host.Aloof)
    (settled : world.store.journals = [])
    {name : String}
    {value : Value}
    {index : Nat}
    (found : world.store.declarations.index? name = some index)
    {new old : Value}
    (prepared : world.store.prepare name value = .ok ⟨index, new, old⟩) :
    (world.assign host name value).2.store = world.store.apply ⟨index, new, old⟩ ∧
      ∃ deliveries,
        deliveries.map Delivery.told =
            (world.store.observersOf index).filterMap (heard? new (some old)) ∧
          Delivers host { world with store := world.store.apply ⟨index, new, old⟩ } deliveries
            (world.assign host name value).2 ∧
          (world.assign host name value).1 = verdict name deliveries := by
  have store :=
    deliver_store aloof { world with store := world.store.apply ⟨index, new, old⟩ }
      ⟨index, new, old⟩
  obtain ⟨deliveries, told, delivers, failed⟩ :=
    tellAll_delivers host name new (some old) (world.store.observersOf index)
      { world with store := world.store.apply ⟨index, new, old⟩ }
  have resting : world.store.isSpeculating = false := by
    simp [Store.isSpeculating, settled]
  have named : (world.store.apply ⟨index, new, old⟩).nameAt index = name :=
    Store.nameAt_index found
  have observers :
      (world.store.apply ⟨index, new, old⟩).observersOf index = world.store.observersOf index :=
    rfl
  simp only [assign, prepared, resting, Bool.false_eq_true, if_false, deliver, named,
    observers] at store ⊢
  generalize tellAll host name new (some old) _ _ = outcome at store delivers failed ⊢
  obtain ⟨failure, last⟩ := outcome
  simp only at store delivers failed
  subst failed
  cases first : deliveries.findSome? Delivery.failure? with
  | none =>
      exact ⟨store, deliveries, told, delivers, by simp [verdict, first]⟩
  | some failure =>
      exact ⟨store, deliveries, told, delivers, by simp [verdict, first]⟩

theorem announced
    (aloof : host.Aloof)
    (follows : Store.Follows transcript world.store)
    {name : String}
    {value old : Value}
    {declared : Kind}
    (known : world.store.declarations.kind? name = some declared)
    (accepted : declared.accepts value.kind = true)
    (held : world.store.get name = .ok old) :
    Announced host world name (value.coerceTo declared)
      (announcement transcript.live name (value.coerceTo declared) old)
      (world.assign host name value) := by
  obtain ⟨index, found, prepared⟩ := Store.prepare_of_accepts known accepted held
  obtain ⟨store, deliveries, told, delivers, answer⟩ :=
    assign_delivers aloof follows.settled found prepared
  have reads := Store.get_apply follows.complete prepared
  constructor
  · refine ⟨deliveries, ?_, store ▸ delivers, answer⟩
    rw [told, follows.live]
    exact (Store.announcement_eq found follows.placed _ _).symm
  · rw [store, reads, if_pos rfl]
  · intro other apart
    rw [store, reads, if_neg apart]

/-- A newcomer is greeted, and stays unless it fails. -/
theorem greeted
    (aloof : host.Aloof)
    (follows : Store.Follows transcript world.store)
    {name : String}
    (kind : ObserverKind)
    (callback : CallbackId)
    {current : Value}
    (held : world.store.get name = .ok current) :
    Greeted host transcript world name
        ((kind.greeting? current).toList.map fun notice => (callback, notice))
        (world.observe host name kind callback) ∧
      Store.Follows
        (transcript ++
          [(.observe name kind callback, .observed (world.observe host name kind callback).1)])
        (world.observe host name kind callback).2.store := by
  obtain ⟨index, found, rfl⟩ := Store.get_eq_ok_iff.mp held
  have fresh :
      ∀ subscription ∈ transcript.registered, subscription.id ≠ world.store.nextObserver :=
    fun subscription among => Nat.ne_of_lt (follows.numbered subscription among)
  have store :=
    tell_view id aloof
      { world with store := (world.store.register index kind callback).2 }
      (world.store.register index kind callback).1 (world.store.valueAt index) none
  obtain ⟨deliveries, told, delivers, answer⟩ :=
    tell_delivers host (world.store.register index kind callback).1 (world.store.valueAt index) none
      { world with store := (world.store.register index kind callback).2 } name
  rw [heard?, noticeOf_none, Option.toList_map] at told
  simp only [observe, Store.index, found]
  generalize tell host _ _ none _ = outcome at store delivers answer ⊢
  obtain ⟨result, last⟩ := outcome
  simp only [id] at store delivers answer
  cases result with
  | ok _ =>
      refine
        ⟨⟨⟨_, deliveries, (world.store.register index kind callback).2, last, fresh, told, rfl,
          delivers, rfl, ?_⟩, ?_, fun _ failed => ?_⟩, ?_⟩
      · rw [answer]
        rfl
      · rw [store]
        rfl
      · cases failed
      · rw [store]
        exact follows.register found kind callback
  | error failure =>
      -- The newcomer is removed, but its number stays used.
      have after :
          (last.unobserve world.store.nextObserver).2.store =
            { world.store with nextObserver := world.store.nextObserver + 1 } := by
        rw [unobserve, store]
        exact Store.unobserve_register follows.younger index kind callback
      refine
        ⟨⟨⟨_, deliveries, (world.store.register index kind callback).2, last, fresh, told, rfl,
          delivers, rfl, ?_⟩, ?_, fun _ _ => ?_⟩, ?_⟩
      · rw [answer]
        rfl
      · exact after ▸ rfl
      · exact after ▸ rfl
      · exact after ▸ follows.skip.quiet rfl rfl

theorem observe_of_unknown
    {name : String}
    {error : Error}
    (unknown : world.store.get name = .error error)
    (kind : ObserverKind)
    (callback : CallbackId) :
    world.observe host name kind callback = (.error error, world) := by
  simp only [Store.get] at unknown
  simp only [observe]
  cases found : world.store.index name with
  | error other =>
      rw [found] at unknown
      obtain rfl := Except.error.inj unknown
      rfl
  | ok index =>
      rw [found] at unknown
      cases unknown

/-! ## Histories -/

/-- Whatever is asked, the observers stay in step with the transcript. -/
theorem deal_follows
    (aloof : host.Aloof)
    (follows : Store.Follows transcript world.store)
    (dealing : Dealing) :
    Store.Follows (transcript ++ [(dealing, (world.deal host dealing).1)])
      (world.deal host dealing).2.store := by
  cases dealing with
  | observe name kind callback =>
      cases held : world.store.get name with
      | ok current =>
          exact (greeted aloof follows kind callback held).2
      | error error =>
          simp only [deal, observe_of_unknown held]
          exact follows.quiet rfl rfl
  | unobserve id =>
      exact follows.unobserve id
  | assign name value =>
      have store : (world.assign host name value).2.store = _ :=
        perform_store aloof world (.assign name value)
      simp only [deal, store, Store.perform]
      split
      · exact (follows.apply _).quiet rfl rfl
      · exact follows.quiet rfl rfl

theorem dealAll_follows
    (aloof : host.Aloof)
    (follows : Store.Follows transcript world.store)
    (history : List Dealing) :
    Store.Follows (transcript ++ (world.dealAll host history).1)
      (world.dealAll host history).2.store := by
  induction history generalizing world transcript with
  | nil =>
      simpa [dealAll] using follows
  | cons dealing rest inductionHypothesis =>
      have next := inductionHypothesis (deal_follows aloof follows dealing)
      simpa [dealAll] using next

/-- Who follows a transcript serves whatever is asked next. -/
theorem served
    (aloof : host.Aloof)
    (follows : Store.Follows transcript world.store) :
    Served host transcript world where
  written name value declared old known accepted held :=
    announced aloof follows known accepted held
  refused name value rejected := by
    obtain ⟨error, quiet, refused⟩ := Store.prepare_of_rejects rejected
    exact ⟨error, quiet, assign_of_refused refused⟩
  observed name kind callback current held :=
    (greeted aloof follows kind callback held).1
  unknown name kind callback error held :=
    observe_of_unknown held kind callback
  unobserved id :=
    ⟨follows.unobserve_fst id, rfl⟩
  distinct := follows.distinct
  once := ⟨follows.once, follows.known⟩

/--
Observers are told of everything and fail alone.  Whatever has been asked of a store that
nobody observed at first, outside speculations and with observers that leave it alone: every
write is told once to each live subscription of its variable that wants to hear of it, in
the order of registration, with the value as it is kept and the one before; those who fail
neither keep it from others nor take the write back.  A registration that fails leaves no
observer, and no number is given twice, so each is removed once and for one observer.
-/
theorem dealAll_served
    (host : Host σ)
    (aloof : host.Aloof)
    (world : World σ)
    (complete : world.store.Complete)
    (settled : world.store.journals = [])
    (unobserved : world.store.observers = [])
    (history : List Dealing) :
    Served host (world.dealAll host history).1 (world.dealAll host history).2 := by
  have start : Store.Follows [] world.store := by
    refine ⟨settled, complete, ?_, ?_, nofun, List.nodup_nil, List.nodup_nil, ?_⟩
    · rw [unobserved]
      rfl
    · rw [unobserved]
      exact nofun
    · exact List.nil_subset _
  exact served aloof (dealAll_follows aloof start history)

/-! ## A kennel -/

/-- Nine is always asleep, and seven is busy whenever something changes. -/
def kennelHost : Host (List CallbackId) where
  call _ _ world := (.ok .void, world)
  notify callback notice world :=
    let result :=
      match callback, notice with
      | 9, _ => .error ⟨"asleep", []⟩
      | 7, .changed _ (some _) => .error ⟨"busy", []⟩
      | _, _ => .ok ()
    (result, { world with host := world.host ++ [callback] })

def kennel : World (List CallbackId) :=
  ⟨.start ⟨[⟨"bones", .float ⟨0⟩⟩, ⟨"guard", .str "Rex"⟩], ⟨#[]⟩⟩, #[], []⟩

def kennelHistory : List Dealing :=
  [.observe "bones" .changed 7, .observe "bones" .changed 9, .observe "bones" .delta 8,
    .observe "guard" .ping 8, .observe "bones" .ping 6, .unobserve 4, .unobserve 4,
    .assign "bones" (.int 2)]

/-- What is answered before the bones are counted again. -/
def kennelDealt : Transcript × World (List CallbackId) :=
  kennel.dealAll kennelHost kennelHistory

/-- Who failed at registration and who was removed hear nothing of a write that others hear of. -/
theorem dealAll_served_kennel :
    kennelHost.Aloof ∧
      kennel.store.Complete ∧
      kennel.store.journals = [] ∧
      kennel.store.observers = [] ∧
      kennelDealt.1.live =
        [⟨0, "bones", .changed, 7⟩, ⟨2, "bones", .delta, 8⟩, ⟨3, "guard", .ping, 8⟩] ∧
      (∃ deliveries,
        deliveries.map Delivery.told =
            [(7, .changed (.float ⟨1084227584⟩) (some (.float ⟨1073741824⟩))),
              (8, .delta (.float ⟨1084227584⟩) (.float ⟨1073741824⟩))] ∧
          (kennelDealt.2.assign kennelHost "bones" (.int 5)).1 = verdict "bones" deliveries) ∧
      (kennelDealt.2.assign kennelHost "bones" (.int 5)).1 =
        .error (.callback "bones" ⟨"busy", []⟩) ∧
      (kennelDealt.2.assign kennelHost "bones" (.int 5)).2.host =
        kennelDealt.2.host ++ [7, 8] ∧
      (kennelDealt.2.assign kennelHost "bones" (.int 5)).2.store.get "bones" =
        .ok (.float ⟨1084227584⟩) ∧
      (kennelDealt.2.unobserve 0).1 = true ∧
      (kennelDealt.2.unobserve 4).1 = false := by
  have aloof : kennelHost.Aloof := fun _ _ _ => rfl
  have served := dealAll_served kennelHost aloof kennel rfl rfl rfl kennelHistory
  have live :
      kennelDealt.1.live =
        [⟨0, "bones", .changed, 7⟩, ⟨2, "bones", .delta, 8⟩, ⟨3, "guard", .ping, 8⟩] := by
    decide +kernel
  have announced :=
    served.written "bones" (.int 5) .float (.float ⟨1073741824⟩) (by decide +kernel) rfl
      (by decide +kernel)
  obtain ⟨deliveries, told, -, answer⟩ := announced.deliveries
  refine ⟨aloof, rfl, rfl, rfl, live, ⟨deliveries, told.trans ?_, answer⟩, by decide +kernel,
    by decide +kernel, announced.read, ?_, ?_⟩
  · decide +kernel
  · exact (served.unobserved 0).1.mpr ⟨⟨0, "bones", .changed, 7⟩, by decide +kernel, rfl⟩
  · refine Bool.eq_false_iff.mpr fun removed => ?_
    obtain ⟨subscription, among, four⟩ := (served.unobserved 4).1.mp removed
    have others : ∀ subscription ∈ kennelDealt.1.live, subscription.id ≠ 4 := by
      rw [live]
      decide
    exact others subscription among four

end World

end Fabula
