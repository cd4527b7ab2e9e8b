import Fabula.Proofs.Genuine
import Fabula.Proofs.Lookahead

namespace Fabula

/-!
# Isolated hosts

A host is isolated when its functions answer by their arguments and change nothing, and
when its observers leave the store alone.  Observers may remember what they were told, and
fail whenever they like.  Of a play beside an isolated host only a scene matters: the flow,
the reports, the store and what the observers remember.  This module says what a step does
to a scene, failures included.
-/

/-- How functions of the host reply to their arguments. -/
abbrev Replies :=
  CallbackId → List Value → Except Failure Value

/-- How observers answer to what they are told, by what they remember. -/
abbrev Hearing (τ : Type) :=
  CallbackId → Notice → τ → Except Failure Unit × τ

/--
A host whose functions give the same replies to the same arguments, and whose observers
answer by what they remember.  `view` is the part of the host's state that the observers
remember.
-/
structure Host.Isolated
    {σ τ : Type}
    (host : Host σ)
    (setup : Setup)
    (view : σ → τ)
    (reply : Replies)
    (hear : Hearing τ) :
    Prop where
  /-- A function replies and changes nothing that matters. -/
  call :
    ∀ binding,
      setup.Calls binding →
      ∀ arguments (world : World σ),
        (host.call binding.callback arguments world).1 = reply binding.callback arguments ∧
          (host.call binding.callback arguments world).2.store = world.store ∧
          view (host.call binding.callback arguments world).2.host = view world.host
  /-- An observer changes nothing but what it remembers. -/
  notify :
    ∀ callback notice (world : World σ),
      (host.notify callback notice world).1 = (hear callback notice (view world.host)).1 ∧
        (host.notify callback notice world).2.store = world.store ∧
        view (host.notify callback notice world).2.host =
          (hear callback notice (view world.host)).2

/-! ## Being heard of -/

section Hearing

variable {τ : Type}

/-- Observers hear of a new value in turn: the first failure, and what they remember then. -/
def Hearing.all (hear : Hearing τ) (new old : Value) : List Observer → τ → Option Failure × τ
  | [], state => (none, state)
  | observer :: rest, state =>
      match World.noticeOf observer.kind new (some old) with
      | none => Hearing.all hear new old rest state
      | some notice =>
          let heard := hear observer.callback notice state
          let later := Hearing.all hear new old rest heard.2
          match heard.1 with
          | .ok () => later
          | .error failure => (some failure, later.2)

namespace Store

/-- A write is heard of: the report of the first failure, and what observers remember then. -/
def hearing (hear : Hearing τ) (store : Store) (write : Write) (state : τ) : List Error × τ :=
  let heard := hear.all write.new write.old (store.observersOf write.index) state
  ((heard.1.map (Error.callback (store.nameAt write.index))).toList, heard.2)

/-- Writes are heard of in order. -/
def hearings (hear : Hearing τ) (store : Store) : List Write → τ → List Error × τ
  | [], state => ([], state)
  | write :: rest, state =>
      let heard := store.hearing hear write state
      let later := hearings hear store rest heard.2
      (heard.1 ++ later.1, later.2)

/-- Who hears of a write depends on the observers and the names of variables only. -/
theorem hearing_congr
    {left right : Store}
    (declarations : left.declarations = right.declarations)
    (observers : left.observers = right.observers)
    (hear : Hearing τ) :
    left.hearing hear = right.hearing hear := by
  funext write state
  simp only [hearing, nameAt, observersOf, declarations, observers]

theorem hearings_congr
    {left right : Store}
    (declarations : left.declarations = right.declarations)
    (observers : left.observers = right.observers)
    (hear : Hearing τ) :
    left.hearings hear = right.hearings hear := by
  funext writes
  induction writes with
  | nil =>
      rfl
  | cons write rest inductionHypothesis =>
      funext state
      simp only [hearings, hearing_congr declarations observers, inductionHypothesis]

/-- The last write is heard of after the others. -/
theorem hearings_append
    (hear : Hearing τ)
    (store : Store)
    (writes : List Write)
    (write : Write)
    (state : τ) :
    store.hearings hear (writes ++ [write]) state =
      ((store.hearings hear writes state).1 ++
          (store.hearing hear write (store.hearings hear writes state).2).1,
        (store.hearing hear write (store.hearings hear writes state).2).2) := by
  induction writes generalizing state with
  | nil =>
      simp [hearings]
  | cons first rest inductionHypothesis =>
      simp only [List.cons_append, hearings, inductionHypothesis, List.append_assoc]

end Store

end Hearing

/-! ## Scenes -/

/-- What matters of a play beside an isolated host. -/
structure Scene (τ : Type) where
  flow : Flow
  reports : List Error
  store : Store
  /-- What observers remember. -/
  state : τ

/-- What a step does, before its write is carried out. -/
structure Outcome where
  result : Except Error Unit
  flow : Flow
  /-- The failure of the host function that was called. -/
  failures : List Error
  write : Option Write

namespace Outcome

/-- A host function that fails gives no value, and its failure is reported. -/
def ofReply (flow : Flow) (name : String) (binding : Binding)
    (replied : Except Failure Value) : Outcome :=
  match Play.resultOf binding replied with
  | .ok value =>
      if binding.returns && value.isVoid then
        ⟨.error (.externalReturnMissing name), flow, [], none⟩
      else
        ⟨.ok (), flow.push value, [], none⟩
  | .error failure => ⟨.ok (), flow.push .void, [.callback name failure], none⟩

def ofWrite (flow : Flow) (prepared : Except Error Write) : Outcome :=
  match prepared with
  | .ok write => ⟨.ok (), flow, [], some write⟩
  | .error error => ⟨.error error, flow, [], none⟩

/-- The outcome of the step at an address. -/
def ofStep (setup : Setup) (reply : Replies) (address : Nat) (flow : Flow) (store : Store) :
    Outcome :=
  match flow.next setup store address with
  | .error error => ⟨.error error, { flow with ip := some (address + 1) }, [], none⟩
  | .ok change =>
      match change.request with
      | none => ⟨.ok (), change.flow, [], none⟩
      | some (.write name value) => ofWrite change.flow (store.prepare name value)
      | some (.call name binding arguments) =>
          ofReply change.flow name binding (reply binding.callback arguments)

end Outcome

namespace Scene

variable {τ : Type}

/-- Carry out a write, which is heard of at once unless the store speculates. -/
def write (hear : Hearing τ) (write : Write) (scene : Scene τ) : Scene τ :=
  let store := scene.store.apply write
  if scene.store.isSpeculating then
    { scene with store := store }
  else
    let heard := store.hearing hear write scene.state
    { scene with store := store, reports := scene.reports ++ heard.1, state := heard.2 }

/-- What a step does to a scene. -/
def follow (hear : Hearing τ) (outcome : Outcome) (scene : Scene τ) : Scene τ :=
  let moved :=
    { scene with flow := outcome.flow, reports := scene.reports ++ outcome.failures }
  match outcome.write with
  | none => moved
  | some write => moved.write hear write

/-- Keep a speculation; writes that leave it are heard of. -/
def commit (hear : Hearing τ) (id : Nat) (scene : Scene τ) : Scene τ :=
  let closed := scene.store.commit id
  let heard := closed.2.hearings hear closed.1 scene.state
  { scene with store := closed.2, reports := scene.reports ++ heard.1, state := heard.2 }

/-- Take back what happened since a checkpoint; what observers remember stays. -/
def rollback (saved : Play.Checkpoint) (scene : Scene τ) : Scene τ :=
  { scene with
    flow := saved.flow
    reports := saved.reports
    store := scene.store.rollback saved.speculation }

end Scene

/-- The scene of a play. -/
def Play.scene {σ τ : Type} (view : σ → τ) (play : Play σ) : Scene τ :=
  ⟨play.flow, play.reports, play.world.store, view play.world.host⟩

/-! ## Plays and their scenes -/

section Isolated

variable {σ τ : Type} {host : Host σ} {setup : Setup} {view : σ → τ}
  {reply : Replies} {hear : Hearing τ}

namespace World

/-- A world with a store and with what the observers remember. -/
structure Shows (view : σ → τ) (world : World σ) (store : Store) (state : τ) : Prop where
  store : world.store = store
  state : view world.host = state

/-- The failures of observers are reported as they are heard of. -/
theorem tellAll_isolated
    (isolated : host.Isolated setup view reply hear)
    (world : World σ)
    (name : String)
    (new old : Value)
    (observers : List Observer) :
    let heard := Hearing.all hear new old observers (view world.host)
    (tellAll host name new (some old) observers world).1 = heard.1.map (Error.callback name) ∧
      Shows view (tellAll host name new (some old) observers world).2 world.store heard.2 := by
  induction observers generalizing world with
  | nil =>
      exact ⟨rfl, rfl, rfl⟩
  | cons observer rest inductionHypothesis =>
      simp only [tellAll, tell, Hearing.all]
      cases noticeOf observer.kind new (some old) with
      | none =>
          exact inductionHypothesis world
      | some notice =>
          obtain ⟨result, store, state⟩ := isolated.notify observer.callback notice world
          simp only [← result, ← state, ← store]
          cases (host.notify observer.callback notice world).1 with
          | ok _ =>
              exact inductionHypothesis _
          | error failure =>
              obtain ⟨_, shows⟩ :=
                inductionHypothesis
                  ((host.notify observer.callback notice world).2.record
                    (observerFailed name failure))
              exact ⟨rfl, shows⟩

theorem deliver_isolated
    (isolated : host.Isolated setup view reply hear)
    (world : World σ)
    (write : Write) :
    let heard := world.store.hearing hear write (view world.host)
    (world.deliver host write).1.toList = heard.1 ∧
      Shows view (world.deliver host write).2 world.store heard.2 := by
  obtain ⟨failed, shows⟩ :=
    tellAll_isolated isolated world (world.store.nameAt write.index) write.new write.old
      (world.store.observersOf write.index)
  exact ⟨congrArg Option.toList failed, shows⟩

theorem deliverAll_isolated
    (isolated : host.Isolated setup view reply hear)
    (world : World σ)
    (writes : List Write) :
    let heard := world.store.hearings hear writes (view world.host)
    (deliverAll host writes world).1 = heard.1 ∧
      Shows view (deliverAll host writes world).2 world.store heard.2 := by
  induction writes generalizing world with
  | nil =>
      exact ⟨rfl, rfl, rfl⟩
  | cons write rest inductionHypothesis =>
      obtain ⟨failed, store, state⟩ := deliver_isolated isolated world write
      obtain ⟨others, shows⟩ := inductionHypothesis (world.deliver host write).2
      simp only [store, state] at others shows
      exact ⟨by simp only [deliverAll, Store.hearings, failed, others], shows⟩

end World

namespace Play

/-- Keeping a speculation does to the scene what `Scene.commit` says. -/
theorem scene_commit
    (isolated : host.Isolated setup view reply hear)
    (play : Play σ)
    (saved : Checkpoint) :
    (play.commit host (some saved)).scene view =
      (play.scene view).commit hear saved.speculation := by
  obtain ⟨failed, store, state⟩ :=
    World.deliverAll_isolated isolated
      { play.world with store := (play.world.store.commit saved.speculation).2 }
      (play.world.store.commit saved.speculation).1
  simp only [Play.commit, World.commit, scene, Scene.commit, failed, store, state]

/-- A write is answered as `Outcome.ofWrite` says. -/
theorem scene_assign
    (isolated : host.Isolated setup view reply hear)
    (play : Play σ)
    (name : String)
    (value : Value) :
    let outcome := Outcome.ofWrite play.flow (play.world.store.prepare name value)
    (play.assign host name value).1 = outcome.result ∧
      (play.assign host name value).2.scene view = (play.scene view).follow hear outcome := by
  cases prepared : play.world.store.prepare name value with
  | error error =>
      have own := (Genuine.prepare play.world.store name value).of_error prepared
      simp [Play.assign, World.assign_of_refused prepared, own, Outcome.ofWrite, Scene.follow,
        scene]
  | ok write =>
      obtain ⟨heard, store, state⟩ :=
        World.deliver_isolated isolated
          { play.world with store := play.world.store.apply write } write
      cases speculating : play.world.store.isSpeculating with
      | true =>
          simp [Play.assign, World.assign, prepared, speculating, Outcome.ofWrite, Scene.follow,
            Scene.write, scene]
      | false =>
          rcases told :
            World.deliver host write
              { play.world with store := play.world.store.apply write } with ⟨failed, after⟩
          simp only [told] at heard store state
          cases failed with
          | none =>
              simp [Play.assign, World.assign, prepared, speculating, told, Outcome.ofWrite,
                Scene.follow, Scene.write, scene, ← heard, ← state, store]
          | some error =>
              have callback : error.isCallback = true :=
                World.tellAll_isCallback (congrArg Prod.fst told)
              simp [Play.assign, World.assign, prepared, speculating, told, callback,
                Play.report, Outcome.ofWrite, Scene.follow, Scene.write, scene, ← heard,
                ← state, store]

/-- A call is answered as `Outcome.ofReply` says. -/
theorem scene_callHost
    (isolated : host.Isolated setup view reply hear)
    (play : Play σ)
    (name : String)
    {binding : Binding}
    (called : setup.Calls binding)
    (arguments : List Value) :
    let outcome :=
      Outcome.ofReply play.flow name binding (reply binding.callback arguments)
    (play.callHost setup host name binding arguments).1 = outcome.result ∧
      (play.callHost setup host name binding arguments).2.scene view =
        (play.scene view).follow hear outcome := by
  obtain ⟨result, store, state⟩ := isolated.call binding called arguments play.world
  simp only [Play.callHost, Outcome.ofReply, result]
  cases resultOf binding (reply binding.callback arguments) with
  | error failure =>
      simp [Scene.follow, scene, push, report, record, World.record, Play.emit, store, state]
  | ok value =>
      simp only
      split
      · simp [Scene.follow, scene, Play.emit, store, state]
      · simp [Scene.follow, scene, push, Play.emit, store, state]

/-- A step has the outcome that `Outcome.ofStep` says. -/
theorem scene_step
    (isolated : host.Isolated setup view reply hear)
    (play : Play σ)
    (address : Nat) :
    let outcome := Outcome.ofStep setup reply address play.flow play.world.store
    (play.step setup host address).1 = outcome.result ∧
      (play.step setup host address).2.scene view = (play.scene view).follow hear outcome := by
  rw [step_eq]
  simp only [Outcome.ofStep]
  cases made : play.flow.next setup play.world.store address with
  | error error =>
      simp [Scene.follow, scene]
  | ok change =>
      obtain ⟨flow, events, request⟩ := change
      cases request with
      | none =>
          simp [answer, carry, Play.emit, Scene.follow, scene]
      | some request =>
          cases request with
          | write name value =>
              exact scene_assign isolated (play.carry setup ⟨flow, events, _⟩) name value
          | call name binding arguments =>
              obtain ⟨flag, payload, here, bound⟩ := Flow.next_call made rfl
              exact
                scene_callHost isolated (play.carry setup ⟨flow, events, _⟩) name
                  ⟨address, flag, payload, here, bound⟩ arguments

end Play

end Isolated

/-! ## Outcomes -/

namespace Outcome

/-- An outcome depends on the declarations and values of the store only. -/
theorem ofStep_congr
    {left right : Store}
    (declarations : left.declarations = right.declarations)
    (values : left.values = right.values)
    (setup : Setup)
    (reply : Replies)
    (address : Nat)
    (flow : Flow) :
    ofStep setup reply address flow left = ofStep setup reply address flow right := by
  simp only [ofStep, Flow.next_congr (Store.get_congr declarations values),
    Store.prepare_congr declarations values]

/-- The write of an outcome remembers the value that it replaces. -/
theorem ofStep_old
    {setup : Setup}
    {reply : Replies}
    {address : Nat}
    {flow : Flow}
    {store : Store}
    {write : Write}
    (written : (ofStep setup reply address flow store).write = some write) :
    write.old = store.valueAt write.index := by
  simp only [ofStep] at written
  split at written
  · cases written
  · split at written
    · cases written
    · next name value _ =>
        cases prepared : store.prepare name value with
        | error error =>
            rw [prepared] at written
            cases written
        | ok prepared' =>
            rw [prepared] at written
            cases written
            exact Store.prepare_old prepared
    · next name binding arguments _ =>
        simp only [ofReply] at written
        split at written
        · split at written <;> cases written
        · cases written

/-- A step fails for a reason of the story only. -/
theorem ofStep_genuine
    (setup : Setup)
    (reply : Replies)
    (address : Nat)
    (flow : Flow)
    (store : Store) :
    Genuine (ofStep setup reply address flow store).result := by
  have next := Genuine.next setup store address flow
  simp only [ofStep]
  split
  · next error failed =>
      exact next.of_error failed
  · split
    · trivial
    · next name value _ =>
        have prepare := Genuine.prepare store name value
        simp only [ofWrite]
        split
        · trivial
        · next error refused =>
            exact prepare.of_error refused
    · simp only [ofReply]
      split
      · split
        · rfl
        · trivial
      · trivial

end Outcome

/-! ## Speculations -/

namespace Store

/-- Taking a speculation back takes back a write inside it. -/
theorem rollback_apply
    {store : Store}
    {id : Nat}
    (isOpen : id < store.journals.length)
    {write : Write}
    (remembers : write.old = store.valueAt write.index) :
    (store.apply write).rollback id = store.rollback id := by
  obtain ⟨since, around⟩ := writesSince_apply isOpen write
  simp only [rollback, since, around, List.foldl_cons, undo_apply remembers]
  rfl

theorem length_journals_apply
    (store : Store)
    (write : Write) :
    (store.apply write).journals.length = store.journals.length := by
  simp only [apply]
  cases store.journals <;> rfl

end Store

/-! ## Scenes side by side -/

namespace Scene

variable {τ : Type} {hear : Hearing τ}

/--
Two scenes that differ in the order of reports only, when those are counted that were
drained from the first one.
-/
structure Joined (drained : List Error) (scene plain : Scene τ) : Prop where
  flow : scene.flow = plain.flow
  store : scene.store = plain.store
  state : scene.state = plain.state
  reports : (drained ++ scene.reports).Perm plain.reports

namespace Joined

variable {drained : List Error} {scene middle plain : Scene τ}

theorem refl (scene : Scene τ) : Joined [] scene scene :=
  ⟨rfl, rfl, rfl, .refl _⟩

theorem trans
    (first : Joined [] scene middle)
    (second : Joined drained middle plain) :
    Joined drained scene plain :=
  ⟨first.flow.trans second.flow, first.store.trans second.store,
    first.state.trans second.state, (first.reports.append_left drained).trans second.reports⟩

/-- The same write keeps scenes joined. -/
theorem write
    (joined : Joined drained scene plain)
    (hear : Hearing τ)
    (write : Write) :
    Joined drained (scene.write hear write) (plain.write hear write) := by
  obtain ⟨_, reports, store, state⟩ := scene
  obtain ⟨_, _, _, _⟩ := plain
  obtain ⟨rfl, rfl, rfl, same⟩ := joined
  simp only [Scene.write]
  split
  · exact ⟨rfl, rfl, rfl, same⟩
  · refine ⟨rfl, rfl, rfl, ?_⟩
    simp only [← List.append_assoc]
    exact same.append_right _

/-- The same outcome keeps scenes joined. -/
theorem follow
    (joined : Joined drained scene plain)
    (hear : Hearing τ)
    (outcome : Outcome) :
    Joined drained (scene.follow hear outcome) (plain.follow hear outcome) := by
  have moved :
      Joined drained
        { scene with flow := outcome.flow, reports := scene.reports ++ outcome.failures }
        { plain with flow := outcome.flow, reports := plain.reports ++ outcome.failures } := by
    refine ⟨rfl, joined.store, joined.state, ?_⟩
    simp only [← List.append_assoc]
    exact joined.reports.append_right _
  simp only [Scene.follow]
  cases outcome.write with
  | none =>
      exact moved
  | some write =>
      exact moved.write hear write

end Joined

section Open

variable {id : Nat} {scene : Scene τ}

/-- A write inside a speculation can as well be carried out after it was kept. -/
theorem commit_write
    (isOpen : id < scene.store.journals.length)
    (write : Write) :
    (scene.write hear write).commit hear id = (scene.commit hear id).write hear write := by
  have speculating := Store.isSpeculating_of_open isOpen
  have heardBy :
      ((scene.store.commit id).2.apply write).hearings hear =
        (scene.store.commit id).2.hearings hear :=
    Store.hearings_congr (by rfl) (by rfl) hear
  have hearBy :
      ((scene.store.commit id).2.apply write).hearing hear =
        (scene.store.commit id).2.hearing hear :=
    Store.hearing_congr (by rfl) (by rfl) hear
  simp only [Scene.write, speculating, if_true, Scene.commit,
    Store.commit_apply isOpen, Store.commit_apply_writes isOpen, heardBy, hearBy]
  split
  · rw [List.append_nil]
  · simp only [Store.hearings_append, List.append_assoc]

/-- A step inside a speculation can as well be made after it was kept. -/
theorem commit_follow
    (isOpen : id < scene.store.journals.length)
    (hear : Hearing τ)
    (outcome : Outcome) :
    Joined [] ((scene.follow hear outcome).commit hear id)
      ((scene.commit hear id).follow hear outcome) := by
  have moved :
      Joined []
        (Scene.commit hear id
          { scene with
            flow := outcome.flow
            reports := scene.reports ++ outcome.failures })
        { scene.commit hear id with
          flow := outcome.flow
          reports := (scene.commit hear id).reports ++ outcome.failures } := by
    refine ⟨rfl, rfl, rfl, ?_⟩
    simp only [Scene.commit, List.nil_append, List.append_assoc]
    exact List.perm_append_comm.append_left scene.reports
  simp only [Scene.follow]
  cases outcome.write with
  | none =>
      exact moved
  | some write =>
      have kept :=
        @commit_write τ hear id
          { scene with
            flow := outcome.flow
            reports := scene.reports ++ outcome.failures }
          isOpen write
      rw [kept]
      exact moved.write hear write

/-- Taking a speculation back takes back a step inside it. -/
theorem rollback_follow
    {saved : Play.Checkpoint}
    (isOpen : saved.speculation < scene.store.journals.length)
    (hear : Hearing τ)
    {outcome : Outcome}
    (remembers :
      ∀ write, outcome.write = some write → write.old = scene.store.valueAt write.index) :
    (scene.follow hear outcome).rollback saved = scene.rollback saved := by
  have speculating := Store.isSpeculating_of_open isOpen
  simp only [Scene.follow]
  cases written : outcome.write with
  | none =>
      rfl
  | some write =>
      simp only [Scene.write, speculating, if_true, Scene.rollback,
        Store.rollback_apply isOpen (remembers write written)]

end Open

/-- No step inside a speculation closes it. -/
theorem length_journals_follow
    (scene : Scene τ)
    (hear : Hearing τ)
    (outcome : Outcome) :
    (scene.follow hear outcome).store.journals.length = scene.store.journals.length := by
  simp only [Scene.follow]
  cases outcome.write with
  | none =>
      rfl
  | some write =>
      simp only [Scene.write]
      split <;> exact Store.length_journals_apply _ _

/--
A scene on trial since a base: keeping the trial leads to the scene of the plain run, and
taking it back leads to the base.
-/
structure Pending
    (hear : Hearing τ)
    (drained : List Error)
    (saved : Play.Checkpoint)
    (base scene plain : Scene τ) :
    Prop where
  isOpen : saved.speculation < scene.store.journals.length
  kept : Joined drained (scene.commit hear saved.speculation) plain
  undone : Joined drained (scene.rollback saved) base

namespace Pending

variable {drained : List Error} {saved : Play.Checkpoint} {base scene plain : Scene τ}

/-- A trial starts where a speculation is opened. -/
theorem start
    (joined : Joined drained scene plain)
    (hear : Hearing τ)
    (size : Nat) :
    Pending hear drained
      ⟨scene.flow, scene.reports, size, scene.store.journals.length⟩
      plain { scene with store := scene.store.beginSpeculation.2 } plain where
  isOpen := Nat.lt_succ_self _
  kept := by
    have kept := Store.commit_beginSpeculation scene.store
    have untold := Store.commit_beginSpeculation_writes scene.store
    simp only [Store.beginSpeculation] at kept untold
    simp only [Scene.commit, Store.beginSpeculation, kept, untold, Store.hearings,
      List.append_nil]
    exact joined
  undone := by
    have undone := (Store.Above.beginSpeculation scene.store).rollback_base
    simp only [Scene.rollback, undone]
    exact joined

/-- The same outcome keeps a trial beside the plain run. -/
theorem follow
    (pending : Pending hear drained saved base scene plain)
    {outcome : Outcome}
    (remembers :
      ∀ write, outcome.write = some write → write.old = scene.store.valueAt write.index) :
    Pending hear drained saved base (scene.follow hear outcome) (plain.follow hear outcome) where
  isOpen := by
    rw [length_journals_follow]
    exact pending.isOpen
  kept := (commit_follow pending.isOpen hear outcome).trans (pending.kept.follow hear outcome)
  undone := by
    rw [rollback_follow pending.isOpen hear remembers]
    exact pending.undone

/-- The same jump keeps a trial beside the plain run. -/
theorem redirect
    (pending : Pending hear drained saved base scene plain)
    (flow : Flow) :
    Pending hear drained saved base { scene with flow := flow } { plain with flow := flow } where
  isOpen := pending.isOpen
  kept := ⟨rfl, pending.kept.store, pending.kept.state, pending.kept.reports⟩
  undone := pending.undone

/-- On trial the declarations and the values are those of the plain run. -/
theorem declarations
    (pending : Pending hear drained saved base scene plain) :
    scene.store.declarations = plain.store.declarations := by
  have kept := congrArg Store.declarations pending.kept.store
  simpa only [Scene.commit, Store.commit_declarations] using kept

theorem values
    (pending : Pending hear drained saved base scene plain) :
    scene.store.values = plain.store.values := by
  have kept := congrArg Store.values pending.kept.store
  simpa only [Scene.commit, Store.commit_values] using kept

end Pending

end Scene

end Fabula
