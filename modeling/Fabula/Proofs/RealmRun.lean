import Fabula.Proofs.RealmFlow
import Fabula.Proofs.Step
import Fabula.Proofs.Telling

namespace Fabula

/-!
# Runs of a realm

A host keeps to a realm when it puts only values of the realm into the store and hands only
such values to the story.  Then runners that start in the realm stay in it, whatever is read,
chosen or moved to, and also while they look ahead.
-/

/-- A write of values of a realm. -/
structure Write.Within
    {story : Story}
    (realm : Realm story)
    (write : Write) :
    Prop where
  new : write.new.Within realm
  old : write.old.Within realm

/-- A store that holds values of a realm only. -/
structure Store.Within
    {story : Story}
    (realm : Realm story)
    (store : Store) :
    Prop where
  declares : realm.Declares store.declarations store.values.length
  values : ∀ value ∈ store.values, value.Within realm
  journals : ∀ journal ∈ store.journals, ∀ write ∈ journal, write.Within realm

namespace Store

theorem length_journal
    (write : Write)
    (journals : List (List Write)) :
    (journal write journals).length = journals.length := by
  cases journals <;> rfl

theorem length_journalsAround
    {store : Store}
    {id : Nat}
    (inside : id ≤ store.journals.length) :
    (store.journalsAround id).length = id := by
  simp only [journalsAround, List.length_drop]
  omega

theorem length_journals_commit
    {store : Store}
    {id : Nat}
    (inside : id ≤ store.journals.length) :
    (store.commit id).2.journals.length = id := by
  have around := length_journalsAround inside
  simp only [commit]
  cases kept : store.journalsAround id with
  | nil => simpa [kept] using around
  | cons innermost outer => simpa [kept] using around

namespace Within

variable {story : Story} {realm : Realm story} {store : Store}

theorem prepare
    (within : store.Within realm)
    (name : String)
    {value : Value}
    (valueWithin : value.Within realm) :
    Yields (Write.Within realm) (store.prepare name value) := by
  have any : Yields (fun _ => True) (store.index name) := fun _ _ => trivial
  refine any.bind fun index _ => ?_
  simp only
  split
  · refine .ok ⟨valueWithin.coerceTo _, ?_⟩
    simp only [valueAt, List.getD_eq_getElem?_getD]
    cases here : store.values[index]? with
    | none => trivial
    | some old => exact within.values old (List.mem_of_getElem? here)
  · exact .error _

theorem apply
    (within : store.Within realm)
    {write : Write}
    (writeWithin : write.Within realm) :
    (store.apply write).Within realm where
  declares := by
    rw [Store.apply, List.length_set]
    exact within.declares
  values value member := by
    rcases List.mem_or_eq_of_mem_set member with old | rfl
    · exact within.values value old
    · exact writeWithin.new
  journals journal member := by
    have older := within.journals
    simp only [Store.apply] at member
    cases kept : store.journals with
    | nil =>
        simp [kept, Store.journal] at member
    | cons innermost outer =>
        simp only [kept, Store.journal, List.mem_cons] at member older
        rcases member with rfl | around
        · intro other inside
          rcases List.mem_cons.mp inside with rfl | earlier
          · exact writeWithin
          · exact older innermost (.inl rfl) other earlier
        · exact older journal (.inr around)

theorem writesSince
    (within : store.Within realm)
    {id : Nat}
    {write : Write}
    (member : write ∈ store.writesSince id) :
    write.Within realm := by
  obtain ⟨journal, taken, inside⟩ := List.mem_flatten.mp member
  exact within.journals journal (List.mem_of_mem_take taken) write inside

theorem journalsAround
    (within : store.Within realm)
    {id : Nat} :
    ∀ journal ∈ store.journalsAround id, ∀ write ∈ journal, write.Within realm :=
  fun journal member => within.journals journal (List.mem_of_mem_drop member)

/-- Undoing writes does not lead out of a realm. -/
theorem undo
    {writes : List Write}
    (writesWithin : ∀ write ∈ writes, write.Within realm)
    {values : List Value}
    (valuesWithin : ∀ value ∈ values, value.Within realm) :
    (writes.foldl Store.undo values).length = values.length ∧
      ∀ value ∈ writes.foldl Store.undo values, value.Within realm := by
  induction writes generalizing values with
  | nil =>
      exact ⟨rfl, valuesWithin⟩
  | cons first rest inductionHypothesis =>
      have restored : ∀ value ∈ Store.undo values first, value.Within realm := by
        intro value member
        rcases List.mem_or_eq_of_mem_set member with kept | rfl
        · exact valuesWithin value kept
        · exact (writesWithin first List.mem_cons_self).old
      obtain ⟨sameLength, allWithin⟩ :=
        inductionHypothesis
          (fun write member => writesWithin write (List.mem_cons_of_mem first member))
          restored
      exact ⟨sameLength.trans List.length_set, allWithin⟩

theorem rollback
    (within : store.Within realm)
    (id : Nat) :
    (store.rollback id).Within realm := by
  have since : ∀ write ∈ store.writesSince id, write.Within realm :=
    fun _ member => within.writesSince member
  obtain ⟨sameLength, allWithin⟩ := undo since within.values
  exact ⟨sameLength ▸ within.declares, allWithin, within.journalsAround⟩

theorem commit
    (within : store.Within realm)
    (id : Nat) :
    (∀ write ∈ (store.commit id).1, write.Within realm) ∧
      (store.commit id).2.Within realm := by
  simp only [Store.commit]
  cases kept : store.journalsAround id with
  | nil =>
      refine ⟨fun write member => within.writesSince (List.mem_reverse.mp member), ?_⟩
      exact ⟨within.declares, within.values, by simp⟩
  | cons innermost outer =>
      have around := @journalsAround story realm store within id
      rw [kept] at around
      refine ⟨by simp, within.declares, within.values, ?_⟩
      intro journal member write inside
      rcases List.mem_cons.mp member with rfl | further
      · rcases List.mem_append.mp inside with since | before
        · exact within.writesSince since
        · exact around innermost List.mem_cons_self write before
      · exact around journal (List.mem_cons_of_mem innermost further) write inside

end Within

end Store

/-- A notice of values of a realm. -/
def Notice.Within {story : Story} (realm : Realm story) : Notice → Prop
  | .changed new old => new.Within realm ∧ ∀ value ∈ old, value.Within realm
  | .ping => True
  | .delta new old => new.Within realm ∧ old.Within realm

/-- A world over a store of a realm, with a number of open speculations. -/
structure World.Within
    {σ : Type}
    {story : Story}
    (realm : Realm story)
    (depth : Nat)
    (world : World σ) :
    Prop where
  store : world.store.Within realm
  depth : world.store.journals.length = depth

/--
A host that supplies values of a realm only: as results of calls, and as values of
variables.  It uses the store as any host can, so it neither opens nor closes
speculations.
-/
structure Host.Within
    {σ : Type}
    {story : Story}
    (host : Host σ)
    (realm : Realm story) :
    Prop where
  call :
    ∀ callback arguments depth (world : World σ),
      (∀ value ∈ arguments, value.Within realm) →
      world.Within realm depth →
      Yields (Value.Within realm) (host.call callback arguments world).1 ∧
        (host.call callback arguments world).2.Within realm depth
  notify :
    ∀ callback notice depth (world : World σ),
      notice.Within realm →
      world.Within realm depth →
      (host.notify callback notice world).2.Within realm depth

namespace World.Within

variable {σ : Type} {host : Host σ} {story : Story} {realm : Realm story} {depth : Nat}
  {world : World σ}

theorem log
    (within : world.Within realm depth)
    (log : Array LogRecord) :
    World.Within realm depth { world with log := log } :=
  ⟨within.store, within.depth⟩

theorem tell
    (hostWithin : host.Within realm)
    (within : world.Within realm depth)
    (observer : Observer)
    {write : Write}
    (writeWithin : write.Within realm) :
    (world.tell host observer write.new (some write.old)).2.Within realm depth := by
  simp only [World.tell]
  cases heard : noticeOf observer.kind write.new (some write.old) with
  | none =>
      exact within
  | some notice =>
      refine hostWithin.notify _ notice depth world ?_ within
      simp only [noticeOf] at heard
      cases kind : observer.kind with
      | changed =>
          simp only [kind, Option.some.injEq] at heard
          exact heard ▸ ⟨writeWithin.new, by simpa using writeWithin.old⟩
      | ping =>
          simp only [kind, Option.some.injEq] at heard
          exact heard ▸ trivial
      | delta =>
          simp only [kind, Option.ite_none_left_eq_some, Option.some.injEq] at heard
          exact heard.2 ▸ ⟨writeWithin.new, writeWithin.old⟩

theorem tellAll
    (hostWithin : host.Within realm)
    (within : world.Within realm depth)
    (name : String)
    (observers : List Observer)
    {write : Write}
    (writeWithin : write.Within realm) :
    (tellAll host name write.new (some write.old) observers world).2.Within realm depth :=
  tellAll_keeps (fun observer _ _ within => within.tell hostWithin observer writeWithin)
    (fun _ _ within => within.log _) within

theorem deliver
    (hostWithin : host.Within realm)
    (within : world.Within realm depth)
    {write : Write}
    (writeWithin : write.Within realm) :
    (world.deliver host write).2.Within realm depth :=
  within.tellAll hostWithin _ _ writeWithin

theorem deliverAll
    (hostWithin : host.Within realm)
    (within : world.Within realm depth)
    {writes : List Write}
    (writesWithin : ∀ write ∈ writes, write.Within realm) :
    (deliverAll host writes world).2.Within realm depth :=
  deliverAll_keeps
    (fun write member _ within => within.deliver hostWithin (writesWithin write member)) within

theorem assign
    (hostWithin : host.Within realm)
    (within : world.Within realm depth)
    (name : String)
    {value : Value}
    (valueWithin : value.Within realm) :
    (world.assign host name value).2.Within realm depth := by
  refine assign_keeps (fun write prepared => ?_) within
  have writeWithin := within.store.prepare name valueWithin write prepared
  have written : World.Within realm depth { world with store := world.store.apply write } :=
    ⟨within.store.apply writeWithin, (Store.length_journal _ _).trans within.depth⟩
  exact ⟨written, written.deliver hostWithin writeWithin⟩

theorem beginSpeculation
    (within : world.Within realm depth) :
    world.beginSpeculation.1 = depth ∧ world.beginSpeculation.2.Within realm (depth + 1) := by
  refine ⟨within.depth, ⟨within.store.declares, within.store.values, ?_⟩,
    congrArg (· + 1) within.depth⟩
  intro journal member
  rcases List.mem_cons.mp member with rfl | older
  · simp
  · exact within.store.journals journal older

theorem rollback
    (within : world.Within realm (depth + 1)) :
    (world.rollback depth).Within realm depth := by
  refine ⟨within.store.rollback depth, Store.length_journalsAround ?_⟩
  rw [within.depth]
  exact Nat.le_succ depth

theorem commit
    (hostWithin : host.Within realm)
    (within : world.Within realm (depth + 1)) :
    (world.commit host depth).2.Within realm depth := by
  obtain ⟨writesWithin, storeWithin⟩ := within.store.commit depth
  have closed :
      World.Within realm depth { world with store := (world.store.commit depth).2 } := by
    refine ⟨storeWithin, Store.length_journals_commit ?_⟩
    rw [within.depth]
    exact Nat.le_succ depth
  exact closed.deliverAll hostWithin writesWithin

end World.Within

namespace Flow

/-- A step does not lead out of a realm. -/
theorem next_within
    {setup : Setup}
    {realm : Realm setup.story}
    {store : Store}
    (globals : ∀ value ∈ store.values, value.Within realm)
    {flow : Flow}
    (within : flow.Within realm)
    (address : Nat) :
    Yields (Change.Within realm) (flow.next setup store address) := by
  simp only [next]
  cases here : setup.story.instruction? address with
  | none =>
      exact .ok within.done
  | some instruction =>
      refine execute_within globals here { within with ip := ?_ }
      rintro _ ⟨⟩
      exact (Array.getElem?_eq_some_iff.mp here).1

/-- Only an instruction can fail. -/
theorem lt_instructionCount_of_next_error
    {setup : Setup}
    {store : Store}
    {flow : Flow}
    {address : Nat}
    {error : Error}
    (failed : flow.next setup store address = .error error) :
    address < setup.story.instructionCount := by
  cases here : setup.story.instruction? address with
  | none =>
      simp [next, here] at failed
  | some instruction =>
      exact (Array.getElem?_eq_some_iff.mp here).1

/-- A choice takes a turn, so what is remembered gets older. -/
theorem Within.select
    {story : Story}
    {realm : Realm story}
    {flow : Flow}
    (within : flow.Within realm)
    (passes : realm.Passes flow.turn)
    {choice : Choice}
    (choiceWithin : choice.Within realm) :
    (flow.select story choice).Within realm := by
  refine Within.jump ?_ choiceWithin.target
  exact
    { within with
      choices := by simp
      numbers := rfl
      fallback := by simp
      callStack := choiceWithin.callStack
      threads := by simp
      dates := fun date member => passes date (within.dates date member) }

theorem Within.moveTo
    {story : Story}
    {realm : Realm story}
    {flow : Flow}
    (within : flow.Within realm)
    {container : Container}
    (inside : container.start ≤ story.instructionCount) :
    (flow.moveTo story container).Within realm := by
  refine Within.jump ?_ inside
  exact
    { within with
      choices := by simp
      numbers := rfl
      fallback := by simp
      eval := by simp
      callStack := within.callStack.clear
      threads := by simp }

end Flow

namespace Play

variable {σ : Type} {host : Host σ} {setup : Setup} {realm : Realm setup.story}
  {depth : Nat} {play : Play σ}

/-- A play that belongs to a realm, with a number of open speculations. -/
structure Within
    {story : Story}
    (realm : Realm story)
    (depth : Nat)
    (play : Play σ) :
    Prop where
  flow : play.flow.Within realm
  world : play.world.Within realm depth

/-- A play on the way to the end of a line, perhaps with a checkpoint to come back to. -/
def Underway
    {story : Story}
    (realm : Realm story)
    (depth : Nat) :
    Option Checkpoint → Play σ → Prop
  | none, play => play.Within realm depth
  | some saved, play =>
      saved.flow.Within realm ∧ saved.speculation = depth ∧ play.Within realm (depth + 1)

/-- A play whose next move on the way to the end of a line takes the fallback. -/
def FallsBack (play : Play σ) : Prop :=
  play.flow.ip = none ∧ play.flow.fallback?.isSome = true

/-- What is known of a play when a move on the way to the end of a line is made. -/
def Progress.Within
    {story : Story}
    (realm : Realm story)
    (depth : Nat) :
    Progress σ → Prop
  | .going checkpoint play => Underway realm depth checkpoint play
  | .stopped _ play => play.Within realm depth

namespace Within

theorem emit
    (within : play.Within realm depth)
    (events : List Event) :
    (play.emit setup events).Within realm depth :=
  ⟨within.flow, within.world.log _⟩

theorem assign
    (hostWithin : host.Within realm)
    (within : play.Within realm depth)
    (name : String)
    {value : Value}
    (valueWithin : value.Within realm) :
    (play.assign host name value).2.Within realm depth := by
  obtain ⟨world, flow⟩ := play.assign_world host name value
  refine ⟨flow ▸ within.flow, world ▸ ?_⟩
  exact within.world.assign hostWithin name valueWithin

theorem callHost
    (hostWithin : host.Within realm)
    (within : play.Within realm depth)
    (name : String)
    (binding : Binding)
    {arguments : List Value}
    (argumentsWithin : ∀ value ∈ arguments, value.Within realm) :
    (play.callHost setup host name binding arguments).2.Within realm depth := by
  obtain ⟨resultWithin, world⟩ :=
    hostWithin.call binding.callback arguments depth play.world argumentsWithin within.world
  have returned :
      Yields (Value.Within realm)
        (resultOf binding (host.call binding.callback arguments play.world).1) := by
    simp only [resultOf]
    split
    · exact resultWithin
    · exact resultWithin.map fun _ _ => trivial
  simp only [Play.callHost]
  cases result : resultOf binding (host.call binding.callback arguments play.world).1 with
  | error failure =>
      exact ⟨within.flow.push trivial, (world.log _).log _⟩
  | ok value =>
      simp only
      split
      · exact ⟨within.flow, world.log _⟩
      · exact ⟨within.flow.push (returned value result), world.log _⟩

theorem step
    (hostWithin : host.Within realm)
    (within : play.Within realm depth)
    (address : Nat) :
    (play.step setup host address).2.Within realm depth := by
  have changes := Flow.next_within within.world.store.values within.flow address
  rw [step_eq]
  cases made : play.flow.next setup play.world.store address with
  | error error =>
      refine ⟨{ within.flow with ip := ?_ }, within.world⟩
      rintro _ ⟨⟩
      exact Flow.lt_instructionCount_of_next_error made
  | ok change =>
      have changed := changes change made
      have carried : (play.carry setup change).Within realm depth :=
        ⟨changed.flow, within.world.log _⟩
      simp only
      cases asked : change.request with
      | none =>
          exact carried
      | some request =>
          have requestWithin := changed.request request asked
          cases request with
          | write name value =>
              exact carried.assign hostWithin name requestWithin
          | call name binding arguments =>
              exact carried.callHost hostWithin name binding requestWithin

end Within

theorem save_underway
    (within : play.Within realm depth) :
    Underway realm depth (some (play.save setup).1) (play.save setup).2 := by
  obtain ⟨number, world⟩ := (within.world.log _).beginSpeculation
  exact ⟨within.flow, number, within.flow, world⟩

namespace Underway

variable {checkpoint : Option Checkpoint} {saved : Checkpoint}

theorem emit
    (underway : Underway realm depth checkpoint play)
    (events : List Event) :
    Underway realm depth checkpoint (play.emit setup events) := by
  cases checkpoint with
  | none => exact Within.emit underway events
  | some saved => exact ⟨underway.1, underway.2.1, underway.2.2.emit events⟩

theorem step
    (setup : Setup)
    {realm : Realm setup.story}
    (hostWithin : host.Within realm)
    (underway : Underway realm depth checkpoint play)
    (address : Nat) :
    Underway realm depth checkpoint (play.step setup host address).2 := by
  cases checkpoint with
  | none => exact Within.step hostWithin underway address
  | some saved =>
      exact ⟨underway.1, underway.2.1, underway.2.2.step hostWithin address⟩

theorem rollback
    (setup : Setup)
    {realm : Realm setup.story}
    (underway : Underway realm depth (some saved) play) :
    (play.rollback setup saved).Within realm depth := by
  obtain ⟨flow, rfl, within⟩ := underway
  exact ⟨flow, (within.world.log _).rollback⟩

theorem commit
    {story : Story}
    {realm : Realm story}
    (hostWithin : host.Within realm)
    (underway : Underway realm depth checkpoint play) :
    (play.commit host checkpoint).Within realm depth := by
  cases checkpoint with
  | none => exact underway
  | some saved =>
      obtain ⟨_, rfl, within⟩ := underway
      exact ⟨within.flow, within.world.commit hostWithin⟩

theorem abandon
    (underway : Underway realm depth checkpoint play) :
    (play.abandon setup checkpoint).Within realm depth := by
  cases checkpoint with
  | none => exact underway
  | some saved => exact underway.rollback setup

theorem proceed
    (within : play.Within realm depth) :
    (play.proceed setup).Within realm depth := by
  simp only [Play.proceed]
  split
  · split
    · exact within
    · split
      · exact save_underway within
      · exact within
  · exact within

theorem settle
    (hostWithin : host.Within realm)
    (underway : Underway realm depth checkpoint play) :
    (play.settle setup host checkpoint).Within realm depth := by
  simp only [Play.settle]
  split
  · exact underway
  · cases checkpoint with
    | none => exact proceed underway
    | some saved =>
        simp only
        cases growth saved.outputSize play.flow.output with
        | textAdded => exact underway.rollback setup
        | newlineRemoved => exact proceed (underway.commit hostWithin)
        | none => exact underway

theorem attempt
    (hostWithin : host.Within realm)
    (underway : Underway realm depth checkpoint play)
    (address : Nat) :
    (play.attempt setup host checkpoint address).Within realm depth := by
  have stepped := underway.step setup hostWithin address
  simp only [Play.attempt]
  rcases made : play.step setup host address with ⟨result, after⟩
  rw [made] at stepped
  cases result with
  | ok _ =>
      exact stepped.settle hostWithin
  | error error =>
      cases checkpoint with
      | none => exact stepped
      | some saved => exact (stepped.emit _).rollback setup

/-- The fallback is a choice of the story. -/
theorem takeFallback?
    (underway : Underway realm depth checkpoint play)
    (passes : realm.Passes play.flow.turn)
    {continued : Play σ}
    (taken : play.takeFallback? setup = some continued) :
    Underway realm depth checkpoint continued := by
  obtain ⟨choice, offered, rfl⟩ := Option.map_eq_some_iff.mp taken
  have held : play.flow.fallback = some choice := by
    simp only [Flow.fallback?] at offered
    split at offered
    · cases offered
    · exact offered
  have selected {depth : Nat} (within : play.Within realm depth) :
      ((play.emit setup [.fallbackChosen choice.target]).select setup choice).Within
        realm depth :=
    ⟨within.flow.select passes (within.flow.fallback choice held), (within.world.log _).log _⟩
  cases checkpoint with
  | none => exact selected underway
  | some saved => exact ⟨underway.1, underway.2.1, selected underway.2.2⟩

theorem advance
    (setup : Setup)
    {realm : Realm setup.story}
    (hostWithin : host.Within realm)
    (underway : Underway realm depth checkpoint play)
    (passes : play.FallsBack → realm.Passes play.flow.turn) :
    (play.advance setup host checkpoint).Within realm depth := by
  simp only [Play.advance]
  cases stopped : play.flow.ip with
  | none =>
      cases taken : play.takeFallback? setup with
      | none => exact underway.commit hostWithin
      | some continued =>
          obtain ⟨choice, offered, _⟩ := Option.map_eq_some_iff.mp taken
          exact underway.takeFallback? (passes ⟨stopped, by simp [offered]⟩) taken
  | some address =>
      cases checkpoint with
      | none => exact underway.attempt hostWithin address
      | some saved =>
          simp only
          split
          · exact (underway.emit _).rollback setup
          · exact underway.attempt hostWithin address

/-- Looking for the end of a line ends in the realm and with no speculation left. -/
theorem advanceLine
    (hostWithin : host.Within realm)
    (timeless : ∀ turn, realm.Passes turn)
    (fuel : Nat)
    (underway : Underway realm depth checkpoint play) :
    (Play.advanceLine setup host fuel checkpoint play).2.Within realm depth := by
  induction fuel generalizing checkpoint play with
  | zero =>
      exact underway.abandon
  | succ fuel inductionHypothesis =>
      have advanced := underway.advance setup hostWithin fun _ => timeless _
      simp only [Play.advanceLine]
      cases moved : play.advance setup host checkpoint with
      | going checkpoint play =>
          rw [moved] at advanced
          exact inductionHypothesis advanced
      | stopped result play =>
          rw [moved] at advanced
          exact advanced

end Underway

namespace Within

theorem getline
    (setup : Setup)
    {realm : Realm setup.story}
    (hostWithin : host.Within realm)
    (timeless : ∀ turn, realm.Passes turn)
    (fuel : Nat)
    (within : play.Within realm depth) :
    (play.getline setup host fuel).2.Within realm depth := by
  have cleared : Underway realm depth none play.clearLine :=
    ⟨within.flow.dressed _ _ _ _, within.world⟩
  have found := cleared.advanceLine hostWithin timeless fuel
  simp only [Play.getline]
  split
  · exact within
  · split
    · exact within
    · rcases read : advanceLine setup host fuel none play.clearLine with ⟨result, after⟩
      rw [read] at found
      cases result with
      | error error => exact ⟨found.flow, found.world.log _⟩
      | ok _ => exact ⟨found.flow.dressed _ _ _ _, found.world.log _⟩

theorem choose
    (setup : Setup)
    {realm : Realm setup.story}
    (within : play.Within realm depth)
    (passes : realm.Passes play.flow.turn)
    (index : Nat) :
    (play.choose setup index).2.Within realm depth := by
  simp only [Play.choose]
  split
  · exact within
  · cases offered : play.choices[index]? with
    | none => exact within
    | some choice =>
        have held : choice ∈ play.flow.choices := by
          have member := List.mem_of_getElem? offered
          simp only [Runner.choices] at member
          split at member
          · exact member
          · cases member
        exact
          ⟨within.flow.select passes (within.flow.choices choice held),
            (within.world.log _).log _⟩

theorem moveTo
    (setup : Setup)
    {realm : Realm setup.story}
    (within : play.Within realm depth)
    (path : String) :
    (play.moveTo setup path).2.Within realm depth := by
  simp only [Play.moveTo]
  split
  · exact within
  · cases found : setup.story.containerAt? path with
    | none => exact within
    | some container =>
        exact ⟨within.flow.moveTo (realm.sound.containerAt? found), within.world.log _⟩

end Within

end Play

end Fabula
