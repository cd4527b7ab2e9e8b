import Fabula.Proofs.NativeFlow
import Fabula.Proofs.RealmRun

namespace Fabula

/-!
# Native runs

A host is native to a story when it puts only native values into the store and hands
only native values to the story.  Such a host never leads a story astray: every runner
that starts over a native store stays native, whatever is read, chosen or moved to.
-/

variable {story : Story} {sound : story.Sound}

/-- A write of native values. -/
structure Write.Native
    (story : Story)
    (write : Write) :
    Prop where
  new : write.new.Native story
  old : write.old.Native story

theorem Write.within_native
    {write : Write} :
    write.Within (.native sound) ↔ write.Native story :=
  ⟨fun within => ⟨Value.within_native.mp within.new, Value.within_native.mp within.old⟩,
    fun native => ⟨Value.within_native.mpr native.new, Value.within_native.mpr native.old⟩⟩

/-- A store of a story that holds native values only. -/
structure Store.Native
    (story : Story)
    (store : Store) :
    Prop where
  declarations : store.declarations = story.declarations
  length : store.values.length = story.declarations.globals.length
  values : ∀ value ∈ store.values, value.Native story
  journals : ∀ journal ∈ store.journals, ∀ write ∈ journal, write.Native story

theorem Store.within_native
    {store : Store} :
    store.Within (.native sound) ↔ store.Native story := by
  constructor
  · intro within
    refine ⟨within.declares.1, within.declares.2, ?_, ?_⟩
    · exact fun value member => Value.within_native.mp (within.values value member)
    · exact fun journal member write inside =>
        Write.within_native.mp (within.journals journal member write inside)
  · intro native
    refine ⟨⟨native.declarations, native.length⟩, ?_, ?_⟩
    · exact fun value member => Value.within_native.mpr (native.values value member)
    · exact fun journal member write inside =>
        Write.within_native.mpr (native.journals journal member write inside)

/-- A new store of a sound story. -/
theorem Store.start_native
    {story : Story}
    (sound : story.Sound) :
    (Store.start story.declarations).Native story where
  declarations := rfl
  length := List.length_map _
  values := sound.initialValues
  journals := by simp [Store.start, Store.ofValues]

/-- A notice of native values. -/
def Notice.Native (story : Story) : Notice → Prop
  | .changed new old => new.Native story ∧ ∀ value ∈ old, value.Native story
  | .ping => True
  | .delta new old => new.Native story ∧ old.Native story

theorem Notice.Within.native
    {notice : Notice}
    (within : notice.Within (.native sound)) :
    notice.Native story := by
  cases notice with
  | changed new old =>
      exact ⟨Value.within_native.mp within.1,
        fun value member => Value.within_native.mp (within.2 value member)⟩
  | ping => trivial
  | delta new old => exact ⟨Value.within_native.mp within.1, Value.within_native.mp within.2⟩

/-- A world over a store of a story, with a number of open speculations. -/
structure World.Native
    {σ : Type}
    (story : Story)
    (depth : Nat)
    (world : World σ) :
    Prop where
  store : world.store.Native story
  depth : world.store.journals.length = depth

theorem World.within_native
    {σ : Type}
    {depth : Nat}
    {world : World σ} :
    world.Within (.native sound) depth ↔ world.Native story depth :=
  ⟨fun within => ⟨Store.within_native.mp within.store, within.depth⟩,
    fun native => ⟨Store.within_native.mpr native.store, native.depth⟩⟩

/--
A host that supplies native values only: as results of calls, and as values of
variables.  It uses the store as any host can, so it neither opens nor closes
speculations.
-/
structure Host.Native
    {σ : Type}
    (host : Host σ)
    (story : Story) :
    Prop where
  call :
    ∀ callback arguments depth (world : World σ),
      (∀ value ∈ arguments, value.Native story) →
      world.Native story depth →
      Yields (Value.Native story) (host.call callback arguments world).1 ∧
        (host.call callback arguments world).2.Native story depth
  notify :
    ∀ callback notice depth (world : World σ),
      notice.Native story →
      world.Native story depth →
      (host.notify callback notice world).2.Native story depth

/-- A native host keeps to the realm of what is native. -/
theorem Host.Native.within
    {σ : Type}
    {host : Host σ}
    (native : host.Native story) :
    host.Within (.native sound) where
  call callback arguments depth world argumentsWithin within := by
    obtain ⟨result, after⟩ :=
      native.call callback arguments depth world
        (fun value member => Value.within_native.mp (argumentsWithin value member))
        (World.within_native.mp within)
    exact ⟨fun value given => Value.within_native.mpr (result value given),
      World.within_native.mpr after⟩
  notify callback notice depth world noticeWithin within :=
    World.within_native.mpr
      (native.notify callback notice depth world noticeWithin.native
        (World.within_native.mp within))

namespace Play

variable {σ : Type} {host : Host σ} {depth : Nat} {play : Play σ}

/-- A play that belongs to a story, with a number of open speculations. -/
structure Native
    (story : Story)
    (depth : Nat)
    (play : Play σ) :
    Prop where
  flow : play.flow.Native story
  world : play.world.Native story depth

/--
The plays of a story that can be reached over native stores.  Bindings and settings may
change between calls, and so may the world when the host writes to the store.
-/
inductive Reachable
    (story : Story)
    (host : Host σ) :
    Play σ → Prop where
  | start
      (config : Config)
      {world : World σ}
      (native : world.Native story 0) :
      Reachable story host ⟨.start story config, world⟩
  | getline
      (bindings : Bindings)
      (config : Config)
      (fuel : Nat)
      {play : Play σ}
      (reached : Reachable story host play) :
      Reachable story host (play.getline ⟨story, bindings, config⟩ host fuel).2
  | choose
      (bindings : Bindings)
      (config : Config)
      (index : Nat)
      {play : Play σ}
      (reached : Reachable story host play) :
      Reachable story host (play.choose ⟨story, bindings, config⟩ index).2
  | moveTo
      (bindings : Bindings)
      (config : Config)
      (path : String)
      {play : Play σ}
      (reached : Reachable story host play) :
      Reachable story host (play.moveTo ⟨story, bindings, config⟩ path).2
  | meanwhile
      {world : World σ}
      (native : world.Native story 0)
      {play : Play σ}
      (reached : Reachable story host play) :
      Reachable story host { play with world := world }

/-- Whatever is read, chosen or moved to, a play stays in the realm of what is native. -/
theorem Reachable.within
    (sound : story.Sound)
    (hostNative : host.Native story)
    (reached : Reachable story host play) :
    play.Within (.native sound) 0 := by
  have timeless (turn : UInt32) : (Realm.native sound).Passes turn := fun _ dated => dated
  induction reached with
  | start config native =>
      exact ⟨Flow.start_within _ _, World.within_native.mpr native⟩
  | getline bindings config fuel _ within =>
      exact Within.getline ⟨story, bindings, config⟩ hostNative.within timeless fuel within
  | choose bindings config index _ within =>
      exact Within.choose ⟨story, bindings, config⟩ within (timeless _) index
  | moveTo bindings config path _ within =>
      exact Within.moveTo ⟨story, bindings, config⟩ within path
  | meanwhile worldNative _ within =>
      exact ⟨within.flow, World.within_native.mpr worldNative⟩

theorem Reachable.native
    (sound : story.Sound)
    (hostNative : host.Native story)
    (reached : Reachable story host play) :
    play.Native story 0 :=
  have within := reached.within sound hostNative
  ⟨within.flow.native, World.within_native.mp within.world⟩

end Play

end Fabula
