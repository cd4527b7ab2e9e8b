import Fabula.Proofs.Canonical
import Fabula.Proofs.Restoration
import Fabula.Proofs.SnapshotOctets

namespace Fabula

/-!
# Snapshots of stores

A store that was reached by giving values to variables is saved, and it is read back and restored
with the same values if all of them are finite.
-/

/-! ## Restoring -/

namespace Snapshot

section Restored

variable {snapshot : Snapshot} {story : Story} {store : Store}

/-- A snapshot with values gives a store with them. -/
theorem restoreStore_eq_ok
    (restored : snapshot.restoreStore story = .ok store) :
    ∃ entries, snapshot.body.globals = some entries ∧ Store.restore story entries = .ok store := by
  obtain ⟨_, _, restored⟩ := exists_of_bind_eq_ok restored
  split at restored
  · cases restored
  · next entries saved => exact ⟨entries, saved, restored⟩

/-- A runner is restored from the flow at its position and gets the store that is meant. -/
theorem restoreRunner_eq_ok
    {given : Option Store}
    {index : Nat}
    {runner : Runner}
    (restored : snapshot.restoreRunner story given index = .ok (runner, store)) :
    ∃ saved flow,
      snapshot.body.flows[index]? = some saved ∧
      (match given, snapshot.body.globals with
        | none, some entries => Store.restore story entries
        | _, _ => story.bindStore given) = .ok store ∧
      saved.restore story = .ok flow ∧
      runner = .ofFlow flow := by
  obtain ⟨_, _, restored⟩ := exists_of_bind_eq_ok restored
  split at restored
  · cases restored
  · next saved here =>
      obtain ⟨_, bound, restored⟩ :
          ∃ chosen,
            (match given, snapshot.body.globals with
              | none, some entries => Store.restore story entries
              | _, _ => story.bindStore given) = .ok chosen ∧
            (do pure (Runner.ofFlow (← saved.restore story), chosen)) = .ok (runner, store) := by
        cases given <;> cases kept : snapshot.body.globals <;> simp only [kept] at restored ⊢ <;>
          exact exists_of_bind_eq_ok restored
      obtain ⟨flow, done, restored⟩ := exists_of_bind_eq_ok restored
      obtain ⟨rfl, rfl⟩ := Prod.mk.inj (Except.ok.inj restored)
      exact ⟨saved, flow, here, bound, done, rfl⟩

end Restored

end Snapshot

/-! ## Stores of a story -/

/-- A value that a host may give to a variable of a story. -/
def Value.Settable (story : Story) : Value → Prop
  | .list set => set.Over story.declarations.lists
  | .divert _ => False
  | .pointer _ _ => False
  | _ => True

namespace Store

/-- The stores that the first values lead to when variables are given values. -/
inductive Reached (story : Story) : Store → Prop where
  | start : Reached story (.start story.declarations)
  | assign
      {store : Store}
      {name : String}
      {value : Value}
      {write : Write}
      (reached : Reached story store)
      (settable : value.Settable story)
      (prepared : store.prepare name value = .ok write) :
      Reached story (store.apply write)

end Store

namespace Value

/-- A reference to a variable. -/
def isReference : Value → Bool
  | .pointer _ _ => true
  | _ => false

theorem refers_of_isReference
    {story : Story}
    {value : Value}
    (plain : value.isReference = false) :
    value.Refers story := by
  cases value with
  | pointer name frame => cases plain
  | _ => trivial

theorem Settable.native
    {story : Story}
    {value : Value}
    (settable : value.Settable story) :
    value.Native story := by
  cases value with
  | divert target => cases settable
  | pointer name frame => cases settable
  | _ => exact settable

theorem Settable.isReference_coerceTo
    {story : Story}
    {value : Value}
    (settable : value.Settable story)
    (declared : Kind) :
    (value.coerceTo declared).isReference = false := by
  cases value with
  | pointer name frame => cases settable
  | _ => cases declared <;> rfl

end Value

namespace Loader

theorem value_plain
    (strings : Array String)
    (literals : Array FlagSet)
    (instructionCount : Nat)
    (stored : StoredValue) :
    Yields (fun value => value.isReference = false)
      (value strings literals instructionCount stored) := by
  cases stored with
  | str index =>
      have any : Yields (fun _ => True) (string strings index) := fun _ _ => trivial
      exact any.bind fun _ _ => .ok rfl
  | list index =>
      simp only [value]
      split
      · exact .ok rfl
      · exact .error _
  | divert target =>
      simp only [value]
      split
      · exact .ok rfl
      · exact .error _
  | _ =>
      exact .ok rfl

end Loader

theorem Story.ofOctets_plain
    {octets : List UInt8}
    {story : Story}
    (loaded : ofOctets octets = .ok story) :
    ∀ value ∈ story.declarations.initialValues, value.isReference = false := by
  have plain :
      Yields (fun story => ∀ value ∈ story.declarations.initialValues, value.isReference = false)
        (ofOctets octets) := by
    have any {α : Type} (result : Except Error α) : Yields (fun _ => True) result :=
      fun _ _ => trivial
    refine (any _).bind fun tables _ => ?_
    refine (any _).bind fun defs _ => ?_
    refine (any _).bind fun literals _ => ?_
    refine (Loader.globals_initial (Loader.value_plain _ _ _) _ _).bind fun globals plain => ?_
    refine (any _).bind fun containers _ => ?_
    refine (any _).bind fun _ _ => .ok ?_
    intro value member
    obtain ⟨declaration, inside, rfl⟩ := List.mem_map.mp member
    exact plain declaration inside
  exact plain story loaded

namespace Store.Reached

variable {story : Story} {store : Store}

theorem native
    (sound : story.Sound)
    (reached : store.Reached story) :
    store.Native story := by
  induction reached with
  | start =>
      exact Store.start_native sound
  | @assign store name value write reached settable prepared inductionHypothesis =>
      have within : store.Within (.native sound) := Store.within_native.mpr inductionHypothesis
      have native : write.Within (.native sound) :=
        within.prepare name (Value.within_native.mpr settable.native) write prepared
      exact Store.within_native.mp (within.apply native)

/-- No reference is prepared for a variable that is given a value. -/
theorem prepare_plain
    (store : Store)
    (name : String)
    {value : Value}
    (settable : value.Settable story) :
    Yields (fun write => write.new.isReference = false) (store.prepare name value) := by
  have any : Yields (fun _ => True) (store.index name) := fun _ _ => trivial
  refine any.bind fun index _ => ?_
  simp only
  split
  · exact .ok (settable.isReference_coerceTo _)
  · exact .error _

theorem plain
    (initial : ∀ value ∈ story.declarations.initialValues, value.isReference = false)
    (reached : store.Reached story) :
    ∀ value ∈ store.values, value.isReference = false := by
  induction reached with
  | start =>
      exact initial
  | @assign store name value write reached settable prepared inductionHypothesis =>
      have new : write.new.isReference = false :=
        prepare_plain store name settable write prepared
      intro other member
      rcases List.mem_or_eq_of_mem_set member with old | rfl
      · exact inductionHypothesis other old
      · exact new

theorem observers
    (reached : store.Reached story) :
    store.observers = [] := by
  induction reached with
  | start => rfl
  | assign _ _ _ inductionHypothesis => exact inductionHypothesis

end Store.Reached

/-- A successful call that gives a variable a value keeps to the stores that are reached. -/
theorem World.assign_reached
    {σ : Type}
    {host : Host σ}
    {name : String}
    {value : Value}
    {world : World σ}
    {story : Story}
    (reached : world.store.Reached story)
    (settable : value.Settable story)
    (assigned : (world.assign host name value).1 = .ok ()) :
    (world.assign host name value).2.store.Reached story := by
  cases prepared : world.store.prepare name value with
  | error error =>
      simp [World.assign, prepared] at assigned
  | ok write =>
      have after := reached.assign settable prepared
      have unobserved : (world.store.apply write).observersOf write.index = [] := by
        simp [Store.observersOf, after.observers]
      simp only [World.assign, prepared, deliver, unobserved, tellAll]
      split <;> exact after

/-! ## Snapshots of stores -/

/-- Whether a value can be read back: every value but a number that has no numeral. -/
def Value.isFinite : Value → Bool
  | .float x => x.isFinite
  | _ => true

theorem SavedValue.isFinite_ofValue
    (value : Value) :
    (ofValue value).isFinite = value.isFinite := by
  cases value <;> rfl

/-- All values of a store are saved. -/
theorem Store.all_isFinite_saved
    {store : Store}
    (complete : store.values.length = store.declarations.globals.length) :
    (Snapshot.ofStore store).body.values.all SavedValue.isFinite =
      store.values.all Value.isFinite := by
  have values : store.values = store.entries.map Prod.snd := by
    rw [entries, List.map_snd_zip]
    simp [Declarations.names, complete]
  rw [values]
  simp [Snapshot.ofStore, SnapshotBody.values, saved, List.all_map, Function.comp_def,
    SavedVariable.ofEntry, SavedValue.isFinite_ofValue]

namespace Snapshot

/--
A store of a loaded story is saved unless its body is too long, and what was saved is read back
and restored with the same values if all of them are finite.  It is refused otherwise: a number
that is infinite or not a number is written as `null`.
-/
theorem ofStore_read_back
    {stored : List UInt8}
    {story : Story}
    (loaded : Story.ofOctets stored = .ok story)
    (distinct : story.declarations.lists.Distinct)
    {store : Store}
    (reached : store.Reached story) :
    (ofStore store).restoreStore story = .ok (.ofValues story.declarations store.values) ∧
      (UInt32.size ≤ (ofStore store).body.toOctets.length →
        (ofStore store).toOctets = .error (.snapshotCorrupt .bodyTooLarge)) ∧
      ((ofStore store).body.toOctets.length < UInt32.size →
        ∃ octets, (ofStore store).toOctets = .ok octets ∧
          ofOctets octets =
            if ∀ value ∈ store.values, value.isFinite = true then .ok (ofStore store)
            else .error (.snapshotCorrupt .invalidBody)) := by
  have sound := Story.ofOctets_sound loaded
  have native := reached.native sound
  refine ⟨?_, toOctets_of_le, fun small => ?_⟩
  · have refers : ∀ value ∈ store.values, value.Refers story := fun value member =>
      Value.refers_of_isReference (reached.plain (Story.ofOctets_plain loaded) value member)
    have own : (ofStore store).checkStory story = .ok () := by
      simp only [checkStory, ofStore, native.declarations, if_true]
    simp only [restoreStore, own, bind, Except.bind]
    exact Store.restore_saved distinct sound native refers
  · have complete : store.values.length = store.declarations.globals.length := by
      rw [native.declarations, native.length]
    have written := toOctets_of_lt small
    have read := (Made.ofStore store).consistent.ofOctets_toOctets written
    simp only [Store.all_isFinite_saved complete, List.all_eq_true] at read
    exact ⟨_, written, read⟩

/-! ## A scale -/

/-- A story with nothing but the weight that a scale shows. -/
def scaleTables : Tables where
  strings := ["weight"]
  lists := []
  literals := []
  globals := [(0, .float (.zero false))]
  containers := []
  instructions := []

def scaleStory : Story where
  instructions := #[]
  strings := #["weight"]
  literals := #[]
  containers := #[]
  declarations := ⟨[⟨"weight", .float (.zero false)⟩], ⟨#[]⟩⟩

theorem scaleStory_loaded :
    Story.ofOctets (StoryFormat.encode scaleTables) = .ok scaleStory := by
  have fit : StoryFormat.TablesFit scaleTables := by decide +kernel
  rw [StoryFormat.ofOctets_encode fit]
  rfl

/-- The store of the scale after one was divided by zero. -/
def overloaded : Store :=
  .ofValues scaleStory.declarations [.float (.div (.ofInt 1) (.zero false))]

/-- The quotient of one and zero can be saved, but what was saved cannot be read. -/
theorem ofStore_read_back_scale :
    scaleStory.declarations.lists.Distinct ∧
      overloaded.Reached scaleStory ∧
      ∃ octets, (ofStore overloaded).toOctets = .ok octets ∧
        ofOctets octets = .error (.snapshotCorrupt .invalidBody) := by
  have distinct : scaleStory.declarations.lists.Distinct := ⟨.nil, nofun⟩
  have quotient : (Value.float (.div (.ofInt 1) (.zero false))).Settable scaleStory := trivial
  have prepared : (Store.start scaleStory.declarations).prepare "weight"
      (.float (.div (.ofInt 1) (.zero false))) =
        .ok ⟨0, .float (.div (.ofInt 1) (.zero false)), .float (.zero false)⟩ := by
    rfl
  have reached : overloaded.Reached scaleStory := .assign .start quotient prepared
  obtain ⟨-, -, read⟩ := ofStore_read_back scaleStory_loaded distinct reached
  obtain ⟨octets, written, refused⟩ := read (by decide +kernel)
  rw [if_neg (by decide +kernel)] at refused
  exact ⟨distinct, reached, octets, written, refused⟩

end Snapshot

end Fabula
