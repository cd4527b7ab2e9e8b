import Fabula.Proofs.Kinds
import Fabula.Proofs.Snapshots

namespace Fabula

/-!
# The kinds of restored variables

A saved variable is stored with a kind beside its value.  Restoring compares the value with the
kind beside it and never with the declared kind, so a restored variable has the kind that is
recorded by the last entry with its name.  The main result says for which snapshots the restored
store holds values of the declared kinds.
-/

/-! ## One entry -/

namespace SavedVariable

variable {story : Story} {values restored : List Value}

/-- What it takes to restore an entry, and what it does. -/
theorem restore_eq_ok
    {saved : SavedVariable}
    (done : saved.restore story values = .ok restored) :
    ∃ index value,
      story.declarations.index? saved.name = some index ∧
      value.kind = saved.kind ∧
      restored = values.set index value := by
  simp only [restore] at done
  cases found : story.declarations.index? saved.name with
  | none =>
      simp [found, refuseMismatch] at done
  | some index =>
      simp only [found, bind, Except.bind] at done
      split at done
      · cases done
      · next value _ =>
          split at done
          · next recorded =>
              exact ⟨index, value, rfl, recorded, (Except.ok.inj done).symm⟩
          · cases done

/-! ## All entries -/

/-- The entry that settles a variable: the last one with its name. -/
def settling? (entries : List SavedVariable) (name : String) : Option SavedVariable :=
  entries.reverse.find? (fun entry => entry.name == name)

theorem settling?_cons
    (entry : SavedVariable)
    (rest : List SavedVariable)
    (name : String) :
    settling? (entry :: rest) name =
      (settling? rest name).or (if entry.name = name then some entry else none) := by
  simp only [settling?, List.reverse_cons, List.find?_append, List.find?_singleton, beq_iff_eq]

/-- The kind of a declared variable is the one that its last entry records. -/
theorem kind_restored
    {entries : List SavedVariable}
    (done : entries.foldlM (restore story) values = .ok restored)
    {name : String}
    {index : Nat}
    (found : story.declarations.index? name = some index)
    (inside : index < values.length) :
    (restored.getD index .void).kind =
      match settling? entries name with
      | some entry => entry.kind
      | none => (values.getD index .void).kind := by
  induction entries generalizing values with
  | nil =>
      obtain rfl := Except.ok.inj done
      rfl
  | cons entry rest inductionHypothesis =>
      simp only [List.foldlM_cons, bind, Except.bind] at done
      split at done
      · cases done
      · next middle first =>
          obtain ⟨place, value, placed, recorded, rfl⟩ := restore_eq_ok first
          rw [inductionHypothesis done (by rwa [List.length_set]), settling?_cons]
          cases settling? rest name with
          | some later =>
              rfl
          | none =>
              by_cases same : entry.name = name
              · obtain rfl := Option.some.inj ((same ▸ placed).symm.trans found)
                simp [same, inside, recorded]
              · have apart : place ≠ index := by
                  rintro rfl
                  exact same (Declarations.name_unique placed found)
                simp [same, apart, List.getD_eq_getElem?_getD]

end SavedVariable

namespace Store

/-- A restored store holds the declared kinds if the entries that settle it record them. -/
theorem restore_holdsKinds_iff
    {story : Story}
    (sound : story.Sound)
    {entries : List SavedVariable}
    {store : Store}
    (restored : Store.restore story entries = .ok store) :
    store.HoldsKinds ↔
      ∀ declaration ∈ story.declarations.globals,
        declaration.kind ≠ .void →
        ∀ entry ∈ SavedVariable.settling? entries declaration.name,
          entry.kind = declaration.kind := by
  simp only [Store.restore, bind, Except.bind] at restored
  split at restored
  · cases restored
  · next values done =>
      obtain rfl := Except.ok.inj restored
      have kind {index : Nat} {declaration : Declaration}
          (declared : story.declarations.globals[index]? = some declaration) :
          (values.getD index .void).kind =
            match SavedVariable.settling? entries declaration.name with
            | some entry => entry.kind
            | none => declaration.kind := by
        have inside : index < story.declarations.initialValues.length := by
          rw [Declarations.initialValues, List.length_map]
          exact (List.getElem?_eq_some_iff.mp declared).1
        have first : (story.declarations.initialValues.getD index .void).kind =
            declaration.kind := by
          simp [Declarations.initialValues, declared, Declaration.kind]
        rw [SavedVariable.kind_restored done (findIdx?_key sound.names declared) inside, first]
      constructor
      · intro holds declaration member typed entry settled
        obtain ⟨index, declared⟩ := List.mem_iff_getElem?.mp member
        have held := (kind declared).symm.trans (holds index declaration declared typed)
        rwa [Option.mem_def.mp settled] at held
      · intro recorded index declaration declared typed
        refine (kind declared).trans ?_
        split
        · next entry settled =>
            exact recorded declaration (List.mem_of_getElem? declared) typed entry settled
        · rfl

end Store

namespace Snapshot

/--
A store that is restored from a snapshot, alone or with a runner, holds values of the declared
kinds if and only if for every variable that is declared with a kind the last saved entry with its
name, if there is one, records that kind.  Nothing else is asked of the entry: its own value has
the kind that it records, whatever the declared kind is.
-/
theorem restored_holdsKinds_iff
    {octets : List UInt8}
    {story : Story}
    (loaded : Story.ofOctets octets = .ok story)
    {snapshot : Snapshot}
    {store : Store}
    (restored :
      snapshot.restoreStore story = .ok store ∨
        ∃ index runner, snapshot.restoreRunner story none index = .ok (runner, store)) :
    store.HoldsKinds ↔
      ∀ declaration ∈ story.declarations.globals,
        declaration.kind ≠ .void →
        ∀ entry ∈ SavedVariable.settling? (snapshot.body.globals.getD []) declaration.name,
          entry.kind = declaration.kind := by
  have sound := Story.ofOctets_sound loaded
  rcases restored with alone | ⟨index, runner, together⟩
  · obtain ⟨entries, saved, restored⟩ := restoreStore_eq_ok alone
    rw [saved]
    exact Store.restore_holdsKinds_iff sound restored
  · obtain ⟨_, _, -, bound, -⟩ := restoreRunner_eq_ok together
    cases saved : snapshot.body.globals with
    | some entries =>
        rw [saved] at bound
        exact Store.restore_holdsKinds_iff sound bound
    | none =>
        rw [saved] at bound
        obtain rfl := Except.ok.inj bound
        refine iff_of_true (Store.start_admits story.declarations) ?_
        rintro _ _ _ _ ⟨⟩

/-- A snapshot of the scale in which the weight is recorded as a text. -/
def relabelled : Snapshot where
  kind := .globalsOnly
  fingerprint := scaleStory.declarations.fingerprint
  body := ⟨some [⟨"weight", .string, .str "heavy"⟩], []⟩

/-- The snapshot is accepted and restored, and the weight is then a text. -/
theorem restored_holdsKinds_iff_scale :
    ∃ octets store,
      ofOctets octets = .ok relabelled ∧
        relabelled.restoreStore scaleStory = .ok store ∧
        store.values = [.str "heavy"] ∧
        ¬ store.HoldsKinds := by
  have consistent : relabelled.Consistent := ⟨Declarations.length_fingerprint _, rfl⟩
  obtain ⟨octets, read⟩ := consistent.accepted (by decide +kernel) (by decide +kernel)
  have restored : relabelled.restoreStore scaleStory =
      .ok (.ofValues scaleStory.declarations [.str "heavy"]) := by
    simp only [restoreStore, checkStory, relabelled, if_true]
    rfl
  refine ⟨octets, _, read, restored, rfl, fun holds => ?_⟩
  have recorded := (restored_holdsKinds_iff scaleStory_loaded (.inl restored)).mp holds
    ⟨"weight", .float (.zero false)⟩ List.mem_cons_self (by decide) _ rfl
  cases recorded

end Snapshot

end Fabula
