import Fabula.Proofs.Stroke
import Fabula.Story.Basic

namespace Fabula.Story

/-!
# Nested containers

A jump works out the containers around its target from their ranges of addresses, while
straight execution enters and leaves containers at their markers.  When the markers of a
story are properly nested, both give the same containers: one more behind a start marker,
one less behind an end marker, and the same behind any other instruction.
-/

/--
The markers of a story belong to its containers, which lie inside or outside one another.
-/
structure Nested (story : Story) : Prop where
  /-- Every start marker is that of a container. -/
  starts :
    ∀ {address flag payload},
      story.instruction? address = some ⟨.startContainer, flag, payload⟩ →
      ∃ container, story.container? payload = some container ∧ container.start = address
  /-- Every end marker is that of a container. -/
  stops :
    ∀ {address flag payload},
      story.instruction? address = some ⟨.endContainer, flag, payload⟩ →
      ∃ container, story.container? payload = some container ∧ container.stop = address
  startMarker :
    ∀ {id container},
      story.containers[id]? = some container →
      ∃ flag payload,
        story.instruction? container.start = some ⟨.startContainer, flag, payload⟩ ∧
          payload.toNat = id
  stopMarker :
    ∀ {id container},
      story.containers[id]? = some container →
      ∃ flag payload,
        story.instruction? container.stop = some ⟨.endContainer, flag, payload⟩ ∧
          payload.toNat = id
  ordered :
    ∀ container ∈ story.containers,
      container.start < container.stop
  /-- What starts inside a container ends before it. -/
  inside :
    ∀ outer ∈ story.containers,
      ∀ inner ∈ story.containers,
        outer.start < inner.start →
        inner.start < outer.stop →
        inner.stop < outer.stop

/-- The containers around an address with their numbers, the outermost first. -/
def around (story : Story) (address : Nat) : List (Container × Nat) :=
  (story.numbered.filter fun entry => entry.1.encloses address).mergeSort
    fun a b => decide (a.1.start ≤ b.1.start)

theorem enclosing_eq
    (story : Story)
    (address : Nat) :
    story.enclosing address = (story.around address).map fun entry => UInt32.ofNat entry.2 :=
  rfl

theorem mem_around
    {story : Story}
    {address : Nat}
    {entry : Container × Nat} :
    entry ∈ story.around address ↔
      story.containers[entry.2]? = some entry.1 ∧
        entry.1.start < address ∧ address ≤ entry.1.stop := by
  simp only [around, List.mem_mergeSort, List.mem_filter, numbered,
    List.mem_zipIdx_iff_getElem?, Array.getElem?_toList, Container.encloses, Bool.and_eq_true,
    decide_eq_true_eq]

/-- No container is around an address twice. -/
theorem around_nodup
    (story : Story)
    (address : Nat) :
    (story.around address).Nodup := by
  have numbers : (story.numbered.map Prod.snd).Nodup := by
    rw [numbered, List.zipIdx_map_snd]
    exact List.nodup_range'
  have distinct : story.numbered.Nodup :=
    (List.pairwise_map.mp numbers).imp fun different same =>
      different (congrArg Prod.snd same)
  exact ((List.mergeSort_perm _ _).nodup_iff).mpr (distinct.filter _)

/-- Containers with markers of one kind at one address are one container. -/
theorem eq_of_marker
    {story : Story}
    {address : Nat}
    {command : Command}
    {first second : Container × Nat}
    (firstAt : story.containers[first.2]? = some first.1)
    (secondAt : story.containers[second.2]? = some second.1)
    (firstMarker :
      ∃ flag payload,
        story.instruction? address = some ⟨command, flag, payload⟩ ∧ payload.toNat = first.2)
    (secondMarker :
      ∃ flag payload,
        story.instruction? address = some ⟨command, flag, payload⟩ ∧ payload.toNat = second.2) :
    first = second := by
  obtain ⟨_, _, here, number⟩ := firstMarker
  obtain ⟨_, _, there, other⟩ := secondMarker
  rw [there] at here
  cases here
  have index : first.2 = second.2 := number.symm.trans other
  rw [index, secondAt] at firstAt
  exact Prod.ext (Option.some.inj firstAt).symm index

namespace Nested

variable {story : Story}

/-- Different containers start at different addresses. -/
theorem start_injective
    (nested : story.Nested)
    {first second : Container × Nat}
    (firstAt : story.containers[first.2]? = some first.1)
    (secondAt : story.containers[second.2]? = some second.1)
    (same : first.1.start = second.1.start) :
    first = second :=
  eq_of_marker firstAt secondAt (nested.startMarker firstAt)
    (same ▸ nested.startMarker secondAt)

/-- Different containers stop at different addresses. -/
theorem stop_injective
    (nested : story.Nested)
    {first second : Container × Nat}
    (firstAt : story.containers[first.2]? = some first.1)
    (secondAt : story.containers[second.2]? = some second.1)
    (same : first.1.stop = second.1.stop) :
    first = second :=
  eq_of_marker firstAt secondAt (nested.stopMarker firstAt)
    (same ▸ nested.stopMarker secondAt)

/-- A container starts where its start marker is. -/
theorem command_start
    (nested : story.Nested)
    {entry : Container × Nat}
    (inside : story.containers[entry.2]? = some entry.1) :
    (story.instruction? entry.1.start).map Instruction.command = some .startContainer := by
  obtain ⟨_, _, here, _⟩ := nested.startMarker inside
  rw [here, Option.map_some]

/-- A container stops where its end marker is. -/
theorem command_stop
    (nested : story.Nested)
    {entry : Container × Nat}
    (inside : story.containers[entry.2]? = some entry.1) :
    (story.instruction? entry.1.stop).map Instruction.command = some .endContainer := by
  obtain ⟨_, _, here, _⟩ := nested.stopMarker inside
  rw [here, Option.map_some]

theorem around_sorted
    (nested : story.Nested)
    (address : Nat) :
    (story.around address).Pairwise fun a b => a.1.start < b.1.start := by
  have sorted : (story.around address).Pairwise fun a b => a.1.start ≤ b.1.start := by
    have merged :=
      @List.pairwise_mergeSort _
        (fun a b : Container × Nat => decide (a.1.start ≤ b.1.start))
        (fun a b c first second => by
          simp only [decide_eq_true_eq] at first second ⊢
          exact Nat.le_trans first second)
        (fun a b => by
          simp only [Bool.or_eq_true, decide_eq_true_eq]
          exact Nat.le_total _ _)
        (story.numbered.filter fun entry => entry.1.encloses address)
    exact merged.imp fun before => by simpa using before
  have distinct := story.around_nodup address
  refine (sorted.and distinct).imp_of_mem ?_
  rintro a b aAround bAround ⟨before, different⟩
  refine Nat.lt_of_le_of_ne before fun same => different ?_
  exact nested.start_injective (mem_around.mp aAround).1 (mem_around.mp bAround).1 same

/-- The containers around an address are settled by which they are. -/
theorem around_eq
    (nested : story.Nested)
    {address : Nat}
    {entries : List (Container × Nat)}
    (sorted : entries.Pairwise fun a b => a.1.start < b.1.start)
    (same : ∀ entry, entry ∈ story.around address ↔ entry ∈ entries) :
    story.around address = entries := by
  have distinct : entries.Nodup :=
    sorted.imp fun {a b} before equal => absurd (congrArg (·.1.start) equal) (Nat.ne_of_lt before)
  refine List.Perm.eq_of_pairwise ?_ (nested.around_sorted address) sorted
    ((List.perm_ext_iff_of_nodup (story.around_nodup address) distinct).mpr same)
  intro a b _ _ before after
  exact absurd before (Nat.lt_asymm after)

/-- One more container around an address, which starts last, is the innermost one. -/
theorem enclosing_snoc
    (nested : story.Nested)
    {inner outer : Nat}
    (container : Container)
    {id : UInt32}
    (last : ∀ entry ∈ story.around outer, entry.1.start < container.start)
    (more :
      ∀ entry,
        entry ∈ story.around inner ↔
          entry ∈ story.around outer ∨ entry = (container, id.toNat)) :
    story.enclosing inner = story.enclosing outer ++ [id] := by
  have grown : story.around inner = story.around outer ++ [(container, id.toNat)] := by
    refine nested.around_eq ?_ fun entry => by
      rw [more, List.mem_append, List.mem_singleton]
    refine List.pairwise_append.mpr
      ⟨nested.around_sorted _, List.pairwise_singleton _ _, fun entry inside other only => ?_⟩
    rw [List.mem_singleton.mp only]
    exact last entry inside
  rw [enclosing_eq, grown, List.map_append, enclosing_eq]
  simp

variable {address : Nat} {flag : UInt8} {payload : UInt32}

/-- Behind a start marker there is one more container around. -/
theorem enclosing_start
    (nested : story.Nested)
    (here : story.instruction? address = some ⟨.startContainer, flag, payload⟩) :
    story.enclosing (address + 1) = story.enclosing address ++ [payload] := by
  obtain ⟨container, found, rfl⟩ := nested.starts here
  have stop := nested.ordered container (Array.mem_of_getElem? found)
  refine nested.enclosing_snoc container (fun entry inside => (mem_around.mp inside).2.1)
    fun entry => ?_
  rw [mem_around, mem_around]
  constructor
  · rintro ⟨inside, after, before⟩
    by_cases same : entry.1.start = container.start
    · exact .inr (nested.start_injective inside found same)
    · exact .inl ⟨inside, by omega, by omega⟩
  · rintro (⟨inside, after, before⟩ | rfl)
    · have elsewhere : entry.1.stop ≠ container.start := by
        intro same
        have command := nested.command_stop inside
        simp [same, here] at command
      exact ⟨inside, by omega, by omega⟩
    · exact ⟨found, Nat.lt_succ_self _, stop⟩

/-- Behind an end marker the innermost container is gone. -/
theorem enclosing_stop
    (nested : story.Nested)
    (here : story.instruction? address = some ⟨.endContainer, flag, payload⟩) :
    story.enclosing address = story.enclosing (address + 1) ++ [payload] := by
  obtain ⟨container, found, rfl⟩ := nested.stops here
  have member := Array.mem_of_getElem? found
  have start := nested.ordered container member
  have elsewhere
      {entry : Container × Nat}
      (inside : story.containers[entry.2]? = some entry.1) :
      entry.1.start ≠ container.stop := by
    intro same
    have command := nested.command_start inside
    simp [same, here] at command
  refine nested.enclosing_snoc container (fun entry around => ?_) fun entry => ?_
  · obtain ⟨inside, after, before⟩ := mem_around.mp around
    have apart := elsewhere inside
    -- What starts later inside the container would have ended before it.
    refine Nat.lt_of_not_le fun later => ?_
    have sooner : entry.1.start ≠ container.start := by
      intro same
      have equal : entry = (container, payload.toNat) :=
        nested.start_injective inside found same
      rw [equal] at before
      exact Nat.not_succ_le_self _ before
    have ends :=
      nested.inside container member entry.1 (Array.mem_of_getElem? inside)
        (Nat.lt_of_le_of_ne later sooner.symm) (by omega)
    omega
  · rw [mem_around, mem_around]
    constructor
    · rintro ⟨inside, after, before⟩
      by_cases same : entry.1.stop = container.stop
      · exact .inr (nested.stop_injective inside found same)
      · exact .inl ⟨inside, by omega, by omega⟩
    · rintro (⟨inside, after, before⟩ | rfl)
      · have apart := elsewhere inside
        exact ⟨inside, by omega, by omega⟩
      · exact ⟨found, start, Nat.le_refl _⟩

/-- Behind any other instruction the same containers are around. -/
theorem enclosing_plain
    (nested : story.Nested)
    (notStart :
      (story.instruction? address).map Instruction.command ≠ some .startContainer)
    (notStop :
      (story.instruction? address).map Instruction.command ≠ some .endContainer) :
    story.enclosing (address + 1) = story.enclosing address := by
  have same : story.around (address + 1) = story.around address := by
    refine nested.around_eq (nested.around_sorted address) fun entry => ?_
    simp only [mem_around]
    refine and_congr_right fun inside => ?_
    have started : entry.1.start ≠ address := by
      intro same
      exact notStart (same ▸ nested.command_start inside)
    have stopped : entry.1.stop ≠ address := by
      intro same
      exact notStop (same ▸ nested.command_stop inside)
    omega
  rw [enclosing_eq, same, enclosing_eq]

end Nested

end Fabula.Story
