import Fabula.Proofs.Abreast
import Fabula.Proofs.Rendering

namespace Fabula

/-!
# Where lines are cut

A line end is looked at from both sides.  A reader decides at once, from what the story
does next; the output that is gathered without ever taking a line shows the decision
afterwards: it is cut after every line end that visible text follows.  This module shows
that both agree, so that the lines read one by one are the pieces of the uncut output.
-/

/-- Whether visible text stands outside unfinished texts. -/
def showsText (pieces : List Piece) : Bool :=
  (Output.outer ⟨pieces⟩).any Piece.isVisible

/-- Pieces cut after every line end that visible text follows. -/
def cutLines : List Piece → List (List Piece)
  | [] => [[]]
  | piece :: rest =>
      if piece.isMarker then
        [piece :: rest]
      else if piece == .newline && showsText rest then
        [piece] :: cutLines rest
      else
        (cutLines rest).modifyHead (piece :: ·)

theorem showsText_cons
    {piece : Piece}
    (unmarked : piece.isMarker = false)
    (rest : List Piece) :
    showsText (piece :: rest) = (piece.isVisible || showsText rest) := by
  simp [showsText, Output.outer, unmarked]

theorem any_visible_of_showsText
    {pieces : List Piece}
    (shown : showsText pieces = true) :
    pieces.any Piece.isVisible = true := by
  obtain ⟨piece, inside, visible⟩ := List.any_eq_true.mp shown
  exact List.any_eq_true.mpr ⟨piece, (List.takeWhile_prefix _).mem inside, visible⟩

/-- Without visible text nothing is cut. -/
theorem cutLines_of_not_showsText
    {pieces : List Piece}
    (hidden : showsText pieces = false) :
    cutLines pieces = [pieces] := by
  induction pieces with
  | nil =>
      rfl
  | cons piece rest inductionHypothesis =>
      cases marker : piece.isMarker with
      | true =>
          simp [cutLines, marker]
      | false =>
          rw [showsText_cons marker, Bool.or_eq_false_iff] at hidden
          simp [cutLines, marker, hidden.2, inductionHypothesis hidden.2]

/-- Nothing is cut before the first line end. -/
theorem cutLines_append
    {front : List Piece}
    (plain : Output.Plain front)
    (unended : .newline ∉ front)
    (pieces : List Piece) :
    cutLines (front ++ pieces) = (cutLines pieces).modifyHead (front ++ ·) := by
  induction front with
  | nil =>
      exact (congrFun List.modifyHead_id _).symm
  | cons piece rest inductionHypothesis =>
      have unmarked : piece.isMarker = false := plain piece List.mem_cons_self
      have other : (piece == .newline) = false := by
        rw [beq_eq_false_iff_ne]
        rintro rfl
        exact unended List.mem_cons_self
      have restPlain : Output.Plain rest :=
        fun later inside => plain later (List.mem_cons_of_mem piece inside)
      have restUnended : Piece.newline ∉ rest :=
        fun inside => unended (List.mem_cons_of_mem piece inside)
      simp only [List.cons_append, cutLines, unmarked, other,
        inductionHypothesis restPlain restUnended, List.modifyHead_modifyHead]
      rfl

/-- Output without a line end is one line. -/
theorem cutLines_of_unended
    {output : Output}
    (unended : .newline ∉ output.outer) :
    cutLines output.pieces = [output.pieces] := by
  have marked : cutLines output.inner = [output.inner] := by
    cases shape : output.inner with
    | nil =>
        rfl
    | cons first rest =>
        simp [cutLines, Output.head_inner shape]
  rw [← output.outer_append_inner, cutLines_append output.outer_plain unended, marked]
  rfl

/-- A line end that no visible text follows is kept. -/
theorem cutLines_of_hidden
    {body rest : List Piece}
    (plain : Output.Plain body)
    (unended : .newline ∉ body)
    (hidden : showsText rest = false) :
    cutLines (body ++ [.newline] ++ rest) = [body ++ [.newline] ++ rest] := by
  have kept : cutLines (.newline :: rest) = [.newline :: rest] :=
    cutLines_of_not_showsText (by rw [showsText_cons rfl, hidden]; rfl)
  rw [List.append_assoc, List.singleton_append, cutLines_append plain unended, kept]
  rfl

/-- A line end that visible text follows is where the line is cut. -/
theorem cutLines_of_shown
    {body rest : List Piece}
    (plain : Output.Plain body)
    (unended : .newline ∉ body)
    (shown : showsText rest = true) :
    cutLines (body ++ [.newline] ++ rest) = (body ++ [.newline]) :: cutLines rest := by
  have cut : cutLines (.newline :: rest) = [.newline] :: cutLines rest := by
    simp [cutLines, Piece.isMarker, shown]
  rw [List.append_assoc, List.singleton_append, cutLines_append plain unended, cut]
  rfl

theorem cutLines_ne_nil
    (pieces : List Piece) :
    cutLines pieces ≠ [] := by
  induction pieces with
  | nil =>
      simp [cutLines]
  | cons piece rest inductionHypothesis =>
      simp only [cutLines]
      split
      · simp
      · split
        · simp
        · simpa [List.modifyHead_eq_nil_iff] using inductionHypothesis

/-- Cutting loses nothing. -/
theorem flatten_cutLines
    (pieces : List Piece) :
    (cutLines pieces).flatten = pieces := by
  induction pieces with
  | nil =>
      rfl
  | cons piece rest inductionHypothesis =>
      simp only [cutLines]
      split
      · simp
      · split
        · simp [inductionHypothesis]
        · cases lines : cutLines rest with
          | nil =>
              exact absurd lines (cutLines_ne_nil rest)
          | cons line more =>
              rw [lines] at inductionHypothesis
              simpa using inductionHypothesis

/-- A line is cut off only before visible text. -/
theorem followed_cutLines
    (pieces : List Piece) :
    Followed (cutLines pieces) := by
  induction pieces with
  | nil =>
      exact ⟨.inl rfl, trivial⟩
  | cons piece rest inductionHypothesis =>
      simp only [cutLines]
      split
      · exact ⟨.inl rfl, trivial⟩
      · split
        · next cut =>
            rw [Bool.and_eq_true] at cut
            refine ⟨.inr ?_, inductionHypothesis⟩
            rw [flatten_cutLines]
            exact any_visible_of_showsText cut.2
        · cases lines : cutLines rest with
          | nil =>
              exact trivial
          | cons line more =>
              rw [lines] at inductionHypothesis
              exact inductionHypothesis

/-- Lines read one by one give the whole text exactly when they are seamless. -/
theorem join_cutLines_eq_render_iff
    (pieces : List Piece) :
    String.join ((cutLines pieces).map render) = render pieces ↔
      seamless (cutLines pieces) = true := by
  rw [← (render_flatten (followed_cutLines pieces)).2, flatten_cutLines,
    ← String.toList_inj, String.toList_join, List.flatMap_map, List.flatMap_def]
  simp only [render, String.toList_ofList]

namespace Play

variable {σ τ : Type} {view : Audience σ → τ} {quiet : CallbackId → Prop} {host : Host σ}
  {setup : Setup}

theorem growth_append
    (body rest : List Piece) :
    growth (body.length + 1) ⟨body ++ [.newline] ++ rest⟩ =
      if rest.any Piece.isVisible then .textAdded else .none := by
  have atEnd : Output.newlineAt ⟨body ++ [.newline] ++ rest⟩ body.length = true := by
    simp [Output.newlineAt]
  have since :
      Output.hasTextSince ⟨body ++ [.newline] ++ rest⟩ (body.length + 1) =
        rest.any Piece.isVisible := by
    have length : (body ++ [Piece.newline]).length = body.length + 1 := by simp
    rw [Output.hasTextSince, ← length, List.drop_left]
  simp only [growth, Nat.add_sub_cancel, atEnd, since]
  rfl

theorem growth_of_unended
    (size : Nat)
    {output : Output}
    (unended : .newline ∉ output.pieces) :
    growth size output = .newlineRemoved := by
  have absent : output.newlineAt (size - 1) = false := by
    rw [Output.newlineAt, beq_eq_false_iff_ne]
    intro found
    exact unended (List.mem_of_getElem? found)
  simp [growth, absent]

/-! ## One advance -/

/-- An advance makes one stroke, and one that ends a line leads to an address. -/
theorem plainAdvance?_stroke
    (discreet : host.Discreet setup view quiet)
    {play next : Play σ}
    (observed : play.world.ObservedBy quiet)
    (moved : play.plainAdvance? setup host = some (.ok (), next)) :
    next.world.ObservedBy quiet ∧
      ∃ stroke : Stroke,
        next.flow.output = stroke.apply play.flow.output ∧
          (stroke = .newline → next.flow.ip.isSome = true) := by
  have alone : Abreast view quiet play play := ⟨rfl, .refl observed⟩
  obtain ⟨_, _, abreast, parallel⟩ := alone.advance discreet moved
  obtain ⟨stroke, drawn, _, continues⟩ := parallel.stroke
  exact ⟨abreast.world.leftObserved, stroke, drawn, continues⟩

theorem output_of_fallback
    {play next : Play σ}
    (stopped : play.flow.ip = none)
    (moved : play.plainAdvance? setup host = some (.ok (), next)) :
    next.flow.output = play.flow.output := by
  simp only [plainAdvance?_of_stopped stopped, takeFallback?, Option.map_map,
    Option.map_eq_some_iff] at moved
  obtain ⟨choice, _, continued⟩ := moved
  cases continued
  rfl

/-! ## From a checkpoint on -/

/-- The play with its output taken. -/
def cleared (play : Play σ) : Play σ :=
  { play with flow := { play.flow with output := .empty } }

/-- Output that ends the first of its lines. -/
structure EndsLine (pieces body : List Piece) : Prop where
  shape : pieces = body ++ [.newline]
  plain : Output.Plain body
  unended : .newline ∉ body

/-- No marker is among the pieces of the line or in its end. -/
theorem EndsLine.whole
    {pieces body : List Piece}
    (ends : EndsLine pieces body) :
    Output.Plain pieces := by
  rw [ends.shape]
  intro piece inside
  rcases List.mem_append.mp inside with inside | inside
  · exact ends.plain piece inside
  · cases List.mem_singleton.mp inside
    rfl

/--
A play that goes on from a line end, beside one that starts there with its output taken:
the line is still whole in front of the output of the other.
-/
structure Kept
    (setup : Setup)
    (host : Host σ)
    (view : Audience σ → τ)
    (quiet : CallbackId → Prop)
    (base plain beside : Play σ) :
    Prop where
  run :
    ∃ count,
      PlainRun setup host count base.cleared beside ∧
        PlainRun setup host count base plain
  abreast : Abreast view quiet beside plain
  pieces :
    plain.flow.output.pieces =
      base.flow.output.pieces ++ beside.flow.output.pieces

namespace Kept

variable {base plain beside : Play σ}

/-- A stroke keeps the line, or removes its end and leaves no other. -/
theorem parallel
    (kept : Kept setup host view quiet base plain beside)
    {body : List Piece}
    (ends : EndsLine base.flow.output.pieces body)
    {next other : Play σ}
    (parallel : Flow.Parallel beside.flow plain.flow other.flow next.flow) :
    next.flow.output.pieces = base.flow.output.pieces ++ other.flow.output.pieces ∨
      (Output.Plain next.flow.output.pieces ∧
        .newline ∉ next.flow.output.pieces ∧
        beside.flow.output.pieces.all Piece.isBlank = true) := by
  obtain ⟨stroke, drawn, nextDrawn, _⟩ := parallel.stroke
  have front : Output.Plain base.flow.output.pieces := ends.whole
  have whole :
      plain.flow.output =
        ⟨base.flow.output.pieces ++ beside.flow.output.pieces⟩ := by
    rw [← kept.pieces]
  rw [nextDrawn, drawn, whole]
  by_cases solid : beside.flow.output.pieces.any (fun piece => !piece.isBlank) = true
  · exact .inl (stroke.apply_append front (.inl solid))
  · have blank : beside.flow.output.pieces.all Piece.isBlank = true := by
      simpa using solid
    by_cases trims : stroke.trims = true
    · obtain ⟨rest, piece, before, notNewline, unmarked, result⟩ :=
        Stroke.apply_trims trims body blank
      rw [← ends.shape] at result
      rw [result]
      refine .inr ⟨?_, ?_, blank⟩
      · intro other inside
        rcases List.mem_append.mp inside with inside | inside
        · exact ends.plain other (before.mem inside)
        · cases List.mem_singleton.mp inside
          exact unmarked
      · intro inside
        rcases List.mem_append.mp inside with inside | inside
        · exact ends.unended (before.mem inside)
        · exact notNewline (List.mem_singleton.mp inside).symm
    · have ended : base.flow.output.pieces.getLast? = some .newline := by
        simp [ends.shape]
      exact .inl (stroke.apply_append front (.inr ⟨ended, by simpa using trims⟩))

theorem advance
    (kept : Kept setup host view quiet base plain beside)
    {body : List Piece}
    (ends : EndsLine base.flow.output.pieces body)
    {next other : Play σ}
    (moved : plain.plainAdvance? setup host = some (.ok (), next))
    (otherMoved : beside.plainAdvance? setup host = some (.ok (), other))
    (abreast : Abreast view quiet other next)
    (parallel : Flow.Parallel beside.flow plain.flow other.flow next.flow) :
    Kept setup host view quiet base next other ∨
      (Output.Plain next.flow.output.pieces ∧
        .newline ∉ next.flow.output.pieces ∧
        beside.flow.output.pieces.all Piece.isBlank = true) := by
  rcases kept.parallel ends parallel with pieces | removed
  · obtain ⟨count, besideRun, plainRun⟩ := kept.run
    exact .inl
      { run := ⟨count + 1, .advance besideRun otherMoved, .advance plainRun moved⟩
        abreast := abreast
        pieces := pieces }
  · exact .inr removed

/-- Behind visible text the line is out of reach for good. -/
theorem solid
    (discreet : host.Discreet setup view quiet)
    {body : List Piece}
    (ends : EndsLine base.flow.output.pieces body)
    {count : Nat}
    {first last : Play σ}
    (run : PlainRun setup host count first last)
    (kept : Kept setup host view quiet base plain first)
    (shown : showsText first.flow.output.pieces = true) :
    ∃ arrived,
      Kept setup host view quiet base arrived last ∧
        showsText last.flow.output.pieces = true := by
  induction run with
  | refl =>
      exact ⟨plain, kept, shown⟩
  | advance _ moved inductionHypothesis =>
      obtain ⟨middle, kept, shown⟩ := inductionHypothesis kept shown
      obtain ⟨next, nextMoved, abreast, parallel⟩ := kept.abreast.advance discreet moved
      obtain ⟨stroke, drawn, _⟩ := parallel.stroke
      have still := stroke.visible_outer_apply shown
      rw [show Stroke.apply stroke ⟨_⟩ = _ from drawn.symm] at still
      refine ⟨next, ?_, still⟩
      rcases kept.advance ends nextMoved moved abreast parallel with
        kept | ⟨_, _, blank⟩
      · exact kept
      · obtain ⟨piece, inside, visible⟩ :=
          List.any_eq_true.mp (any_visible_of_showsText shown)
        have blank := List.all_eq_true.mp blank piece inside
        simp [Piece.isBlank_of_isVisible visible] at blank

end Kept

/-! ## Reading a line -/

/-- What is known of the output on the way to the end of a line. -/
def Shape
    (setup : Setup)
    (host : Host σ)
    (view : Audience σ → τ)
    (quiet : CallbackId → Prop) :
    Option (Play σ) → Play σ → Prop
  | none, plain =>
      plain.world.ObservedBy quiet ∧ .newline ∉ plain.flow.output.outer
  | some base, plain =>
      base.flow.ip.isSome = true ∧
        (∃ body, EndsLine base.flow.output.pieces body) ∧
        ∃ beside,
          Kept setup host view quiet base plain beside ∧
            showsText beside.flow.output.pieces = false

/-- A stroke on output without a line end adds none, or ends the line. -/
theorem unended_or_endsLine
    (stroke : Stroke)
    {output : Output}
    (unended : .newline ∉ output.outer)
    (noMarker : (stroke.apply output).hasMarker = false) :
    .newline ∉ (stroke.apply output).pieces ∨
      (stroke = .newline ∧ EndsLine (stroke.apply output).pieces output.outer) := by
  have whole : (stroke.apply output).outer = (stroke.apply output).pieces :=
    Output.outer_of_plain (Output.hasMarker_eq_false_iff.mp noMarker)
  rw [← whole]
  by_cases newline : stroke = .newline
  · subst newline
    rcases Stroke.outer_apply_newline output with same | pushed
    · exact .inl (same ▸ unended)
    · exact .inr ⟨rfl, pushed, output.outer_plain, unended⟩
  · exact .inl (Stroke.newline_notMem_outer_apply newline unended)

/-- A new checkpoint starts with nothing behind its line end. -/
theorem Kept.start
    {play : Play σ}
    (observed : play.world.ObservedBy quiet)
    (noMarker : play.flow.output.hasMarker = false) :
    Kept setup host view quiet play play play.cleared where
  run := ⟨0, .refl _, .refl _⟩
  abreast := by
    refine ⟨?_, .refl observed⟩
    have none : play.flow.output.inner = [] :=
      Output.inner_of_plain (Output.hasMarker_eq_false_iff.mp noMarker)
    simp only [cleared, Flow.core, none]
    rfl
  pieces := (List.append_nil _).symm

/-- An advance from a checkpoint is made beside it too. -/
theorem Kept.moved
    (discreet : host.Discreet setup view quiet)
    {base plain beside next : Play σ}
    (kept : Kept setup host view quiet base plain beside)
    {body : List Piece}
    (ends : EndsLine base.flow.output.pieces body)
    (moved : plain.plainAdvance? setup host = some (.ok (), next)) :
    ∃ other stroke,
      beside.plainAdvance? setup host = some (.ok (), other) ∧
        other.flow.output = Stroke.apply stroke beside.flow.output ∧
        (Kept setup host view quiet base next other ∨
          (Output.Plain next.flow.output.pieces ∧ .newline ∉ next.flow.output.pieces)) := by
  obtain ⟨other, otherMoved, abreast, parallel⟩ := kept.abreast.symm.advance discreet moved
  obtain ⟨stroke, drawn, _⟩ := parallel.symm.stroke
  refine ⟨other, stroke, otherMoved, drawn, ?_⟩
  rcases kept.advance ends moved otherMoved abreast.symm parallel.symm with
    kept | ⟨unmarked, unended, _⟩
  · exact .inl kept
  · exact .inr ⟨unmarked, unended⟩

theorem Kept.growth
    {base plain beside : Play σ}
    (kept : Kept setup host view quiet base plain beside)
    {body : List Piece}
    (ends : EndsLine base.flow.output.pieces body) :
    Play.growth base.flow.output.size plain.flow.output =
      if beside.flow.output.pieces.any Piece.isVisible then .textAdded else .none := by
  have pieces := kept.pieces
  rw [ends.shape] at pieces
  have size : base.flow.output.size = body.length + 1 := by
    simp [Output.size, ends.shape]
  rw [size, ← growth_append body, ← pieces]

theorem Kept.hasMarker
    {base plain beside : Play σ}
    (kept : Kept setup host view quiet base plain beside) :
    beside.flow.output.hasMarker = plain.flow.output.hasMarker :=
  Output.hasMarker_congr (Flow.Still.start kept.abreast.flow).inner

theorem not_showsText_of_any
    {pieces : List Piece}
    (hidden : pieces.any Piece.isVisible = false) :
    showsText pieces = false := by
  cases shown : showsText pieces with
  | false =>
      rfl
  | true =>
      rw [any_visible_of_showsText shown] at hidden
      cases hidden

/-- After a step without a checkpoint, or one that removes its line end. -/
theorem Shape.proceeds
    (discreet : host.Discreet setup view quiet)
    {base : Option (Play σ)}
    {plain next : Play σ}
    (shape : Shape setup host view quiet base plain)
    (moved : plain.plainAdvance? setup host = some (.ok (), next))
    (noMarker : next.flow.output.hasMarker = false)
    (free : Free base next) :
    next.world.ObservedBy quiet ∧
      (.newline ∉ next.flow.output.pieces ∨
        (next.flow.ip.isSome = true ∧ ∃ body, EndsLine next.flow.output.pieces body)) := by
  cases base with
  | none =>
      obtain ⟨observed, unended⟩ := shape
      obtain ⟨nextObserved, stroke, drawn, continues⟩ :=
        plainAdvance?_stroke discreet observed moved
      rw [drawn] at noMarker ⊢
      refine ⟨nextObserved, ?_⟩
      rcases unended_or_endsLine stroke unended noMarker with absent | ⟨newline, ends⟩
      · exact .inl absent
      · exact .inr ⟨continues newline, _, ends⟩
  | some base =>
      obtain ⟨_, ⟨body, ends⟩, beside, kept, _⟩ := shape
      obtain ⟨nextObserved, _⟩ :=
        plainAdvance?_stroke discreet kept.abreast.world.rightObserved moved
      refine ⟨nextObserved, .inl ?_⟩
      obtain ⟨other, _, _, _, nextKept | ⟨_, unended⟩⟩ := kept.moved discreet ends moved
      · have removed := free base rfl
        rw [nextKept.growth ends] at removed
        split at removed <;> cases removed
      · exact unended

/-- A thread that is taken up again draws nothing. -/
theorem Shape.fallback
    (discreet : host.Discreet setup view quiet)
    {base : Option (Play σ)}
    {plain next : Play σ}
    (shape : Shape setup host view quiet base plain)
    (stopped : plain.flow.ip = none)
    (moved : plain.plainAdvance? setup host = some (.ok (), next)) :
    Shape setup host view quiet base next := by
  have output := output_of_fallback stopped moved
  cases base with
  | none =>
      obtain ⟨observed, unended⟩ := shape
      exact ⟨(plainAdvance?_stroke discreet observed moved).1, output ▸ unended⟩
  | some base =>
      obtain ⟨continues, ⟨body, ends⟩, beside, kept, hidden⟩ := shape
      obtain ⟨other, _, otherMoved, _, nextKept | ⟨_, unended⟩⟩ :=
        kept.moved discreet ends moved
      · have otherOutput := output_of_fallback (kept.abreast.ip.trans stopped) otherMoved
        exact ⟨continues, ⟨body, ends⟩, other, nextKept, otherOutput ▸ hidden⟩
      · rw [output, kept.pieces, ends.shape] at unended
        simp at unended

/-- While a string or a tag is open, nothing is added outside of it. -/
theorem Shape.marked
    (discreet : host.Discreet setup view quiet)
    {base : Option (Play σ)}
    {plain next : Play σ}
    (shape : Shape setup host view quiet base plain)
    (moved : plain.plainAdvance? setup host = some (.ok (), next))
    (marker : next.flow.output.hasMarker = true) :
    Shape setup host view quiet base next := by
  cases base with
  | none =>
      obtain ⟨observed, unended⟩ := shape
      obtain ⟨nextObserved, stroke, drawn, _⟩ :=
        plainAdvance?_stroke discreet observed moved
      rw [drawn] at marker
      refine ⟨nextObserved, ?_⟩
      rw [drawn, stroke.outer_apply_of_hasMarker marker]
      exact unended
  | some base =>
      obtain ⟨continues, ⟨body, ends⟩, beside, kept, hidden⟩ := shape
      obtain ⟨other, stroke, _, drawn, nextKept | ⟨unmarked, _⟩⟩ :=
        kept.moved discreet ends moved
      · refine ⟨continues, ⟨body, ends⟩, other, nextKept, ?_⟩
        rw [← nextKept.hasMarker, drawn] at marker
        rw [showsText, drawn, stroke.outer_apply_of_hasMarker marker]
        exact hidden
      · rw [Output.hasMarker_eq_false_iff.mpr unmarked] at marker
        cases marker

/-- A step that leaves a checkpoint undecided shows no text behind it. -/
theorem Shape.undecided
    (discreet : host.Discreet setup view quiet)
    {base plain next : Play σ}
    (shape : Shape setup host view quiet (some base) plain)
    (moved : plain.plainAdvance? setup host = some (.ok (), next))
    (grown : Play.growth base.flow.output.size next.flow.output = .none) :
    Shape setup host view quiet (some base) next := by
  obtain ⟨continues, ⟨body, ends⟩, beside, kept, _⟩ := shape
  obtain ⟨other, _, _, _, nextKept | ⟨_, unended⟩⟩ := kept.moved discreet ends moved
  · rw [nextKept.growth ends] at grown
    refine ⟨continues, ⟨body, ends⟩, other, nextKept, not_showsText_of_any ?_⟩
    cases visible : other.flow.output.pieces.any Piece.isVisible with
    | false =>
        rfl
    | true =>
        simp [visible] at grown
  · rw [growth_of_unended _ unended] at grown
    cases grown

/-- The output on the way to the end of a line has the shape that is claimed. -/
theorem Reading.shape
    (discreet : host.Discreet setup view quiet)
    {entry plain : Play σ}
    (observed : entry.world.ObservedBy quiet)
    (fresh : entry.flow.output = .empty)
    {base : Option (Play σ)}
    (reading : Reading setup host entry base plain) :
    Shape setup host view quiet base plain := by
  induction reading with
  | start =>
      exact ⟨observed, by simp [fresh, Output.outer, Output.empty]⟩
  | fallback _ stopped moved inductionHypothesis =>
      exact inductionHypothesis.fallback discreet stopped moved
  | marked _ moved marker inductionHypothesis =>
      exact inductionHypothesis.marked discreet moved marker
  | undecided _ moved noMarker grown inductionHypothesis =>
      exact inductionHypothesis.undecided discreet moved grown
  | onward _ moved noMarker free unended inductionHypothesis =>
      obtain ⟨observed, absent | ⟨continues, body, ends⟩⟩ :=
        inductionHypothesis.proceeds discreet moved noMarker free
      · exact ⟨observed, fun inside => absent ((List.takeWhile_prefix _).mem inside)⟩
      · rcases unended with unended | stopped
        · simp [Output.endsWithNewline, ends.shape] at unended
        · simp [stopped] at continues
  | onTrial _ moved noMarker free ended _ continues inductionHypothesis =>
      -- The line end that the trial starts from was drawn by this very move.
      obtain ⟨observed, absent | ⟨_, body, ends⟩⟩ :=
        inductionHypothesis.proceeds discreet moved noMarker free
      · rw [Output.endsWithNewline, beq_iff_eq] at ended
        exact absurd (List.mem_of_getLast? ended) absent
      · exact ⟨continues, ⟨body, ends⟩, _, .start observed noMarker, rfl⟩

end Play

end Fabula
