import Fabula.Output

namespace Fabula

/-!
# Strokes

Whatever an instruction does to output is one stroke: nothing, a text, a line end, glue,
the start or end of a function, or the start or end of a text for the story itself.
Only the pieces from the first marker on are ever read back.  Older output is out of
reach of a stroke as soon as a piece that is not blank stands behind it, and that is
what lets a line be cut off.
-/

/-- Something is left when an item fails the test. -/
theorem dropWhile_ne_nil
    {α : Type}
    {test : α → Bool}
    {items : List α}
    {item : α}
    (inside : item ∈ items)
    (fails : test item = false) :
    items.dropWhile test ≠ [] := by
  intro dropped
  have whole := List.takeWhile_append_dropWhile (p := test) (l := items)
  rw [dropped, List.append_nil] at whole
  rw [← whole] at inside
  have passes := List.all_eq_true.mp List.all_takeWhile item inside
  rw [fails] at passes
  cases passes

namespace Piece

theorem isBlank_of_isMarker
    {piece : Piece}
    (marker : piece.isMarker = true) :
    piece.isBlank = false := by
  cases piece with
  | stringMarker | tagMarker =>
      rfl
  | _ =>
      cases marker

theorem isBlank_of_isVisible
    {piece : Piece}
    (visible : piece.isVisible = true) :
    piece.isBlank = false := by
  cases piece with
  | text s =>
      simpa [isVisible, isBlank] using visible
  | _ =>
      cases visible

end Piece

/-- The start of an unfinished text. -/
abbrev Marker :=
  { piece : Piece // piece.isMarker = true }

/-- What an instruction does to output. -/
inductive Stroke where
  | still
  | text (s : String)
  | newline
  | glue
  | functionStart
  | functionEnd
  | mark (marker : Marker)
  | close (marker : Marker)

namespace Stroke

/-- Make a stroke. -/
def apply : Stroke → Output → Output
  | .still, output => output
  | .text s, output => output.appendText s
  | .newline, output => output.appendNewline
  | .glue, output => output.appendGlue
  | .functionStart, output => output.appendFunctionStart
  | .functionEnd, output => output.appendFunctionEnd
  | .mark marker, output => output.push marker.val
  | .close marker, output =>
      match output.closeMarker? marker.val with
      | some (_, rest) => rest
      | none => output

/-- Whether a stroke removes the blanks before it. -/
def trims : Stroke → Bool
  | .glue | .functionEnd => true
  | _ => false

end Stroke

namespace Output

/-- The pieces before the first marker. -/
def outer (output : Output) : List Piece :=
  output.pieces.takeWhile (fun piece => !piece.isMarker)

/-- The pieces from the first marker on. -/
def inner (output : Output) : List Piece :=
  output.pieces.dropWhile (fun piece => !piece.isMarker)

/-- No marker among pieces. -/
def Plain (pieces : List Piece) : Prop :=
  ∀ piece ∈ pieces, piece.isMarker = false

theorem outer_append_inner
    (output : Output) :
    output.outer ++ output.inner = output.pieces :=
  List.takeWhile_append_dropWhile

theorem outer_plain
    (output : Output) :
    Plain output.outer := by
  intro piece inside
  have unmarked := List.all_eq_true.mp List.all_takeWhile piece inside
  simpa using unmarked

theorem hasMarker_eq_false_iff
    {output : Output} :
    output.hasMarker = false ↔ Plain output.pieces := by
  simp [hasMarker, Plain]

theorem hasMarker_eq_isEmpty_inner
    (output : Output) :
    output.hasMarker = !output.inner.isEmpty := by
  obtain ⟨pieces⟩ := output
  simp only [hasMarker, inner]
  induction pieces with
  | nil =>
      rfl
  | cons piece rest inductionHypothesis =>
      cases marked : piece.isMarker with
      | true =>
          simp [marked]
      | false =>
          simpa [marked] using inductionHypothesis

theorem inner_of_plain
    {pieces : List Piece}
    (plain : Plain pieces) :
    inner ⟨pieces⟩ = [] := by
  have unmarked := hasMarker_eq_isEmpty_inner ⟨pieces⟩
  rw [hasMarker_eq_false_iff.mpr plain] at unmarked
  simpa using unmarked.symm

theorem outer_of_plain
    {pieces : List Piece}
    (plain : Plain pieces) :
    outer ⟨pieces⟩ = pieces := by
  have whole := outer_append_inner ⟨pieces⟩
  rwa [inner_of_plain plain, List.append_nil] at whole

theorem plain_of_inner
    {output : Output}
    (none : output.inner = []) :
    Plain output.pieces := by
  rw [← hasMarker_eq_false_iff, hasMarker_eq_isEmpty_inner, none]
  rfl

theorem inner_append
    {front : List Piece}
    (plain : Plain front)
    (pieces : List Piece) :
    inner ⟨front ++ pieces⟩ = inner ⟨pieces⟩ :=
  List.dropWhile_append_of_pos (by simpa [Plain] using plain)

theorem outer_append
    {front : List Piece}
    (plain : Plain front)
    (pieces : List Piece) :
    outer ⟨front ++ pieces⟩ = front ++ outer ⟨pieces⟩ :=
  List.takeWhile_append_of_pos (by simpa [Plain] using plain)

theorem appendNewline_eq
    (output : Output) :
    output.appendNewline = output ∨ output.appendNewline = output.push .newline := by
  simp only [appendNewline]
  split
  · exact .inl rfl
  · exact .inl rfl
  · exact .inl rfl
  · exact .inl rfl
  · exact .inl rfl
  · exact .inr rfl

theorem head_inner
    {output : Output}
    {first : Piece}
    {rest : List Piece}
    (shape : output.inner = first :: rest) :
    first.isMarker = true := by
  have failing := List.head?_dropWhile_not (fun piece : Piece => !piece.isMarker) output.pieces
  rw [show output.pieces.dropWhile (fun piece => !piece.isMarker) = first :: rest from shape]
    at failing
  simpa using failing

/-- Blanks are removed up to a piece that is not blank, and no further. -/
theorem trimBlanks_append
    (front : List Piece)
    {pieces : List Piece}
    (solid : pieces.any (fun piece => !piece.isBlank) = true) :
    (trimBlanks ⟨front ++ pieces⟩).pieces = front ++ (trimBlanks ⟨pieces⟩).pieces := by
  have stops : (pieces.reverse.dropWhile Piece.isBlank).isEmpty = false := by
    obtain ⟨piece, inside, notBlank⟩ := List.any_eq_true.mp solid
    rw [List.isEmpty_eq_false_iff]
    exact dropWhile_ne_nil (List.mem_reverse.mpr inside) (by simpa using notBlank)
  simp [trimBlanks, List.dropWhile_append, stops]

theorem trimBlanks_of_blank
    (front : List Piece)
    {pieces : List Piece}
    (blank : pieces.all Piece.isBlank = true) :
    trimBlanks ⟨front ++ pieces⟩ = trimBlanks ⟨front⟩ := by
  have passed : ∀ piece ∈ pieces.reverse, piece.isBlank = true := by
    intro piece inside
    exact List.all_eq_true.mp blank piece (List.mem_reverse.mp inside)
  simp only [trimBlanks, List.reverse_append, List.dropWhile_append_of_pos passed]

/-- What is left is the start of what was there. -/
theorem trimBlanks_prefix
    (output : Output) :
    (trimBlanks output).pieces <+: output.pieces := by
  have suffix := List.dropWhile_suffix (l := output.pieces.reverse) Piece.isBlank
  have reversed := List.reverse_prefix.mpr suffix
  rwa [List.reverse_reverse] at reversed

/-- Older pieces without markers do not matter to the search for a marker. -/
theorem splitLast?_append
    {α : Type}
    {test : α → Bool}
    {front : List α}
    (failing : ∀ piece ∈ front, test piece = false)
    (pieces : List α) :
    splitLast? test (front ++ pieces) =
      (splitLast? test pieces).map fun parts => (front ++ parts.1, parts.2) := by
  induction front with
  | nil =>
      simp
  | cons piece rest inductionHypothesis =>
      have restFails : ∀ other ∈ rest, test other = false :=
        fun other inside => failing other (List.mem_cons_of_mem piece inside)
      have pieceFails := failing piece List.mem_cons_self
      simp only [List.cons_append, splitLast?, inductionHypothesis restFails, pieceFails]
      cases splitLast? test pieces with
      | none =>
          rfl
      | some parts =>
          rfl

theorem closeMarker?_append
    (marker : Marker)
    {front : List Piece}
    (plain : Plain front)
    (pieces : List Piece) :
    closeMarker? ⟨front ++ pieces⟩ marker.val =
      (closeMarker? ⟨pieces⟩ marker.val).map fun closed =>
        (closed.1, ⟨front ++ closed.2.pieces⟩) := by
  have unlike : ∀ piece ∈ front, (piece == marker.val) = false := by
    intro piece inside
    rw [beq_eq_false_iff_ne]
    rintro rfl
    have unmarked := plain _ inside
    simp [marker.property] at unmarked
  simp only [closeMarker?, splitLast?_append unlike, Option.map_map]
  rfl

/-- Only unfinished texts are ever closed. -/
theorem closeMarker?_eq_inner
    (marker : Marker)
    (output : Output) :
    output.closeMarker? marker.val =
      (closeMarker? ⟨output.inner⟩ marker.val).map fun closed =>
        (closed.1, ⟨output.outer ++ closed.2.pieces⟩) := by
  have parted := closeMarker?_append marker output.outer_plain output.inner
  rwa [output.outer_append_inner] at parted

theorem hasMarker_congr
    {left right : Output}
    (same : left.inner = right.inner) :
    left.hasMarker = right.hasMarker := by
  rw [hasMarker_eq_isEmpty_inner, hasMarker_eq_isEmpty_inner, same]

theorem contains_stringMarker_congr
    {left right : Output}
    (same : left.inner = right.inner) :
    left.pieces.contains .stringMarker = right.pieces.contains .stringMarker := by
  have within (output : Output) :
      output.pieces.contains .stringMarker = output.inner.contains .stringMarker := by
    have outside : output.outer.contains .stringMarker = false := by
      rw [List.contains_eq_mem, decide_eq_false_iff_not]
      intro inside
      cases output.outer_plain _ inside
    rw [← output.outer_append_inner, List.contains_append, outside, Bool.false_or]
  rw [within left, within right, same]

end Output

namespace Stroke

/--
A stroke leaves older output alone if something that is not blank stands behind it, or
if the output ends a line and the stroke removes nothing.
-/
theorem apply_append
    (stroke : Stroke)
    {front pieces : List Piece}
    (plain : Output.Plain front)
    (beyond :
      pieces.any (fun piece => !piece.isBlank) = true ∨
        (front.getLast? = some .newline ∧ stroke.trims = false)) :
    (stroke.apply ⟨front ++ pieces⟩).pieces =
      front ++ (stroke.apply ⟨pieces⟩).pieces := by
  cases stroke with
  | still =>
      rfl
  | text s =>
      simp only [apply, Output.appendText]
      split
      · rfl
      · exact List.append_assoc ..
  | newline =>
      cases last : pieces.getLast? with
      | none =>
          have empty : pieces = [] := by
            simpa using last
          subst empty
          rcases beyond with solid | ⟨ended, _⟩
          · simp at solid
          · simp [apply, Output.appendNewline, ended]
      | some piece =>
          simp only [apply, Output.appendNewline, List.getLast?_append, last, Option.some_or]
          split <;> simp [Output.push]
  | glue | functionEnd =>
      rcases beyond with solid | ⟨_, keeps⟩
      · simp only [apply, Output.appendGlue, Output.appendFunctionEnd, Output.push,
          Output.trimBlanks_append front solid, List.append_assoc]
      · simp [trims] at keeps
  | functionStart | mark marker =>
      exact List.append_assoc ..
  | close marker =>
      simp only [apply, Output.closeMarker?_append marker plain]
      cases Output.closeMarker? ⟨pieces⟩ marker.val with
      | none =>
          rfl
      | some closed =>
          rfl

/-- A stroke that reaches the line end of older output leaves no line end there. -/
theorem apply_trims
    {stroke : Stroke}
    (trims : stroke.trims = true)
    (body : List Piece)
    {blanks : List Piece}
    (blank : blanks.all Piece.isBlank = true) :
    ∃ rest piece,
      rest <+: body ∧
        piece ≠ .newline ∧
        piece.isMarker = false ∧
        (stroke.apply ⟨(body ++ [.newline]) ++ blanks⟩).pieces = rest ++ [piece] := by
  have removed :
      Output.trimBlanks ⟨(body ++ [.newline]) ++ blanks⟩ = Output.trimBlanks ⟨body⟩ := by
    rw [Output.trimBlanks_of_blank _ blank, Output.trimBlanks_of_blank]
    rfl
  cases stroke with
  | glue =>
      refine ⟨(Output.trimBlanks ⟨body⟩).pieces, .glue, Output.trimBlanks_prefix _, by simp,
        rfl, ?_⟩
      simp only [apply, Output.appendGlue, Output.push, removed]
  | functionEnd =>
      refine ⟨(Output.trimBlanks ⟨body⟩).pieces, .functionEnd, Output.trimBlanks_prefix _,
        by simp, rfl, ?_⟩
      simp only [apply, Output.appendFunctionEnd, Output.push, removed]
  | _ =>
      cases trims

/-! ## Inside and outside unfinished texts -/

/-- A first piece that is not blank stays first, unless it is a marker that is closed. -/
theorem apply_cons
    (stroke : Stroke)
    {first : Piece}
    (notBlank : first.isBlank = false)
    (rest : List Piece) :
    (∃ others, (stroke.apply ⟨first :: rest⟩).pieces = first :: others) ∨
      (first.isMarker = true ∧ (stroke.apply ⟨first :: rest⟩).pieces = []) := by
  have trimmed :
      ∃ others, (Output.trimBlanks ⟨first :: rest⟩).pieces = first :: others := by
    simp only [Output.trimBlanks, List.reverse_cons, List.dropWhile_append]
    split
    · exact ⟨[], by simp [notBlank]⟩
    · exact ⟨(rest.reverse.dropWhile Piece.isBlank).reverse, by simp⟩
  cases stroke with
  | still =>
      exact .inl ⟨rest, rfl⟩
  | text s =>
      simp only [apply, Output.appendText]
      split
      · exact .inl ⟨rest, rfl⟩
      · exact .inl ⟨_, rfl⟩
  | newline =>
      rcases Output.appendNewline_eq ⟨first :: rest⟩ with same | pushed
      · exact .inl ⟨rest, congrArg Output.pieces same⟩
      · exact .inl ⟨_, congrArg Output.pieces pushed⟩
  | glue | functionEnd =>
      obtain ⟨others, shape⟩ := trimmed
      simp only [apply, Output.appendGlue, Output.appendFunctionEnd, Output.push, shape]
      exact .inl ⟨_, rfl⟩
  | functionStart | mark other =>
      exact .inl ⟨_, rfl⟩
  | close other =>
      simp only [apply, Output.closeMarker?, splitLast?]
      cases splitLast? (· == other.val) rest with
      | some parts =>
          exact .inl ⟨_, rfl⟩
      | none =>
          by_cases found : first = other.val
          · exact .inr ⟨found ▸ other.property, by simp [found]⟩
          · exact .inl ⟨rest, by simp [found]⟩

/-- Within an unfinished text a stroke does not reach what stands before it. -/
theorem apply_of_inner
    (stroke : Stroke)
    {output : Output}
    (marked : output.inner ≠ []) :
    (stroke.apply output).pieces =
      output.outer ++ (stroke.apply ⟨output.inner⟩).pieces := by
  have solid : output.inner.any (fun piece => !piece.isBlank) = true := by
    cases shape : output.inner with
    | nil =>
        exact absurd shape marked
    | cons first rest =>
        simp [Piece.isBlank_of_isMarker (Output.head_inner shape)]
  have parted := stroke.apply_append output.outer_plain (.inl solid)
  rwa [Output.outer_append_inner] at parted

/-- Outside unfinished texts a stroke starts one or leaves none. -/
theorem inner_apply_of_plain
    (stroke : Stroke)
    {output : Output}
    (plain : output.inner = []) :
    (stroke.apply output).inner = (stroke.apply .empty).inner := by
  have unmarked : Output.Plain output.pieces := Output.plain_of_inner plain
  have trimmed : Output.Plain output.trimBlanks.pieces :=
    fun piece inside => unmarked piece (output.trimBlanks_prefix.mem inside)
  cases stroke with
  | still =>
      exact plain
  | text s =>
      simp only [apply, Output.appendText]
      split
      · exact plain
      · exact Output.inner_append unmarked _
  | newline =>
      rcases output.appendNewline_eq with same | pushed
      · simp only [apply, same]
        exact plain
      · simp only [apply, pushed]
        exact Output.inner_append unmarked [.newline]
  | glue | functionEnd =>
      exact Output.inner_append trimmed _
  | functionStart | mark marker =>
      exact Output.inner_append unmarked _
  | close marker =>
      have alone := Output.closeMarker?_append marker unmarked []
      rw [List.append_nil] at alone
      simp only [apply, alone]
      exact plain

/-- What a stroke makes of unfinished texts depends on them alone. -/
theorem inner_apply_congr
    (stroke : Stroke)
    {left right : Output}
    (same : left.inner = right.inner) :
    (stroke.apply left).inner = (stroke.apply right).inner := by
  have within (output : Output) (marked : output.inner ≠ []) :
      (stroke.apply output).inner = (stroke.apply ⟨output.inner⟩).inner := by
    have parted := stroke.apply_of_inner marked
    calc
      (stroke.apply output).inner
        = Output.inner ⟨output.outer ++ (stroke.apply ⟨output.inner⟩).pieces⟩ := by
          rw [← parted]
      _ = (stroke.apply ⟨output.inner⟩).inner :=
          Output.inner_append output.outer_plain _
  by_cases plain : left.inner = []
  · rw [stroke.inner_apply_of_plain plain,
      stroke.inner_apply_of_plain (same.symm.trans plain)]
  · rw [within left plain, within right (same ▸ plain), same]

/-- Within an unfinished text nothing outside of it changes. -/
theorem outer_apply_of_inner
    (stroke : Stroke)
    {output : Output}
    (marked : output.inner ≠ []) :
    (stroke.apply output).outer = output.outer := by
  have outside : (stroke.apply ⟨output.inner⟩).outer = [] := by
    cases shape : output.inner with
    | nil =>
        exact absurd shape marked
    | cons first rest =>
        have marker := Output.head_inner shape
        rcases stroke.apply_cons (Piece.isBlank_of_isMarker marker) rest with
          ⟨others, kept⟩ | ⟨_, closed⟩
        · simp [Output.outer, kept, marker]
        · simp [Output.outer, closed]
  calc
    (stroke.apply output).outer
      = Output.outer ⟨output.outer ++ (stroke.apply ⟨output.inner⟩).pieces⟩ := by
        rw [← stroke.apply_of_inner marked]
    _ = output.outer ++ (stroke.apply ⟨output.inner⟩).outer :=
        Output.outer_append output.outer_plain _
    _ = output.outer := by
        rw [outside, List.append_nil]

/-- Outside unfinished texts only the start of one keeps apart from the older pieces. -/
theorem outer_apply_of_hasMarker
    (stroke : Stroke)
    {output : Output}
    (marked : (stroke.apply output).hasMarker = true) :
    (stroke.apply output).outer = output.outer := by
  by_cases plain : output.inner = []
  · rw [Output.hasMarker_eq_isEmpty_inner, stroke.inner_apply_of_plain plain] at marked
    have unmarked : Output.Plain output.pieces := Output.plain_of_inner plain
    cases stroke with
    | mark marker =>
        have started : Output.outer ⟨[marker.val]⟩ = [] := by
          simp [Output.outer, marker.property]
        simp only [apply, Output.push, Output.outer_append unmarked, started, List.append_nil]
        exact (Output.outer_of_plain unmarked).symm
    | text s =>
        simp only [apply, Output.appendText] at marked
        split at marked <;> cases marked
    | _ =>
        cases marked
  · exact stroke.outer_apply_of_inner plain

/-- Only a line end adds a line end. -/
theorem newline_notMem_outer_apply
    {stroke : Stroke}
    (other : stroke ≠ .newline)
    {output : Output}
    (absent : .newline ∉ output.outer) :
    .newline ∉ (stroke.apply output).outer := by
  by_cases plain : output.inner = []
  · have unmarked : Output.Plain output.pieces := Output.plain_of_inner plain
    rw [show output.outer = output.pieces from Output.outer_of_plain unmarked] at absent
    have kept : Piece.newline ∉ output.trimBlanks.pieces :=
      fun inside => absent (output.trimBlanks_prefix.mem inside)
    intro inside
    have inside : Piece.newline ∈ (stroke.apply output).pieces :=
      (List.takeWhile_prefix _).mem inside
    cases stroke with
    | still =>
        exact absent inside
    | text s =>
        simp only [apply, Output.appendText] at inside
        split at inside
        · exact absent inside
        · simp [Output.push, absent] at inside
    | newline =>
        exact other rfl
    | glue | functionEnd =>
        simp [apply, Output.appendGlue, Output.appendFunctionEnd, Output.push, kept] at inside
    | functionStart =>
        simp [apply, Output.appendFunctionStart, Output.push, absent] at inside
    | mark marker =>
        have marked := marker.property
        simp only [apply, Output.push, List.mem_append, absent, List.mem_singleton,
          false_or] at inside
        rw [← inside] at marked
        cases marked
    | close marker =>
        have alone := Output.closeMarker?_append marker unmarked []
        rw [List.append_nil] at alone
        simp only [apply, alone] at inside
        exact absent inside
  · rwa [stroke.outer_apply_of_inner plain]

/-- A line end is added outside unfinished texts, or not at all. -/
theorem outer_apply_newline
    (output : Output) :
    (newline.apply output).outer = output.outer ∨
      (newline.apply output).outer = output.outer ++ [.newline] := by
  by_cases plain : output.inner = []
  · have unmarked : Output.Plain output.pieces := Output.plain_of_inner plain
    rcases output.appendNewline_eq with same | pushed
    · exact .inl (congrArg Output.outer same)
    · refine .inr ?_
      simp only [apply, pushed, Output.push, Output.outer_append unmarked]
      rw [show output.outer = output.pieces from Output.outer_of_plain unmarked]
      rfl
  · exact .inl (newline.outer_apply_of_inner plain)

/-- Visible text outside unfinished texts stays. -/
theorem visible_outer_apply
    (stroke : Stroke)
    {output : Output}
    (visible : output.outer.any Piece.isVisible = true) :
    (stroke.apply output).outer.any Piece.isVisible = true := by
  obtain ⟨seen, inside, isVisible⟩ := List.any_eq_true.mp visible
  obtain ⟨front, rest, split⟩ := List.append_of_mem inside
  have notBlank := Piece.isBlank_of_isVisible isVisible
  have unmarked := output.outer_plain seen inside
  have plain : Output.Plain front := fun piece member =>
    output.outer_plain piece (by simp [split, member])
  have whole : output = ⟨front ++ seen :: (rest ++ output.inner)⟩ := by
    rw [← List.cons_append, ← List.append_assoc, ← split, output.outer_append_inner]
  have solid :
      (seen :: (rest ++ output.inner)).any (fun piece => !piece.isBlank) = true := by
    simp [notBlank]
  have parted := stroke.apply_append plain (.inl solid)
  rw [← whole] at parted
  rcases stroke.apply_cons notBlank (rest ++ output.inner) with
    ⟨others, kept⟩ | ⟨marker, _⟩
  · rw [kept] at parted
    have shape :
        (stroke.apply output).outer = front ++ Output.outer ⟨seen :: others⟩ := by
      rw [← Output.outer_append plain, ← parted]
    rw [shape]
    simp [Output.outer, unmarked, isVisible]
  · simp [unmarked] at marker

end Stroke

end Fabula
