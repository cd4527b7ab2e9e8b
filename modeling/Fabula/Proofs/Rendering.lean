import Fabula.Proofs.Stroke
import Mathlib.Data.List.DropRight

namespace Fabula

/-!
# Rendering what stands side by side

Rendering keeps the words of each line and drops blank lines.  Two stretches of text
that are rendered together therefore give the two renderings with a gap in between: a
space, a line end or nothing.  Nothing is left between them exactly when the first is
blank or ends its line, or when the last word of one runs into the first of the other.
-/

/-! ## Splitting at the last and at the first place -/

section Splitting

variable {α : Type} {cuts : α → Bool} {parts : List α → List (List α)}

/-- Parts before the last cut do not depend on what is added at the end. -/
theorem exists_lastPart
    (splits : ∀ before cut after,
      cuts cut = true → parts (before ++ cut :: after) = parts before ++ parts after)
    (text : List α) :
    ∃ front before last,
      text = before ++ last ∧
        (∀ c ∈ last, cuts c = false) ∧
        (∀ c, before.getLast? = some c → cuts c = true) ∧
        ∀ rest, parts (text ++ rest) = front ++ parts (last ++ rest) := by
  induction text with
  | nil =>
      exact ⟨[], [], [], rfl, by simp, by simp, by simp⟩
  | cons first text inductionHypothesis =>
      obtain ⟨front, before, last, rfl, free, ends, adds⟩ := inductionHypothesis
      cases before with
      | cons head before =>
          have present : head :: before ≠ [] := List.cons_ne_nil head before
          obtain ⟨start, cut, shape⟩ : ∃ start cut, head :: before = start ++ [cut] :=
            ⟨_, _, (List.dropLast_concat_getLast present).symm⟩
          have isCut : cuts cut = true := ends cut (by rw [shape]; simp)
          refine ⟨parts (first :: start), first :: head :: before, last, rfl, free, ?_,
            fun rest => ?_⟩
          · intro c found
            exact ends c (by simpa [List.getLast?_cons_cons] using found)
          · have split := splits (first :: start) cut (last ++ rest) isCut
            rw [shape]
            simpa using split
      | nil =>
          cases here : cuts first with
          | true =>
              refine ⟨parts [], [first], last, rfl, free, by simpa using here,
                fun rest => ?_⟩
              exact splits [] first (last ++ rest) here
          | false =>
              refine ⟨[], [], first :: last, rfl, ?_, by simp, fun rest => rfl⟩
              intro c inside
              rcases List.mem_cons.mp inside with rfl | inside
              · exact here
              · exact free c inside

/-- Parts after the first cut do not depend on what is added in front. -/
theorem exists_firstPart
    (splits : ∀ before cut after,
      cuts cut = true → parts (before ++ cut :: after) = parts before ++ parts after)
    (text : List α) :
    ∃ first after back,
      text = first ++ after ∧
        (∀ c ∈ first, cuts c = false) ∧
        (∀ c, after.head? = some c → cuts c = true) ∧
        ∀ rest, parts (rest ++ text) = parts (rest ++ first) ++ back := by
  induction text with
  | nil =>
      exact ⟨[], [], [], rfl, by simp, by simp, by simp⟩
  | cons head text inductionHypothesis =>
      cases here : cuts head with
      | true =>
          refine ⟨[], head :: text, parts text, rfl, by simp, by simpa using here,
            fun rest => ?_⟩
          rw [List.append_nil]
          exact splits rest head text here
      | false =>
          obtain ⟨first, after, back, rfl, free, starts, adds⟩ := inductionHypothesis
          refine ⟨head :: first, after, back, rfl, ?_, starts, fun rest => ?_⟩
          · intro c inside
            rcases List.mem_cons.mp inside with rfl | inside
            · exact here
            · exact free c inside
          · simpa using adds (rest ++ [head])

variable (cuts parts) in
/--
Two texts around the place where they are put together: what stands there between the last
cut of the first and the first cut of the second is the only part that both have a share in.
-/
structure Seam (before last first after : List α) (front back : List (List α)) : Prop where
  lastFree : ∀ c ∈ last, cuts c = false
  firstFree : ∀ c ∈ first, cuts c = false
  leftCut : ∀ c, before.getLast? = some c → cuts c = true
  rightCut : ∀ c, after.head? = some c → cuts c = true
  left : parts (before ++ last) = front ++ parts last
  right : parts (first ++ after) = parts first ++ back
  joint : parts (before ++ last ++ (first ++ after)) = front ++ (parts (last ++ first) ++ back)

theorem Seam.free
    {before last first after : List α}
    {front back : List (List α)}
    (seam : Seam cuts parts before last first after front back) :
    ∀ c ∈ last ++ first, cuts c = false := by
  intro c inside
  rcases List.mem_append.mp inside with inside | inside
  · exact seam.lastFree c inside
  · exact seam.firstFree c inside

theorem exists_seam
    (splits : ∀ before cut after,
      cuts cut = true → parts (before ++ cut :: after) = parts before ++ parts after)
    (left right : List α) :
    ∃ before last first after front back,
      left = before ++ last ∧
        right = first ++ after ∧
        Seam cuts parts before last first after front back := by
  obtain ⟨front, before, last, rfl, lastFree, leftCut, leftAdds⟩ :=
    exists_lastPart splits left
  obtain ⟨first, after, back, rfl, firstFree, rightCut, rightAdds⟩ :=
    exists_firstPart splits right
  refine ⟨before, last, first, after, front, back, rfl, rfl, ?_⟩
  refine ⟨lastFree, firstFree, leftCut, rightCut, ?_, ?_, ?_⟩
  · simpa only [List.append_nil] using leftAdds []
  · simpa only [List.nil_append] using rightAdds []
  · rw [leftAdds, rightAdds]

end Splitting

/-! ## Joining parts -/

section Joining

variable {α : Type} (separator : List α)

theorem intercalate_append
    {left right : List (List α)}
    (leftPresent : left ≠ [])
    (rightPresent : right ≠ []) :
    separator.intercalate (left ++ right) =
      separator.intercalate left ++ separator ++ separator.intercalate right := by
  induction left with
  | nil =>
      exact absurd rfl leftPresent
  | cons part rest inductionHypothesis =>
      cases rest with
      | nil =>
          simp [List.intercalate_cons_of_ne_nil rightPresent]
      | cons next more =>
          have later := inductionHypothesis (by simp)
          simp only [List.cons_append] at later ⊢
          rw [List.intercalate_cons_cons, later, List.intercalate_cons_cons]
          simp

/-- Parts that run into each other are joined without a separator. -/
theorem intercalate_merge
    (left right : List (List α))
    (last gap first : List α) :
    separator.intercalate (left ++ (last ++ gap ++ first) :: right) =
      separator.intercalate (left ++ [last]) ++ gap ++
        separator.intercalate (first :: right) := by
  have merged :
      separator.intercalate ((last ++ gap ++ first) :: right) =
        last ++ gap ++ separator.intercalate (first :: right) := by
    cases right with
    | nil =>
        simp
    | cons next more =>
        simp [List.intercalate_cons_cons]
  cases left with
  | nil =>
      simpa using merged
  | cons part rest =>
      rw [intercalate_append separator (by simp) (by simp), merged,
        intercalate_append separator (by simp) (by simp)]
      simp

theorem intercalate_ne_nil
    {parts : List (List α)}
    (present : parts ≠ [])
    (nonempty : ∀ part ∈ parts, part ≠ []) :
    separator.intercalate parts ≠ [] := by
  cases parts with
  | nil =>
      exact absurd rfl present
  | cons part rest =>
      have first := nonempty part List.mem_cons_self
      cases rest with
      | nil =>
          simpa using first
      | cons next more =>
          simp [List.intercalate_cons_cons, first]

end Joining

/-! ## Words -/

namespace Text

theorem words_split
    (before : List Char)
    (cut : Char)
    (after : List Char)
    (blank : isBlank cut = true) :
    words (before ++ cut :: after) = words before ++ words after := by
  simp only [words, List.splitOnP_append_cons before after blank, List.filter_append]

theorem words_of_solid
    {text : List Char}
    (solid : ∀ c ∈ text, isBlank c = false)
    (present : text ≠ []) :
    words text = [text] := by
  simp [words, List.splitOnP_eq_singleton solid, present]

/-- A text has no words exactly when it is blank. -/
theorem words_eq_nil_iff
    {text : List Char} :
    words text = [] ↔ text.all isBlank = true := by
  induction text with
  | nil =>
      simp [words]
  | cons c text inductionHypothesis =>
      cases blank : isBlank c with
      | true =>
          have split := words_split [] c text blank
          simp only [List.nil_append] at split
          rw [split, List.append_eq_nil_iff, inductionHypothesis]
          simp [blank, words]
      | false =>
          obtain ⟨word, rest, shape⟩ :=
            List.exists_cons_of_ne_nil (List.splitOnP_ne_nil isBlank text)
          simp [words, List.splitOnP_cons_eq_if_modifyHead, blank, shape]

theorem words_nonempty
    {text word : List Char}
    (inside : word ∈ words text) :
    word ≠ [] := by
  simp only [words, List.mem_filter] at inside
  simpa using inside.2

theorem collapse_eq_nil_iff
    {text : List Char} :
    collapse text = [] ↔ text.all isBlank = true := by
  rw [← words_eq_nil_iff]
  constructor
  · intro none
    by_cases empty : words text = []
    · exact empty
    · exact absurd none (intercalate_ne_nil _ empty fun _ => words_nonempty)
  · intro none
    simp [collapse, none]

/-- Whether the end of one text and the start of another belong to one word. -/
def touches (left right : List Char) : Bool :=
  left.getLast?.any (!isBlank ·) && right.head?.any (!isBlank ·)

/-- Texts are kept apart by a blank at the end of the first. -/
theorem touches_of_blank_left
    {left right : List Char}
    (blank : ∀ c, left.getLast? = some c → isBlank c = true) :
    touches left right = false := by
  cases ends : left.getLast? with
  | none =>
      simp [touches, ends]
  | some c =>
      simp [touches, ends, blank c ends]

/-- Texts are kept apart by a blank at the start of the second. -/
theorem touches_of_blank_right
    {left right : List Char}
    (blank : ∀ c, right.head? = some c → isBlank c = true) :
    touches left right = false := by
  cases starts : right.head? with
  | none =>
      simp [touches, starts]
  | some c =>
      simp [touches, starts, blank c starts]

/-- Only what stands next to each other decides. -/
theorem touches_append
    (before after : List Char)
    {last first : List Char}
    (lastPresent : last ≠ [])
    (firstPresent : first ≠ []) :
    touches (before ++ last) (first ++ after) = touches last first := by
  have ends : (before ++ last).getLast? = last.getLast? := by
    rw [List.getLast?_append, List.getLast?_eq_some_getLast lastPresent, Option.some_or]
  have starts : (first ++ after).head? = first.head? := by
    rw [List.head?_append, List.head?_eq_some_head firstPresent, Option.some_or]
  rw [touches, ends, starts]
  rfl

theorem touches_of_solid
    {last first : List Char}
    (lastPresent : last ≠ [])
    (firstPresent : first ≠ [])
    (lastSolid : ∀ c ∈ last, isBlank c = false)
    (firstSolid : ∀ c ∈ first, isBlank c = false) :
    touches last first = true := by
  have ends := lastSolid _ (List.getLast_mem lastPresent)
  have starts := firstSolid _ (List.head_mem firstPresent)
  simp [touches, List.getLast?_eq_some_getLast lastPresent,
    List.head?_eq_some_head firstPresent, ends, starts]

/-- Blanks in front of a text do not matter. -/
theorem collapse_append_of_blank_left
    {left : List Char}
    (blank : left.all isBlank = true)
    (right : List Char) :
    collapse (left ++ right) = collapse right := by
  induction left with
  | nil =>
      rfl
  | cons c rest inductionHypothesis =>
      simp only [List.all_cons, Bool.and_eq_true] at blank
      have split := words_split [] c (rest ++ right) blank.1
      have later := inductionHypothesis blank.2
      simp only [collapse, List.cons_append, List.nil_append] at split later ⊢
      rw [split, ← later]
      rfl

/-- Blanks after a text do not matter. -/
theorem collapse_append_of_blank_right
    (left : List Char)
    {right : List Char}
    (blank : right.all isBlank = true) :
    collapse (left ++ right) = collapse left := by
  induction right generalizing left with
  | nil =>
      rw [List.append_nil]
  | cons c rest inductionHypothesis =>
      simp only [List.all_cons, Bool.and_eq_true] at blank
      have split := words_split left c rest blank.1
      have none := words_eq_nil_iff.mpr blank.2
      simp [collapse, split, none]

/-- Texts that share no word collapse to both with a space in between. -/
theorem collapse_append_of_apart
    {left right : List Char}
    (leftPresent : words left ≠ [])
    (rightPresent : words right ≠ [])
    (apart : words (left ++ right) = words left ++ words right)
    (untouched : touches left right = false) :
    ∃ gap,
      collapse (left ++ right) = collapse left ++ gap ++ collapse right ∧
        (gap = [] ↔ touches left right = true) := by
  refine ⟨[' '], ?_, by simp [untouched]⟩
  rw [collapse, apart, intercalate_append _ leftPresent rightPresent]
  rfl

/-- Two texts with words collapse to both with a space in between, or to one run of words. -/
theorem collapse_append
    {left right : List Char}
    (leftWords : left.all isBlank = false)
    (rightWords : right.all isBlank = false) :
    ∃ gap,
      collapse (left ++ right) = collapse left ++ gap ++ collapse right ∧
        (gap = [] ↔ touches left right = true) := by
  have leftPresent : words left ≠ [] := by
    rw [Ne, words_eq_nil_iff, leftWords]
    simp
  have rightPresent : words right ≠ [] := by
    rw [Ne, words_eq_nil_iff, rightWords]
    simp
  obtain ⟨before, last, first, after, front, back, rfl, rfl, seam⟩ :=
    exists_seam words_split left right
  by_cases lastEmpty : last = []
  · subst lastEmpty
    have untouched : touches (before ++ []) (first ++ after) = false :=
      touches_of_blank_left (by simpa using seam.leftCut)
    refine collapse_append_of_apart leftPresent rightPresent ?_ untouched
    rw [seam.joint, seam.left, seam.right]
    simp [words]
  · by_cases firstEmpty : first = []
    · subst firstEmpty
      have untouched : touches (before ++ last) ([] ++ after) = false :=
        touches_of_blank_right (by simpa using seam.rightCut)
      refine collapse_append_of_apart leftPresent rightPresent ?_ untouched
      rw [seam.joint, seam.left, seam.right]
      simp [words]
    · -- A word runs across the seam.
      have merged : words (last ++ first) = [last ++ first] :=
        words_of_solid seam.free (by simp [lastEmpty])
      have leftSplit := seam.left
      have rightSplit := seam.right
      rw [words_of_solid seam.lastFree lastEmpty] at leftSplit
      rw [words_of_solid seam.firstFree firstEmpty] at rightSplit
      refine ⟨[], ?_, ?_⟩
      · have run := intercalate_merge [' '] front back last [] first
        rw [collapse, seam.joint, merged, collapse, collapse, leftSplit, rightSplit]
        simpa using run
      · rw [touches_append before after lastEmpty firstEmpty,
          touches_of_solid lastEmpty firstEmpty seam.lastFree seam.firstFree]
        simp

end Text

/-! ## Lines -/

theorem cleanLines_split
    (before : List Char)
    (cut : Char)
    (after : List Char)
    (isCut : (cut == '\n') = true) :
    cleanLines (before ++ cut :: after) = cleanLines before ++ cleanLines after := by
  simp only [cleanLines, List.splitOn_append_cons_of_beq before after isCut, List.map_append,
    List.filter_append]

/-- A text without a line end is at most one line. -/
theorem cleanLines_of_unended
    {text : List Char}
    (unended : ∀ c ∈ text, (c == '\n') = false) :
    cleanLines text = if text.all Text.isBlank then [] else [Text.collapse text] := by
  simp only [cleanLines, List.splitOn_eq_singleton_of_beq_eq_false unended, List.map_singleton]
  cases blank : text.all Text.isBlank with
  | true =>
      simp [Text.collapse_eq_nil_iff.mpr blank]
  | false =>
      have present : Text.collapse text ≠ [] := by
        rw [Ne, Text.collapse_eq_nil_iff, blank]
        simp
      simp [present]

theorem cleanLines_of_solidLine
    {line : List Char}
    (unended : ∀ c ∈ line, (c == '\n') = false)
    (solid : line.all Text.isBlank = false) :
    cleanLines line = [Text.collapse line] := by
  rw [cleanLines_of_unended unended, solid]
  rfl

theorem cleanLines_of_blankLine
    {line : List Char}
    (unended : ∀ c ∈ line, (c == '\n') = false)
    (blank : line.all Text.isBlank = true) :
    cleanLines line = [] := by
  rw [cleanLines_of_unended unended, blank]
  rfl

theorem isBlank_newline : Text.isBlank '\n' = true := by
  decide

theorem cleanLines_eq_nil_iff
    {text : List Char} :
    cleanLines text = [] ↔ text.all Text.isBlank = true := by
  induction text with
  | nil =>
      simp [cleanLines_of_unended]
  | cons c text inductionHypothesis =>
      cases cut : c == '\n' with
      | true =>
          have split := cleanLines_split [] c text cut
          rw [List.nil_append] at split
          rw [split, List.append_eq_nil_iff, inductionHypothesis]
          simp [beq_iff_eq.mp cut, isBlank_newline, cleanLines_of_unended]
      | false =>
          obtain ⟨line, rest, shape⟩ :=
            List.exists_cons_of_ne_nil (List.splitOn_ne_nil '\n' text)
          have kept (line : List Char) :
              (!(Text.collapse line).isEmpty) = !line.all Text.isBlank := by
            congr 1
            rw [Bool.eq_iff_iff, List.isEmpty_iff, Text.collapse_eq_nil_iff]
          simp only [cleanLines, List.splitOn_cons_eq_if_modifyHead, cut, shape,
            Bool.false_eq_true, if_false, List.modifyHead_cons, List.map_cons,
            List.filter_cons, kept, List.all_cons] at inductionHypothesis ⊢
          cases Text.isBlank c with
          | true =>
              rw [Bool.true_and, Bool.true_and, ← inductionHypothesis]
              cases line.all Text.isBlank <;> simp
          | false =>
              simp

theorem cleanLines_nonempty
    {text line : List Char}
    (inside : line ∈ cleanLines text) :
    line ≠ [] := by
  simp only [cleanLines, List.mem_filter] at inside
  simpa using inside.2

/-! ## The end of the last line -/

theorem not_isSpaceOrTab
    {c : Char}
    (solid : Text.isBlank c = false) :
    isSpaceOrTab c = false := by
  rw [isSpaceOrTab, Bool.or_eq_false_iff, beq_eq_false_iff_ne, beq_eq_false_iff_ne]
  constructor
  · rintro rfl
    cases solid
  · rintro rfl
    cases solid

/-- Only what follows the last word decides whether a text ends its line. -/
theorem endsLine_append
    (before : List Char)
    {text : List Char}
    (solid : text.all Text.isBlank = false) :
    endsLine (before ++ text) = endsLine text := by
  obtain ⟨c, inside, notBlank⟩ := List.all_eq_false.mp solid
  have stops : text.reverse.dropWhile isSpaceOrTab ≠ [] :=
    dropWhile_ne_nil (List.mem_reverse.mpr inside) (not_isSpaceOrTab (by simpa using notBlank))
  have starts := List.head?_eq_some_head stops
  simp [endsLine, List.dropWhile_append, stops, List.head?_append, starts]

theorem endsLine_of_unended
    {text : List Char}
    (unended : ∀ c ∈ text, (c == '\n') = false) :
    endsLine text = false := by
  rw [endsLine, beq_eq_false_iff_ne]
  intro found
  have inside : '\n' ∈ text.reverse :=
    (List.dropWhile_suffix _).mem (List.mem_of_head? found)
  have other := unended '\n' (List.mem_reverse.mp inside)
  cases other

/-- A text ends its line exactly when only spaces and tabs stand behind its last line end. -/
theorem endsLine_newline_iff
    (before after : List Char) :
    endsLine (before ++ '\n' :: after) = true ↔
      ∀ c ∈ after.rtakeWhile (· != '\n'), isSpaceOrTab c = true := by
  have shape :
      (before ++ '\n' :: after).reverse = after.reverse ++ '\n' :: before.reverse := by
    simp
  rw [endsLine, beq_iff_eq, shape, List.rtakeWhile]
  simp only [List.mem_reverse]
  -- From the end, blanks are passed until a line end or another character stands in the way.
  generalize after.reverse = backward
  induction backward with
  | nil =>
      simp [isSpaceOrTab]
  | cons c rest inductionHypothesis =>
      by_cases newline : c = '\n'
      · simp [newline, isSpaceOrTab]
      · cases passed : isSpaceOrTab c with
        | true =>
            simpa [passed, newline] using inductionHypothesis
        | false =>
            simp [passed, newline]

/-! ## Whole texts -/

theorem cleanText_of_blank
    {text : List Char}
    (blank : text.all Text.isBlank = true) :
    cleanText text = [] := by
  simp [cleanText, cleanLines_eq_nil_iff.mpr blank]

theorem cleanLines_ne_nil
    {text : List Char}
    (solid : text.all Text.isBlank = false) :
    cleanLines text ≠ [] := by
  rw [Ne, cleanLines_eq_nil_iff, solid]
  simp

theorem cleanText_of_solid
    {text : List Char}
    (solid : text.all Text.isBlank = false) :
    cleanText text =
      ['\n'].intercalate (cleanLines text) ++ if endsLine text then ['\n'] else [] := by
  have present :=
    intercalate_ne_nil ['\n'] (cleanLines_ne_nil solid) fun _ => cleanLines_nonempty
  cases ends : endsLine text with
  | true =>
      simp [cleanText, ends, present]
  | false =>
      simp [cleanText, ends]

/-- Whether two texts that are rendered together leave no gap between the two renderings. -/
def meets (left right : List Char) : Bool :=
  left.all Text.isBlank || endsLine left || Text.touches left right

/--
Rendering two texts together gives both renderings with a gap in between, which is empty
exactly when the texts meet.
-/
def Joins (left right : List Char) : Prop :=
  ∃ gap,
    cleanText (left ++ right) = cleanText left ++ gap ++ cleanText right ∧
      (gap = [] ↔ meets left right = true)

section Seams

variable {before last first after : List Char} {front back : List (List Char)}

/-- No line runs across the seam if the first text ends in a blank line. -/
theorem joins_of_blankLast
    (seam : Seam (· == '\n') cleanLines before last first after front back)
    (solid : (first ++ after).all Text.isBlank = false)
    (lastBlank : last.all Text.isBlank = true) :
    Joins (before ++ last) (first ++ after) := by
  have across : cleanLines (last ++ first) = cleanLines first := by
    rw [cleanLines_of_unended seam.free, cleanLines_of_unended seam.firstFree, List.all_append,
      lastBlank, Bool.true_and, Text.collapse_append_of_blank_left lastBlank]
  have leftLines : cleanLines (before ++ last) = front := by
    rw [seam.left, cleanLines_of_blankLine seam.lastFree lastBlank, List.append_nil]
  have both :
      cleanLines (before ++ last ++ (first ++ after)) =
        cleanLines (before ++ last) ++ cleanLines (first ++ after) := by
    rw [seam.joint, across, ← seam.right, leftLines]
  have jointSolid : (before ++ last ++ (first ++ after)).all Text.isBlank = false := by
    rw [List.all_append, solid, Bool.and_false]
  rw [Joins, cleanText_of_solid jointSolid, cleanText_of_solid solid, endsLine_append _ solid, both]
  cases leftBlank : (before ++ last).all Text.isBlank with
  | true =>
      refine ⟨[], ?_, by simp [meets, leftBlank]⟩
      rw [cleanText_of_blank leftBlank, cleanLines_eq_nil_iff.mpr leftBlank]
      simp
  | false =>
      have apart : Text.touches (before ++ last) (first ++ after) = false := by
        apply Text.touches_of_blank_left
        intro c found
        rw [List.getLast?_append, Option.or_eq_some_iff] at found
        rcases found with found | ⟨_, found⟩
        · exact List.all_eq_true.mp lastBlank c (List.mem_of_getLast? found)
        · rw [beq_iff_eq.mp (seam.leftCut c found)]
          exact isBlank_newline
      rw [cleanText_of_solid leftBlank,
        intercalate_append _ (cleanLines_ne_nil leftBlank) (cleanLines_ne_nil solid)]
      cases ends : endsLine (before ++ last) with
      | true =>
          exact ⟨[], by simp, by simp [meets, ends]⟩
      | false =>
          exact ⟨['\n'], by simp, by simp [meets, ends, leftBlank, apart]⟩

/-- A text whose last line is not blank has not ended that line. -/
theorem endsLine_of_solidLast
    (seam : Seam (· == '\n') cleanLines before last first after front back)
    (lastSolid : last.all Text.isBlank = false) :
    endsLine (before ++ last) = false := by
  rw [endsLine_append before lastSolid, endsLine_of_unended seam.lastFree]

/-- The text of an unended line is joined on as it is. -/
theorem joins_of_solidLast
    (seam : Seam (· == '\n') cleanLines before last first after front back)
    (solid : (first ++ after).all Text.isBlank = false)
    (lastSolid : last.all Text.isBlank = false)
    (joined :
      ∃ gap,
        ['\n'].intercalate (front ++ Text.collapse (last ++ first) :: back) =
            ['\n'].intercalate (front ++ [Text.collapse last]) ++ gap ++
              ['\n'].intercalate (cleanLines (first ++ after)) ∧
          (gap = [] ↔ Text.touches (before ++ last) (first ++ after) = true)) :
    Joins (before ++ last) (first ++ after) := by
  obtain ⟨gap, joined, touching⟩ := joined
  have leftSolid : (before ++ last).all Text.isBlank = false := by
    rw [List.all_append, lastSolid, Bool.and_false]
  have acrossSolid : (last ++ first).all Text.isBlank = false := by
    rw [List.all_append, lastSolid, Bool.false_and]
  have jointSolid : (before ++ last ++ (first ++ after)).all Text.isBlank = false := by
    rw [List.all_append, solid, Bool.and_false]
  have unfinished := endsLine_of_solidLast seam lastSolid
  refine ⟨gap, ?_, ?_⟩
  · rw [cleanText_of_solid jointSolid, cleanText_of_solid solid, cleanText_of_solid leftSolid,
      endsLine_append _ solid, unfinished, seam.joint, seam.left,
      cleanLines_of_solidLine seam.free acrossSolid,
      cleanLines_of_solidLine seam.lastFree lastSolid, List.singleton_append, joined]
    simp
  · rw [meets, leftSolid, unfinished, Bool.false_or, Bool.false_or]
    exact touching

/-- A line end stands between the renderings if the second text starts with a blank line. -/
theorem joins_of_blankFirst
    (seam : Seam (· == '\n') cleanLines before last first after front back)
    (solid : (first ++ after).all Text.isBlank = false)
    (lastSolid : last.all Text.isBlank = false)
    (firstBlank : first.all Text.isBlank = true) :
    Joins (before ++ last) (first ++ after) := by
  have rightLines : cleanLines (first ++ after) = back := by
    rw [seam.right, cleanLines_of_blankLine seam.firstFree firstBlank, List.nil_append]
  have rightPresent := cleanLines_ne_nil solid
  have apart : Text.touches (before ++ last) (first ++ after) = false := by
    apply Text.touches_of_blank_right
    intro c found
    rw [List.head?_append, Option.or_eq_some_iff] at found
    rcases found with found | ⟨_, found⟩
    · exact List.all_eq_true.mp firstBlank c (List.mem_of_head? found)
    · rw [beq_iff_eq.mp (seam.rightCut c found)]
      exact isBlank_newline
  refine joins_of_solidLast seam solid lastSolid ⟨['\n'], ?_, by simp [apart]⟩
  rw [rightLines] at rightPresent ⊢
  rw [Text.collapse_append_of_blank_right last firstBlank, List.append_cons,
    intercalate_append _ (by simp) rightPresent]

/-- Two lines that are not blank run into each other as their words do. -/
theorem joins_of_solidFirst
    (seam : Seam (· == '\n') cleanLines before last first after front back)
    (solid : (first ++ after).all Text.isBlank = false)
    (lastSolid : last.all Text.isBlank = false)
    (firstSolid : first.all Text.isBlank = false) :
    Joins (before ++ last) (first ++ after) := by
  obtain ⟨gap, collapsed, touching⟩ := Text.collapse_append lastSolid firstSolid
  have lastPresent : last ≠ [] := by
    rintro rfl
    cases lastSolid
  have firstPresent : first ≠ [] := by
    rintro rfl
    cases firstSolid
  refine joins_of_solidLast seam solid lastSolid ⟨gap, ?_, ?_⟩
  · rw [collapsed, intercalate_merge, seam.right,
      cleanLines_of_solidLine seam.firstFree firstSolid, List.singleton_append]
  · rw [Text.touches_append before after lastPresent firstPresent]
    exact touching

end Seams

theorem cleanText_append
    (left : List Char)
    {right : List Char}
    (solid : right.all Text.isBlank = false) :
    Joins left right := by
  obtain ⟨before, last, first, after, front, back, rfl, rfl, seam⟩ :=
    exists_seam cleanLines_split left right
  cases lastBlank : last.all Text.isBlank with
  | true =>
      exact joins_of_blankLast seam solid lastBlank
  | false =>
      cases firstBlank : first.all Text.isBlank with
      | true =>
          exact joins_of_blankFirst seam solid lastBlank firstBlank
      | false =>
          exact joins_of_solidFirst seam solid lastBlank firstBlank

/-! ## Pieces -/

/-- Whether a line end after pieces would be left out. -/
def gluedAfter : Bool → List Piece → Bool
  | glued, [] => glued
  | _, .text _ :: rest => gluedAfter false rest
  | _, .glue :: rest => gluedAfter true rest
  | glued, _ :: rest => gluedAfter glued rest

theorem rawText_append
    (glued : Bool)
    (front pieces : List Piece) :
    rawText glued (front ++ pieces) =
      rawText glued front ++ rawText (gluedAfter glued front) pieces := by
  induction front generalizing glued with
  | nil =>
      rfl
  | cons piece rest inductionHypothesis =>
      cases piece with
      | newline =>
          cases glued with
          | true =>
              exact inductionHypothesis true
          | false =>
              exact congrArg ('\n' :: ·) (inductionHypothesis false)
      | text s =>
          simp [rawText, gluedAfter, inductionHypothesis]
      | glue | stringMarker | tagMarker | functionStart | functionEnd =>
          exact inductionHypothesis _

/-- Glue in front leaves out nothing but blank lines. -/
theorem rawText_glued
    (pieces : List Piece) :
    ∃ blanks,
      blanks.all Text.isBlank = true ∧
        rawText false pieces = blanks ++ rawText true pieces := by
  induction pieces with
  | nil =>
      exact ⟨[], rfl, rfl⟩
  | cons piece rest inductionHypothesis =>
      obtain ⟨blanks, blank, shape⟩ := inductionHypothesis
      cases piece with
      | newline =>
          refine ⟨'\n' :: blanks, ?_, ?_⟩
          · simp only [List.all_cons, isBlank_newline, blank, Bool.and_self]
          · exact congrArg ('\n' :: ·) shape
      | text s | glue =>
          exact ⟨[], rfl, rfl⟩
      | stringMarker | tagMarker | functionStart | functionEnd =>
          exact ⟨blanks, blank, shape⟩

theorem rawText_solid
    (glued : Bool)
    {pieces : List Piece}
    (visible : pieces.any Piece.isVisible = true) :
    (rawText glued pieces).all Text.isBlank = false := by
  induction pieces generalizing glued with
  | nil =>
      cases visible
  | cons piece rest inductionHypothesis =>
      cases piece with
      | text s =>
          simp only [List.any_cons, Piece.isVisible, Bool.or_eq_true] at visible
          rw [rawText, List.all_append]
          rcases visible with visible | visible
          · have solid : s.toList.all Text.isBlank = false := by
              simpa [Text.isBlankText] using visible
            rw [solid, Bool.false_and]
          · rw [inductionHypothesis false visible, Bool.and_false]
      | newline =>
          cases glued with
          | true =>
              exact inductionHypothesis true visible
          | false =>
              rw [rawText, if_neg (by simp), List.all_cons, inductionHypothesis false visible,
                Bool.and_false]
      | glue | stringMarker | tagMarker | functionStart | functionEnd =>
          exact inductionHypothesis _ visible

/-- Whether glue stands in front does not matter to visible text that is rendered alone. -/
theorem cleanText_rawText_glued
    (glued : Bool)
    {pieces : List Piece}
    (visible : pieces.any Piece.isVisible = true) :
    cleanText (rawText glued pieces) = cleanText (rawText false pieces) := by
  cases glued with
  | false =>
      rfl
  | true =>
      obtain ⟨blanks, blank, shape⟩ := rawText_glued pieces
      obtain ⟨gap, joint, meeting⟩ := cleanText_append blanks (rawText_solid true visible)
      have none : gap = [] := meeting.mpr (by simp [meets, blank])
      rw [shape, joint, cleanText_of_blank blank, none]
      rfl

/-- Whether neighbouring lines leave no gap when they are rendered together. -/
def seamless : List (List Piece) → Bool
  | [] => true
  | line :: rest =>
      (rest.isEmpty ||
        meets (rawText false line) (rawText (gluedAfter false line) rest.flatten)) &&
        seamless rest

/-- Visible text follows every line but the last. -/
def Followed : List (List Piece) → Prop
  | [] => True
  | _ :: rest =>
      (rest = [] ∨ rest.flatten.any Piece.isVisible = true) ∧ Followed rest

/--
Lines that are rendered one by one give no more than their text rendered as a whole, and
the same exactly when they are seamless.
-/
theorem render_flatten
    {lines : List (List Piece)}
    (followed : Followed lines) :
    ((lines.map fun line => cleanText (rawText false line)).flatten.length ≤
        (cleanText (rawText false lines.flatten)).length) ∧
      ((lines.map fun line => cleanText (rawText false line)).flatten =
          cleanText (rawText false lines.flatten) ↔
        seamless lines = true) := by
  induction lines with
  | nil =>
      have none : cleanText [] = [] := cleanText_of_blank rfl
      simp [rawText, none, seamless]
  | cons line rest inductionHypothesis =>
      obtain ⟨shown, followed⟩ := followed
      obtain ⟨shorter, same⟩ := inductionHypothesis followed
      rcases shown with rfl | visible
      · simp [seamless]
      · obtain ⟨gap, joint, meeting⟩ :=
          cleanText_append (rawText false line)
            (rawText_solid (gluedAfter false line) visible)
        have present : rest.isEmpty = false := by
          rw [List.isEmpty_eq_false_iff]
          rintro rfl
          cases visible
        rw [cleanText_rawText_glued _ visible] at joint
        rw [List.flatten_cons, rawText_append, joint, List.map_cons, List.flatten_cons]
        constructor
        · simp only [List.length_append]
          omega
        · rw [seamless, present, Bool.false_or, Bool.and_eq_true, ← meeting, ← same]
          simp only [List.append_assoc, List.append_cancel_left_eq]
          constructor
          · intro whole
            have lengths := congrArg List.length whole
            simp only [List.length_append] at lengths
            have none : gap = [] := List.length_eq_zero_iff.mp (by omega)
            exact ⟨none, by rw [whole, none, List.nil_append]⟩
          · rintro ⟨rfl, whole⟩
            rw [whole, List.nil_append]

end Fabula
