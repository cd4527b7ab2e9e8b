import Fabula.Proofs.Ordinary
import Mathlib.Data.List.Chain

namespace Fabula

/-!
# Rendered texts

A rendered text is tidy: its lines are not empty, neither start nor end with a blank, and
have single spaces between words.  Nothing but blanks is lost on the way, and since a text
is its own rendering exactly when its lines are tidy, rendering twice gives nothing new.
-/

namespace Text

/-- The characters that are not blank. -/
def solid (text : List Char) : List Char :=
  text.filter (!isBlank ·)

/-- A line with its words one space apart and nothing around them. -/
structure Tidy (line : List Char) : Prop where
  present : line ≠ []
  starts : ∀ c ∈ line.head?, isBlank c = false
  ends : ∀ c ∈ line.getLast?, isBlank c = false
  /-- The only blank is the space. -/
  spaces : ∀ c ∈ line, isBlank c = true → c = ' '
  /-- No two blanks stand side by side. -/
  single : line.IsChain fun left right => isBlank left = true → isBlank right = false

/-- The lines of a text; a line end at the very end starts none. -/
def lines (text : List Char) : List (List Char) :=
  if (text.splitOn '\n').getLast? = some [] then
    (text.splitOn '\n').dropLast
  else
    text.splitOn '\n'

/-! ## Tidy lines -/

theorem tidy_of_solid
    {word : List Char}
    (solid : ∀ c ∈ word, isBlank c = false)
    (present : word ≠ []) :
    Tidy word where
  present := present
  starts c first := solid c (List.mem_of_head? first)
  ends c last := solid c (List.mem_of_getLast? last)
  spaces c inside blank := by
    rw [solid c inside] at blank
    cases blank
  single := by
    refine List.isChain_iff_forall_rel_of_append_cons_cons.mpr ?_
    rintro _ right _ _ rfl _
    exact solid right (by simp)

/-- One more word in front, a space apart. -/
theorem Tidy.cons
    {word rest : List Char}
    (first : Tidy word)
    (tidy : Tidy rest) :
    Tidy (word ++ ' ' :: rest) where
  present := by simp
  starts c found := by
    rw [List.head?_append_of_ne_nil _ first.present] at found
    exact first.starts c found
  ends c found := by
    rw [List.append_cons, List.getLast?_append_of_ne_nil _ tidy.present] at found
    exact tidy.ends c found
  spaces c inside blank := by
    rcases List.mem_append.mp inside with inside | inside
    · exact first.spaces c inside blank
    · rcases List.mem_cons.mp inside with rfl | inside
      · rfl
      · exact tidy.spaces c inside blank
  single := by
    refine first.single.append (tidy.single.cons fun c found _ => tidy.starts c found) ?_
    intro c found _ _ blank
    rw [first.ends c found] at blank
    cases blank

/-- What stands after the first word of a tidy line is tidy. -/
theorem Tidy.rest
    {word rest : List Char}
    (tidy : Tidy (word ++ ' ' :: rest)) :
    Tidy rest := by
  have present : rest ≠ [] := by
    rintro rfl
    have last := tidy.ends ' ' (by simp)
    cases last
  have chain := tidy.single.right_of_append
  refine ⟨present, fun c first => ?_, fun c last => ?_, fun c inside => ?_, chain.tail⟩
  · exact (List.isChain_cons.mp chain).1 c first rfl
  · refine tidy.ends c ?_
    rw [List.append_cons, List.getLast?_append_of_ne_nil _ present]
    exact last
  · exact tidy.spaces c (by simp [inside])

/-- A tidy line is one word, or a word and a tidy line with a space in between. -/
theorem Tidy.word_or_split
    {line : List Char}
    (tidy : Tidy line) :
    ∃ word,
      (∀ c ∈ word, isBlank c = false) ∧ word ≠ [] ∧
        (line = word ∨ ∃ rest, line = word ++ ' ' :: rest ∧ Tidy rest) := by
  obtain ⟨word, after, -, rfl, solid, starts, -⟩ := exists_firstPart words_split line
  have present : word ≠ [] := by
    rintro rfl
    obtain ⟨c, rest, rfl⟩ := List.exists_cons_of_ne_nil tidy.present
    have blank := starts c rfl
    rw [tidy.starts c rfl] at blank
    cases blank
  refine ⟨word, solid, present, ?_⟩
  cases after with
  | nil =>
      exact .inl (List.append_nil word)
  | cons cut rest =>
      obtain rfl : cut = ' ' := tidy.spaces cut (by simp) (starts cut rfl)
      exact .inr ⟨rest, rfl, tidy.rest⟩

/-- Words that are joined by spaces are tidy. -/
theorem tidy_intercalate
    {words : List (List Char)}
    (tidy : ∀ word ∈ words, Tidy word)
    (present : words ≠ []) :
    Tidy ([' '].intercalate words) := by
  induction words with
  | nil =>
      exact absurd rfl present
  | cons word rest inductionHypothesis =>
      have first := tidy word List.mem_cons_self
      cases rest with
      | nil =>
          simpa using first
      | cons next others =>
          have later :=
            inductionHypothesis (fun word inside => tidy word (List.mem_cons_of_mem _ inside))
              (List.cons_ne_nil next others)
          rw [List.intercalate_cons_cons, List.append_assoc]
          exact first.cons later

theorem tidy_collapse
    {text : List Char}
    (present : collapse text ≠ []) :
    Tidy (collapse text) := by
  refine tidy_intercalate (fun word inside => ?_) fun none => present (by simp [collapse, none])
  exact tidy_of_solid (fun _ here => isBlank_of_mem_words inside here) (words_nonempty inside)

/-- Collapsing does nothing to a tidy line. -/
theorem Tidy.collapse
    {line : List Char}
    (tidy : Tidy line) :
    collapse line = line := by
  induction length : line.length using Nat.strong_induction_on generalizing line with
  | _ n inductionHypothesis =>
      obtain ⟨word, solid, present, rfl | ⟨rest, rfl, restTidy⟩⟩ := tidy.word_or_split
      · simp [Text.collapse, words_of_solid solid present]
      · have later : Text.collapse rest = rest :=
          inductionHypothesis rest.length (by simp [← length]; omega) restTidy rfl
        have restWords : words rest ≠ [] := by
          intro none
          rw [Text.collapse, none] at later
          exact restTidy.present later.symm
        rw [Text.collapse] at later
        rw [Text.collapse, words_split word ' ' rest rfl, words_of_solid solid present,
          List.singleton_append, List.intercalate_cons_of_ne_nil restWords, later,
          List.append_assoc, List.singleton_append]

/-! ## Solid characters -/

theorem solid_append
    (left right : List Char) :
    solid (left ++ right) = solid left ++ solid right :=
  List.filter_append left right

theorem solid_cons_of_blank
    {c : Char}
    (blank : isBlank c = true)
    (text : List Char) :
    solid (c :: text) = solid text := by
  simp [solid, blank]

/-- Blank separators do not count. -/
theorem solid_intercalate
    {c : Char}
    (blank : isBlank c = true)
    (parts : List (List Char)) :
    solid ([c].intercalate parts) = parts.flatMap solid := by
  induction parts with
  | nil =>
      rfl
  | cons part rest inductionHypothesis =>
      cases rest with
      | nil =>
          simp
      | cons next others =>
          rw [List.intercalate_cons_cons, List.append_assoc, solid_append, List.singleton_append,
            solid_cons_of_blank blank, inductionHypothesis]
          rfl

/-- The parts between blanks hold all that is solid. -/
theorem flatten_splitOnP
    (text : List Char) :
    (text.splitOnP isBlank).flatten = solid text := by
  induction text with
  | nil =>
      rfl
  | cons c rest inductionHypothesis =>
      rw [List.splitOnP_cons_eq_if_modifyHead]
      cases blank : isBlank c with
      | true =>
          simpa [solid_cons_of_blank blank] using inductionHypothesis
      | false =>
          obtain ⟨part, others, shape⟩ :=
            List.exists_cons_of_ne_nil (List.splitOnP_ne_nil isBlank rest)
          rw [shape] at inductionHypothesis ⊢
          simpa [solid, blank] using inductionHypothesis

/-- Empty parts do not count. -/
theorem flatMap_filter_present
    (change : List Char → List Char)
    (empty : change [] = [])
    (parts : List (List Char)) :
    (parts.filter (!·.isEmpty)).flatMap change = parts.flatMap change := by
  induction parts with
  | nil =>
      rfl
  | cons part rest inductionHypothesis =>
      cases part with
      | nil =>
          simpa [empty] using inductionHypothesis
      | cons c others =>
          simpa using inductionHypothesis

theorem solid_collapse
    (text : List Char) :
    solid (collapse text) = solid text := by
  have words_solid : ∀ word ∈ words text, solid word = word := by
    intro word inside
    refine List.filter_eq_self.mpr fun c here => ?_
    rw [isBlank_of_mem_words inside here, Bool.not_false]
  rw [collapse, solid_intercalate rfl, List.flatMap_congr words_solid, words,
    flatMap_filter_present _ rfl, List.flatMap_id', flatten_splitOnP]

/-! ## Lines -/

/-- Lines one after another, with or without a line end after the last. -/
def joined (parts : List (List Char)) (ended : Bool) : List Char :=
  ['\n'].intercalate parts ++ if ended then ['\n'] else []

theorem Tidy.newline_notMem
    {line : List Char}
    (tidy : Tidy line) :
    '\n' ∉ line := by
  intro inside
  have space := tidy.spaces '\n' inside rfl
  cases space

section Joined

variable {parts : List (List Char)}

theorem splitOn_joined
    (tidy : ∀ part ∈ parts, Tidy part)
    (present : parts ≠ [])
    (ended : Bool) :
    (joined parts ended).splitOn '\n' = parts ++ if ended then [[]] else [] := by
  have unended : (['\n'].intercalate parts).splitOn '\n' = parts :=
    List.splitOn_intercalate '\n' (fun part inside => (tidy part inside).newline_notMem) present
  cases ended with
  | true =>
      have split := List.splitOn_append_cons_self (a := '\n') (['\n'].intercalate parts) []
      rw [unended] at split
      exact split
  | false =>
      simpa [joined] using unended

theorem lines_joined
    (tidy : ∀ part ∈ parts, Tidy part)
    (present : parts ≠ [])
    (ended : Bool) :
    lines (joined parts ended) = parts := by
  rw [lines, splitOn_joined tidy present]
  cases ended with
  | true =>
      simp
  | false =>
      have last := (tidy _ (List.getLast_mem present)).present
      simp [List.getLast?_eq_some_getLast present, last]

/-- Every text is empty or made of its lines. -/
theorem eq_joined_lines
    (text : List Char) :
    text = [] ∨ lines text ≠ [] ∧ ∃ ended, text = joined (lines text) ended := by
  have whole : ['\n'].intercalate (text.splitOn '\n') = text := List.intercalate_splitOn '\n'
  rw [lines]
  split
  · next last =>
      obtain ⟨front, shape⟩ := List.getLast?_eq_some_iff.mp last
      rw [shape] at whole ⊢
      rw [List.dropLast_concat]
      by_cases none : front = []
      · subst none
        exact .inl whole.symm
      · rw [intercalate_append _ none (List.cons_ne_nil [] [])] at whole
        exact .inr ⟨none, true, by simpa [joined] using whole.symm⟩
  · exact .inr ⟨List.splitOn_ne_nil _ _, false, by simp [joined]⟩

end Joined

end Text

/-! ## Clean texts -/

open Text

theorem tidy_of_mem_cleanLines
    {text line : List Char}
    (inside : line ∈ cleanLines text) :
    Tidy line := by
  have present := cleanLines_nonempty inside
  obtain ⟨_, _, rfl⟩ := List.mem_map.mp (List.mem_filter.mp inside).1
  exact tidy_collapse present

section Joined

variable {parts : List (List Char)}

theorem cleanLines_joined
    (tidy : ∀ part ∈ parts, Tidy part)
    (present : parts ≠ [])
    (ended : Bool) :
    cleanLines (joined parts ended) = parts := by
  have kept : (parts.map collapse).filter (!·.isEmpty) = parts := by
    rw [List.map_congr_left fun part inside => (tidy part inside).collapse, List.map_id']
    refine List.filter_eq_self.mpr fun part inside => ?_
    simpa using (tidy part inside).present
  have none : collapse [] = [] := rfl
  rw [cleanLines, splitOn_joined tidy present, List.map_append, List.filter_append, kept]
  cases ended <;> simp [none]

/-- What ends the text ends its last line. -/
theorem endsLine_joined
    (tidy : ∀ part ∈ parts, Tidy part)
    (present : parts ≠ [])
    (ended : Bool) :
    endsLine (joined parts ended) = ended := by
  cases ended with
  | true =>
      simp [joined, endsLine, isSpaceOrTab]
  | false =>
      obtain ⟨front, last, rfl⟩ := (List.eq_nil_or_concat parts).resolve_left present
      rw [List.concat_eq_append] at tidy ⊢
      have lastTidy := tidy last (by simp)
      have lastSolid : last.all isBlank = false := by
        refine List.all_eq_false.mpr ⟨last.getLast lastTidy.present, List.getLast_mem _, ?_⟩
        simp [lastTidy.ends _ (List.getLast?_eq_some_getLast lastTidy.present)]
      obtain ⟨before, shape⟩ : ∃ before, joined (front ++ [last]) false = before ++ last := by
        by_cases none : front = []
        · exact ⟨[], by simp [joined, none]⟩
        · rw [joined, intercalate_append _ none (List.cons_ne_nil last [])]
          exact ⟨['\n'].intercalate front ++ ['\n'], by simp⟩
      rw [shape, endsLine_append before lastSolid]
      refine endsLine_of_unended fun c inside => ?_
      rw [beq_eq_false_iff_ne]
      rintro rfl
      exact lastTidy.newline_notMem inside

theorem getLast?_joined_iff
    (tidy : ∀ part ∈ parts, Tidy part)
    (present : parts ≠ [])
    (ended : Bool) :
    (joined parts ended).getLast? = some '\n' ↔ ended = true := by
  constructor
  · intro last
    obtain ⟨before, shape⟩ := List.getLast?_eq_some_iff.mp last
    rw [← endsLine_joined tidy present ended, shape]
    exact (endsLine_newline_iff before []).mpr (by simp)
  · rintro rfl
    simp [joined]

theorem cleanText_joined
    (tidy : ∀ part ∈ parts, Tidy part)
    (present : parts ≠ [])
    (ended : Bool) :
    cleanText (joined parts ended) = joined parts ended := by
  have solid : (joined parts ended).all isBlank = false := by
    rw [Bool.eq_false_iff, Ne, ← cleanLines_eq_nil_iff, cleanLines_joined tidy present]
    exact present
  rw [cleanText_of_solid solid, cleanLines_joined tidy present, endsLine_joined tidy present]
  rfl

end Joined

/-- Cleaning gives nothing, or tidy lines. -/
theorem cleanText_eq_joined
    (text : List Char) :
    cleanText text = [] ∨
      cleanLines text ≠ [] ∧ cleanText text = joined (cleanLines text) (endsLine text) := by
  cases blank : text.all isBlank with
  | true =>
      exact .inl (cleanText_of_blank blank)
  | false =>
      exact .inr ⟨cleanLines_ne_nil blank, cleanText_of_solid blank⟩

theorem tidy_of_mem_lines_cleanText
    {text line : List Char}
    (inside : line ∈ lines (cleanText text)) :
    Tidy line := by
  rcases cleanText_eq_joined text with none | ⟨present, shape⟩
  · rw [none] at inside
    cases inside
  · have tidy : ∀ line ∈ cleanLines text, Tidy line := fun _ => tidy_of_mem_cleanLines
    rw [shape, lines_joined tidy present] at inside
    exact tidy line inside

theorem getLast?_cleanText_iff
    {text : List Char}
    (solid : text.all isBlank = false) :
    (cleanText text).getLast? = some '\n' ↔ endsLine text = true := by
  rw [cleanText_of_solid solid]
  exact getLast?_joined_iff (fun _ => tidy_of_mem_cleanLines) (cleanLines_ne_nil solid) _

/-- The texts that cleaning leaves alone are those with tidy lines. -/
theorem cleanText_eq_self_iff
    {text : List Char} :
    cleanText text = text ↔ ∀ line ∈ lines text, Tidy line := by
  constructor
  · intro clean line inside
    rw [← clean] at inside
    exact tidy_of_mem_lines_cleanText inside
  · intro tidy
    rcases eq_joined_lines text with rfl | ⟨present, ended, shape⟩
    · rfl
    · rw [shape]
      exact cleanText_joined tidy present ended

theorem solid_cleanText
    (text : List Char) :
    solid (cleanText text) = solid text := by
  have whole : ['\n'].intercalate (text.splitOn '\n') = text := List.intercalate_splitOn '\n'
  have body : solid (['\n'].intercalate (cleanLines text)) = solid text := by
    rw [solid_intercalate isBlank_newline, cleanLines, flatMap_filter_present _ rfl,
      List.flatMap_map, List.flatMap_congr fun line _ => solid_collapse line,
      ← solid_intercalate isBlank_newline, whole]
  simp only [cleanText]
  split
  · rw [solid_append, body, solid_cons_of_blank isBlank_newline]
    exact List.append_nil _
  · exact body

/-! ## Pieces -/

/-- The characters that a piece itself holds. -/
def Piece.chars : Piece → List Char
  | .text s => s.toList
  | _ => []

/-- The line ends that rendering puts in are blank. -/
theorem solid_rawText
    (glued : Bool)
    (pieces : List Piece) :
    solid (rawText glued pieces) = solid (pieces.flatMap Piece.chars) := by
  induction pieces generalizing glued with
  | nil =>
      rfl
  | cons piece rest inductionHypothesis =>
      cases piece with
      | text s =>
          rw [rawText, List.flatMap_cons, solid_append, solid_append, inductionHypothesis]
          rfl
      | newline =>
          cases glued with
          | true =>
              exact inductionHypothesis true
          | false =>
              exact (solid_cons_of_blank isBlank_newline _).trans (inductionHypothesis false)
      | glue | stringMarker | tagMarker | functionStart | functionEnd =>
          exact inductionHypothesis _

/--
A rendered line holds the characters of its texts that are not blank, in order.  Each of its
lines is tidy, and it is its own rendering.
-/
theorem Output.line_normal
    (output : Output) :
    solid output.line.toList = solid (output.pieces.flatMap Piece.chars) ∧
      (∀ line ∈ lines output.line.toList, Tidy line) ∧
      Output.line ⟨[.text output.line]⟩ = output.line := by
  have rendered : output.line.toList = cleanText (rawText false output.pieces) :=
    String.toList_ofList
  have tidy : ∀ line ∈ lines output.line.toList, Tidy line := by
    rw [rendered]
    exact fun _ => tidy_of_mem_lines_cleanText
  refine ⟨?_, tidy, ?_⟩
  · rw [rendered, solid_cleanText, solid_rawText]
  · have again : rawText false [.text output.line] = output.line.toList :=
      List.append_nil _
    rw [Output.line, render, again, cleanText_eq_self_iff.mpr tidy, String.ofList_toList]

/-! ## Finished lines -/

/-- The text without its last line end consists of its lines. -/
theorem dropNewlines_cleanText
    (text : List Char) :
    Output.dropNewlines (String.ofList (cleanText text)) =
      String.ofList (['\n'].intercalate (cleanLines text)) := by
  have tidy : ∀ line ∈ cleanLines text, Tidy line := fun _ => tidy_of_mem_cleanLines
  have kept :
      (['\n'].intercalate (cleanLines text)).rdropWhile (· == '\n') =
        ['\n'].intercalate (cleanLines text) := by
    refine List.rdropWhile_eq_self_iff.mpr fun present last => ?_
    have some : cleanLines text ≠ [] := by
      intro none
      exact present (by rw [none]; rfl)
    have unended := getLast?_joined_iff tidy some false
    rw [joined, if_neg Bool.false_ne_true, List.append_nil,
      List.getLast?_eq_some_getLast present, beq_iff_eq.mp last] at unended
    cases unended.mp rfl
  have dropped :
      (cleanText text).rdropWhile (· == '\n') = ['\n'].intercalate (cleanLines text) := by
    simp only [cleanText]
    split
    · rw [List.rdropWhile_concat_pos _ _ _ rfl, kept]
    · exact kept
  rw [Output.dropNewlines, String.toList_ofList]
  exact congrArg String.ofList dropped

theorem rawText_of_blank
    (glued : Bool)
    {pieces : List Piece}
    (blank : ∀ piece ∈ pieces, piece.isBlank = true) :
    (rawText glued pieces).all isBlank = true := by
  induction pieces generalizing glued with
  | nil =>
      rfl
  | cons piece rest inductionHypothesis =>
      have later (glued : Bool) := inductionHypothesis glued fun other inside =>
        blank other (List.mem_cons_of_mem piece inside)
      have here := blank piece List.mem_cons_self
      cases piece with
      | text s =>
          rw [rawText, List.all_append, later, Bool.and_true]
          exact here
      | newline =>
          cases glued with
          | true =>
              exact later true
          | false =>
              rw [rawText, if_neg Bool.false_ne_true, List.all_cons, later, isBlank_newline]
              rfl
      | glue | stringMarker | tagMarker | functionStart | functionEnd =>
          cases here

/--
A visible text with a line end after it is rendered as a line that keeps its end exactly if
nothing but spaces and tabs stands behind the last line end.  Blank pieces after it change
nothing else.
-/
theorem Output.line_ends_iff
    {front trailing : List Piece}
    {s : String}
    (visible : isBlankText s = false)
    (blank : ∀ piece ∈ trailing, piece.isBlank = true) :
    ((Output.line ⟨front ++ .text s :: .newline :: trailing⟩).toList.getLast? = some '\n' ↔
        ∀ c ∈ (rawText false trailing).rtakeWhile (· != '\n'), c = ' ' ∨ c = '\t') ∧
      dropNewlines (Output.line ⟨front ++ .text s :: .newline :: trailing⟩) =
        dropNewlines (Output.line ⟨front ++ [.text s]⟩) := by
  have finished : rawText false (front ++ [.text s]) = rawText false front ++ s.toList := by
    rw [rawText_append]
    simp [rawText]
  -- The visible text undoes all glue, so the line end after it is rendered.
  have shape :
      rawText false (front ++ .text s :: .newline :: trailing) =
        rawText false (front ++ [.text s]) ++ '\n' :: rawText false trailing := by
    rw [finished, rawText_append]
    simp [rawText]
  have solid :
      (rawText false (front ++ [.text s]) ++ '\n' :: rawText false trailing).all isBlank =
        false := by
    rw [finished, List.all_append, List.all_append, ← isBlankText, visible, Bool.and_false,
      Bool.false_and]
  constructor
  · rw [Output.line, render, String.toList_ofList, shape, getLast?_cleanText_iff solid,
      endsLine_newline_iff]
    simp [isSpaceOrTab]
  · have rest : cleanLines (rawText false trailing) = [] :=
      cleanLines_eq_nil_iff.mpr (rawText_of_blank false blank)
    rw [Output.line, render, Output.line, render, dropNewlines_cleanText, dropNewlines_cleanText,
      shape, cleanLines_split _ '\n' _ rfl, rest, List.append_nil]

/-- A space that is not broken behind the line end takes the line its end. -/
theorem Output.line_ends_iff_bell :
    isBlankText "A bell rings." = false ∧
      (∀ piece ∈ [Piece.text "\u00a0"], piece.isBlank = true) ∧
      Output.line ⟨[.text "A bell rings.", .newline, .text "\u00a0"]⟩ = "A bell rings." ∧
      (Output.line ⟨[.text "A bell rings.", .newline, .text "\u00a0"]⟩).toList.getLast? ≠
        some '\n' := by
  have visible : isBlankText "A bell rings." = false := by decide
  have blank : ∀ piece ∈ [Piece.text "\u00a0"], piece.isBlank = true := by decide
  have ends := (@line_ends_iff [] _ _ visible blank).1
  refine ⟨visible, blank, by decide, fun last => ?_⟩
  have bare := ends.mp last '\u00a0' (by decide)
  exact absurd bare (by decide)

end Fabula
