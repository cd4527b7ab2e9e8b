import Fabula.Tags
import Mathlib.Data.List.DropRight
import Mathlib.Data.List.Induction

namespace Fabula

/-!
# Scopes

Which scopes a tag belongs to is decided when it is pushed, by a phase that says nothing of
how it came about.  Told from the history, every scope is a stretch of it: the story has the
tags from before any knot or content, the knot those at the top of the knot that was entered
last, the line those since it was last cleared, and a choice those that no choice has claimed.
The proof ties the phase to the history: it says whether the present moment still lies within
the stretch of the story or of the knot.
-/

/-- What can be done with tags. -/
inductive TagOperation where
  | push (tag : String)
  | pushChoice (tag : String)
  | takeChoice
  | enterKnot
  | contentStarted
  | clearLine
  deriving Repr, DecidableEq

namespace TagOperation

/-- The tag that joins the line. -/
def pushed? : TagOperation → Option String
  | .push tag => some tag
  | _ => none

/-- The tag that waits for a choice. -/
def reserved? : TagOperation → Option String
  | .pushChoice tag => some tag
  | _ => none

/-- Whether tags may still belong to the whole story after an operation. -/
def keepsStory : TagOperation → Bool
  | .enterKnot | .contentStarted => false
  | _ => true

end TagOperation

namespace Tags

def perform (tags : Tags) : TagOperation → Tags
  | .push tag => tags.push tag
  | .pushChoice tag => tags.pushChoice tag
  | .takeChoice => tags.takeChoice.2
  | .enterKnot => tags.enterKnot
  | .contentStarted => tags.contentStarted
  | .clearLine => tags.clearLine

/-- A tag joins the line, and the story or the knot if the phase says so. -/
theorem push_eq
    (tags : Tags)
    (tag : String) :
    tags.push tag =
      { tags with
        global := tags.global ++ if tags.phase = .global then [tag] else []
        knot := tags.knot ++ if tags.phase = .knotHeader then [tag] else []
        line := tags.line ++ [tag] } := by
  obtain ⟨phase, _, _, _, _⟩ := tags
  cases phase <;> simp [push]

/-! ## One operation -/

variable {operation : TagOperation}

theorem phase_perform
    (noKnot : operation ≠ .enterKnot)
    (noContent : operation ≠ .contentStarted)
    (tags : Tags) :
    (tags.perform operation).phase = tags.phase := by
  cases operation with
  | push tag =>
      rw [perform, push_eq]
  | enterKnot =>
      exact absurd rfl noKnot
  | contentStarted =>
      exact absurd rfl noContent
  | _ =>
      rfl

theorem global_perform
    (operation : TagOperation)
    (tags : Tags) :
    (tags.perform operation).global =
      tags.global ++ if tags.phase = .global then operation.pushed?.toList else [] := by
  cases operation with
  | push tag =>
      rw [perform, push_eq]
      rfl
  | _ =>
      simp [perform, TagOperation.pushed?, pushChoice, takeChoice, enterKnot, contentStarted,
        clearLine]

theorem knot_perform
    (noKnot : operation ≠ .enterKnot)
    (tags : Tags) :
    (tags.perform operation).knot =
      tags.knot ++ if tags.phase = .knotHeader then operation.pushed?.toList else [] := by
  cases operation with
  | push tag =>
      rw [perform, push_eq]
      rfl
  | enterKnot =>
      exact absurd rfl noKnot
  | _ =>
      simp [perform, TagOperation.pushed?, pushChoice, takeChoice, contentStarted, clearLine]

theorem line_perform
    (keeps : operation ≠ .clearLine)
    (tags : Tags) :
    (tags.perform operation).line = tags.line ++ operation.pushed?.toList := by
  cases operation with
  | push tag =>
      rw [perform, push_eq]
      rfl
  | clearLine =>
      exact absurd rfl keeps
  | _ =>
      exact (List.append_nil _).symm

theorem pendingChoice_perform
    (keeps : operation ≠ .takeChoice)
    (tags : Tags) :
    (tags.perform operation).pendingChoice =
      tags.pendingChoice ++ operation.reserved?.toList := by
  cases operation with
  | push tag =>
      rw [perform, push_eq]
      exact (List.append_nil _).symm
  | pushChoice tag =>
      rfl
  | takeChoice =>
      exact absurd rfl keeps
  | _ =>
      exact (List.append_nil _).symm

end Tags

/-- What was done with the tags of a story, oldest first. -/
abbrev TagHistory :=
  List TagOperation

namespace TagHistory

/-- The tags that a history leads to. -/
def tags (history : TagHistory) : Tags :=
  history.foldl Tags.perform .start

/-- The tags pushed in a history, in push order. -/
def pushed (history : TagHistory) : List String :=
  history.filterMap TagOperation.pushed?

/-- The choice tags pushed in a history, in push order. -/
def reserved (history : TagHistory) : List String :=
  history.filterMap TagOperation.reserved?

/-- What was done after an operation was done last, or all of it if it never was. -/
def since (operation : TagOperation) (history : TagHistory) : TagHistory :=
  history.rtakeWhile (· != operation)

/-- What was done before any knot or content. -/
def opening (history : TagHistory) : TagHistory :=
  history.takeWhile TagOperation.keepsStory

/-- What was done at the top of the knot that was entered last, if there is one. -/
def header (history : TagHistory) : TagHistory :=
  if .enterKnot ∈ history then
    (history.since .enterKnot).takeWhile (· != .contentStarted)
  else
    []

/-- The phase that a history leads to. -/
def phase (history : TagHistory) : TagPhase :=
  if .contentStarted ∈ history.since .enterKnot then .line
  else if .enterKnot ∈ history then .knotHeader
  else .global

/-! ## Stretches -/

variable {operation other : TagOperation}

theorem tags_snoc
    (history : TagHistory)
    (operation : TagOperation) :
    tags (history ++ [operation]) = history.tags.perform operation :=
  List.foldl_concat ..

theorem pushed_snoc
    (history : TagHistory)
    (operation : TagOperation) :
    pushed (history ++ [operation]) = history.pushed ++ operation.pushed?.toList :=
  List.filterMap_append

theorem reserved_snoc
    (history : TagHistory)
    (operation : TagOperation) :
    reserved (history ++ [operation]) = history.reserved ++ operation.reserved?.toList :=
  List.filterMap_append

theorem since_self
    (operation : TagOperation)
    (history : TagHistory) :
    since operation (history ++ [operation]) = [] :=
  List.rtakeWhile_concat_neg _ _ _ (by simp)

theorem since_other
    (unlike : other ≠ operation)
    (history : TagHistory) :
    since operation (history ++ [other]) = history.since operation ++ [other] :=
  List.rtakeWhile_concat_pos _ _ _ (by simpa using unlike)

/-- What was never done has the whole history behind it. -/
theorem since_of_notMem
    {history : TagHistory}
    (never : operation ∉ history) :
    history.since operation = history := by
  refine List.rtakeWhile_eq_self_iff.mpr fun other inside => ?_
  rw [bne_iff_ne]
  rintro rfl
  exact never inside

/-- A stretch that has ended stays as it is. -/
theorem takeWhile_append_of_ended
    {within : TagOperation → Bool}
    {history : TagHistory}
    (ended : history.all within = false)
    (later : TagHistory) :
    (history ++ later).takeWhile within = history.takeWhile within := by
  induction history with
  | nil =>
      cases ended
  | cons first rest inductionHypothesis =>
      rw [List.all_cons] at ended
      cases inside : within first with
      | false =>
          simp [inside]
      | true =>
          rw [inside, Bool.true_and] at ended
          simp [inside, inductionHypothesis ended]

/-- A tag joins a stretch as long as it lasts, if no tag ends it. -/
theorem pushed_takeWhile_snoc
    {within : TagOperation → Bool}
    (inside : ∀ tag, operation.pushed? = some tag → within operation = true)
    (history : TagHistory) :
    pushed ((history ++ [operation]).takeWhile within) =
      pushed (history.takeWhile within) ++
        if history.all within then operation.pushed?.toList else [] := by
  cases lasting : history.all within with
  | false =>
      simp [takeWhile_append_of_ended lasting]
  | true =>
      rw [List.all_eq_true] at lasting
      rw [List.takeWhile_append_of_pos lasting, List.takeWhile_eq_self_iff.mpr lasting, pushed,
        List.filterMap_append]
      -- The stretch is all of the history, and only an operation that pushes nothing ends it.
      refine congrArg (history.pushed ++ ·) ?_
      cases pushes : operation.pushed? with
      | none =>
          cases ends : within operation <;> simp [ends, pushes]
      | some tag =>
          simp [inside tag pushes, pushes]

/-! ## The phase -/

/-- Tags belong to the story as long as there was neither a knot nor content. -/
theorem phase_eq_global_iff
    (history : TagHistory) :
    history.phase = .global ↔ history.all TagOperation.keepsStory = true := by
  rw [List.all_eq_true]
  constructor
  · intro global operation inside
    simp only [phase] at global
    split at global
    · cases global
    · next noContent =>
        split at global
        · cases global
        · next noKnot =>
            rw [since_of_notMem noKnot] at noContent
            cases operation with
            | enterKnot =>
                exact absurd inside noKnot
            | contentStarted =>
                exact absurd inside noContent
            | _ =>
                rfl
  · intro lasting
    have noKnot : .enterKnot ∉ history := fun inside => by cases lasting _ inside
    have noContent : .contentStarted ∉ history := fun inside => by cases lasting _ inside
    rw [phase, since_of_notMem noKnot, if_neg noContent, if_neg noKnot]

/-- Tags belong to the knot as long as there was no content since it was entered. -/
theorem phase_eq_knotHeader_iff
    (history : TagHistory) :
    history.phase = .knotHeader ↔
      .enterKnot ∈ history ∧
        (history.since .enterKnot).all (· != .contentStarted) = true := by
  have absent :
      (history.since .enterKnot).all (· != .contentStarted) = true ↔
        .contentStarted ∉ history.since .enterKnot := by
    simp [List.forall_mem_ne']
  rw [absent, phase]
  split
  · next content =>
      simp [content]
  · next noContent =>
      split
      · next knot =>
          simp [knot, noContent]
      · next noKnot =>
          simp [noKnot]

/-- The phase of the tags is that of their history. -/
theorem phase_tags
    (history : TagHistory) :
    history.tags.phase = history.phase := by
  induction history using List.reverseRecOn with
  | nil =>
      rfl
  | append_singleton history operation inductionHypothesis =>
      rw [tags_snoc]
      by_cases knot : operation = .enterKnot
      · subst knot
        simp [phase, since_self, Tags.perform, Tags.enterKnot]
      · by_cases content : operation = .contentStarted
        · subst content
          simp [phase, since_other, Tags.perform, Tags.contentStarted]
        · rw [Tags.phase_perform knot content, inductionHypothesis]
          simp [phase, since_other knot, Ne.symm knot, Ne.symm content]

/-! ## The scopes -/

/-- A tag joins the opening if the phase says so. -/
theorem pushed_opening_snoc
    (history : TagHistory)
    (operation : TagOperation) :
    pushed (opening (history ++ [operation])) =
      pushed history.opening ++
        if history.tags.phase = .global then operation.pushed?.toList else [] := by
  simp only [phase_tags, phase_eq_global_iff]
  refine pushed_takeWhile_snoc (fun tag pushes => ?_) history
  cases operation with
  | push tag =>
      rfl
  | _ =>
      cases pushes

/-- A tag joins the top of a knot if the phase says so. -/
theorem pushed_header_snoc
    (noKnot : operation ≠ .enterKnot)
    (history : TagHistory) :
    pushed (header (history ++ [operation])) =
      pushed history.header ++
        if history.tags.phase = .knotHeader then operation.pushed?.toList else [] := by
  simp only [header, List.mem_append, List.mem_singleton, noKnot.symm, or_false,
    since_other noKnot, phase_tags, phase_eq_knotHeader_iff]
  by_cases knot : .enterKnot ∈ history
  · simp only [knot, if_true, true_and]
    refine pushed_takeWhile_snoc (fun tag pushes => ?_) _
    cases operation with
    | push tag =>
        rfl
    | _ =>
        cases pushes
  · simp [knot]

theorem global_tags
    (history : TagHistory) :
    history.tags.global = history.opening.pushed := by
  induction history using List.reverseRecOn with
  | nil =>
      rfl
  | append_singleton history operation inductionHypothesis =>
      rw [pushed_opening_snoc, ← inductionHypothesis, tags_snoc, Tags.global_perform]

theorem knot_tags
    (history : TagHistory) :
    history.tags.knot = history.header.pushed := by
  induction history using List.reverseRecOn with
  | nil =>
      rfl
  | append_singleton history operation inductionHypothesis =>
      rw [tags_snoc]
      by_cases knot : operation = .enterKnot
      · subst knot
        simp [header, since_self, pushed, Tags.perform, Tags.enterKnot]
      · rw [pushed_header_snoc knot, ← inductionHypothesis, Tags.knot_perform knot]

theorem line_tags
    (history : TagHistory) :
    history.tags.line = (history.since .clearLine).pushed := by
  induction history using List.reverseRecOn with
  | nil =>
      rfl
  | append_singleton history operation inductionHypothesis =>
      rw [tags_snoc]
      by_cases clears : operation = .clearLine
      · subst clears
        rw [since_self]
        rfl
      · rw [since_other clears, pushed_snoc, ← inductionHypothesis, Tags.line_perform clears]

theorem pendingChoice_tags
    (history : TagHistory) :
    history.tags.pendingChoice = (history.since .takeChoice).reserved := by
  induction history using List.reverseRecOn with
  | nil =>
      rfl
  | append_singleton history operation inductionHypothesis =>
      rw [tags_snoc]
      by_cases takes : operation = .takeChoice
      · subst takes
        rw [since_self]
        rfl
      · rw [since_other takes, reserved_snoc, ← inductionHypothesis,
          Tags.pendingChoice_perform takes]

/--
The story has the tags that were pushed before any knot or content, and keeps them from then
on.  The knot has those that were pushed after it was entered and before its content, the
line those that were pushed since it was cleared, and a choice is handed those that were
pushed for choices since one was last handed any; all in push order.
-/
theorem scopes_follow_history
    (history : TagHistory) :
    history.tags.global = history.opening.pushed ∧
      (history.all TagOperation.keepsStory = false →
        ∀ later, (tags (history ++ later)).global = history.tags.global) ∧
      history.tags.knot = history.header.pushed ∧
      history.tags.line = (history.since .clearLine).pushed ∧
      history.tags.takeChoice.1 = (history.since .takeChoice).reserved := by
  refine ⟨global_tags history, fun ended later => ?_, knot_tags history, line_tags history,
    pendingChoice_tags history⟩
  rw [global_tags, global_tags, opening, takeWhile_append_of_ended ended, opening]

/-! ## An orchard -/

/-- A tag before any content, tags at the top of a knot and within it, and tags of two choices. -/
def orchardHistory : TagHistory :=
  [.push "author: none", .contentStarted, .push "dawn", .clearLine, .enterKnot, .push "orchard",
    .pushChoice "climb", .takeChoice, .pushChoice "shake", .contentStarted, .push "apples"]

theorem scopes_follow_history_orchard :
    orchardHistory.all TagOperation.keepsStory = false ∧
      (∀ later, (tags (orchardHistory ++ later)).global = ["author: none"]) ∧
      orchardHistory.tags.knot = ["orchard"] ∧
      orchardHistory.tags.line = ["orchard", "apples"] ∧
      orchardHistory.tags.takeChoice.1 = ["shake"] := by
  obtain ⟨global, lasting, knot, line, choice⟩ := scopes_follow_history orchardHistory
  exact
    ⟨rfl, fun later => (lasting rfl later).trans (global.trans rfl), knot.trans rfl,
      line.trans rfl, choice.trans rfl⟩

end TagHistory

end Fabula
