import Fabula.Snapshot.Basic
import Mathlib

namespace Fabula

/-!
# Fingerprints of declarations

The text that is digested for a fingerprint writes names as they are, between separators:
a line for each variable and each list, a colon before a kind, a space before a flag and an
equals sign before its value.  Names without the separators that follow them can be read
back, so the text identifies the declarations.  Names with separators can not: two
variables are written like a single one whose name holds the end of a line.
-/

/-! ## Texts with separators -/

/-- What stands before the first separator and what stands behind it can be told. -/
theorem append_separator_inj
    {α : Type}
    {separator : α}
    {left right leftRest rightRest : List α}
    (leftFree : separator ∉ left)
    (rightFree : separator ∉ right) :
    left ++ separator :: leftRest = right ++ separator :: rightRest ↔
      left = right ∧ leftRest = rightRest := by
  constructor
  · intro same
    induction left generalizing right with
    | nil =>
        cases right with
        | nil =>
            exact ⟨rfl, (List.cons.inj same).2⟩
        | cons first rest =>
            exact absurd ((List.cons.inj same).1 ▸ List.mem_cons_self) rightFree
    | cons first rest inductionHypothesis =>
        cases right with
        | nil =>
            exact absurd ((List.cons.inj same).1 ▸ List.mem_cons_self) leftFree
        | cons other others =>
            obtain ⟨head, tail⟩ := List.cons.inj same
            obtain ⟨front, back⟩ :=
              inductionHypothesis (List.not_mem_of_not_mem_cons leftFree)
                (List.not_mem_of_not_mem_cons rightFree) tail
            exact ⟨by rw [head, front], back⟩
  · rintro ⟨rfl, rfl⟩
    rfl

/-- The last separator divides a text as well. -/
theorem separator_append_inj
    {α : Type}
    {separator : α}
    {left right leftRest rightRest : List α}
    (leftFree : separator ∉ leftRest)
    (rightFree : separator ∉ rightRest) :
    left ++ separator :: leftRest = right ++ separator :: rightRest ↔
      left = right ∧ leftRest = rightRest := by
  have mirrored (front back : List α) :
      (front ++ separator :: back).reverse = back.reverse ++ separator :: front.reverse := by
    simp
  rw [← List.reverse_inj, mirrored, mirrored, append_separator_inj (by simpa) (by simpa),
    List.reverse_inj, List.reverse_inj, and_comm]

/-- Rows that are each ended by a separator can be told. -/
theorem flatMap_ended_inj
    {α : Type}
    {separator : α}
    {left right : List (List α)}
    (leftFree : ∀ row ∈ left, separator ∉ row)
    (rightFree : ∀ row ∈ right, separator ∉ row)
    (same :
      left.flatMap (fun row => row ++ [separator]) =
        right.flatMap (fun row => row ++ [separator])) :
    left = right := by
  induction left generalizing right with
  | nil =>
      cases right with
      | nil =>
          rfl
      | cons row rows =>
          simp at same
  | cons row rows inductionHypothesis =>
      cases right with
      | nil =>
          simp at same
      | cons other others =>
          simp only [List.flatMap_cons, List.append_assoc, List.singleton_append] at same
          obtain ⟨rfl, rest⟩ :=
            (append_separator_inj (leftFree row List.mem_cons_self)
              (rightFree other List.mem_cons_self)).mp same
          rw [inductionHypothesis
            (fun row member => leftFree row (List.mem_cons_of_mem _ member))
            (fun row member => rightFree row (List.mem_cons_of_mem _ member)) rest]

/-- Rows of two sorts, one sort before the other, can be told. -/
theorem append_sorted_inj
    {α : Type}
    {sort : α → Bool}
    {first last otherFirst otherLast : List α}
    (before : ∀ row ∈ first, sort row = true)
    (after : ∀ row ∈ last, sort row = false)
    (otherBefore : ∀ row ∈ otherFirst, sort row = true)
    (otherAfter : ∀ row ∈ otherLast, sort row = false)
    (same : first ++ last = otherFirst ++ otherLast) :
    first = otherFirst ∧ last = otherLast := by
  have front := congrArg (List.filter sort) same
  have back := congrArg (List.filter fun row => !sort row) same
  have kept
      {rows : List α}
      (own : ∀ row ∈ rows, sort row = true) :
      rows.filter sort = rows ∧ rows.filter (fun row => !sort row) = [] := by
    simpa [List.filter_eq_self, List.filter_eq_nil_iff] using own
  have dropped
      {rows : List α}
      (other : ∀ row ∈ rows, sort row = false) :
      rows.filter sort = [] ∧ rows.filter (fun row => !sort row) = rows := by
    simpa [List.filter_eq_self, List.filter_eq_nil_iff] using other
  simp only [List.filter_append, kept before, dropped after, kept otherBefore,
    dropped otherAfter, List.append_nil, List.nil_append] at front back
  exact ⟨front, back⟩

/-- Lists are told by their images if their elements are. -/
theorem map_inj_on
    {α β : Type}
    {image : α → β}
    {left right : List α}
    (tells : ∀ item ∈ left, ∀ other ∈ right, image item = image other → item = other)
    (same : left.map image = right.map image) :
    left = right := by
  induction left generalizing right with
  | nil =>
      exact (List.map_eq_nil_iff.mp same.symm).symm
  | cons item items inductionHypothesis =>
      cases right with
      | nil =>
          exact absurd (List.map_eq_nil_iff.mp same) (List.cons_ne_nil item items)
      | cons other others =>
          obtain ⟨head, tail⟩ := List.cons.inj same
          rw [tells item List.mem_cons_self other List.mem_cons_self head,
            inductionHypothesis
              (fun item member other present =>
                tells item (List.mem_cons_of_mem _ member) other (List.mem_cons_of_mem _ present))
              tail]

/-! ## Rows -/

/-- The name and the kind of a variable. -/
def Declaration.signature (declaration : Declaration) : String × Kind :=
  (declaration.name, declaration.kind)

/-- The line of a variable without its end. -/
def signatureRow (signature : String × Kind) : List Char :=
  ['v', 'a', 'r', ' '] ++ (signature.1.toList ++ ':' :: signature.2.name.toList)

/-- A flag with its value in the line of a list. -/
def flagRow (flag : String × Int32) : List Char :=
  flag.1.toList ++ '=' :: (toString flag.2.toInt).toList

/-- The line of a list without its end. -/
def FlagList.row (list : FlagList) : List Char :=
  ['l', 'i', 's', 't', ' '] ++
    (list.name.toList ++ list.flags.toList.flatMap fun flag => ' ' :: flagRow flag)

/-- The lines of declarations without their ends. -/
def Declarations.rows (declarations : Declarations) : List (List Char) :=
  (declarations.globals.map Declaration.signature).map signatureRow ++
    declarations.lists.lists.toList.map FlagList.row

/-- The text of declarations is made of their lines. -/
theorem Declarations.toList_fingerprintText
    (declarations : Declarations) :
    declarations.fingerprintText.toList =
      declarations.rows.flatMap fun row => row ++ ['\n'] := by
  have line (declaration : Declaration) :
      declaration.text.toList = signatureRow declaration.signature ++ ['\n'] := by
    simp [Declaration.text, signatureRow, Declaration.signature]
  have listLine (list : FlagList) :
      list.text.toList = list.row ++ ['\n'] := by
    simp [FlagList.text, FlagList.row, String.toList_join, List.flatMap_map, flagText, flagRow]
  simp only [fingerprintText, rows, String.toList_append, String.toList_join, List.flatMap_map,
    List.flatMap_append, line, listLine]

/-- Kinds have different names. -/
theorem Kind.name_injective {left right : Kind} (same : left.name = right.name) :
    left = right := by
  revert same
  cases left <;> cases right <;> decide

/-- The line of a variable tells its name and its kind. -/
theorem signatureRow_injective :
    Function.Injective signatureRow := by
  rintro ⟨leftName, leftKind⟩ ⟨rightName, rightKind⟩ same
  have unmarked (kind : Kind) : ':' ∉ kind.name.toList := by
    cases kind <;> decide
  obtain ⟨name, kind⟩ :=
    (separator_append_inj (unmarked leftKind) (unmarked rightKind)).mp
      (List.append_cancel_left same)
  exact Prod.ext (String.toList_inj.mp name) (Kind.name_injective (String.toList_inj.mp kind))

/-- The figures of a number hold none of the separators. -/
theorem not_mem_toString_int
    {separator : Char}
    (noDigit : separator.isDigit = false)
    (noSign : separator ≠ '-')
    (number : Int) :
    separator ∉ (toString number).toList := by
  have natural (n : Nat) : separator ∉ (toString n).toList := by
    rw [Nat.toString_eq_repr, Nat.toList_repr]
    intro inside
    rw [Nat.isDigit_of_mem_toDigits (by decide) (by decide) inside] at noDigit
    cases noDigit
  rw [Int.toString_eq_repr, Int.repr_eq_if]
  split
  · exact natural _
  · simp only [String.toList_append, List.mem_append, not_or]
    exact ⟨by simpa using noSign, natural _⟩

/-- The flags in the line of a list can be told, if their names hold no equals sign. -/
theorem flagRows_inj
    {left right : List (String × Int32)}
    (leftFree : ∀ flag ∈ left, '=' ∉ flag.1.toList)
    (rightFree : ∀ flag ∈ right, '=' ∉ flag.1.toList)
    (same :
      left.flatMap (fun flag => flagRow flag ++ [' ']) =
        right.flatMap (fun flag => flagRow flag ++ [' '])) :
    left = right := by
  have opened (flag : String × Int32) (rest : List Char) :
      flagRow flag ++ [' '] ++ rest =
        flag.1.toList ++ '=' :: ((toString flag.2.toInt).toList ++ ' ' :: rest) := by
    simp [flagRow]
  induction left generalizing right with
  | nil =>
      cases right with
      | nil =>
          rfl
      | cons flag flags =>
          simp at same
  | cons flag flags inductionHypothesis =>
      cases right with
      | nil =>
          simp at same
      | cons other others =>
          simp only [List.flatMap_cons, opened] at same
          obtain ⟨names, rest⟩ :=
            (append_separator_inj (leftFree _ List.mem_cons_self)
              (rightFree _ List.mem_cons_self)).mp same
          obtain ⟨values, later⟩ :=
            (append_separator_inj (not_mem_toString_int (by decide) (by decide) _)
              (not_mem_toString_int (by decide) (by decide) _)).mp rest
          have head : flag = other :=
            Prod.ext (String.toList_inj.mp names)
              (Int32.toInt_inj.mp (Int.repr_inj.mp (String.toList_inj.mp values)))
          have tail : flags = others :=
            inductionHypothesis
              (fun flag member => leftFree flag (List.mem_cons_of_mem _ member))
              (fun flag member => rightFree flag (List.mem_cons_of_mem _ member)) later
          rw [head, tail]

/-! ## Legible declarations -/

/-- A list whose names hold no separator that follows them in its line. -/
structure FlagList.Legible (list : FlagList) : Prop where
  unbroken : '\n' ∉ list.name.toList
  unspaced : ' ' ∉ list.name.toList
  flags : ∀ flag ∈ list.flags.toList, '\n' ∉ flag.1.toList ∧ '=' ∉ flag.1.toList

/-- Declarations whose names hold no separator that follows them in the text. -/
structure Declarations.Legible (declarations : Declarations) : Prop where
  globals : ∀ declaration ∈ declarations.globals, '\n' ∉ declaration.name.toList
  lists : ∀ list ∈ declarations.lists.lists.toList, list.Legible

/-- Declarations of the same variables, apart from their first values, and the same lists. -/
structure Declarations.Matches (left right : Declarations) : Prop where
  globals :
    left.globals.map Declaration.signature = right.globals.map Declaration.signature
  lists : left.lists = right.lists

/-- The line of a legible list tells its name and its flags. -/
theorem FlagList.Legible.row_inj
    {left right : FlagList}
    (leftLegible : left.Legible)
    (rightLegible : right.Legible)
    (same : left.row = right.row) :
    left = right := by
  -- With one more space at the end, every flag stands between two spaces.
  have spaced (list : FlagList) :
      list.row ++ [' '] =
        ['l', 'i', 's', 't', ' '] ++
          (list.name.toList ++
            ' ' :: list.flags.toList.flatMap (fun flag => flagRow flag ++ [' '])) := by
    have moved (flags : List (String × Int32)) :
        (flags.flatMap fun flag => ' ' :: flagRow flag) ++ [' '] =
          ' ' :: flags.flatMap (fun flag => flagRow flag ++ [' ']) := by
      induction flags with
      | nil =>
          rfl
      | cons flag flags inductionHypothesis =>
          simp [inductionHypothesis]
    simp only [row, List.append_assoc, moved]
  have whole := congrArg (· ++ [' ']) same
  simp only [spaced] at whole
  obtain ⟨names, flags⟩ :=
    (append_separator_inj leftLegible.unspaced rightLegible.unspaced).mp
      (List.append_cancel_left whole)
  have listed :=
    flagRows_inj (fun flag member => (leftLegible.flags flag member).2)
      (fun flag member => (rightLegible.flags flag member).2) flags
  obtain ⟨leftName, leftFlags⟩ := left
  obtain ⟨rightName, rightFlags⟩ := right
  rw [FlagList.mk.injEq]
  exact ⟨String.toList_inj.mp names, Array.toList_inj.mp listed⟩

/-- The lines of legible declarations are unbroken. -/
theorem Declarations.Legible.rows_unbroken
    {declarations : Declarations}
    (legible : declarations.Legible) :
    ∀ row ∈ declarations.rows, '\n' ∉ row := by
  intro row member
  have unbroken (kind : Kind) : '\n' ∉ kind.name.toList := by
    cases kind <;> decide
  simp only [rows, List.mem_append, List.mem_map] at member
  rcases member with ⟨_, ⟨declaration, declared, rfl⟩, rfl⟩ | ⟨list, listed, rfl⟩
  · have name := legible.globals declaration declared
    simp [signatureRow, Declaration.signature, name, unbroken]
  · have own := legible.lists list listed
    simp only [FlagList.row, flagRow, List.mem_append, List.mem_flatMap, not_or, List.mem_cons]
    refine ⟨by decide, own.unbroken, ?_⟩
    rintro ⟨flag, member, space | name | sign | value⟩
    · cases space
    · exact (own.flags flag member).1 name
    · cases sign
    · exact not_mem_toString_int (by decide) (by decide) _ value

/-- Legible declarations of the same lines match. -/
theorem Declarations.Legible.matches_of_rows
    {left right : Declarations}
    (leftLegible : left.Legible)
    (rightLegible : right.Legible)
    (same : left.rows = right.rows) :
    left.Matches right := by
  have ofGlobals (declarations : Declarations) :
      ∀ row ∈ (declarations.globals.map Declaration.signature).map signatureRow,
        (row.head? == some 'v') = true := by
    intro row member
    obtain ⟨signature, _, rfl⟩ := List.mem_map.mp member
    rfl
  have ofLists (declarations : Declarations) :
      ∀ row ∈ declarations.lists.lists.toList.map FlagList.row,
        (row.head? == some 'v') = false := by
    intro row member
    obtain ⟨list, _, rfl⟩ := List.mem_map.mp member
    rfl
  obtain ⟨globals, lists⟩ :=
    append_sorted_inj (ofGlobals left) (ofLists left) (ofGlobals right) (ofLists right) same
  have listed : left.lists.lists.toList = right.lists.lists.toList :=
    map_inj_on
      (fun list member other present same =>
        (leftLegible.lists list member).row_inj (rightLegible.lists other present) same)
      lists
  exact
    ⟨List.map_injective_iff.mpr signatureRow_injective globals,
      congrArg Definitions.mk (Array.toList_inj.mp listed)⟩

namespace Declarations

/-- Matching declarations have the same text. -/
theorem Matches.fingerprintText_eq
    {left right : Declarations}
    (same : left.Matches right) :
    left.fingerprintText = right.fingerprintText := by
  rw [← String.toList_inj, toList_fingerprintText, toList_fingerprintText, rows, rows,
    same.globals, same.lists]

/-- Legible declarations are identified by their text. -/
theorem Legible.fingerprintText_eq_iff
    {left right : Declarations}
    (leftLegible : left.Legible)
    (rightLegible : right.Legible) :
    left.fingerprintText = right.fingerprintText ↔ left.Matches right := by
  constructor
  · intro same
    rw [← String.toList_inj, toList_fingerprintText, toList_fingerprintText] at same
    exact leftLegible.matches_of_rows rightLegible
      (flatMap_ended_inj leftLegible.rows_unbroken rightLegible.rows_unbroken same)
  · exact Matches.fingerprintText_eq

end Declarations

/-! ## Confused declarations -/

/-- The variable that is written like two. -/
def Declaration.joined (first second : Declaration) : Declaration where
  name := first.name ++ ":" ++ first.kind.name ++ "\n" ++ "var " ++ second.name
  initial := second.initial

/-- The name of the joined variable holds the line of the first one. -/
theorem Declaration.text_joined
    (first second : Declaration) :
    (first.joined second).text = first.text ++ second.text := by
  simp only [Declaration.text, Declaration.joined, Declaration.kind, String.append_assoc]

namespace Declarations

/-- All variables are written like a single one. -/
theorem exists_joined_text
    {globals : List Declaration}
    (declared : globals ≠ []) :
    ∃ joined : Declaration,
      joined.text = String.join (globals.map Declaration.text) := by
  induction globals with
  | nil =>
      exact absurd rfl declared
  | cons first others inductionHypothesis =>
      by_cases last : others = []
      · exact ⟨first, by simp [last]⟩
      · obtain ⟨joined, same⟩ := inductionHypothesis last
        exact ⟨first.joined joined, by rw [Declaration.text_joined, same]; simp⟩

/-- Declarations of several variables are confused with declarations of a single one. -/
theorem exists_confused
    {declarations : Declarations}
    (several : 2 ≤ declarations.globals.length) :
    ∃ joined : Declaration,
      declarations.fingerprintText =
          (⟨[joined], declarations.lists⟩ : Declarations).fingerprintText ∧
        ¬declarations.Matches ⟨[joined], declarations.lists⟩ := by
  have declared : declarations.globals ≠ [] :=
    List.ne_nil_of_length_pos (by omega)
  obtain ⟨joined, same⟩ := exists_joined_text declared
  refine ⟨joined, by simp [fingerprintText, same], fun alike => ?_⟩
  have sizes := congrArg List.length alike.globals
  simp only [List.length_map, List.length_singleton] at sizes
  omega

end Declarations

/-! ## Stores and snapshots -/

/-- A story accepts the stores of declarations with its fingerprint. -/
theorem Story.bindStore_eq_ok_iff
    (story : Story)
    (store : Store) :
    story.bindStore (some store) = .ok store ↔
      story.declarations.fingerprint = store.declarations.fingerprint := by
  simp only [bindStore, Declarations.sameStructure, beq_iff_eq]
  split
  next same =>
      simp [same]
  next different =>
      simp [refuseMismatch, Ne.symm different]

/-- A story accepts the snapshots with its fingerprint. -/
theorem Snapshot.checkStory_eq_ok_iff
    (snapshot : Snapshot)
    (story : Story) :
    snapshot.checkStory story = .ok () ↔
      story.declarations.fingerprint = snapshot.fingerprint := by
  simp only [checkStory]
  split
  next same =>
      simp [same]
  next different =>
      simp [refuseMismatch, Ne.symm different]

namespace Declarations

/--
If the digest keeps their texts apart, legible declarations are identified by their
fingerprint: a story accepts exactly the stores and the snapshots of declarations that
match its own.  Names that are not legible make it accept others: whatever variables a
story declares, several of them are written like a single one, and the story accepts the
stores and the snapshots of that one.
-/
theorem fingerprint_identifies_legible
    {left right : Declarations}
    (leftLegible : left.Legible)
    (rightLegible : right.Legible)
    (apart :
      left.fingerprint = right.fingerprint → left.fingerprintText = right.fingerprintText) :
    (left.fingerprintText = right.fingerprintText ↔ left.Matches right) ∧
      (∀ (story : Story) (store : Store),
        story.declarations = left →
          store.declarations = right →
            (story.bindStore (some store) = .ok store ↔ left.Matches right)) ∧
      (∀ (story : Story) (snapshot : Snapshot),
        story.declarations = left →
          snapshot.fingerprint = right.fingerprint →
            (snapshot.checkStory story = .ok () ↔ left.Matches right)) ∧
      (2 ≤ left.globals.length →
        ∃ joined : Declaration,
          ¬left.Matches ⟨[joined], left.lists⟩ ∧
            (∀ (story : Story) (store : Store),
              story.declarations = left →
                store.declarations = ⟨[joined], left.lists⟩ →
                  story.bindStore (some store) = .ok store) ∧
            ∀ (story : Story) (snapshot : Snapshot),
              story.declarations = left →
                snapshot.fingerprint = (⟨[joined], left.lists⟩ : Declarations).fingerprint →
                  snapshot.checkStory story = .ok ()) := by
  have digested
      {left right : Declarations}
      (same : left.fingerprintText = right.fingerprintText) :
      left.fingerprint = right.fingerprint :=
    congrArg (Digest.compute ∘ Text.octets) same
  have identified : left.fingerprint = right.fingerprint ↔ left.Matches right :=
    ⟨fun same => (leftLegible.fingerprintText_eq_iff rightLegible).mp (apart same),
      fun alike => digested alike.fingerprintText_eq⟩
  refine ⟨leftLegible.fingerprintText_eq_iff rightLegible, ?_, ?_, fun several => ?_⟩
  · rintro story store rfl rfl
    rw [Story.bindStore_eq_ok_iff, identified]
  · rintro story snapshot rfl taken
    rw [Snapshot.checkStory_eq_ok_iff, taken, identified]
  · obtain ⟨joined, same, different⟩ := exists_confused several
    refine ⟨joined, different, ?_, ?_⟩
    · rintro story store rfl own
      rw [Story.bindStore_eq_ok_iff, own, digested same]
    · rintro story snapshot rfl taken
      rw [Snapshot.checkStory_eq_ok_iff, taken, digested same]

/-- A purse, the news and the lamps. -/
def purse : Declarations where
  globals := [⟨"coins", .int 3⟩, ⟨"news", .str ""⟩]
  lists := ⟨#[⟨"lamps", #[("lit", 1), ("out", 2)]⟩]⟩

/-- The same with the variables in the other order. -/
def gazette : Declarations where
  globals := [⟨"news", .str ""⟩, ⟨"coins", .int 3⟩]
  lists := purse.lists

/-- The fingerprint tells the order of variables. -/
theorem fingerprint_identifies_legible_purse :
    purse.Legible ∧ gazette.Legible ∧ purse.fingerprint ≠ gazette.fingerprint ∧
      ¬purse.Matches gazette ∧
      ∀ (story : Story) (store : Store),
        story.declarations = purse →
          store.declarations = gazette → story.bindStore (some store) ≠ .ok store := by
  have listed : ∀ list ∈ purse.lists.lists.toList, list.Legible := by
    intro list member
    rw [List.mem_singleton.mp member]
    exact ⟨by decide, by decide, by decide⟩
  have purseLegible : purse.Legible := ⟨by decide, listed⟩
  have gazetteLegible : gazette.Legible := ⟨by decide, listed⟩
  have different : purse.fingerprint ≠ gazette.fingerprint := by
    decide +kernel
  have unequal : ¬purse.Matches gazette := fun alike =>
    absurd alike.globals (by decide)
  refine ⟨purseLegible, gazetteLegible, different, unequal, ?_⟩
  intro story store ownStory ownStore accepted
  exact unequal
    (((fingerprint_identifies_legible purseLegible gazetteLegible
      (fun same => absurd same different)).2.1 story store ownStory ownStore).mp accepted)

/-- A list with a flag is written like one without, whose name holds the flag. -/
example :
    (⟨"lamps", #[("lit", 1)]⟩ : FlagList).text = (⟨"lamps lit=1", #[]⟩ : FlagList).text := by
  decide

end Declarations

end Fabula
