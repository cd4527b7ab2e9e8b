namespace Fabula

/-!
# Tags

A tag belongs to the line on which it is evaluated.  Before any content it is
also a tag of the whole story, and at the top of a knot also a tag of the knot.
Tags evaluated inside the text of a choice wait for the choice.
-/

/-- Where the next tag lands besides the line. -/
inductive TagPhase where
  /-- Before any content and any knot. -/
  | global
  /-- At the top of a knot. -/
  | knotHeader
  /-- Within content. -/
  | line
  deriving Repr, DecidableEq

/-- The tags of each scope, in the order in which they were evaluated. -/
structure Tags where
  phase : TagPhase
  global : List String
  knot : List String
  line : List String
  /-- Tags that wait for the next choice. -/
  pendingChoice : List String
  deriving Repr, DecidableEq

namespace Tags

/-- No tags, before any content. -/
def start : Tags :=
  ⟨.global, [], [], [], []⟩

def push (tags : Tags) (tag : String) : Tags :=
  match tags.phase with
  | .global => { tags with global := tags.global ++ [tag], line := tags.line ++ [tag] }
  | .knotHeader => { tags with knot := tags.knot ++ [tag], line := tags.line ++ [tag] }
  | .line => { tags with line := tags.line ++ [tag] }

/-- Record a tag of the next choice. -/
def pushChoice (tags : Tags) (tag : String) : Tags :=
  { tags with pendingChoice := tags.pendingChoice ++ [tag] }

/-- Hand the waiting tags to a choice. -/
def takeChoice (tags : Tags) : List String × Tags :=
  (tags.pendingChoice, { tags with pendingChoice := [] })

def enterKnot (tags : Tags) : Tags :=
  { tags with knot := [], phase := .knotHeader }

def contentStarted (tags : Tags) : Tags :=
  { tags with phase := .line }

def clearLine (tags : Tags) : Tags :=
  { tags with line := [] }

/-- The tags of the story, of the knot and of the line. -/
def scopes (tags : Tags) : List (List String) :=
  [tags.global, tags.knot, tags.line]

end Tags

end Fabula
