import Fabula.Text.Blank

namespace Fabula

/-!
# Output

Output is gathered as pieces.  Glue and the end of a function remove the line
ends and blank texts before them, and markers fence off texts that are still
being built.  Rendering drops line ends that follow glue, keeps the words of each
line with single spaces between them and leaves blank lines out.
-/

/-- One piece of output. -/
inductive Piece where
  | text (s : String)
  | newline
  | glue
  /-- The start of a text that goes to the stack. -/
  | stringMarker
  /-- The start of a tag. -/
  | tagMarker
  | functionStart
  | functionEnd
  deriving Repr, DecidableEq

namespace Piece

def isBlank : Piece → Bool
  | .newline => true
  | .text s => Text.isBlankText s
  | _ => false

def isMarker : Piece → Bool
  | .stringMarker | .tagMarker => true
  | _ => false

/-- Texts with a character that is not blank. -/
def isVisible : Piece → Bool
  | .text s => !Text.isBlankText s
  | _ => false

end Piece

/-- The pieces around the last one that passes a test. -/
def splitLast? {α : Type} (test : α → Bool) : List α → Option (List α × List α)
  | [] => none
  | first :: rest =>
      match splitLast? test rest with
      | some (before, after) => some (first :: before, after)
      | none => if test first then some ([], rest) else none

/-- What stands before the last item that passes a test is the start of the whole. -/
theorem prefix_of_splitLast?
    {α : Type}
    {test : α → Bool}
    {items before after : List α}
    (found : splitLast? test items = some (before, after)) :
    before <+: items := by
  induction items generalizing before with
  | nil =>
      cases found
  | cons first rest inductionHypothesis =>
      simp only [splitLast?] at found
      cases later : splitLast? test rest with
      | none =>
          simp only [later, Option.ite_none_right_eq_some, Option.some.injEq,
            Prod.mk.injEq] at found
          rw [← found.2.1]
          exact List.nil_prefix
      | some parts =>
          simp only [later, Option.some.injEq, Prod.mk.injEq] at found
          obtain ⟨rfl, rfl⟩ := found
          exact (List.prefix_cons_inj first).mpr (inductionHypothesis later)

/-- The pieces gathered so far, the oldest first. -/
structure Output where
  pieces : List Piece
  deriving Repr, DecidableEq

namespace Output

def empty : Output :=
  ⟨[]⟩

def size (output : Output) : Nat :=
  output.pieces.length

/-- Add a piece at the end. -/
def push (output : Output) (piece : Piece) : Output :=
  ⟨output.pieces ++ [piece]⟩

/-- Add a text that is not empty. -/
def appendText (output : Output) (text : String) : Output :=
  if text = "" then output else output.push (.text text)

/--
Add a line end.  At the start, after another line end, after the start of a
function and after a marker there is no line to end.
-/
def appendNewline (output : Output) : Output :=
  match output.pieces.getLast? with
  | none | some .newline | some .functionStart | some .stringMarker | some .tagMarker => output
  | some _ => output.push .newline

/-- Remove the line ends and blank texts at the end. -/
def trimBlanks (output : Output) : Output :=
  ⟨(output.pieces.reverse.dropWhile Piece.isBlank).reverse⟩

/-- Add glue in place of the line ends and blank texts at the end. -/
def appendGlue (output : Output) : Output :=
  output.trimBlanks.push .glue

/-- Mark the start of a function. -/
def appendFunctionStart (output : Output) : Output :=
  output.push .functionStart

/-- Mark the end of a function in place of the line ends and blank texts at the end. -/
def appendFunctionEnd (output : Output) : Output :=
  output.trimBlanks.push .functionEnd

/-- Whether a text or a tag is unfinished. -/
def hasMarker (output : Output) : Bool :=
  output.pieces.any Piece.isMarker

/-- Whether the last piece is a line end. -/
def endsWithNewline (output : Output) : Bool :=
  output.pieces.getLast? == some .newline

/-- Whether the piece at a position is a line end. -/
def newlineAt (output : Output) (position : Nat) : Bool :=
  output.pieces[position]? == some .newline

/-- Whether a visible text stands at or after a position. -/
def hasTextSince (output : Output) (position : Nat) : Bool :=
  (output.pieces.drop position).any Piece.isVisible

end Output

/-- The characters of the pieces; a line end after glue is left out until the next text. -/
def rawText : Bool → List Piece → List Char
  | _, [] => []
  | _, .text s :: rest => s.toList ++ rawText false rest
  | glued, .newline :: rest =>
      if glued then rawText glued rest else '\n' :: rawText glued rest
  | _, .glue :: rest => rawText true rest
  | glued, .stringMarker :: rest => rawText glued rest
  | glued, .tagMarker :: rest => rawText glued rest
  | glued, .functionStart :: rest => rawText glued rest
  | glued, .functionEnd :: rest => rawText glued rest

def isSpaceOrTab (c : Char) : Bool :=
  c == ' ' || c == '\t'

/-- Whether only spaces and tabs follow the last line end. -/
def endsLine (raw : List Char) : Bool :=
  (raw.reverse.dropWhile isSpaceOrTab).head? == some '\n'

/-- The lines that are not blank, each with its words one space apart. -/
def cleanLines (raw : List Char) : List (List Char) :=
  ((raw.splitOn '\n').map Text.collapse).filter (fun line => !line.isEmpty)

/-- The clean lines, with a line end after the last one if the raw text ends its line. -/
def cleanText (raw : List Char) : List Char :=
  let text := ['\n'].intercalate (cleanLines raw)
  if endsLine raw && !text.isEmpty then text ++ ['\n'] else text

def render (pieces : List Piece) : String :=
  String.ofList (cleanText (rawText false pieces))

namespace Output

def line (output : Output) : String :=
  render output.pieces

/-- A text without the line ends at its end. -/
def dropNewlines (text : String) : String :=
  String.ofList ((text.toList.reverse.dropWhile (· == '\n')).reverse)

/--
Take away the last piece that equals a marker and all pieces after it, and
render those as one line.
-/
def closeMarker? (output : Output) (marker : Piece) : Option (String × Output) :=
  (splitLast? (· == marker) output.pieces).map fun parts =>
    (dropNewlines (render parts.2), ⟨parts.1⟩)

end Output

end Fabula
