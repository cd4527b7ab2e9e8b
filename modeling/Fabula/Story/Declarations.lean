import Fabula.Digest
import Fabula.Text.Utf8
import Fabula.Value.Basic

namespace Fabula

/-!
# Declarations

A story declares its global variables with their first values, and its lists of
flags.  Stores and snapshots belong to the declarations they were made for, which
are compared by a fingerprint: the digest of a text that lists them.
-/

/-- A global variable and its first value. -/
structure Declaration where
  name : String
  initial : Value
  deriving Repr, DecidableEq

namespace Declaration

/-- The kind that a variable is declared with. -/
def kind (declaration : Declaration) : Kind :=
  declaration.initial.kind

/-- The line of a variable in the text of declarations. -/
def text (declaration : Declaration) : String :=
  "var " ++ declaration.name ++ ":" ++ declaration.kind.name ++ "\n"

end Declaration

def flagText (flag : String × Int32) : String :=
  " " ++ flag.1 ++ "=" ++ toString flag.2.toInt

/-- The line of a list in the text of declarations. -/
def FlagList.text (list : FlagList) : String :=
  "list " ++ list.name ++ String.join (list.flags.toList.map flagText) ++ "\n"

/-- What a story declares. -/
structure Declarations where
  globals : List Declaration
  lists : Definitions
  deriving Repr, DecidableEq

namespace Declarations

/-- The names of the variables in order. -/
def names (declarations : Declarations) : List String :=
  declarations.globals.map Declaration.name

def index? (declarations : Declarations) (name : String) : Option Nat :=
  declarations.globals.findIdx? (fun declaration => declaration.name == name)

/-- The first values of the variables. -/
def initialValues (declarations : Declarations) : List Value :=
  declarations.globals.map Declaration.initial

/-- The text that lists the variables with their kinds, and the lists with their flags. -/
def fingerprintText (declarations : Declarations) : String :=
  String.join (declarations.globals.map Declaration.text) ++
    String.join (declarations.lists.lists.toList.map FlagList.text)

/-- The digest of the text of declarations. -/
def fingerprint (declarations : Declarations) : List UInt8 :=
  Digest.compute (Text.octets declarations.fingerprintText)

/-- Whether two declarations have the same fingerprint. -/
def sameStructure (left right : Declarations) : Bool :=
  left.fingerprint == right.fingerprint

end Declarations

end Fabula
