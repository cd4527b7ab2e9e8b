import Fabula.CallStack
import Fabula.Instruction
import Fabula.Text.Utf8
import Fabula.Value.Arithmetic

namespace Fabula

/-!
# Errors

Every failure is a value that names its cause.  The wording of a cause is given
by its `message`; nothing else depends on that wording.
-/

/-- Why octets are no story, or calls to the assembler do not make one. -/
inductive FormatFault where
  | missingMagic
  | versionZero
  | unexpectedEnd (offset : Nat)
  | tableTooLong (count remaining : Nat)
  | invalidText (fault : Text.Utf8Fault)
  | unknownValueKind (byte : UInt8)
  | unknownCommand (byte : UInt8) (index : Nat)
  | trailingBytes (count : Nat)
  | stringOutOfRange (index : UInt32)
  | tooManyLists
  | unknownLiteralFlag
  | literalOutOfRange (index : UInt32)
  | divertOutOfRange (target : UInt32)
  | duplicateGlobal (name : String)
  | inconsistentMarkers (container : Nat)
  | payloadOutOfRange (address : Nat) (command : Command) (payload : UInt32)
  | unknownFlag (path : String)
  | endWithoutContainer
  | unclosedContainer (container : Nat)
  | unplacedLabel (label : Nat)
  | unknownPath (path : String)
  deriving Repr, DecidableEq

/-- The wording of a format fault. -/
def FormatFault.message : FormatFault → String
  | .missingMagic => "missing INKB magic"
  | .versionZero => "format version 0 is not valid"
  | .unexpectedEnd offset => s!"unexpected end of data at offset {offset}"
  | .tableTooLong count remaining =>
      s!"table of {count} entries exceeds remaining {remaining} bytes"
  | .invalidText fault => "invalid utf-8 in string table: " ++ fault.message
  | .unknownValueKind byte => s!"unknown value kind {byte.toNat}"
  | .unknownCommand byte index => s!"unknown command {byte.toNat} at instruction {index}"
  | .trailingBytes count => s!"{count} trailing bytes after instruction table"
  | .stringOutOfRange index => s!"string index {index.toNat} out of range"
  | .tooManyLists => "too many list definitions"
  | .unknownLiteralFlag => "list literal references unknown flag"
  | .literalOutOfRange index => s!"list literal {index.toNat} out of range"
  | .divertOutOfRange target => s!"divert target {target.toNat} out of range"
  | .duplicateGlobal name => s!"global '{name}' declared twice"
  | .inconsistentMarkers container => s!"container {container} has inconsistent markers"
  | .payloadOutOfRange address command payload =>
      s!"instruction {address} ({command.name}) has out of range payload {payload.toNat}"
  | .unknownFlag path => s!"unknown list flag '{path}'"
  | .endWithoutContainer => "end_container without open container"
  | .unclosedContainer container => s!"container {container} is never closed"
  | .unplacedLabel label => s!"label {label} is never placed"
  | .unknownPath path => s!"unknown path '{path}'"

/-- Why an instruction fails. -/
inductive RuntimeFault where
  | stackUnderflow
  | nothingToDuplicate
  | seedNotNumeric
  | textNotStarted
  | tagNotStarted
  | returnWithoutCall (kind : FrameKind)
  | containerNotEntered (container : UInt32)
  | notADivert (name : String) (kind : Kind)
  | missingArguments (name : String)
  | notAList (kind : Kind)
  | invalidRangeBound (kind : Kind)
  | needsDivert (command : Command) (kind : Kind)
  | negativeVisits (visits : Int32)
  | operator (fault : OperatorFault)
  deriving Repr, DecidableEq

/-- The wording of a runtime fault. -/
def RuntimeFault.message : RuntimeFault → String
  | .stackUnderflow => "evaluation stack underflow"
  | .nothingToDuplicate => "duplicate on empty stack"
  | .seedNotNumeric => "seed must be numeric"
  | .textNotStarted => "end of string without start"
  | .tagNotStarted => "end of tag without start"
  | .returnWithoutCall kind => s!"{kind.name} return without call"
  | .containerNotEntered container => s!"left container {container.toNat} never entered"
  | .notADivert name kind =>
      s!"variable '{name}' holds {kind.name} instead of a divert"
  | .missingArguments name => s!"not enough arguments for '{name}'"
  | .notAList kind => s!"expected a list, found {kind.name}"
  | .invalidRangeBound kind => s!"invalid range bound {kind.name}"
  | .needsDivert command kind =>
      s!"{command.name} needs a divert target, found {kind.name}"
  | .negativeVisits visits => s!"shuffle sequence visited {visits.toInt} times"
  | .operator fault => fault.message

/-- Why an operation is refused in the present state. -/
inductive StateFault where
  /-- An earlier error, given by its wording, has stopped the runner. -/
  | stopped (text : String)
  | noContent
  | unknownPath (path : String)
  | noRunners
  | storesDiffer
  | noSavedGlobals
  | noSavedRunner (count index : Nat)
  | invalidConfig
  deriving Repr, DecidableEq

/-- The wording of a state fault. -/
def StateFault.message : StateFault → String
  | .stopped text => "runner stopped after an error: " ++ text
  | .noContent => "no content to continue"
  | .unknownPath path => s!"unknown path '{path}'"
  | .noRunners => "no runners to capture"
  | .storesDiffer => "runners captured with globals must share one store"
  | .noSavedGlobals => "snapshot holds no globals"
  | .noSavedRunner count index => s!"snapshot holds {count} runner(s), requested {index}"
  | .invalidConfig => "invalid runner config"

/-- Why octets are no snapshot. -/
inductive CorruptionFault where
  | truncatedHeader
  | badMagic
  | unknownKind (byte : UInt8)
  | bodyLength (actual stated : Nat)
  | bodyTooLarge
  | invalidBody
  /-- The body does not have the content of its kind, given by the kind's name. -/
  | bodyMismatch (kind : String)
  | noRootFrame
  | unknownContainer (container : UInt32)
  | recordedKind (name : String) (recorded actual : Kind)
  deriving Repr, DecidableEq

/-- The wording of a corruption fault. -/
def CorruptionFault.message : CorruptionFault → String
  | .truncatedHeader => "truncated header"
  | .badMagic => "bad magic"
  | .unknownKind byte => s!"unknown snapshot kind {byte.toNat}"
  | .bodyLength actual stated => s!"body is {actual} bytes, header says {stated}"
  | .bodyTooLarge => "snapshot body too large"
  | .invalidBody => "invalid body"
  | .bodyMismatch kind => s!"body does not match kind {kind}"
  | .noRootFrame => "call stack has no root frame"
  | .unknownContainer container => s!"unknown container {container.toNat}"
  | .recordedKind name recorded actual =>
      s!"variable '{name}' recorded as {recorded.name} but holds {actual.name}"

/-- The role of an address in a saved state. -/
inductive AddressRole where
  | instructionPointer
  | returnAddress
  | choiceTarget
  | resumeAddress
  deriving Repr, DecidableEq

def AddressRole.message : AddressRole → String
  | .instructionPointer => "instruction pointer"
  | .returnAddress => "return address"
  | .choiceTarget => "choice target"
  | .resumeAddress => "thread resume address"

/-- Why a snapshot, a store and a story do not go together. -/
inductive MismatchFault where
  | otherStory
  | foreignStore
  | differentStories
  | undeclaredVariable (name : String)
  | divertOutside (target : UInt32)
  | undeclaredReference (name : String)
  | unknownList (name : String)
  | unknownFlag (list flag : String)
  | addressOutside (role : AddressRole) (address : Nat)
  | containerCount (saved present : Nat)
  deriving Repr, DecidableEq

/-- The wording of a mismatch fault. -/
def MismatchFault.message : MismatchFault → String
  | .otherStory => "snapshot was taken from a structurally different story"
  | .foreignStore => "globals store belongs to a structurally different story"
  | .differentStories => "runners belong to different stories"
  | .undeclaredVariable name => s!"variable '{name}' is not declared by the story"
  | .divertOutside target => s!"divert target {target.toNat} is outside the story"
  | .undeclaredReference name => s!"reference to undeclared global '{name}'"
  | .unknownList name => s!"unknown list '{name}'"
  | .unknownFlag list flag => s!"unknown flag '{list}.{flag}'"
  | .addressOutside role address => s!"{role.message} {address} is outside the story"
  | .containerCount saved present =>
      s!"snapshot tracks {saved} containers, story has {present}"

/-- Why a function of the host failed: a message and the messages of its causes. -/
structure Failure where
  message : String
  causes : List String
  deriving Repr, DecidableEq

namespace Failure

def ofMessage (message : String) : Failure :=
  ⟨message, []⟩

/-- The message followed by its causes on one line. -/
def chain (failure : Failure) : String :=
  ": ".intercalate (failure.message :: failure.causes)

/-- The lines of a text with blanks before all lines but the first. -/
def indent (blanks : String) (text : String) : String :=
  ("\n" ++ blanks).intercalate ((text.toList.splitOn '\n').map String.ofList)

/-- The number of a cause, right-aligned in five columns. -/
def numbered (entry : String × Nat) : String :=
  let digits := toString entry.2
  String.ofList (List.replicate (5 - digits.length) ' ') ++ digits ++ ": " ++
    indent "       " entry.1

/-- The message and its causes on separate lines. -/
def report (failure : Failure) : String :=
  match failure.causes with
  | [] => failure.message
  | [cause] => failure.message ++ "\n\nCaused by:\n    " ++ indent "    " cause
  | causes =>
      failure.message ++ "\n\nCaused by:" ++
        String.join (causes.zipIdx.map (fun entry => "\n" ++ numbered entry))

end Failure

/-- Every failure that is reported to the host. -/
inductive Error where
  | unknownVariable (name : String)
  | typeMismatch (name : String) (expected actual : Kind)
  | invalidChoice (index available : Nat)
  | invalidState (fault : StateFault)
  | unboundExternal (name : String)
  | externalReturnMissing (name : String)
  | externalArity (name : String) (expected actual : Nat)
  | unknownFlag (flag : String)
  | invalidStory (fault : FormatFault)
  | unsupportedVersion (found supported : UInt32)
  | snapshotCorrupt (fault : CorruptionFault)
  | snapshotVersion (found supported : UInt32)
  | snapshotMismatch (fault : MismatchFault)
  | runtime (address : Nat) (fault : RuntimeFault)
  /-- A function of the host failed; the story goes on. -/
  | callback (name : String) (failure : Failure)
  /-- The allowance of steps was used up before the story came to a stop. -/
  | outOfSteps
  deriving Repr, DecidableEq

namespace Error

def message : Error → String
  | .unknownVariable name => s!"Variable '{name}' is not declared by the story"
  | .typeMismatch name expected actual =>
      s!"Type mismatch for variable '{name}': expected {expected.name}, got {actual.name}"
  | .invalidChoice index available =>
      s!"Invalid choice index {index}, {available} choice(s) available"
  | .invalidState fault => "Invalid state: " ++ fault.message
  | .unboundExternal name => s!"External function '{name}' is not bound"
  | .externalReturnMissing name => s!"External function '{name}' returned no value"
  | .externalArity name expected actual =>
      s!"External function '{name}' expects {expected} argument(s), called with {actual}"
  | .unknownFlag flag => s!"Unknown list flag '{flag}'"
  | .invalidStory fault => "Invalid story format: " ++ fault.message
  | .unsupportedVersion found supported =>
      s!"Unsupported story format version {found.toNat}, newest supported is {supported.toNat}"
  | .snapshotCorrupt fault => "Snapshot is corrupt: " ++ fault.message
  | .snapshotVersion found supported =>
      s!"Unsupported snapshot version {found.toNat}, expected {supported.toNat}"
  | .snapshotMismatch fault => "Snapshot does not match story: " ++ fault.message
  | .runtime address fault => s!"Runtime error at instruction {address}: " ++ fault.message
  | .callback name failure => s!"Callback '{name}' failed: {failure.message}"
  | .outOfSteps => "The story did not stop within its steps"

/-- Failures of the host that do not stop a story. -/
def isCallback : Error → Bool
  | .callback .. => true
  | _ => false

/-- The failure of a host function that passes an error on. -/
def toFailure (error : Error) : Failure :=
  match error with
  | .callback _ failure => ⟨error.message, failure.message :: failure.causes⟩
  | _ => .ofMessage error.message

end Error

end Fabula
