import Fabula.Binding
import Fabula.CallStack

namespace Fabula

/-!
# Events

Whatever happens while a story runs is an event.  An event belongs to a category
and has a level, and a trace keeps the events that its configuration asks for.
-/

/-- Something that happens while a story runs. -/
inductive Event where
  | jump (target : Nat)
  | threadDone (resumeAt : Nat)
  | storyEnded
  | forked (target waiting : Nat)
  | called (kind : FrameKind) (target depth : Nat)
  | knotEntered (name : Option String)
  | assigned (name : String) (value : Value)
  | fallbackUsed (name : String)
  | externalCalled (name : String) (arguments : Nat) (result : Except Failure Value)
  | bound (name : String) (binding : Binding)
  | line (text : String)
  | chosen (index : Nat) (text : String) (target : Nat)
  | fallbackChosen (target : Nat)
  | checkpoint (ip : Option Nat)
  | rollback (ip : Option Nat)
  | unsafeCall (address : Nat)
  | lookaheadFailed (error : Error)
  | captured (runners : Nat) (globals : Bool)
  | restored (index : Nat) (ip : Option Nat)

namespace Event

def category : Event → Category
  | .jump .. | .threadDone .. | .storyEnded | .forked .. | .called .. | .knotEntered ..
  | .chosen .. | .fallbackChosen .. => .flow
  | .line .. => .output
  | .assigned .. => .variables
  | .fallbackUsed .. | .externalCalled .. | .bound .. => .externals
  | .checkpoint .. | .rollback .. | .unsafeCall .. | .lookaheadFailed .. => .lookahead
  | .captured .. | .restored .. => .snapshot

def level : Event → Level
  | .jump .. | .checkpoint .. | .rollback .. => .trace
  | .captured .. | .restored .. => .info
  | _ => .debug

/-- The text of a name that may be missing. -/
def inspectName : Option String → String
  | none => "None"
  | some name => "Some(" ++ Text.quoted name ++ ")"

/-- The text of the result of a host function. -/
def inspectResult : Except Failure Value → String
  | .ok value => "Ok(" ++ value.inspect ++ ")"
  | .error failure => "Err(" ++ failure.report ++ ")"

def message : Event → String
  | .jump target => s!"jump -> {target}"
  | .threadDone resumeAt => s!"thread done, resuming at {resumeAt}"
  | .storyEnded => "story ended"
  | .forked target waiting => s!"thread -> {target}, {waiting} waiting"
  | .called kind target depth => s!"{kind.name} call -> {target}, depth {depth}"
  | .knotEntered name => s!"enter knot {inspectName name}"
  | .assigned name value => s!"{name} = {value.text}"
  | .fallbackUsed name => s!"'{name}' unbound, using story fallback"
  | .externalCalled name arguments result =>
      s!"external '{name}'({arguments} args) -> {inspectResult result}"
  | .bound name binding => s!"bind '{name}' ({binding.inspect})"
  | .line text => s!"line {Text.quoted text}"
  | .chosen index text target => s!"choose {index} {Text.quoted text} -> {target}"
  | .fallbackChosen target => s!"taking fallback choice -> {target}"
  | .checkpoint ip => s!"checkpoint at {Value.inspectOption ip}"
  | .rollback ip => s!"rollback to {Value.inspectOption ip}"
  | .unsafeCall address => s!"unsafe external at {address}, line ends"
  | .lookaheadFailed error => s!"error during lookahead, line ends: {error.message}"
  | .captured runners globals =>
      s!"captured {runners} runner(s), globals: {Binding.inspectBool globals}"
  | .restored index ip => s!"restored runner {index} at {Value.inspectOption ip}"

end Event

/-- The record of an event, if it is kept. -/
def TraceConfig.recordOf? (config : TraceConfig) (event : Event) : Option LogRecord :=
  if config.isEnabled event.category event.level then
    some ⟨event.level, event.category.target, event.message⟩
  else
    none

end Fabula
