import Fabula.Flow.Execute
import Fabula.Store.World

namespace Fabula

/-!
# Runners

A runner is a flow with what went wrong on the way: the failures of host functions
that were isolated, and the error that stopped the story, if there is one.
-/

/-- What can be done with a runner. -/
inductive Status where
  /-- There is nothing to read and nothing to choose. -/
  | idle
  /-- There is more to read. -/
  | hasOutput
  /-- There is a choice to make. -/
  | hasChoices
  /-- An error has stopped the story. -/
  | error
  deriving Repr, DecidableEq

def Status.name : Status → String
  | .idle => "Idle"
  | .hasOutput => "HasOutput"
  | .hasChoices => "HasChoices"
  | .error => "Error"

/-- A flow with what went wrong on the way. -/
structure Runner where
  flow : Flow
  /-- The failures of host functions that have not been asked for yet, oldest first. -/
  reports : List Error
  /-- The error that stopped the story. -/
  failure : Option Error
  deriving Repr, DecidableEq

namespace Runner

/-- A runner that goes on with a flow. -/
def ofFlow (flow : Flow) : Runner :=
  ⟨flow, [], none⟩

def start (story : Story) (config : Config) : Runner :=
  ofFlow (.start story config.initialSeed)

/-- Whether there is more to read. -/
def canContinue (runner : Runner) : Bool :=
  runner.failure.isNone && runner.flow.ip.isSome

/-- Whether there is a choice to make. -/
def hasChoices (runner : Runner) : Bool :=
  runner.failure.isNone && runner.flow.ip.isNone && !runner.flow.choices.isEmpty

/-- The choices that can be made. -/
def choices (runner : Runner) : List Choice :=
  if runner.hasChoices then runner.flow.choices else []

/-- What can be done with a runner. -/
def status (runner : Runner) : Status :=
  if runner.failure.isSome then .error
  else if runner.canContinue then .hasOutput
  else if runner.hasChoices then .hasChoices
  else .idle

/-- How often the container at a path was entered. -/
def visitCount? (runner : Runner) (story : Story) (path : String) : Option UInt32 :=
  (story.findPath? path).bind (fun id => runner.flow.visits[id]?)

/-- The reports so far, which are then forgotten. -/
def takeReports (runner : Runner) : List Error × Runner :=
  (runner.reports, { runner with reports := [] })

/-- A runner that an error has stopped cannot be used. -/
def ensureUsable (runner : Runner) : Except Error Unit :=
  match runner.failure with
  | some error => .error (.invalidState (.stopped error.message))
  | none => .ok ()

def inspect (runner : Runner) : String :=
  s!"Runner \x7b ip: {Value.inspectOption runner.flow.ip}, status: {runner.status.name}, " ++
    s!"choices: {runner.flow.choices.length}, .. \x7d"

end Runner

/-- A runner at work in the world. -/
structure Play (σ : Type) extends Runner where
  world : World σ

end Fabula
