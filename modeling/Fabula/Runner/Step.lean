import Fabula.Runner.Basic

namespace Fabula.Play

/-!
# Steps

A step carries out one instruction and answers its request.  A failure of a host
function does not fail the step: it is kept as a report, and a call that failed
gives no value.
-/

variable {σ : Type}

/-- Log the events that the configuration asks for. -/
def emit (setup : Setup) (events : List Event) (play : Play σ) : Play σ :=
  let records := events.filterMap setup.config.trace.recordOf?
  { play with world := { play.world with log := play.world.log ++ records } }

def record (record : LogRecord) (play : Play σ) : Play σ :=
  { play with world := play.world.record record }

/-- Keep a failure of a host function as a report. -/
def report (error : Error) (play : Play σ) : Play σ :=
  { play with reports := play.reports ++ [error] }

def push (value : Value) (play : Play σ) : Play σ :=
  { play with flow := play.flow.push value }

/-- Make the change of an instruction, apart from its request. -/
def carry (setup : Setup) (change : Change) (play : Play σ) : Play σ :=
  Play.emit setup change.events { play with flow := change.flow }

/-- Give a global variable a value; an observer that fails is reported. -/
def assign (host : Host σ) (name : String) (value : Value) (play : Play σ) :
    Except Error Unit × Play σ :=
  let written := play.world.assign host name value
  let after := { play with world := written.2 }
  match written.1 with
  | .ok () => (.ok (), after)
  | .error error =>
      if error.isCallback then (.ok (), after.report error) else (.error error, after)

/-- The result of a call; a function that gives nothing back has no value. -/
def resultOf (binding : Binding) (result : Except Failure Value) : Except Failure Value :=
  if binding.returns then result else result.map (fun _ => .void)

/-- The record of a host function that failed. -/
def externalFailed (name : String) (failure : Failure) : LogRecord :=
  ⟨.warn, "inkvm::runtime", s!"external '{name}' failed: {failure.chain}"⟩

/-- Call a function of the host and push its result. -/
def callHost
    (setup : Setup)
    (host : Host σ)
    (name : String)
    (binding : Binding)
    (arguments : List Value)
    (play : Play σ) :
    Except Error Unit × Play σ :=
  let called := host.call binding.callback arguments play.world
  let result := resultOf binding called.1
  let after :=
    Play.emit setup [.externalCalled name arguments.length result]
      { play with world := called.2 }
  match result with
  | .ok value =>
      if binding.returns && value.isVoid then
        (.error (.externalReturnMissing name), after)
      else
        (.ok (), after.push value)
  | .error failure =>
      (.ok (),
        ((after.record (externalFailed name failure)).report (.callback name failure)).push .void)

/-- Answer the request of an instruction. -/
def answer (setup : Setup) (host : Host σ) (request : Option Request) (play : Play σ) :
    Except Error Unit × Play σ :=
  match request with
  | none => (.ok (), play)
  | some (.write name value) => play.assign host name value
  | some (.call name binding arguments) => play.callHost setup host name binding arguments

/-- Carry out the instruction at an address; after the last one the flow is done. -/
def step (setup : Setup) (host : Host σ) (address : Nat) (play : Play σ) :
    Except Error Unit × Play σ :=
  match setup.story.instruction? address with
  | none => (.ok (), play.carry setup (play.flow.done setup.story))
  | some instruction =>
      let entered := { play with flow := { play.flow with ip := some (address + 1) } }
      match entered.flow.execute setup play.world.store instruction address with
      | .error error => (.error error, entered)
      | .ok change => (entered.carry setup change).answer setup host change.request

def select (setup : Setup) (choice : Choice) (play : Play σ) : Play σ :=
  Play.emit setup [.jump choice.target]
    { play with flow := play.flow.select setup.story choice }

/-- Take the fallback, if the flow has stopped and offers nothing. -/
def takeFallback? (setup : Setup) (play : Play σ) : Option (Play σ) :=
  play.flow.fallback?.map fun choice =>
    (play.emit setup [.fallbackChosen choice.target]).select setup choice

end Fabula.Play
