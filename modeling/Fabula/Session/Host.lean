import Fabula.Session.Stage

namespace Fabula.Session

/-!
# The host of a session

Host functions may themselves run stories that call host functions.  The host of
each level serves the level above it, and the lowest level refuses.
-/

/-- The number of moves that a runner may make for a line. -/
def allowance : Nat := 1000000000000

/-- The number of levels of host functions. -/
def levels : Nat := 1000

/-- Pass an error on as the failure of a host function. -/
def passOn {α : Type} (result : Except Error α) : ExceptT Failure (StateM Session) α :=
  match result with
  | .ok a => pure a
  | .error error => throw error.toFailure

/-- The number of the store with a name. -/
def storeId (name : String) : ExceptT Failure (StateM Session) Nat := do
  match (← get).host.storeNames.get? name with
  | some id => pure id
  | none => throw (.ofMessage s!"no store '{name}'")

/-- Give a variable of a store the value of a literal over the lists of the store. -/
def assign (host : Host Stage) (id : Nat) (name : String) (literal : Literal) :
    StateM Session (Except Error Unit) :=
  withStore id do
    match literal.resolve (← get).store.declarations.lists with
    | .error error => pure (.error error)
    | .ok value => World.assign host name value

/-- Remove an observer of a store by its name, and say whether there was one. -/
def unobserve (id : Nat) (observer : String) : StateM Session Bool := do
  match (← get).host.observers.get? observer with
  | some number => withStore id (World.unobserve number)
  | none => pure false

/-- Read a line from a runner that is not busy. -/
def readLine (host : Host Stage) (name : String) :
    ExceptT Failure (StateM Session) (Except Error String) := do
  let stage := (← get).host
  if stage.busy.contains name then
    throw (.ofMessage "runner is busy")
  else
    match stage.actors.get? name with
    | none => throw (.ofMessage s!"no runner '{name}'")
    | some actor =>
        (withActor name actor (Play.getline actor.setup host allowance) :
          StateM Session (Except Error String))

/-- Carry out an action at the call with the given number. -/
def perform (host : Host Stage) (calls : Nat) : Action → ExceptT Failure (StateM Session) Unit
  | .fail message => throw (.ofMessage message)
  | .failFrom count message =>
      if count ≤ calls then throw (.ofMessage message) else pure ()
  | .set store name literal => do
      let id ← storeId store
      passOn (← (assign host id name literal : StateM Session (Except Error Unit)))
  | .get store name => do
      let id ← storeId store
      let value ← passOn (((← get).storeAt id).get name)
      note (.got name value)
  | .getline runner => do
      let result ← readLine host runner
      note (.lineRead runner result)
      let _ ← passOn result
  | .unobserve store observer => do
      let id ← storeId store
      let removed ← (unobserve id observer : StateM Session Bool)
      note (.unobserved observer removed)

/-- Count a call of a script, and give the script. -/
def countCall (id : CallbackId) : ExceptT Failure (StateM Session) Script := do
  match (← get).host.scripts[id]? with
  | none => throw (.ofMessage s!"no function {id}")
  | some script =>
      let called := { script with calls := script.calls + 1 }
      onStage fun stage => { stage with scripts := stage.scripts.setIfInBounds id called }
      pure called

/-- Call a script as a function. -/
def callScript (host : Host Stage) (id : CallbackId) (arguments : List Value) :
    ExceptT Failure (StateM Session) Value := do
  let script ← countCall id
  match script.role with
  | .observer _ => pure .void
  | .external name reply => do
      note (.called name arguments)
      (script.dueActions none).forM (perform host script.calls)
      pure (reply.answer script.calls arguments)

def tellScript (host : Host Stage) (id : CallbackId) (notice : Notice) :
    ExceptT Failure (StateM Session) Unit := do
  let script ← countCall id
  match script.role with
  | .external .. => pure ()
  | .observer name => do
      note (.observed name notice)
      (script.dueActions notice.new?).forM (perform host script.calls)

/-- The host with the given number of levels below it. -/
def hostAt : Nat → Host Stage
  | 0 =>
      { call := fun _ _ session => (.error (.ofMessage "too many nested calls"), session)
        notify := fun _ _ session => (.error (.ofMessage "too many nested calls"), session) }
  | level + 1 =>
      { call := fun id arguments => (callScript (hostAt level) id arguments).run
        notify := fun id notice => (tellScript (hostAt level) id notice).run }

def scriptedHost : Host Stage :=
  hostAt levels

end Fabula.Session
