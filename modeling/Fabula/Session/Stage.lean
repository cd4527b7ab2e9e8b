import Fabula.Runner.Line
import Fabula.Session.Catalog
import Fabula.Session.Script

namespace Fabula

/-!
# Stages

A stage holds what a session works with.  Stores are held by number, because
several names and several runners may share one.  The store that is being worked
on is out of the stage and in the world; the stage knows its number.
-/

/-- A runner with what it runs on. -/
structure Actor where
  setup : Setup
  runner : Runner
  storeId : Nat

/-- What a session works with. -/
structure Stage where
  stories : Catalog Story
  stores : Array Store
  storeNames : Catalog Nat
  /-- The number of the store that is in the world. -/
  current : Option Nat
  actors : Catalog Actor
  /-- The names of the runners that are running. -/
  busy : List String
  snapshots : Catalog Snapshot
  /-- The numbers of observers in their stores. -/
  observers : Catalog Nat
  scripts : Array Script
  events : Array HostEvent

/-- A session is a stage in the world. -/
abbrev Session := World Stage

namespace Session

def noStore : Store :=
  .ofValues ⟨[], ⟨#[]⟩⟩ []

def emptyStage : Stage where
  stories := .empty
  stores := #[]
  storeNames := .empty
  current := none
  actors := .empty
  busy := []
  snapshots := .empty
  observers := .empty
  scripts := #[]
  events := #[]

/-- A session before anything has happened. -/
def start : Session :=
  ⟨noStore, #[], emptyStage⟩

def onStage (change : Stage → Stage) : StateM Session Unit :=
  modify fun session => { session with host := change session.host }

/-- Note something that the host has seen. -/
def note (event : HostEvent) : StateM Session Unit :=
  onStage fun stage => { stage with events := stage.events.push event }

/-! ## Stores -/

/-- Put the store that is being worked on back on the stage. -/
def park (session : Session) : Session :=
  match session.host.current with
  | none => session
  | some id =>
      { session with
        host :=
          { session.host with
            stores := session.host.stores.setIfInBounds id session.store
            current := none } }

/-- Take a store from the stage to work on it, if a number is given. -/
def take (id : Option Nat) (session : Session) : Session :=
  match id with
  | none => { session with store := noStore }
  | some id =>
      { session with
        store := session.host.stores.getD id noStore
        host := { session.host with current := some id } }

/-- Work on a store, then go back to the one before. -/
def withStore {α : Type} (id : Nat) (work : StateM Session α) : StateM Session α :=
  fun session =>
    if session.host.current = some id then
      work session
    else
      let home := session.host.current
      let done := work ((park session).take (some id))
      (done.1, (park done.2).take home)

/-- A store as it is now. -/
def storeAt (session : Session) (id : Nat) : Store :=
  if session.host.current = some id then
    session.store
  else
    session.host.stores.getD id noStore

/-- Add a store, and give its number. -/
def addStore (store : Store) : StateM Session Nat := do
  let stage := (← get).host
  onStage fun stage => { stage with stores := stage.stores.push store }
  pure stage.stores.size

/-! ## Runners -/

/-- Let a runner work; meanwhile it is busy. -/
def withActor {α : Type} (name : String) (actor : Actor) (work : Play Stage → α × Play Stage) :
    StateM Session α := do
  onStage fun stage => { stage with busy := name :: stage.busy }
  let (result, runner) ←
    withStore actor.storeId fun session =>
      let done := work ⟨actor.runner, session⟩
      ((done.1, done.2.toRunner), done.2.world)
  onStage fun stage =>
    { stage with
      actors := stage.actors.put name { actor with runner := runner }
      busy := stage.busy.erase name }
  pure result

end Session

end Fabula
