import Fabula.Session.Host
import Fabula.Story.Loader

namespace Fabula.Session

/-!
# Working with a session

Each operation makes something under a name or lets something work.  An operation
that fails makes nothing.
-/

/-! ## Stories and stores -/

/-- The record of a story that was loaded. -/
def storyLoaded (story : Story) : LogRecord :=
  ⟨.debug, "inkvm::story",
    s!"loaded story: {story.instructionCount} instructions, " ++
      s!"{story.containerCount} containers, {story.declarations.globals.length} globals"⟩

/-- Load a story under a name. -/
def loadStory (name : String) (octets : List UInt8) : ExceptT Error (StateM Session) Story := do
  match Story.ofOctets octets with
  | .error error => throw error
  | .ok story =>
      modify (World.record (storyLoaded story))
      onStage fun stage => { stage with stories := stage.stories.put name story }
      pure story

def nameStore (name : String) (id : Nat) : StateM Session Unit :=
  onStage fun stage => { stage with storeNames := stage.storeNames.put name id }

/-- Open a store under a name. -/
def openStore (name : String) (store : Store) : StateM Session Unit := do
  nameStore name (← addStore store)

/-! ## Runners -/

/-- Put a runner under a name. -/
def addActor (name : String) (actor : Actor) : StateM Session Unit :=
  onStage fun stage => { stage with actors := stage.actors.put name actor }

/-- The number of the store that is used: the given one, or a new one. -/
def placeStore (given : Option Nat) (store : Store) : StateM Session Nat :=
  match given with
  | some id => pure id
  | none => addStore store

/-- Start a runner of a story under a name, on the given store or a new one. -/
def startRunner (name : String) (story : Story) (given : Option Nat) (config : Config) :
    ExceptT Error (StateM Session) Unit := do
  let session ← get
  match story.bindStore (given.map session.storeAt) with
  | .error error => throw error
  | .ok store =>
      let id ← (placeStore given store : StateM Session Nat)
      addActor name ⟨⟨story, .empty, config⟩, .start story config, id⟩

/-- Log an event of a runner if its configuration asks for it. -/
def emit (config : Config) (event : Event) : StateM Session Unit :=
  match config.trace.recordOf? event with
  | some record => modify (World.record record)
  | none => pure ()

/-- Add a script, and give its number. -/
def addScript (script : Script) : StateM Session CallbackId := do
  let stage := (← get).host
  onStage fun stage => { stage with scripts := stage.scripts.push script }
  pure stage.scripts.size

/-- Go on with a result, or fail with its error. -/
def settle {α : Type} (result : Except Error α) : ExceptT Error (StateM Session) α :=
  ExceptT.mk (pure result)

/-- Bind a name of a runner's story to a script. -/
def bind
    (runner : String)
    (actor : Actor)
    (name : String)
    (arity : Option Nat)
    (safe returns : Bool)
    (actions : List Action)
    (reply : Reply Literal) :
    ExceptT Error (StateM Session) Unit := do
  let defs := actor.setup.story.declarations.lists
  let reply ← settle (reply.resolve defs)
  let script : Script :=
    ⟨.external name reply, actions.map (fun action => (none, action)), 0⟩
  let callback ← (addScript script : StateM Session CallbackId)
  let binding : Binding := ⟨callback, arity, safe, returns⟩
  emit actor.setup.config (.bound name binding)
  addActor runner
    { actor with
      setup := { actor.setup with bindings := actor.setup.bindings.bind name binding } }

/-- Forget a binding, and say whether there was one. -/
def unbind (runner : String) (actor : Actor) (name : String) : StateM Session Bool := do
  addActor runner
    { actor with
      setup := { actor.setup with bindings := actor.setup.bindings.unbind name } }
  pure (actor.setup.bindings.get? name).isSome

def getline (name : String) (actor : Actor) : StateM Session (Except Error String) :=
  withActor name actor (Play.getline actor.setup scriptedHost allowance)

/-- Read all lines up to the next choice or the end. -/
def getall (name : String) (actor : Actor) : StateM Session (Except Error String) :=
  withActor name actor (Play.getall actor.setup scriptedHost allowance)

def choose (name : String) (actor : Actor) (index : Nat) : StateM Session (Except Error Unit) :=
  withActor name actor (Play.choose actor.setup index)

def moveTo (name : String) (actor : Actor) (path : String) : StateM Session (Except Error Unit) :=
  withActor name actor (Play.moveTo actor.setup path)

/-- The reports of a runner so far. -/
def takeReports (name : String) (actor : Actor) : StateM Session (List Error) := do
  let taken := actor.runner.takeReports
  addActor name { actor with runner := taken.2 }
  pure taken.1

/-! ## Variables -/

/-- Give a variable of a store the value of a literal. -/
def setVariable (id : Nat) (name : String) (literal : Literal) :
    ExceptT Error (StateM Session) Unit :=
  ExceptT.mk (assign scriptedHost id name literal)

/-- Observe a variable under a name. -/
def observe
    (observer : String)
    (id : Nat)
    (name : String)
    (kind : ObserverKind)
    (actions : List (Option Literal × Action)) :
    ExceptT Error (StateM Session) Unit := do
  let actions ← settle (Action.settleAll ((← get).storeAt id).declarations.lists actions)
  let callback ← (addScript ⟨.observer observer, actions, 0⟩ : StateM Session CallbackId)
  let number ← ExceptT.mk (withStore id (World.observe scriptedHost name kind callback))
  onStage fun stage => { stage with observers := stage.observers.put observer number }

/-! ## Snapshots -/

/-- A runner as the subject of a snapshot. -/
def subject (session : Session) (actor : Actor) : Snapshot.Subject :=
  ⟨actor.runner, actor.setup.story, session.storeAt actor.storeId, actor.storeId⟩

/-- Keep a snapshot under a name if it can be stored, and give its octets. -/
def keep (name : String) (snapshot : Snapshot) :
    ExceptT Error (StateM Session) (Snapshot × List UInt8) := do
  match snapshot.toOctets with
  | .error error => throw error
  | .ok octets =>
      onStage fun stage => { stage with snapshots := stage.snapshots.put name snapshot }
      pure (snapshot, octets)

/-- Take a snapshot of runners under a name. -/
def capture (name : String) (actors : List Actor) (withGlobals : Bool) :
    ExceptT Error (StateM Session) (Snapshot × List UInt8) := do
  let session ← get
  match Snapshot.capture (actors.map (subject session)) withGlobals with
  | .error error => throw error
  | .ok snapshot =>
      actors.head?.forM fun first =>
        (emit first.setup.config (.captured actors.length withGlobals) : StateM Session Unit)
      keep name snapshot

/-- Read a snapshot under a name. -/
def loadSnapshot (name : String) (octets : List UInt8) :
    ExceptT Error (StateM Session) (Snapshot × List UInt8) :=
  match Snapshot.ofOctets octets with
  | .error error => throw error
  | .ok snapshot => keep name snapshot

/-- Restore a runner under a name, on the given store or the saved values. -/
def restore
    (name : String)
    (story : Story)
    (snapshot : Snapshot)
    (given : Option Nat)
    (index : Nat) :
    ExceptT Error (StateM Session) Unit := do
  let session ← get
  match snapshot.restoreRunner story (given.map session.storeAt) index with
  | .error error => throw error
  | .ok (runner, store) =>
      emit .standard (.restored index runner.flow.ip)
      let id ← (placeStore given store : StateM Session Nat)
      addActor name ⟨⟨story, .empty, .standard⟩, runner, id⟩

/-! ## Transcripts -/

/-- One entry of the transcript of a reading. -/
inductive Entry where
  /-- A line with its tags. -/
  | line (text : String) (tags : List String)
  | failed (error : Error)
  | choices (offered : List Choice)

def actor? (name : String) : StateM Session (Option Actor) := do
  pure ((← get).host.actors.get? name)

/-- Read lines while there are any, at most the given number; a failure ends the reading. -/
def readLines (name : String) : Nat → List Entry → StateM Session (List Entry)
  | 0, entries => pure entries
  | lines + 1, entries => do
      match ← actor? name with
      | none => pure entries
      | some actor =>
          if actor.runner.canContinue then
            match ← getline name actor with
            | .error error => pure (.failed error :: entries)
            | .ok line => do
                let tags := (← actor? name).elim [] (fun after => after.runner.flow.tags.line)
                readLines name lines (.line line tags :: entries)
          else
            pure entries

/-- Offer the choices and make the given one. -/
def pickOne (name : String) (pick : Nat) (entries : List Entry) : StateM Session (List Entry) := do
  match ← actor? name with
  | none => pure entries
  | some actor =>
      let offered := Entry.choices actor.runner.choices :: entries
      match ← choose name actor pick with
      | .ok () => pure offered
      | .error error => pure (.failed error :: offered)

/-- Read, make the picks in order and read on after each; the latest entry comes first. -/
def transcript (name : String) : List Nat → List Entry → StateM Session (List Entry)
  | [], entries => readLines name allowance entries
  | pick :: picks, entries => do
      let read ← readLines name allowance entries
      let picked ← pickOne name pick read
      transcript name picks picked

end Fabula.Session
