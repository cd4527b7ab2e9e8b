import Fabula.Runner.Step

namespace Fabula.Play

/-!
# Lines

A line ends at a line end, but glue after it may still join it to what follows.
So after a line end the story goes on from a checkpoint.  When visible text
appears, the line was complete and all that happened since the checkpoint is taken
back; when glue removes the line end, it is kept and the line goes on.  The story
is also taken back to the checkpoint when it fails, or before it calls a function
that may not be called on trial.
-/

variable {σ : Type}

/-- What is kept to take back what happens after a line end. -/
structure Checkpoint where
  flow : Flow
  reports : List Error
  /-- The number of pieces of output, the line end being the last. -/
  outputSize : Nat
  /-- The speculation of the store. -/
  speculation : Nat
  deriving Repr, DecidableEq

/-- How output has changed since a checkpoint. -/
inductive Growth where
  | none
  /-- The line end is gone. -/
  | newlineRemoved
  /-- There is visible text after the line end. -/
  | textAdded
  deriving Repr, DecidableEq

/-- How output has changed since it had a number of pieces that ended in a line end. -/
def growth (size : Nat) (output : Output) : Growth :=
  if size = 0 || !output.newlineAt (size - 1) then .newlineRemoved
  else if output.hasTextSince size then .textAdded
  else .none

/-- Keep what is needed to come back, and let the store speculate. -/
def save (setup : Setup) (play : Play σ) : Checkpoint × Play σ :=
  let reported := play.emit setup [.checkpoint play.flow.ip]
  let opened := reported.world.beginSpeculation
  (⟨play.flow, play.reports, play.flow.output.size, opened.1⟩,
    { reported with world := opened.2 })

/-- Take back all that happened since a checkpoint. -/
def rollback (setup : Setup) (checkpoint : Checkpoint) (play : Play σ) : Play σ :=
  let reported := play.emit setup [.rollback checkpoint.flow.ip]
  { reported with
    flow := checkpoint.flow
    reports := checkpoint.reports
    world := reported.world.rollback checkpoint.speculation }

/-- Keep what happened since a checkpoint, and report the observers that fail. -/
def commit (host : Host σ) (checkpoint : Option Checkpoint) (play : Play σ) : Play σ :=
  match checkpoint with
  | none => play
  | some saved =>
      let closed := play.world.commit host saved.speculation
      { play with
        reports := play.reports ++ closed.1
        world := closed.2 }

/-- Where the search for the end of a line stands. -/
inductive Progress (σ : Type) where
  /-- The story goes on, perhaps from a checkpoint. -/
  | going (checkpoint : Option Checkpoint) (play : Play σ)
  /-- The line is complete, or the story has failed. -/
  | stopped (result : Except Error Unit) (play : Play σ)

/-- After a line end the line is complete, unless lookahead asks for a checkpoint. -/
def proceed (setup : Setup) (play : Play σ) : Progress σ :=
  if play.flow.output.endsWithNewline then
    if !setup.config.lookahead then
      .stopped (.ok ()) play
    else if play.flow.ip.isSome then
      let saved := play.save setup
      .going (some saved.1) saved.2
    else
      .going none play
  else
    .going none play

/-- Compare the output after a step with the checkpoint. -/
def settle (setup : Setup) (host : Host σ) (checkpoint : Option Checkpoint) (play : Play σ) :
    Progress σ :=
  if play.flow.output.hasMarker then
    .going checkpoint play
  else
    match checkpoint with
    | none => play.proceed setup
    | some saved =>
        match growth saved.outputSize play.flow.output with
        | .textAdded => .stopped (.ok ()) (play.rollback setup saved)
        | .newlineRemoved => (play.commit host checkpoint).proceed setup
        | .none => .going checkpoint play

/-- Carry out the instruction at an address on the way to the end of a line. -/
def attempt
    (setup : Setup)
    (host : Host σ)
    (checkpoint : Option Checkpoint)
    (address : Nat)
    (play : Play σ) :
    Progress σ :=
  match play.step setup host address, checkpoint with
  | (.ok (), after), _ => after.settle setup host checkpoint
  | (.error error, after), some saved =>
      .stopped (.ok ()) ((after.emit setup [.lookaheadFailed error]).rollback setup saved)
  | (.error error, after), none => .stopped (.error error) after

/-- One move on the way to the end of a line. -/
def advance (setup : Setup) (host : Host σ) (checkpoint : Option Checkpoint) (play : Play σ) :
    Progress σ :=
  match play.flow.ip with
  | none =>
      match play.takeFallback? setup with
      | some continued => .going checkpoint continued
      | none => .stopped (.ok ()) (play.commit host checkpoint)
  | some address =>
      match checkpoint with
      | none => play.attempt setup host none address
      | some saved =>
          if setup.isUnsafeCall address then
            .stopped (.ok ()) ((play.emit setup [.unsafeCall address]).rollback setup saved)
          else
            play.attempt setup host checkpoint address

/-- Take back what happened since the checkpoint, if there is one. -/
def abandon (setup : Setup) (checkpoint : Option Checkpoint) (play : Play σ) : Play σ :=
  match checkpoint with
  | some saved => play.rollback setup saved
  | none => play

/-- Move on until the line is complete, for at most the given number of moves. -/
def advanceLine (setup : Setup) (host : Host σ) :
    Nat → Option Checkpoint → Play σ → Except Error Unit × Play σ
  | 0, checkpoint, play => (.error .outOfSteps, play.abandon setup checkpoint)
  | fuel + 1, checkpoint, play =>
      match play.advance setup host checkpoint with
      | .going checkpoint play => advanceLine setup host fuel checkpoint play
      | .stopped result play => (result, play)

/-- The record of an error that stops a story. -/
def runnerFailed (error : Error) : LogRecord :=
  ⟨.error, "inkvm::runtime", s!"runner failed: {error.message}"⟩

def fail (error : Error) (play : Play σ) : Play σ :=
  { play.record (runnerFailed error) with failure := some error }

/-- Forget the tags of the line before. -/
def clearLine (play : Play σ) : Play σ :=
  { play with flow := { play.flow with tags := play.flow.tags.clearLine } }

/-- Take the text of the gathered output. -/
def takeLine (setup : Setup) (play : Play σ) : String × Play σ :=
  let line := play.flow.output.line
  (line,
    Play.emit setup [.line line]
      { play with flow := { play.flow with output := .empty } })

/-- Run until a line of text is complete, a choice has to be made or the story stops. -/
def getline (setup : Setup) (host : Host σ) (fuel : Nat) (play : Play σ) :
    Except Error String × Play σ :=
  match play.ensureUsable with
  | .error error => (.error error, play)
  | .ok () =>
      if play.flow.ip.isNone then
        (.error (.invalidState .noContent), play)
      else
        match advanceLine setup host fuel none play.clearLine with
        | (.error error, after) => (.error error, after.fail error)
        | (.ok (), after) =>
            let taken := after.takeLine setup
            (.ok taken.1, taken.2)

/-- Read lines while there are any, at most the given number, after the given text. -/
def getLines (setup : Setup) (host : Host σ) (fuel : Nat) :
    Nat → String → Play σ → Except Error String × Play σ
  | 0, _, play => (.error .outOfSteps, play)
  | lines + 1, text, play =>
      if play.canContinue then
        match play.getline setup host fuel with
        | (.error error, after) => (.error error, after)
        | (.ok line, after) => getLines setup host fuel lines (text ++ line) after
      else
        (.ok text, play)

/-- Read all lines up to the next choice or the end. -/
def getall (setup : Setup) (host : Host σ) (fuel : Nat) (play : Play σ) :
    Except Error String × Play σ :=
  getLines setup host fuel fuel "" play

/-- Make the choice with an index. -/
def choose (setup : Setup) (index : Nat) (play : Play σ) : Except Error Unit × Play σ :=
  match play.ensureUsable with
  | .error error => (.error error, play)
  | .ok () =>
      match play.choices[index]? with
      | none => (.error (.invalidChoice index play.choices.length), play)
      | some choice =>
          (.ok (),
            (play.emit setup [.chosen index choice.text choice.target]).select setup choice)

/-- Go to the knot or stitch at a path, and drop what was pending. -/
def moveTo (setup : Setup) (path : String) (play : Play σ) : Except Error Unit × Play σ :=
  match play.ensureUsable with
  | .error error => (.error error, play)
  | .ok () =>
      match setup.story.containerAt? path with
      | none => (.error (.invalidState (.unknownPath path)), play)
      | some container =>
          (.ok (),
            Play.emit setup [.jump container.start]
              { play with flow := play.flow.moveTo setup.story container })

end Fabula.Play
