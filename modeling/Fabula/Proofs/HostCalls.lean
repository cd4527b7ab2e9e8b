import Fabula.Proofs.Lines
import Fabula.Proofs.Resumption
import Fabula.Proofs.Telling

namespace Fabula

/-!
# Calls of host functions

What is taken back at the end of a line is taken back in the story only: a call that
reached the host cannot be unmade.  So a function that is not marked as safe must never
be called while a checkpoint is open.  This module lists the calls that a session makes
and shows that the list is what the host sees.
-/

/-- A call of a host function by a story. -/
structure HostCall where
  name : String
  binding : Binding
  arguments : List Value
  /-- Whether a checkpoint was open when the function was called. -/
  onTrial : Bool
  deriving Repr, DecidableEq

/-- What a host sees of a call, with the number of speculations open in its store. -/
structure Receipt where
  callback : CallbackId
  arguments : List Value
  depth : Nat
  deriving Repr, DecidableEq

namespace HostCall

/-- What the host sees of a call in a store that speculates at a depth without checkpoint. -/
def receipt (depth : Nat) (call : HostCall) : Receipt :=
  ⟨call.binding.callback, call.arguments, if call.onTrial then depth + 1 else depth⟩

/-- The calls of functions that are not safe, by name and arguments and in order. -/
def unsafeLog (calls : List HostCall) : List (String × List Value) :=
  (calls.filter fun call => !call.binding.safe).map fun call => (call.name, call.arguments)

@[simp]
theorem unsafeLog_nil :
    unsafeLog [] = [] :=
  rfl

@[simp]
theorem unsafeLog_append
    (first second : List HostCall) :
    unsafeLog (first ++ second) = unsafeLog first ++ unsafeLog second := by
  simp [unsafeLog]

theorem unsafeLog_of_safe
    {calls : List HostCall}
    (safe : ∀ call ∈ calls, call.binding.safe = true) :
    unsafeLog calls = [] := by
  simpa [unsafeLog] using safe

end HostCall

/-- The call that an instruction asks for. -/
def Change.calls (onTrial : Bool) (change : Change) : List HostCall :=
  match change.request with
  | some (.call name binding arguments) => [⟨name, binding, arguments, onTrial⟩]
  | _ => []

namespace Play

variable {σ : Type}

/-! ## The calls of a runner -/

/-- The calls of the step at an address. -/
def callsAt
    (setup : Setup)
    (onTrial : Bool)
    (address : Nat)
    (play : Play σ) :
    List HostCall :=
  match play.flow.next setup play.world.store address with
  | .ok change => change.calls onTrial
  | .error _ => []

/-- The calls of the next step, if there is one. -/
def nextCalls
    (setup : Setup)
    (onTrial : Bool)
    (play : Play σ) :
    List HostCall :=
  match play.flow.ip with
  | some address => play.callsAt setup onTrial address
  | none => []

/-- Whether the next step may not be taken from a checkpoint. -/
def refuses
    (setup : Setup)
    (checkpoint : Option Checkpoint)
    (play : Play σ) :
    Bool :=
  checkpoint.isSome && play.flow.ip.any setup.isUnsafeCall

/-- The calls of one move on the way to the end of a line. -/
def moveCalls
    (setup : Setup)
    (checkpoint : Option Checkpoint)
    (play : Play σ) :
    List HostCall :=
  if play.refuses setup checkpoint then [] else play.nextCalls setup checkpoint.isSome

/-- The calls on the way to the end of a line. -/
def lineCalls
    (setup : Setup)
    (host : Host σ) :
    Nat → Option Checkpoint → Play σ → List HostCall
  | 0, _, _ => []
  | fuel + 1, checkpoint, play =>
      play.moveCalls setup checkpoint ++
        match play.advance setup host checkpoint with
        | .going checkpoint next => lineCalls setup host fuel checkpoint next
        | .stopped _ _ => []

/-- What a program asks of a runner that it reads line by line. -/
inductive Ask where
  | getline (fuel : Nat)
  | choose (index : Nat)
  | moveTo (path : String)
  deriving Repr, DecidableEq

/-- The call of the runner. -/
def Ask.call : Ask → Call
  | .getline fuel => .getline fuel
  | .choose index => .choose index
  | .moveTo path => .moveTo path

/-- The calls of host functions that a runner makes when it is asked for something. -/
def askCalls (setup : Setup) (host : Host σ) (play : Play σ) : Ask → List HostCall
  | .getline fuel =>
      if play.canContinue then lineCalls setup host fuel none play.clearLine else []
  | .choose _ => []
  | .moveTo _ => []

/-- Do all that is asked, and list the calls of host functions that are made. -/
def session (setup : Setup) (host : Host σ) : List Ask → Play σ → List HostCall × Play σ
  | [], play => ([], play)
  | ask :: rest, play =>
      let later := session setup host rest (play.perform setup host ask.call).2
      (play.askCalls setup host ask ++ later.1, later.2)

section Runner

variable {host : Host σ} {setup : Setup}

/-! ## On trial only safe functions are called -/

theorem callsAt_bound
    {onTrial : Bool}
    {address : Nat}
    {play : Play σ}
    {call : HostCall}
    (made : call ∈ play.callsAt setup onTrial address) :
    call.onTrial = onTrial ∧
      ∃ flag payload,
        setup.story.instruction? address = some ⟨.callExternal, flag, payload⟩ ∧
          setup.bindings.get? (setup.story.string payload) = some call.binding := by
  simp only [callsAt] at made
  split at made
  · next change next =>
      simp only [Change.calls] at made
      split at made
      · next name binding arguments asked =>
          simp only [List.mem_singleton] at made
          subst made
          exact ⟨rfl, Flow.next_call next asked⟩
      · cases made
  · cases made

/-- A move from a checkpoint calls only what is safe. -/
theorem safe_of_mem_moveCalls
    {checkpoint : Option Checkpoint}
    {play : Play σ}
    {call : HostCall}
    (made : call ∈ play.moveCalls setup checkpoint)
    (onTrial : call.onTrial = true) :
    call.binding.safe = true := by
  simp only [moveCalls, nextCalls] at made
  split at made
  · cases made
  · next accepted =>
      split at made
      · next address here =>
          obtain ⟨kind, flag, payload, found, bound⟩ := callsAt_bound made
          have isOpen : checkpoint.isSome = true := kind.symm.trans onTrial
          refine safe_of_isUnsafeCall ?_ found bound
          simpa [refuses, isOpen, here] using accepted
      · cases made

theorem safe_of_mem_lineCalls
    {fuel : Nat}
    {checkpoint : Option Checkpoint}
    {play : Play σ}
    {call : HostCall}
    (made : call ∈ lineCalls setup host fuel checkpoint play)
    (onTrial : call.onTrial = true) :
    call.binding.safe = true := by
  induction fuel generalizing checkpoint play with
  | zero =>
      cases made
  | succ fuel inductionHypothesis =>
      simp only [lineCalls, List.mem_append] at made
      rcases made with now | later
      · exact safe_of_mem_moveCalls now onTrial
      · split at later
        · exact inductionHypothesis later
        · cases later

theorem safe_of_mem_session
    {asks : List Ask}
    {play : Play σ}
    {call : HostCall}
    (made : call ∈ (session setup host asks play).1)
    (onTrial : call.onTrial = true) :
    call.binding.safe = true := by
  induction asks generalizing play with
  | nil =>
      cases made
  | cons ask rest inductionHypothesis =>
      simp only [session, List.mem_append] at made
      rcases made with now | later
      · cases ask with
        | getline fuel =>
            simp only [askCalls] at now
            split at now
            · exact safe_of_mem_lineCalls now onTrial
            · cases now
        | choose index | moveTo path =>
            cases now
      · exact inductionHypothesis later

end Runner

end Play

/-! ## The host sees the calls that are listed -/

/--
A host that keeps a ledger of the calls that reach it.  Its functions open and close no
speculations.
-/
structure Host.Keeps
    {σ : Type}
    (host : Host σ)
    (ledger : σ → List Receipt) :
    Prop where
  call :
    ∀ callback arguments (world : World σ),
      ledger (host.call callback arguments world).2.host =
        ledger world.host ++ [⟨callback, arguments, world.store.journals.length⟩]
  callDepth :
    ∀ callback arguments (world : World σ),
      (host.call callback arguments world).2.store.journals.length =
        world.store.journals.length
  notify :
    ∀ callback notice (world : World σ),
      ledger (host.notify callback notice world).2.host = ledger world.host
  notifyDepth :
    ∀ callback notice (world : World σ),
      (host.notify callback notice world).2.store.journals.length =
        world.store.journals.length

/-- What a host has seen of calls, and how deep its store speculates. -/
def World.account {σ : Type} (ledger : σ → List Receipt) (world : World σ) :
    List Receipt × Nat :=
  (ledger world.host, world.store.journals.length)

namespace Host.Keeps

variable {σ : Type} {host : Host σ} {ledger : σ → List Receipt}

/-- Telling observers is no call. -/
theorem tellAll
    (keeps : host.Keeps ledger)
    (name : String)
    (new : Value)
    (old : Option Value)
    (observers : List Observer)
    (world : World σ) :
    (World.tellAll host name new old observers world).2.account ledger =
      world.account ledger := by
  refine World.tellAll_keeps (motive := fun after => after.account ledger = world.account ledger)
    (fun observer _ after same => ?_) (fun _ _ same => same) rfl
  simp only [World.tell]
  split
  · exact (Prod.ext (keeps.notify _ _ _) (keeps.notifyDepth _ _ _)).trans same
  · exact same

theorem deliver
    (keeps : host.Keeps ledger)
    (write : Write)
    (world : World σ) :
    (world.deliver host write).2.account ledger = world.account ledger :=
  keeps.tellAll _ _ _ _ world

theorem deliverAll
    (keeps : host.Keeps ledger)
    (writes : List Write)
    (world : World σ) :
    (World.deliverAll host writes world).2.account ledger = world.account ledger :=
  World.deliverAll_keeps (motive := fun after => after.account ledger = world.account ledger)
    (fun write _ after same => (keeps.deliver write after).trans same) rfl

/-- A write is no call. -/
theorem assign
    (keeps : host.Keeps ledger)
    (name : String)
    (value : Value)
    (world : World σ) :
    (world.assign host name value).2.account ledger = world.account ledger := by
  refine World.assign_keeps (motive := fun after => after.account ledger = world.account ledger)
    (fun write _ => ?_) rfl
  have written :
      World.account ledger { world with store := world.store.apply write } =
        world.account ledger :=
    Prod.ext rfl (Store.length_journal _ _)
  exact ⟨written, (keeps.deliver write _).trans written⟩

/-- Keeping a speculation is no call, and closes it. -/
theorem commit
    (keeps : host.Keeps ledger)
    {id : Nat}
    {world : World σ}
    (isOpen : id ≤ world.store.journals.length) :
    (world.commit host id).2.account ledger = (ledger world.host, id) :=
  (keeps.deliverAll _ _).trans (Prod.ext rfl (Store.length_journals_commit isOpen))

end Host.Keeps

namespace Play

variable {σ : Type} {host : Host σ} {setup : Setup} {ledger : σ → List Receipt}

/-- A step adds its calls to the ledger. -/
theorem step_account
    (keeps : host.Keeps ledger)
    (setup : Setup)
    {depth : Nat}
    {onTrial : Bool}
    {play : Play σ}
    (level : play.world.store.journals.length = if onTrial then depth + 1 else depth)
    (address : Nat) :
    (play.step setup host address).2.world.account ledger =
      (ledger play.world.host ++
        (play.callsAt setup onTrial address).map (HostCall.receipt depth),
        play.world.store.journals.length) := by
  rw [step_eq, callsAt]
  cases play.flow.next setup play.world.store address with
  | error error =>
      simp [World.account]
  | ok change =>
      simp only [Change.calls]
      cases change.request with
      | none =>
          simp [answer, carry, emit, World.account]
      | some request =>
          cases request with
          | write name value =>
              obtain ⟨world, _⟩ := (play.carry setup change).assign_world host name value
              simp only [answer, world, List.map_nil, List.append_nil]
              exact keeps.assign name value _
          | call name binding arguments =>
              have called :
                  (host.call binding.callback arguments
                    (play.carry setup change).world).2.account ledger =
                    (ledger play.world.host ++
                      [HostCall.receipt depth ⟨name, binding, arguments, onTrial⟩],
                      play.world.store.journals.length) := by
                refine Prod.ext ?_ (keeps.callDepth _ _ _)
                simp only [World.account, keeps.call, HostCall.receipt, ← level]
                rfl
              simp only [answer, callHost, List.map_singleton]
              split
              · split <;> exact called
              · exact called

/-- The ledger after some calls, at the depth that a checkpoint asks for. -/
structure Accounted
    (ledger : σ → List Receipt)
    (depth : Nat)
    (entries : List Receipt)
    (checkpoint : Option Checkpoint)
    (play : Play σ) :
    Prop where
  entries : ledger play.world.host = entries
  level : play.world.store.journals.length = if checkpoint.isSome then depth + 1 else depth
  speculation : ∀ saved, checkpoint = some saved → saved.speculation = depth

namespace Accounted

variable {depth : Nat} {entries : List Receipt} {checkpoint : Option Checkpoint}
  {play : Play σ}

theorem of_account
    {other : Play σ}
    {later : List Receipt}
    (accounted : Accounted ledger depth entries checkpoint play)
    (same : other.world.account ledger = (later, play.world.store.journals.length)) :
    Accounted ledger depth later checkpoint other where
  entries := congrArg Prod.fst same
  level := (congrArg Prod.snd same).trans accounted.level
  speculation := accounted.speculation

/-- A step adds its calls. -/
theorem step
    (keeps : host.Keeps ledger)
    (setup : Setup)
    (accounted : Accounted ledger depth entries checkpoint play)
    {address : Nat}
    {result : Except Error Unit}
    {after : Play σ}
    (stepped : play.step setup host address = (result, after)) :
    Accounted ledger depth
      (entries ++
        (play.callsAt setup checkpoint.isSome address).map (HostCall.receipt depth))
      checkpoint after := by
  have same := step_account keeps setup accounted.level address
  rw [stepped, accounted.entries] at same
  exact accounted.of_account same

/-- What is taken back is not taken out of the ledger. -/
theorem rollback
    {saved : Checkpoint}
    (accounted : Accounted ledger depth entries (some saved) play)
    (events : List Event) :
    Accounted ledger depth entries none ((play.emit setup events).rollback setup saved) where
  entries := accounted.entries
  level := by
    have isOpen : depth ≤ play.world.store.journals.length := by
      rw [accounted.level]
      exact Nat.le_succ depth
    rw [← accounted.speculation saved rfl] at isOpen
    exact (Store.length_journalsAround isOpen).trans (accounted.speculation saved rfl)
  speculation := fun _ absent => nomatch absent

theorem commit
    (keeps : host.Keeps ledger)
    (accounted : Accounted ledger depth entries checkpoint play) :
    Accounted ledger depth entries none (play.commit host checkpoint) := by
  cases checkpoint with
  | none =>
      exact accounted
  | some saved =>
      have number := accounted.speculation saved rfl
      have isOpen : saved.speculation ≤ play.world.store.journals.length := by
        rw [accounted.level, number]
        exact Nat.le_succ depth
      have closed := keeps.commit isOpen
      exact
        { entries := (congrArg Prod.fst closed).trans accounted.entries
          level := (congrArg Prod.snd closed).trans number
          speculation := fun _ absent => nomatch absent }

end Accounted

/-- A runner is accounted for as long as it goes on and when it stops. -/
def Progress.Accounted
    (ledger : σ → List Receipt)
    (depth : Nat)
    (entries : List Receipt) :
    Progress σ → Prop
  | .going checkpoint play => Play.Accounted ledger depth entries checkpoint play
  | .stopped _ play => Play.Accounted ledger depth entries none play

namespace Accounted

variable {depth : Nat} {entries : List Receipt} {checkpoint : Option Checkpoint}
  {play : Play σ}

theorem proceed
    (accounted : Accounted ledger depth entries none play) :
    (play.proceed setup).Accounted ledger depth entries := by
  have proceeding := proceed_proceeding setup play
  generalize play.proceed setup = progress at proceeding
  cases proceeding with
  | onward | cut =>
      exact accounted
  | onTrial =>
      have level : play.world.store.journals.length = depth := accounted.level
      exact
        { entries := accounted.entries
          level := congrArg (· + 1) level
          speculation := by
            rintro _ ⟨⟩
            exact level }

/-- A move adds its calls. -/
theorem advance
    (keeps : host.Keeps ledger)
    (setup : Setup)
    (accounted : Accounted ledger depth entries checkpoint play) :
    (play.advance setup host checkpoint).Accounted ledger depth
      (entries ++ (play.moveCalls setup checkpoint).map (HostCall.receipt depth)) := by
  have move := advance_move setup host checkpoint play
  generalize play.advance setup host checkpoint = progress at move
  -- Every other move carries out the step at its address.
  have accepted
      {address : Nat}
      (here : play.flow.ip = some address)
      (safeCall : checkpoint ≠ none → setup.isUnsafeCall address = false) :
      play.moveCalls setup checkpoint = play.callsAt setup checkpoint.isSome address := by
    cases checkpoint with
    | none =>
        simp [moveCalls, nextCalls, refuses, here]
    | some saved =>
        simp [moveCalls, nextCalls, refuses, here, safeCall]
  cases move with
  | fallback stopped taken =>
      have none : play.moveCalls setup checkpoint = [] := by
        simp [moveCalls, nextCalls, stopped]
      obtain ⟨_, _, _, _, _, world, _⟩ := takeFallback?_world taken rfl
      rw [none, List.map_nil, List.append_nil]
      refine accounted.of_account ?_
      rw [world, ← accounted.entries]
      rfl
  | finished stopped nothing =>
      have none : play.moveCalls setup checkpoint = [] := by
        simp [moveCalls, nextCalls, stopped]
      rw [none, List.map_nil, List.append_nil]
      exact accounted.commit keeps
  | refused here unsafeCall =>
      have none {saved : Checkpoint} : play.moveCalls setup (some saved) = [] := by
        simp [moveCalls, refuses, here, unsafeCall]
      rw [none, List.map_nil, List.append_nil]
      exact accounted.rollback _
  | failed here stepped =>
      rw [accepted here (by simp)]
      exact accounted.step keeps setup stepped
  | abandoned here safeCall stepped =>
      rw [accepted here (fun _ => safeCall)]
      exact (accounted.step keeps setup stepped).rollback _
  | marked here safeCall stepped =>
      rw [accepted here safeCall]
      exact accounted.step keeps setup stepped
  | plain here stepped =>
      rw [accepted here (by simp)]
      exact (accounted.step keeps setup stepped).proceed
  | undecided here safeCall stepped =>
      rw [accepted here (fun _ => safeCall)]
      exact accounted.step keeps setup stepped
  | completed here safeCall stepped =>
      rw [accepted here (fun _ => safeCall)]
      exact (accounted.step keeps setup stepped).rollback []
  | joined here safeCall stepped =>
      rw [accepted here (fun _ => safeCall)]
      exact ((accounted.step keeps setup stepped).commit keeps).proceed

/-- A line adds its calls. -/
theorem advanceLine
    (keeps : host.Keeps ledger)
    (setup : Setup)
    (fuel : Nat)
    (accounted : Accounted ledger depth entries checkpoint play) :
    Accounted ledger depth
      (entries ++ (lineCalls setup host fuel checkpoint play).map (HostCall.receipt depth))
      none (Play.advanceLine setup host fuel checkpoint play).2 := by
  induction fuel generalizing checkpoint play entries with
  | zero =>
      rw [lineCalls, List.map_nil, List.append_nil]
      cases checkpoint with
      | none =>
          exact accounted
      | some saved =>
          exact accounted.rollback []
  | succ fuel inductionHypothesis =>
      have moved := accounted.advance keeps setup
      simp only [lineCalls, Play.advanceLine, List.map_append, ← List.append_assoc]
      cases progress : play.advance setup host checkpoint with
      | going checkpoint next =>
          rw [progress] at moved
          exact inductionHypothesis moved
      | stopped result last =>
          rw [progress] at moved
          rw [List.map_nil, List.append_nil]
          exact moved

/-- What is asked for adds its calls. -/
theorem perform
    (keeps : host.Keeps ledger)
    (accounted : Accounted ledger depth entries none play)
    (ask : Ask) :
    Accounted ledger depth
      (entries ++ (play.askCalls setup host ask).map (HostCall.receipt depth))
      none (play.perform setup host ask.call).2 := by
  cases ask with
  | getline fuel =>
      simp only [askCalls, Ask.call, Play.perform]
      split
      · next continues =>
          have cleared : Accounted ledger depth entries none play.clearLine :=
            accounted.of_account (by rw [← accounted.entries]; rfl)
          have read := cleared.advanceLine keeps setup fuel
          rw [getline_of_canContinue continues]
          split <;> next advanced =>
            rw [advanced] at read
            exact ⟨read.entries, read.level, read.speculation⟩
      · next idle =>
          rw [getline_of_not_canContinue (Bool.not_eq_true _ ▸ idle), List.map_nil,
            List.append_nil]
          exact accounted
  | choose index =>
      simp only [askCalls, Ask.call, Play.perform, choose]
      rw [List.map_nil, List.append_nil]
      split
      · exact accounted
      · split
        · exact accounted
        · exact ⟨accounted.entries, accounted.level, accounted.speculation⟩
  | moveTo path =>
      simp only [askCalls, Ask.call, Play.perform, moveTo]
      rw [List.map_nil, List.append_nil]
      split
      · exact accounted
      · split
        · exact accounted
        · exact ⟨accounted.entries, accounted.level, accounted.speculation⟩

/-- A session adds its calls. -/
theorem session
    (keeps : host.Keeps ledger)
    (accounted : Accounted ledger depth entries none play)
    (asks : List Ask) :
    Accounted ledger depth
      (entries ++ (Play.session setup host asks play).1.map (HostCall.receipt depth))
      none (Play.session setup host asks play).2 := by
  induction asks generalizing play entries with
  | nil =>
      simpa [Play.session] using accounted
  | cons ask rest inductionHypothesis =>
      simp only [Play.session, List.map_append, ← List.append_assoc]
      exact inductionHypothesis (accounted.perform keeps ask)

end Accounted

end Play

end Fabula
