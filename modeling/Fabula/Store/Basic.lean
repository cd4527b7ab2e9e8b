import Fabula.Binding

namespace Fabula

/-!
# Stores

A store holds a value for every variable that a story declares, and knows who
observes which variable.  A speculation is a stretch of writes that may be taken
back: its writes are kept in a journal, and their notices are held back.
Speculations nest, and a speculation is named by the number of speculations around
it.
-/

/-- What an observer wants to hear of. -/
inductive ObserverKind where
  /-- Every write, with the new and the old value. -/
  | changed
  /-- Every write, without values. -/
  | ping
  /-- Every write that changes the value, with the new and the old value. -/
  | delta
  deriving Repr, DecidableEq

/-- One observer of a variable. -/
structure Observer where
  id : Nat
  /-- The position of the variable. -/
  index : Nat
  kind : ObserverKind
  callback : CallbackId
  deriving Repr, DecidableEq

/-- One write to the variable at a position. -/
structure Write where
  index : Nat
  new : Value
  old : Value
  deriving Repr, DecidableEq

/-- The values of variables with their observers and the open speculations. -/
structure Store where
  declarations : Declarations
  values : List Value
  observers : List Observer
  /-- The number of the next observer. -/
  nextObserver : Nat
  /-- The journals of the open speculations, the innermost first and the latest write first. -/
  journals : List (List Write)
  deriving Repr, DecidableEq

namespace Store

/-- A store with the given values. -/
def ofValues (declarations : Declarations) (values : List Value) : Store :=
  ⟨declarations, values, [], 0, []⟩

/-- A store with the first values. -/
def start (declarations : Declarations) : Store :=
  ofValues declarations declarations.initialValues

def index (store : Store) (name : String) : Except Error Nat :=
  match store.declarations.index? name with
  | some index => .ok index
  | none => .error (.unknownVariable name)

def valueAt (store : Store) (index : Nat) : Value :=
  store.values.getD index .void

def get (store : Store) (name : String) : Except Error Value := do
  let index ← store.index name
  pure (store.valueAt index)

/-- The names and values of all variables in order. -/
def entries (store : Store) : List (String × Value) :=
  store.declarations.names.zip store.values

/-- The kind of the variable at a position. -/
def kindAt (store : Store) (index : Nat) : Kind :=
  match store.declarations.globals[index]? with
  | some declaration => declaration.kind
  | none => .void

/-- The name of the variable at a position. -/
def nameAt (store : Store) (index : Nat) : String :=
  match store.declarations.globals[index]? with
  | some declaration => declaration.name
  | none => ""

/-! ## Writing -/

/-- Add a write to the innermost journal, if there is one. -/
def journal (write : Write) : List (List Write) → List (List Write)
  | [] => []
  | innermost :: outer => (write :: innermost) :: outer

def isSpeculating (store : Store) : Bool :=
  !store.journals.isEmpty

/-- Carry out a write, into the innermost journal if there is one. -/
def apply (store : Store) (write : Write) : Store :=
  { store with
    values := store.values.set write.index write.new
    journals := journal write store.journals }

/--
The write that gives a variable a value: the value is brought to the declared
kind, and refused if that kind does not accept it.
-/
def prepare (store : Store) (name : String) (value : Value) : Except Error Write := do
  let index ← store.index name
  let declared := store.kindAt index
  if declared.accepts value.kind then
    pure ⟨index, value.coerceTo declared, store.valueAt index⟩
  else
    throw (.typeMismatch name declared value.kind)

/-! ## Speculating -/

/-- Open a speculation; its number is the number of speculations around it. -/
def beginSpeculation (store : Store) : Nat × Store :=
  (store.journals.length, { store with journals := [] :: store.journals })

/-- The writes of a speculation and of those inside it, the latest first. -/
def writesSince (store : Store) (id : Nat) : List Write :=
  (store.journals.take (store.journals.length - id)).flatten

/-- The journals of the speculations around one. -/
def journalsAround (store : Store) (id : Nat) : List (List Write) :=
  store.journals.drop (store.journals.length - id)

def undo (values : List Value) (write : Write) : List Value :=
  values.set write.index write.old

/-- Take back the writes of a speculation and of those inside it, the latest first. -/
def rollback (store : Store) (id : Nat) : Store :=
  { store with
    values := (store.writesSince id).foldl undo store.values
    journals := store.journalsAround id }

/--
Keep the writes of a speculation and of those inside it.  They join the
speculation around it; if there is none, the writes whose notices were held back
are given back, oldest first.
-/
def commit (store : Store) (id : Nat) : List Write × Store :=
  match store.journalsAround id with
  | [] => ((store.writesSince id).reverse, { store with journals := [] })
  | innermost :: outer =>
      ([], { store with journals := (store.writesSince id ++ innermost) :: outer })

/-! ## Observing -/

def register (store : Store) (index : Nat) (kind : ObserverKind) (callback : CallbackId) :
    Observer × Store :=
  let observer : Observer := ⟨store.nextObserver, index, kind, callback⟩
  (observer,
    { store with
      observers := store.observers ++ [observer]
      nextObserver := store.nextObserver + 1 })

/-- Remove an observer, and say whether there was one. -/
def unobserve (store : Store) (id : Nat) : Bool × Store :=
  let kept := store.observers.filter (fun observer => observer.id != id)
  (decide (kept.length ≠ store.observers.length), { store with observers := kept })

/-- The observers of the variable at a position, in the order of their registration. -/
def observersOf (store : Store) (index : Nat) : List Observer :=
  store.observers.filter (fun observer => observer.index == index)

def inspect (store : Store) : String :=
  "\x7b" ++
    ", ".intercalate
      (store.entries.map fun entry => Text.quoted entry.1 ++ ": " ++ entry.2.inspect) ++ "\x7d"

end Store

end Fabula
