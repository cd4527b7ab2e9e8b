import Fabula.Config
import Fabula.Story.Basic

namespace Fabula

/-!
# Bindings

A story calls functions of its host by name.  A binding says which function a
name stands for and how it may be called.
-/

/-- A function of the host. -/
abbrev CallbackId := Nat

/-- How a name of the story is bound to a function of the host. -/
structure Binding where
  callback : CallbackId
  /-- The number of arguments, or nothing if any number will do. -/
  arity : Option Nat
  /-- Whether the function may be called before it is certain that the call counts. -/
  safe : Bool
  /-- Whether the function gives a value back. -/
  returns : Bool
  deriving Repr, DecidableEq

/-- The text of a truth value. -/
def Binding.inspectBool (b : Bool) : String :=
  if b then "true" else "false"

def Binding.inspect (binding : Binding) : String :=
  s!"ExternalFunction \x7b arity: {Value.inspectOption binding.arity}, " ++
    s!"lookahead_safe: {inspectBool binding.safe}, " ++
    s!"returns_value: {inspectBool binding.returns}, .. \x7d"

/-- Bindings by name. -/
structure Bindings where
  entries : List (String × Binding)
  deriving Repr, DecidableEq

namespace Bindings

def empty : Bindings :=
  ⟨[]⟩

def get? (bindings : Bindings) (name : String) : Option Binding :=
  bindings.entries.lookup name

/-- Forget the binding of a name. -/
def unbind (bindings : Bindings) (name : String) : Bindings :=
  ⟨bindings.entries.filter (fun entry => entry.1 != name)⟩

/-- Bind a name in place of an earlier binding. -/
def bind (bindings : Bindings) (name : String) (binding : Binding) : Bindings :=
  ⟨(name, binding) :: (bindings.unbind name).entries⟩

end Bindings

/-- What stays as it is while a story runs. -/
structure Setup where
  story : Story
  bindings : Bindings
  config : Config
  deriving Repr, DecidableEq

/-- Whether the instruction at an address calls a function that may not be called on trial. -/
def Setup.isUnsafeCall (setup : Setup) (address : Nat) : Bool :=
  match setup.story.instruction? address with
  | some ⟨.callExternal, _, payload⟩ =>
      match setup.bindings.get? (setup.story.string payload) with
      | some binding => !binding.safe
      | none => false
  | _ => false

end Fabula
