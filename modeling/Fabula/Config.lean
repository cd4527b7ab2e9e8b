import Fabula.Error
import Fabula.Json.Decode
import Fabula.Json.Parser
import Fabula.Trace

namespace Fabula

/-!
# Configuration

A configuration is given as a JSON document.  A field that is missing keeps its
standard value; the settings of traces are given completely or not at all.
-/

/-- The settings of a runner. -/
structure Config where
  /-- The seed of random numbers, or nothing for one that is not fixed. -/
  seed : Option UInt64
  /-- Whether a line waits for what follows it. -/
  lookahead : Bool
  trace : TraceConfig
  deriving Repr, DecidableEq

namespace Config

def standardSeed : UInt64 := 42

def standard : Config :=
  ⟨some standardSeed, true, .standard⟩

/-- The same settings with another seed. -/
def withSeed (config : Config) (seed : UInt64) : Config :=
  { config with seed := some seed }

def withoutLookahead (config : Config) : Config :=
  { config with lookahead := false }

/-- The seed that a runner starts from. -/
def initialSeed (config : Config) : UInt64 :=
  config.seed.getD standardSeed

end Config

open Json in
/-- The settings of traces; every category counts once. -/
def TraceConfig.ofNode? : Decoder TraceConfig := fun node => do
  let record ← Record.ofNode? ["enabled", "level", "categories"] node
  let enabled ← record.required "enabled" Decode.bool
  let level ← record.required "level" (Decode.unit (Level.all.map fun l => (l.name, l)))
  let categories ←
    record.required "categories"
      (Decode.list (Decode.unit (Category.all.map fun c => (c.name, c))))
  pure ⟨enabled, level, Category.all.filter categories.contains⟩

namespace Config

open Json in
def ofNode? : Decoder Config := fun node => do
  let record ← Record.ofNode? ["seed", "lookahead", "debug"] node
  let seed ← record.defaulted "seed" standard.seed (Decode.option Decode.uint64)
  let lookahead ← record.defaulted "lookahead" standard.lookahead Decode.bool
  let trace ← record.defaulted "debug" standard.trace TraceConfig.ofNode?
  pure ⟨seed, lookahead, trace⟩

/-- The settings in the text of a document. -/
def ofText (text : String) : Except Error Config :=
  match (Json.parse (Text.octets text)).bind ofNode? with
  | some config => .ok config
  | none => .error (.invalidState .invalidConfig)

end Config

end Fabula
