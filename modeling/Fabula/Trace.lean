namespace Fabula

/-!
# Traces

While a story runs it can report what it does.  Reports have a level and a
category, and a configuration says which of them are kept.  Warnings about host
functions and errors that stop a story are always kept.
-/

/-- The weight of a report, from the least to the greatest. -/
inductive Level where
  | trace
  | debug
  | info
  | warn
  | error
  deriving Repr, DecidableEq

namespace Level

def all : List Level :=
  [.trace, .debug, .info, .warn, .error]

def rank : Level → Nat
  | .trace => 0
  | .debug => 1
  | .info => 2
  | .warn => 3
  | .error => 4

def name : Level → String
  | .trace => "Trace"
  | .debug => "Debug"
  | .info => "Info"
  | .warn => "Warn"
  | .error => "Error"

def label : Level → String
  | .trace => "TRACE"
  | .debug => "DEBUG"
  | .info => "INFO"
  | .warn => "WARN"
  | .error => "ERROR"

end Level

/-- What a report is about. -/
inductive Category where
  | flow
  | output
  | variables
  | externals
  | lookahead
  | snapshot
  deriving Repr, DecidableEq

namespace Category

def all : List Category :=
  [.flow, .output, .variables, .externals, .lookahead, .snapshot]

def name : Category → String
  | .flow => "Flow"
  | .output => "Output"
  | .variables => "Variables"
  | .externals => "Externals"
  | .lookahead => "Lookahead"
  | .snapshot => "Snapshot"

/-- The target under which reports of a category are logged. -/
def target : Category → String
  | .flow => "inkvm::flow"
  | .output => "inkvm::output"
  | .variables => "inkvm::variables"
  | .externals => "inkvm::externals"
  | .lookahead => "inkvm::lookahead"
  | .snapshot => "inkvm::snapshot"

end Category

/-- One kept report. -/
structure LogRecord where
  level : Level
  target : String
  message : String
  deriving Repr, DecidableEq

/-- Which reports are kept. -/
structure TraceConfig where
  enabled : Bool
  /-- The least level. -/
  level : Level
  categories : List Category
  deriving Repr, DecidableEq

namespace TraceConfig

/-- Whether reports of a category and a level are kept. -/
def isEnabled (config : TraceConfig) (category : Category) (level : Level) : Bool :=
  config.enabled && decide (config.level.rank ≤ level.rank) && config.categories.contains category

/-- The record of a report, if it is kept. -/
def record? (config : TraceConfig) (category : Category) (level : Level) (message : String) :
    Option LogRecord :=
  if config.isEnabled category level then
    some ⟨level, category.target, message⟩
  else
    none

/-- No reports; the categories that are kept once reports are enabled. -/
def standard : TraceConfig :=
  ⟨false, .debug, [.flow, .output, .externals]⟩

end TraceConfig

end Fabula
