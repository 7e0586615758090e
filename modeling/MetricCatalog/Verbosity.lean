/-
# Verbosity

How much a run says about what it does.
-/

namespace MetricCatalog

/-- The least important messages that are shown. -/
inductive LogLevel
  | warn | info | debug | trace
  deriving DecidableEq, Repr

namespace LogLevel

/-- The name of the level. -/
def name : LogLevel → String
  | warn => "WARN"
  | info => "INFO"
  | debug => "DEBUG"
  | trace => "TRACE"

/-- The level for the number of times that more was asked for. -/
def ofVerbosity : Nat → LogLevel
  | 0 => warn
  | 1 => info
  | 2 => debug
  | _ => trace

end LogLevel

end MetricCatalog
