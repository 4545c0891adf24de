/-! # Log lines

Operations say what they did in log lines. A line has a level and the channel of the part that wrote
it.
-/

namespace GraphQuery

/-- How important a log line is. -/
inductive LogLevel where
  | debug
  | info
  | warning
  | error
  deriving DecidableEq, Repr

def LogLevel.name : LogLevel → String
  | .debug => "DEBUG"
  | .info => "INFO"
  | .warning => "WARNING"
  | .error => "ERROR"

/-- A log line. -/
structure LogLine where
  level : LogLevel
  channel : String
  message : String
  deriving DecidableEq, Repr

end GraphQuery
