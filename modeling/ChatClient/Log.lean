/-!
# Log lines

What the library logs is part of its results: a list of lines in order.
-/

namespace ChatClient

/-- How urgent a log line is. -/
inductive LogLevel where
  | debug
  | warning
  deriving DecidableEq

/-- The name of a level. -/
def LogLevel.name : LogLevel → String
  | debug => "DEBUG"
  | warning => "WARNING"

/-- A log line. -/
structure LogLine where
  level : LogLevel
  text : String
  deriving DecidableEq

end ChatClient
