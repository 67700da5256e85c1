import CoapNode.Trace

set_option autoImplicit false

/-! # Log lines

A node reports what it does in lines of text with a level. Logging changes nothing else: a
function that logs returns its lines beside its value.
-/

namespace CoapNode

/-- How loud a log line is. -/
inductive LogLevel where
  | error
  | warn
  | info
  | debug
  | trace
deriving DecidableEq, Repr

/-- The name a level is written with. -/
def LogLevel.text : LogLevel → String
  | .error => "ERROR"
  | .warn => "WARN"
  | .info => "INFO"
  | .debug => "DEBUG"
  | .trace => "TRACE"

/-- One line of the log. -/
structure LogLine where
  level : LogLevel
  message : String
deriving DecidableEq, Repr

/-- A log line as it is written: the level, then the message. -/
def LogLine.text (line : LogLine) : String := line.level.text ++ " " ++ line.message

/-- A value and the log lines written on the way to it. -/
abbrev Logged := Traced LogLine

namespace Log

/-- Report that something outside the node's control went wrong. -/
def warn (message : String) : Logged Unit := .emit ⟨.warn, message⟩

/-- Report a decision of the node. -/
def debug (message : String) : Logged Unit := .emit ⟨.debug, message⟩

/-- Report a routine step. -/
def trace (message : String) : Logged Unit := .emit ⟨.trace, message⟩

end Log

end CoapNode
