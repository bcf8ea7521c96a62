/-! Log lines.

A step returns the lines that it logs in their order. A line carries field paths, types and
identifiers, never a property value. -/
namespace ConsentGate
set_option autoImplicit false

inductive Severity where
  | debug
  | info
  | warning
  | error
  deriving DecidableEq, Repr

def Severity.name : Severity → String
  | .debug => "DEBUG"
  | .info => "INFO"
  | .warning => "WARNING"
  | .error => "ERROR"

structure LogLine where
  severity : Severity
  message : String
  deriving DecidableEq, Repr

abbrev Log := List LogLine

namespace LogLine

/-- A line made of an event's name and its fields. -/
def event (severity : Severity) (name : String) (fields : List (String × String)) : LogLine :=
  ⟨severity, " ".intercalate (name :: fields.map fun (key, value) => key ++ "=" ++ value)⟩

def text (line : LogLine) : String := line.severity.name ++ " " ++ line.message

end LogLine

end ConsentGate
