/-!
# Log events

An event has a level, a message and named fields in order.  A field is a text or a count.
-/

namespace TableAccess

/-- How important an event is. -/
inductive Level where
  | error
  | warn
  | info
  | debug
deriving DecidableEq

def Level.name : Level → String
  | .error => "ERROR"
  | .warn => "WARN"
  | .info => "INFO"
  | .debug => "DEBUG"

/-- The value of a field. -/
inductive FieldValue where
  | text (s : String)
  | count (n : Nat)
deriving DecidableEq

/-- An event of a log. -/
structure Event where
  level : Level
  message : String
  fields : List (String × FieldValue)
deriving DecidableEq

namespace Event

def error (message : String) (fields : List (String × FieldValue)) : Event :=
  ⟨.error, message, fields⟩

def warn (message : String) (fields : List (String × FieldValue)) : Event :=
  ⟨.warn, message, fields⟩

def info (message : String) (fields : List (String × FieldValue)) : Event :=
  ⟨.info, message, fields⟩

def debug (message : String) (fields : List (String × FieldValue)) : Event :=
  ⟨.debug, message, fields⟩

end Event

end TableAccess
