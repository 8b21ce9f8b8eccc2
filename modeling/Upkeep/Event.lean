/-!
# Events

What upkeep writes to the log: a level, a fixed message and the named values
that belong to it.  The modules that report an event define it; here is only
its shape.
-/

namespace Upkeep

/-- How much an event matters. -/
inductive Level where
  | debug
  | info
  | warn
  | error
  deriving DecidableEq, Repr

/-- The word for a level. -/
def Level.word : Level → String
  | debug => "DEBUG"
  | info => "INFO"
  | warn => "WARN"
  | error => "ERROR"

/-- One entry of the log. -/
structure Event where
  level : Level
  message : String
  fields : List (String × String)
  deriving DecidableEq, Repr

namespace Event

/-- A field that is left out if it has no value. -/
def optional (name : String) : Option String → List (String × String)
  | some value => [(name, value)]
  | none => []

end Event

end Upkeep
