/-!
# Log events

What a run reports on the side: an event with a severity and named fields, the text of the event under
`message`.
-/
namespace Keyload

/-- How serious an event is. -/
inductive Severity where
  | info
  | warning
  deriving DecidableEq, Repr

/-- The label of a severity. -/
def Severity.label : Severity → String
  | .info => "INFO"
  | .warning => "WARN"

/-- A logged event. -/
structure LogEvent where
  severity : Severity
  fields : List (String × String)
  deriving DecidableEq, Repr

end Keyload
