import Keyload.Number.Duration

/-!
# Errors

The causes a run can fail for, and their wording. A definition error is a bad pattern or activity and
is found before anything is started; a store error belongs to one operation, is counted and the run
goes on; of the run errors, a failed reconnect ends the run.
-/
namespace Keyload

/-- A bad pattern or activity definition. -/
inductive DefinitionError where
  | noPatterns
  | emptyPattern (pattern : String)
  | unknownRule (pattern name : String)
  | leafNotLast (pattern : String)
  | missingValue (pattern : String)
  | countExceedsMax (name : String) (count max : Nat)
  | invalidCount (segment : String)
  | invalidRegex (regex : String)
  | invalidFormat (format reason : String)
  | emptyRule (name : String)
  | invalidValueSpec (spec : String)
  | multiplePatterns (activity : String) (count : Nat)
  | levelTooDeep (activity : String) (level depth : Nat)
  | emptyLevel (level : Nat)
  | watchLevelMismatch (levels depth : Nat)
  | invalidWatchCount (entry : String)
  deriving DecidableEq, Repr

/-- The wording of a definition error. -/
def DefinitionError.message : DefinitionError → String
  | .noPatterns => "No patterns were supplied"
  | .emptyPattern p => s!"Pattern '{p}' has no segments"
  | .unknownRule p n => s!"Pattern '{p}' references unknown builder rule '{n}'"
  | .leafNotLast p => s!"Pattern '{p}' has a value specification before its last segment"
  | .missingValue p => s!"Pattern '{p}' doesn't have a value specification"
  | .countExceedsMax n c m => s!"Count of '{n}' ({c}) is greater than maximum allowed ({m})"
  | .invalidCount s => s!"Invalid count in segment '{s}'"
  | .invalidRegex r => s!"Invalid regex '{r}'"
  | .invalidFormat f r => s!"Invalid format '{f}': {r}"
  | .emptyRule n => s!"Builder rule '{n}' has neither values nor a pattern"
  | .invalidValueSpec s => s!"Invalid value spec '{s}', expected 'n' or 'min,max'"
  | .multiplePatterns a c => s!"{a} can't be used with more than 1 pattern (got {c})"
  | .levelTooDeep a l d => s!"{a} level {l} is too deep for a pattern with {d} levels"
  | .emptyLevel l => s!"Level {l} has no keys"
  | .watchLevelMismatch l d =>
    s!"Watch counts specify {l} levels, but the pattern has {d} levels"
  | .invalidWatchCount e => s!"Invalid watch count '{e}'"

/-- A failed store operation, connection or watch. -/
inductive StoreError where
  /-- No answer within this many milliseconds. -/
  | timeout (limitMs : Nat)
  | watchCanceled (key : String)
  | closed
  | backend (text : String)
  deriving DecidableEq, Repr

/-- The wording of a store error. -/
def StoreError.message : StoreError → String
  | .timeout ms => s!"Operation timed out after {Duration.text ms}"
  | .watchCanceled key => s!"Watch canceled for '{key}'"
  | .closed => "Connection closed"
  | .backend text => text

/-- What a run fails with. -/
inductive RunError where
  | definition (e : DefinitionError)
  | store (e : StoreError)
  /-- A client could not open its connection again. -/
  | reconnect (client : Nat) (cause : StoreError)
  | invalidConfig (reason : String)
  /-- Settings could not be read. -/
  | unreadableConfig
  /-- A background task stopped with a fault. -/
  | taskFailed
  deriving DecidableEq, Repr

/-- The wording of a run error; the last two have none of their own. -/
def RunError.message? : RunError → Option String
  | .definition e => some e.message
  | .store e => some e.message
  | .reconnect client cause => some s!"Client {client} failed to reconnect: {cause.message}"
  | .invalidConfig reason => some s!"Invalid config: {reason}"
  | .unreadableConfig => none
  | .taskFailed => none

end Keyload
