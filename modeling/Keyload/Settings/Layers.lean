import Keyload.Error
import Keyload.Fault
import Keyload.Settings.Reading
import Keyload.Settings.Toml.Basic
import Keyload.Settings.Writing
import Keyload.Text.Split

/-!
# Layers of settings

Settings come from what holds already, from a file, and from the environment, each laid over the one
before.
-/
namespace Keyload.Settings

/-- A file of settings that was asked for. -/
inductive SourceFile where
  | missing
  | holding (text : String)
  deriving DecidableEq, Repr

/-- Variables of the environment by name. -/
abbrev Environment := List (String × String)

/-- A character of a name in a path. -/
def isNameChar (c : Char) : Bool := c.isAlphanum || c == ' ' || c == '_' || c == '-'

/-- The names of a path, which stand between full stops. -/
def path? (key : String) : Option (List String) :=
  let parts := Text.splitAll '.' key.toList
  if parts.all fun p => !p.isEmpty && p.all isNameChar then some (parts.map String.ofList) else none

/-- Lay a source over a table: a key that is a path sets what the path leads to. -/
def overlay (target : List (String × Value)) : List (String × Value) → List (String × Value)
  | [] => target
  | (key, v) :: rest => overlay (Value.putPath target ((path? key).getD [key]) v) rest

/-- What the names of variables of this program start with, in either case. -/
def environmentMark : List Char := "workload__".toList

/-- Full stops for double underscores. -/
def dots : List Char → List Char
  | '_' :: '_' :: rest => '.' :: dots rest
  | c :: rest => c :: dots rest
  | [] => []

/-- An integer of 64 bits with a sign. -/
def readSigned? (cs : List Char) : Option Int :=
  match cs with
  | '-' :: c :: rest =>
    ((Decimal.spell? 0 (c :: rest)).filter (· ≤ Word.signedLimit)).map fun n => -(n : Int)
  | _ => (Decimal.below? Word.signedLimit cs).map Int.ofNat

/-- The value of a variable: a truth value, an integer, a number or a text; endpoints are listed. -/
def variableValue (key value : String) : Value :=
  let name := Text.lower value
  if name = "true" then .truth true
  else if name = "false" then .truth false
  else
    match readSigned? value.toList, Floating.read? value.toList with
    | some i, _ => .whole i
    | none, some x => .real x
    | none, none =>
      if key = "client.endpoints" then
        .list ((Text.splitAll ',' value.toList).map fun cs => .text (String.ofList cs))
      else .text value

/-- The setting that a variable gives; none if it is empty or not for this program. -/
def assignment? : String × String → Option (String × Value)
  | (name, value) =>
    let cs := (Text.lower name).toList
    if value.isEmpty || !environmentMark.isPrefixOf cs then none
    else
      let key := String.ofList (dots (cs.drop environmentMark.length))
      some (key, variableValue key value)

/-- The settings that the environment gives. -/
def ofEnvironment (env : Environment) : List (String × Value) := env.filterMap assignment?

/-- Whether settings can be laid under others: no number is above the largest signed word, and every
rule has a name that is a path. -/
def canUnderlie (s : Settings) : Bool :=
  let fits (n : Nat) : Bool := n < Word.signedLimit
  let w := s.workload
  let c := s.client
  (w.builderRules.all fun (name, r) => (path? name).isSome && fits r.count && fits r.max) &&
    [w.total, w.putRate, w.seed.getD 0, s.churn.valueRate.getD 0, s.churn.levelRate.getD 0,
      s.churn.level, s.reads.rate.getD 0, s.reads.level, s.watches.replayMs, c.conns, c.clients,
      c.requestTimeoutMs, c.connectTimeoutMs, c.reconnectEvery, c.retry.attempts,
      c.retry.timeoutMs, c.retry.baseDelayMs, c.retry.maxDelayMs,
      s.lifecycle.statsIntervalSecs].all fits

mutual

/-- Lay a value under others: a list or table with nothing in it is not mentioned. -/
def underlayAt (target : List (String × Value)) (place : List String) :
    Value → List (String × Value)
  | .table es => underlay target place es
  | .list [] => target
  | v => Value.putPath target place v

/-- Lay entries under others, the names of rules read as paths. -/
def underlay (target : List (String × Value)) (place : List String) :
    List (String × Value) → List (String × Value)
  | [] => target
  | (key, v) :: rest =>
    underlay (underlayAt target (place ++ (path? key).getD [key]) v) place rest

end

/-- The table of settings that others are laid over. -/
def base? (s : Settings) : Option (List (String × Value)) :=
  if s.canUnderlie then some (underlay [] [] s.write) else none

/-- What a file holds. -/
def SourceFile.read? : SourceFile → Option (List (String × Value))
  | .missing => none
  | .holding text => Toml.read? text

/-- Lay a file, if one was asked for, and then the environment over settings. -/
def under (s : Settings) (file : Option SourceFile) (env : Environment) :
    Except RunError Settings :=
  let settings? := do
    let base ← s.base?
    let layer ←
      match file with
      | none => pure []
      | some f => f.read?
    read? (overlay (overlay base layer) (ofEnvironment env))
  match settings? with
  | some s => .ok s
  | none => .error .unreadableConfig

/-- The settings of a run: the defaults under a file and the environment. -/
def load (file : Option SourceFile) (env : Environment) : Except RunError Settings :=
  standard.under file env

end Keyload.Settings
