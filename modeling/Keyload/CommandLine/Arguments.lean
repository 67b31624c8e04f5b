import Keyload.Number.Decimal
import Keyload.Text.Split

/-!
# Arguments

What the arguments of a command ask for. An option is named at most once; its value stands in the next
argument, or in the same one after an equals sign, or right after a short name. Whatever else stands on
the line makes it a misuse.
-/
namespace Keyload

/-- What the arguments ask for. -/
structure Arguments where
  /-- A file of settings laid over the others. -/
  config : Option String
  /-- Run on a store in memory. -/
  dryRun : Bool
  /-- Only list this level. -/
  keyList : Option Nat
  deriving DecidableEq, Repr

/-- How arguments are understood. -/
inductive Invocation where
  | run (arguments : Arguments)
  | help
  | version
  | misuse
  deriving DecidableEq, Repr

namespace Arguments

/-- Nothing asked for. -/
def empty : Arguments := ⟨none, false, none⟩

/-- Options that take a value. -/
inductive Valued where
  | config
  | keyList
  deriving DecidableEq, Repr

/-- What an argument is. -/
inductive Token where
  | help
  | version
  | dryRun
  /-- An option, with its value if that is in the same argument. -/
  | valued (option : Valued) (value : Option String)
  /-- The mark after which only operands stand. -/
  | endOfOptions
  | unknown
  deriving DecidableEq, Repr

/-- An option by its long name. -/
def longToken : List Char × Option (List Char) → Token
  | (name, value) =>
    if name = "config".toList then .valued .config (value.map String.ofList)
    else if name = "key-list".toList then .valued .keyList (value.map String.ofList)
    else if value.isSome then .unknown
    else if name = "dry-run".toList then .dryRun
    else if name = "help".toList then .help
    else if name = "version".toList then .version
    else .unknown

/-- What an argument is. -/
def token (arg : String) : Token :=
  match arg.toList with
  | ['-', '-'] => .endOfOptions
  | '-' :: '-' :: rest =>
    longToken (match Text.cutFirst '=' rest with
      | some (name, value) => (name, some value)
      | none => (rest, none))
  | '-' :: 'h' :: _ => .help
  | '-' :: 'V' :: _ => .version
  | ['-', 'c'] => .valued .config none
  | '-' :: 'c' :: '=' :: value => .valued .config (some (String.ofList value))
  | '-' :: 'c' :: value => .valued .config (some (String.ofList value))
  | _ => .unknown

/-- Whether an argument can be the value of the option before it: it does not look like an option. -/
def isValue (arg : String) : Bool := arg == "-" || !(arg.toList.head? == some '-')

/-- Take the value of an option. -/
def withValue (a : Arguments) : Valued → String → Option Arguments
  | .config, path => if a.config.isSome then none else some { a with config := some path }
  | .keyList, level =>
    if a.keyList.isSome then none
    else (Decimal.word? level.toList).map fun n => { a with keyList := some n }

/-- Read arguments after those that gave `a`. -/
def readFrom (a : Arguments) : List String → Invocation
  | [] => .run a
  | arg :: rest =>
    match token arg with
    | .help => .help
    | .version => .version
    | .dryRun => if a.dryRun then .misuse else readFrom { a with dryRun := true } rest
    | .endOfOptions => if rest.isEmpty then .run a else .misuse
    | .unknown => .misuse
    | .valued option (some value) =>
      match a.withValue option value with
      | some a => readFrom a rest
      | none => .misuse
    | .valued option none =>
      match rest with
      | [] => .misuse
      | value :: rest =>
        if isValue value then
          match a.withValue option value with
          | some a => readFrom a rest
          | none => .misuse
        else .misuse

/-- Read all arguments. -/
def read (args : List String) : Invocation := readFrom empty args

end Arguments

end Keyload
