import Keyload.CommandLine.Arguments
import Keyload.KeySpace.Lists
import Keyload.Run.Backoff
import Keyload.Run.Schedule
import Keyload.Settings.Layers
import Keyload.Settings.Validation

/-!
# What a command comes to

A command reads its settings, checks them and compiles the key space. Then it lists the keys of a level,
or runs on a store in memory, or needs a store that it can reach. Files are read in any monad, so that the
answer of a command is a function of what its files hold.
-/
namespace Keyload

/-- How a command ends. -/
structure Conclusion where
  code : Nat
  output : String
  /-- What is told beside the output. -/
  complaint : String
  deriving DecidableEq, Repr

namespace Conclusion

/-- The end of a command that did what it was asked. -/
def success (output : String) : Conclusion := ⟨0, output, ""⟩

/-- The end of a command that failed. -/
def failure (e : RunError) : Conclusion := ⟨1, "", e.message?.getD "failed"⟩

/-- The end of a command whose arguments make no sense. -/
def misuse : Conclusion := ⟨2, "", "For more information, try '--help'."⟩

/-- The end of a command that stopped with a fault. -/
def crash : Conclusion := ⟨101, "", "stopped"⟩

/-- What the command is called. -/
def name : String := "pattern-workload"

/-- The release of the command. -/
def version : String := "0.1.0"

/-- What the command does, and its options. -/
def help : String :=
  "A pattern-driven workload generator for hierarchical key/value stores such as etcd. Compiles a small\n" ++
  "key-space language, drives puts/gets/deletes/watches at controlled rates and reports latency and\n" ++
  "throughput.\n\n" ++
  s!"Usage: {name} [OPTIONS]\n\n" ++
  "Options:\n" ++
  "  -c, --config <CONFIG>      Configuration file merged over the defaults and `CONFIG_PATH`\n" ++
  "      --dry-run              Run against an in-process store instead of etcd\n" ++
  "      --key-list <KEY_LIST>  Print every key or prefix of this level and exit\n" ++
  "  -h, --help                 Print help\n" ++
  "  -V, --version              Print version\n"

/-- The name of the variable that names a file of settings. -/
def fileVariable : String := "CONFIG_PATH"

/-- The settings of a command, unchecked. -/
def settings {m : Type → Type} [Monad m] (files : String → m Settings.SourceFile)
    (env : Settings.Environment) (a : Arguments) : m (Except RunError Settings) := do
  let file ← (env.lookup fileVariable).mapM files
  match Settings.load file env, a.config with
  | .ok s, some path => return s.under (some (← files path)) env
  | loaded, _ => return loaded

/-- Run on a store in memory: what the main task comes to, if it ends. -/
def rehearse (e : Engine) : Outcome RunError (Option Finding) :=
  match Backoff.connect e.settings.client 1 (Site.fresh Behavior.prompt Memory.empty) with
  | (some (.ok pool), ms, site) =>
    match ((Run.ofEngine e .workload site pool ms).seek Run.isOver).ending? with
    | some ending => some <$> ending
    | none => pure none
  | (some (.error e), _, _) => throw (.store e)
  | (none, _, _) => pure none

/-- The end of a command whose settings are read, with the seed to use if they give none. -/
def ofSettings (s : Settings) (a : Arguments) (freshSeed : UInt64) : Outcome RunError Conclusion := do
  let _ ← (ExceptT.mk (.ok s.check) : Outcome RunError _)
  let seed := s.workload.seed.elim freshSeed UInt64.ofNat
  let e ← (Engine.new s seed).adapt .definition
  match a.keyList with
  | some level =>
    let text ← ExceptT.lift (PrefixLists.keyList level (PrefixLists.new e.keySpace)).1
    pure (success text)
  | none =>
    if a.dryRun then
      let _ ← rehearse e
      pure (success "")
    else throw (.store (.backend "no store can be reached"))

/-- The end of a command. -/
def ofArguments {m : Type → Type} [Monad m] (files : String → m Settings.SourceFile)
    (env : Settings.Environment) (freshSeed : UInt64) (args : List String) : m Conclusion := do
  match Arguments.read args with
  | .misuse => return misuse
  | .help => return success help
  | .version => return success s!"{name} {version}\n"
  | .run a =>
    match ← settings files env a with
    | .error e => return failure e
    | .ok s =>
      match (ofSettings s a freshSeed).run with
      | .ok (.ok c) => return c
      | .ok (.error e) => return failure e
      | .error _ => return crash

end Conclusion

end Keyload
