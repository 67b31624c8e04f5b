import Keyload.CommandLine.Conclusion

/-!
# The command

Reads files and the environment, and tells what the command comes to.
-/
namespace Keyload.Command

/-- Where a process finds its own environment. -/
def environmentFile : String := "/proc/self/environ"

/-- A variable from its line. -/
def variableOf (line : String) : Option (String × String) :=
  (Text.cutFirst '=' line.toList).map fun (name, value) =>
    (String.ofList name, String.ofList value)

/-- The environment of the process. -/
def environment : IO Settings.Environment := do
  try
    let text ← IO.FS.readFile environmentFile
    return (Text.splitAll (Char.ofNat 0) text.toList).filterMap (variableOf ∘ String.ofList)
  catch _ => return []

/-- A file of settings. -/
def file (path : String) : IO Settings.SourceFile := do
  try return .holding (← IO.FS.readFile path)
  catch _ => return .missing

end Keyload.Command

/-- Run the command. -/
def main (args : List String) : IO UInt32 := do
  let env ← Keyload.Command.environment
  let seed ← IO.rand 0 Keyload.Word.top
  let c ← Keyload.Conclusion.ofArguments Keyload.Command.file env (UInt64.ofNat seed) args
  (← IO.getStdout).putStr c.output
  if !c.complaint.isEmpty then IO.eprintln c.complaint
  return UInt32.ofNat c.code
