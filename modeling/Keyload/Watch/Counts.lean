import Keyload.Error
import Keyload.Log
import Keyload.Number.Decimal
import Keyload.Text.Blank
import Keyload.Text.Split

/-!
# Watchers per level

A list such as `1,5,n` says how many keys to watch at every level, `n` standing for all of them. A
strict list must hold nothing but numbers and fit the depth of the tree; a lenient one is made to fit,
with a warning.
-/
namespace Keyload.Watch

/-- How many keys to watch at a level. -/
inductive Count where
  | exactly (n : Nat)
  | all
  deriving DecidableEq, Repr

/-- The counts of all levels, first level first. -/
structure Counts where
  list : List Count
  strict : Bool
  deriving DecidableEq, Repr

namespace Counts

/-- A count that is neither a number nor `n`. -/
def notNumber (entry : String) : LogEvent :=
  ⟨.warning, [("entry", entry),
    ("message", "Watch count is not an integer, this level will have 0 watchers")]⟩

/-- A list that does not fit the tree. -/
def notFitting (levels depth : Nat) : LogEvent :=
  ⟨.warning, [("depth", s!"{depth}"), ("levels", s!"{levels}"),
    ("message", "Watch counts don't match the pattern levels; extra levels are ignored, " ++
      "missing levels get 0")]⟩

/-- One count without its surrounding blanks. -/
def readEntry? (entry : List Char) : Option Count :=
  if entry = ['n'] then some .all else (Decimal.word? entry).map .exactly

/-- The counts, and a warning for each that had to be read as zero. -/
def readEntries (strict : Bool) :
    List (List Char) → Except DefinitionError (List Count × List LogEvent)
  | [] => .ok ([], [])
  | entry :: rest =>
    match readEntry? entry with
    | some count => do
      let (counts, warnings) ← readEntries strict rest
      .ok (count :: counts, warnings)
    | none =>
      if strict then .error (.invalidWatchCount (String.ofList entry))
      else do
        let (counts, warnings) ← readEntries strict rest
        .ok (.exactly 0 :: counts, notNumber (String.ofList entry) :: warnings)

/-- Read a list of counts. -/
def read (spec : String) (strict : Bool) : Except DefinitionError (Counts × List LogEvent) := do
  let (counts, warnings) ← readEntries strict ((Text.splitAll ',' spec.toList).map trimBlanks)
  .ok (⟨counts, strict⟩, warnings)

/-- The number of levels listed. -/
def levels (c : Counts) : Nat := c.list.length

/-- The counts of a tree with `depth` levels: what is too much is dropped, what is missing is zero. -/
def fitted (c : Counts) (depth : Nat) : List Count :=
  (List.range depth).map fun level => c.list[level]?.getD (.exactly 0)

/-- The counts of a tree with `depth` levels; a strict list must have that many. -/
def forDepth (c : Counts) (depth : Nat) : Except DefinitionError (List Count × List LogEvent) :=
  if c.levels = depth then .ok (c.fitted depth, [])
  else if c.strict then .error (.watchLevelMismatch c.levels depth)
  else .ok (c.fitted depth, [notFitting c.levels depth])

end Counts

end Keyload.Watch
