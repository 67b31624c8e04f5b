import Keyload.Pattern.Level

/-!
# Patterns

A compiled pattern: one level for each segment of the line it was written as.
-/
namespace Keyload

/-- A compiled pattern. -/
structure Pattern where
  source : String
  levels : List Pattern.Level
  deriving Repr

namespace Pattern

/-- The number of levels. -/
def depth (p : Pattern) : Nat := p.levels.length

/-- The level that holds the values. -/
def leaf? (p : Pattern) : Option Level := p.levels.getLast?

/-- The number of leaf keys: the product of the counts, held at the largest word. -/
def keySpace (p : Pattern) : Nat := p.levels.foldl (fun n l => Word.satMul n l.count) 1

end Pattern

end Keyload
