import Keyload.Error
import Keyload.KeySpace.Bounded
import Keyload.Random.Xoshiro

/-!
# Key spaces

A key space is a list of patterns and a seed. It enumerates the keys to load, and lists the prefixes
that exist at a level. Each level's list is drawn from a stream of its own, which depends on the seed
and the level alone, so that it is the same however often and in whatever order lists are asked for.
-/
namespace Keyload

/-- A non-empty list of patterns and the seed of the prefix lists. -/
structure KeySpace where
  patterns : List Pattern
  seed : UInt64
  patterns_ne_nil : patterns ≠ []
  deriving Repr

namespace KeySpace

/-- A key space; it needs a pattern. -/
def new (patterns : List Pattern) (seed : UInt64) : Except DefinitionError KeySpace :=
  if h : patterns = [] then .error .noPatterns else .ok ⟨patterns, seed, h⟩

/-- The depth of the deepest pattern. -/
def maxDepth (ks : KeySpace) : Nat := (ks.patterns.map Pattern.depth).foldl max 0

/-- The number of leaf keys, held at the largest word. -/
def size (ks : KeySpace) : Nat := ks.patterns.foldl (fun n p => Word.satAdd n p.keySpace) 0

/-- The only pattern, for an activity that cannot mix patterns. -/
def single (ks : KeySpace) (activity : String) : Except DefinitionError Pattern :=
  match ks.patterns with
  | [p] => .ok p
  | ps => .error (.multiplePatterns activity ps.length)

/-- The keys to load. -/
def keys (ks : KeySpace) (total : Nat) : Bounded := Bounded.start ks.patterns total

variable {σ : Type} [RandomSource σ]

/-- The entries of a pattern at a level. -/
def patternPrefixes (p : Pattern) (level : Nat) : Draw σ (List String) := do
  let es ← ((Cursor.start none).stopAt level).rest p.levels
  pure ((es.toList.filter fun e => e.level == level).map Entry.key)

/-- The entries of several patterns at a level. -/
def drawPrefixes (level : Nat) : List Pattern → Draw σ (List String)
  | [] => pure []
  | p :: ps => do
    let keys ← patternPrefixes p level
    let rest ← drawPrefixes level ps
    pure (keys ++ rest)

/-- The source of a level's list. -/
def levelSource (ks : KeySpace) (level : Nat) : Xoshiro :=
  Xoshiro.ofSeed (ks.seed ^^^ UInt64.ofNat level)

/-- Every key or prefix at a level, in order. -/
def prefixes (ks : KeySpace) (level : Nat) : Except Fault (Array String) :=
  (drawPrefixes level ks.patterns (ks.levelSource level)).map fun r => r.1.toArray

/-- Entries as a text, one to a line. -/
def listing (keys : Array String) : String := keys.foldl (fun text key => text ++ key ++ "\n") ""

/-- The entries of a level as a text, one to a line. -/
def keyList (ks : KeySpace) (level : Nat) : Except Fault String := (ks.prefixes level).map listing

end KeySpace

end Keyload
