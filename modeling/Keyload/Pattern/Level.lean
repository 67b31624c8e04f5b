import Keyload.Pattern.Format
import Keyload.Pattern.Value

/-!
# Levels

One level of a key tree: how many instances every parent has there, and how they are named. The last
level of a pattern also says where the values come from.
-/
namespace Keyload.Pattern

/-- How the instances of a level are named. -/
inductive Segment where
  /-- A fixed list, in order. -/
  | names (names : Array String)
  /-- A number format, from zero on. -/
  | format (f : Format)
  /-- A name drawn afresh for every key. -/
  | random (r : Regex)
  deriving Repr

/-- One level of a compiled pattern. -/
structure Level where
  /-- The segment as written, without its value. -/
  source : String
  segment : Segment
  /-- Instances per parent. -/
  count : Nat
  /-- The declared bound of `count`, zero when there is none. -/
  max : Nat
  value : Option ValueSource
  deriving Repr

namespace Level

/-- Only the last level has values. -/
def isLeaf (l : Level) : Bool := l.value.isSome

variable {σ : Type} [RandomSource σ]

/-- The name of an instance. -/
def instanceName (l : Level) (i : Nat) : Draw σ String :=
  match l.segment with
  | .names names =>
    match names[i]? with
    | some name => pure name
    | none => Draw.stop .outOfRange
  | .format f => Draw.lift (f.render i)
  | .random r => r.draw

/-- A value for a key at this level, empty above the leaves. -/
def drawValue (l : Level) : Draw σ String :=
  match l.value with
  | some v => v.draw
  | none => pure ""

end Level

end Keyload.Pattern
