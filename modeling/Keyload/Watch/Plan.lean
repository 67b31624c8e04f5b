import Keyload.KeySpace.Basic
import Keyload.Watch.Counts

/-!
# Watch plans

Which keys are watched. A level whose count equals the number of its keys watches each of them once;
otherwise keys are drawn, or taken in order and again from the start.
-/
namespace Keyload.Watch

/-- A watched key and its level. -/
structure Target where
  level : Nat
  key : String
  deriving DecidableEq, Repr

/-- The watched keys, level by level. -/
structure Plan where
  targets : List Target
  deriving DecidableEq, Repr

/-- The number of keys that a count asks for, of those available. -/
def Count.number (available : Nat) : Count → Nat
  | .exactly n => n
  | .all => available

namespace Plan

variable {σ : Type} [RandomSource σ]

/-- The positions of `n` watched keys among those available. -/
def positions (available : Nat) (sequential : Bool) (n : Nat) : Draw σ (List Nat) :=
  if sequential then pure ((List.range n).map (· % available))
  else Draw.times (Uniform.below available) n

/-- The watched keys of a level. -/
def levelKeys (level : Nat) (keys : Array String) (count : Count) (sequential : Bool) :
    ExceptT DefinitionError (Draw σ) (List String) :=
  let n := count.number keys.size
  if n = 0 then pure []
  else if n = keys.size then pure keys.toList
  else if keys.size = 0 then throw (.emptyLevel level)
  else do
    let places ← (positions keys.size sequential n : Draw σ _)
    pure (places.filterMap (keys[·]?))

/-- The watched keys of the levels from `level` on. -/
def levels (ks : KeySpace) (sequential : Bool) :
    Nat → List Count → ExceptT DefinitionError (Draw σ) (List Target)
  | _, [] => pure []
  | level, count :: rest => do
    let keys ← (Draw.lift (ks.prefixes level) : Draw σ _)
    let chosen ← levelKeys level keys count sequential
    let others ← levels ks sequential (level + 1) rest
    pure (chosen.map (Target.mk level) ++ others)

/-- The plan of a list of counts. -/
def build (ks : KeySpace) (counts : Counts) (sequential : Bool) :
    ExceptT DefinitionError (Draw σ) Plan := do
  match counts.forDepth ks.maxDepth with
  | .error e => throw e
  | .ok (list, _) =>
    let targets ← levels ks sequential 0 list
    pure ⟨targets⟩

end Plan

end Keyload.Watch
