import Keyload.Random.Uniform
import Keyload.Store.Operation

/-!
# Replays

Next to its watch, a key can be read in a fixed period. The first period starts after a delay of some
whole seconds, so that the reads of different keys do not fall together.
-/
namespace Keyload.Watch

/-- The periodic reads of a watched key. -/
structure Replay where
  key : String
  intervalMs : Nat
  delayMs : Nat
  deriving DecidableEq, Repr

namespace Replay

/-- Reads of a key with a drawn delay, at most the whole seconds of the period. -/
def new {σ : Type} [RandomSource σ] (key : String) (intervalMs : Nat) : Draw σ Replay := do
  let secs ← Uniform.below (max (intervalMs / 1000) 1)
  pure ⟨key, intervalMs, (secs + 1) * 1000⟩

/-- The read: the whole subtree of the key. -/
def operation (r : Replay) : Operation := .get r.key true false false

end Replay

end Keyload.Watch
