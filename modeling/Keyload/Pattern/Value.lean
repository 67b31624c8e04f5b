import Keyload.Pattern.ValueSpec
import Keyload.Regex.Basic

/-!
# Values

What the values of a pattern's leaf keys are drawn from.
-/
namespace Keyload.Pattern

/-- A source of values. -/
inductive ValueSource where
  /-- Texts that the leaf's expression matches. -/
  | regex (r : Regex)
  /-- Runs of digits. -/
  | digits (spec : ValueSpec)
  deriving Repr

namespace ValueSource

/-- Draw the next value. -/
def draw {σ : Type} [RandomSource σ] : ValueSource → Draw σ String
  | .regex r => r.draw
  | .digits spec => spec.draw

/-- The text that describes a source. -/
def describe : ValueSource → String
  | .regex r => s!"Pattern({r.source})"
  | .digits spec => s!"Digits({spec.min}..{spec.max})"

end ValueSource

end Keyload.Pattern
