import Keyload.Error
import Keyload.Regex.Reader
import Keyload.Regex.Sampler

/-!
# Regular expressions

An expression that texts are drawn from: its text is read, simplified and compiled once, and refused
when it cannot be read, when no character fits one of its sets, or when it holds an anchor.
-/
namespace Keyload

/-- A compiled regular expression. -/
structure Regex where
  source : String
  sampler : Regex.Sampler
  deriving Repr

namespace Regex

/-- The simplified expression that a text denotes. -/
def shape? (source : String) : Option Shape := do
  let tree ← read? source.toList
  let (shape, _) ← Shape.ofTree Mode.initial tree
  pure shape

/-- Compile an expression, or fail naming its text. -/
def compile (source : String) : Outcome DefinitionError Regex := do
  match shape? source with
  | none => throw (.invalidRegex source)
  | some shape =>
    let sampler ← (Sampler.ofShape shape).adapt fun _ => DefinitionError.invalidRegex source
    pure ⟨source, sampler⟩

/-- Draw a text that the expression matches. -/
def draw {σ : Type} [RandomSource σ] (r : Regex) : Draw σ String := r.sampler.draw

end Regex

end Keyload
