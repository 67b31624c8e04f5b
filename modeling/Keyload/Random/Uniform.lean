import Keyload.Fault
import Keyload.Random.Source

/-!
# Uniform numbers

A word is scaled to a range by the upper half of its product with the range; words whose lower half
lies beyond a zone are drawn again, so that every number is equally likely. Less than half of all
words are refused. After `patience` refusals the last candidate is taken, which keeps the draw total
for every source.
-/
namespace Keyload.Uniform

variable {σ : Type} [RandomSource σ]

/-- Words tried before a candidate is taken whatever its lower half. -/
def patience : Nat := 256

/-- The upper half of the product of a word below `size` and `range`, drawn again while the lower half lies beyond `zone`. -/
def scaled (word : Draw σ Nat) (size range zone : Nat) : Nat → Draw σ Nat
  | 0 => do
    let w ← word
    pure (w * range / size)
  | tries + 1 => do
    let w ← word
    if w * range % size ≤ zone then pure (w * range / size)
    else scaled word size range zone tries

/-- The zone of a single draw: the range shifted up to the top of the word, less one. -/
def quickZone (range : Nat) : Nat := range * Nat.pow 2 (63 - range.log2) - 1

/-- The zone of a prepared range: the largest multiple of the range, less one. -/
def exactZone (size range : Nat) : Nat := size - 1 - size % range

/-- A number below `range`. -/
def below (range : Nat) : Draw σ Nat :=
  if range = 0 then Draw.stop .emptyRange
  else scaled Draw.word Word.limit range (quickZone range) patience

/-- A position in a list of `count` entries, from a prepared range. -/
def index (count : Nat) : Draw σ Nat :=
  if count = 0 then Draw.stop .emptyRange
  else scaled Draw.word Word.limit count (exactZone Word.limit count) patience

/-- A position among `count` characters, from a prepared 32-bit range. -/
def shortIndex (count : Nat) : Draw σ Nat :=
  if count = 0 then Draw.stop .emptyRange
  else scaled Draw.halfWord Word.halfLimit count (exactZone Word.halfLimit count) patience

/-- A number of repetitions between `lo` and `hi`, both included. -/
def between (lo hi : Nat) : Draw σ Nat := do
  let n ← shortIndex (hi - lo + 1)
  pure (lo + n)

end Keyload.Uniform
