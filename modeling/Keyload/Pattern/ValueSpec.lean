import Keyload.Error
import Keyload.Number.Decimal
import Keyload.Random.Uniform
import Keyload.Text.Blank
import Keyload.Text.Split

/-!
# Value lengths and digit runs

A value spec `n` or `min,max` replaces the values of a pattern by strings of digits. Their length is
drawn from the spec, and a digit is repeated for a tenth of the length, so that values stay
compressible.
-/
namespace Keyload.Pattern

/-- The length of a value: exactly `min` when the bounds are equal, else from `min` to below `max`. -/
structure ValueSpec where
  min : Nat
  max : Nat
  min_le_max : min ≤ max := by omega
  deriving DecidableEq, Repr

namespace ValueSpec

/-- One length, surrounding blanks ignored. -/
def readLength? (cs : List Char) : Option Nat := Decimal.word? (trimBlanks cs)

/-- The two lengths of a spec: around the first comma, or one for both. -/
def readBounds? (cs : List Char) : Option (Nat × Nat) :=
  match Text.cutFirst ',' cs with
  | some (a, b) => do
    let min ← readLength? a
    let max ← readLength? b
    pure (min, max)
  | none => (readLength? cs).map fun n => (n, n)

/-- Read a spec. -/
def read? (cs : List Char) : Option ValueSpec := do
  let (min, max) ← readBounds? cs
  if h : min ≤ max then some ⟨min, max, h⟩ else none

/-- Read a spec, or fail naming its text. -/
def read (spec : String) : Except DefinitionError ValueSpec :=
  match read? spec.toList with
  | some s => .ok s
  | none => .error (.invalidValueSpec spec)

variable {σ : Type} [RandomSource σ]

/-- The length of the next value. -/
def drawLength (s : ValueSpec) : Draw σ Nat :=
  if s.min < s.max then do
    let extra ← Uniform.below (s.max - s.min)
    pure (s.min + extra)
  else pure s.min

/-- One random digit. -/
def drawDigit : Draw σ Char := do
  let d ← Uniform.below 10
  pure (Char.ofNat ('0'.toNat + d))

/-- Whether a new digit is drawn for position `i` of a value of length `len`: at every position of a short value, and
else where a run begins. -/
def changesAt (len i : Nat) : Except Fault Bool :=
  if len ≤ 10 then .ok true else (Word.rem i (len / 10)).map (· == 0)

/-- The characters of a value from position `i` on, `todo` of them, repeating `digit` until it changes. -/
def drawRuns (len : Nat) : Nat → Nat → Char → String → Draw σ String
  | 0, _, _, acc => pure acc
  | todo + 1, i, digit, acc => do
    let changes ← Draw.lift (changesAt len i)
    let digit ← if changes then drawDigit else pure digit
    drawRuns len todo (i + 1) digit (acc.push digit)

/-- A value: its length, a first digit, then the runs. -/
def draw (s : ValueSpec) : Draw σ String := do
  let len ← drawLength s
  if len ≤ Word.longest then
    let digit ← drawDigit
    drawRuns len len 0 digit ""
  else Draw.stop .tooLong

end ValueSpec

end Keyload.Pattern
