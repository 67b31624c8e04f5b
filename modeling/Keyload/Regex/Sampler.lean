import Keyload.Fault
import Keyload.Random.Uniform
import Keyload.Regex.Shape

/-!
# Sampling expressions

A sampler draws texts that an expression matches. Every part is written a fixed number of times,
multiplied by one draw from each of its ranges; an open repetition ends 32 above its start. Parts that
need no draw are folded together beforehand, because every draw that remains is visible in the source.
-/
namespace Keyload.Regex

/-- How often a part is written: a fixed number, times one draw from each range. -/
structure Repeat where
  fixed : Nat
  ranges : List (Nat × Nat)
  deriving DecidableEq, Repr

namespace Repeat

/-- Written once. -/
def once : Repeat := ⟨1, []⟩

/-- How many times an open repetition may exceed its start. -/
def slack : Nat := 32

/-- A count that must fit a 32-bit word. -/
def fit (n : Nat) : Except Fault Nat :=
  if n < Word.halfLimit then .ok n else .error .overflow

/-- Repeat further, from `lo` to `hi` times. -/
def again (r : Repeat) (lo hi : Nat) : Except Fault Repeat :=
  if lo = hi then (fit (r.fixed * hi)).map fun n => { r with fixed := n }
  else .ok { r with ranges := r.ranges ++ [(lo, hi)] }

variable {σ : Type} [RandomSource σ]

/-- The count so far times one draw from each range. -/
def drawFrom (count : Nat) : List (Nat × Nat) → Draw σ Nat
  | [] => pure count
  | (lo, hi) :: rest => do
    let k ← Uniform.between lo hi
    let n ← Draw.lift (fit (count * k))
    drawFrom n rest

/-- How often a part is written this time. -/
def draw (r : Repeat) : Draw σ Nat := drawFrom r.fixed r.ranges

end Repeat

/-- A compiled expression. -/
inductive Sampler where
  | literal (count : Repeat) (text : String)
  | chars (count : Repeat) (set : Charset)
  | seq (count : Repeat) (parts : List Sampler)
  | any (count : Repeat) (branches : List Sampler)
  deriving Repr

namespace Sampler

/-- The empty text. -/
def empty : Sampler := .literal Repeat.once ""

/-- A text written `n` times. -/
def repeatText (text : String) (n : Nat) : String :=
  n.fold (fun _ _ acc => acc ++ text) ""

/-- Change how often a sampler is written; a literal takes a fixed number in at once. -/
def repeated (s : Sampler) (lo hi : Nat) : Except Fault Sampler := do
  match s with
  | .literal count text =>
    let count ← count.again lo hi
    if 1 < count.fixed then
      pure (.literal { count with fixed := 1 } (repeatText text count.fixed))
    else pure (.literal count text)
  | .chars count set => pure (.chars (← count.again lo hi) set)
  | .seq count parts => pure (.seq (← count.again lo hi) parts)
  | .any count branches => pure (.any (← count.again lo hi) branches)

/-- Put a part before a sequence: joined with a literal there, and left out when it is empty. -/
def consPart (s : Sampler) (parts : List Sampler) : List Sampler :=
  match s, parts with
  | .literal count text, .literal count' text' :: rest =>
    if count = Repeat.once ∧ count' = Repeat.once then .literal Repeat.once (text ++ text') :: rest
    else s :: parts
  | _, _ => s :: parts

/-- An unrepeated empty literal. -/
def isEmpty : Sampler → Bool
  | .literal count text => count == Repeat.once && text.isEmpty
  | _ => false

/-- The parts of a sequence, unrepeated sequences spliced. -/
def spliceParts : List Sampler → List Sampler
  | [] => []
  | .seq count inner :: rest =>
    if count = Repeat.once then inner.foldr consPart (spliceParts rest)
    else .seq count inner :: spliceParts rest
  | s :: rest => if s.isEmpty then spliceParts rest else consPart s (spliceParts rest)

/-- A sequence; one of a single part is that part. -/
def ofParts (parts : List Sampler) : Sampler :=
  match spliceParts parts with
  | [] => empty
  | [s] => s
  | ss => .seq Repeat.once ss

/-- The branches of a choice, unrepeated choices spliced. -/
def spliceBranches : List Sampler → List Sampler
  | [] => []
  | .any count inner :: rest =>
    if count = Repeat.once then inner ++ spliceBranches rest
    else .any count inner :: spliceBranches rest
  | s :: rest => s :: spliceBranches rest

/-- Why an expression has no sampler. -/
inductive Unsuitable where
  | anchor
  deriving DecidableEq, Repr

mutual

/-- Compile an expression; anchors and word boundaries cannot be sampled. -/
def ofShape : Shape → Outcome Unsuitable Sampler
  | .empty => pure empty
  | .look => throw .anchor
  | .literal text => pure (.literal Repeat.once (String.ofList text))
  | .chars set _ => pure (.chars Repeat.once set)
  | .capture _ sub => ofShape sub
  | .rep lo hi _ sub => do
    let hi ← match hi with
      | some hi => pure hi
      | none =>
        match Repeat.fit (lo + Repeat.slack) with
        | .ok hi => pure hi
        | .error f => Outcome.stop f
    if hi = 0 then pure empty
    else
      match (← ofShape sub).repeated lo hi with
      | .ok s => pure s
      | .error f => Outcome.stop f
  | .concat parts => return ofParts (← ofShapes parts)
  | .alt branches => return .any Repeat.once (spliceBranches (← ofShapes branches))

/-- Compile several expressions in order. -/
def ofShapes : List Shape → Outcome Unsuitable (List Sampler)
  | [] => pure []
  | s :: ss => do
    let t ← ofShape s
    let ts ← ofShapes ss
    pure (t :: ts)

end

variable {σ : Type} [RandomSource σ]

/-- Run a step that extends a text a number of times. -/
def repeatDraw (step : String → Draw σ String) : Nat → String → Draw σ String
  | 0, acc => pure acc
  | n + 1, acc => do repeatDraw step n (← step acc)

/-- One character of a set; few or ASCII characters are drawn from a 64-bit range, others from a 32-bit one. -/
def drawChar (set : Charset) (acc : String) : Draw σ String := do
  let n := set.size
  let i ← if set.isAscii || n ≤ 64 then Uniform.index n else Uniform.shortIndex n
  match set.nth? i with
  | some c => pure (acc.push c)
  | none => pure acc

mutual

/-- Draw a text and append it. -/
def drawOnto : Sampler → String → Draw σ String
  | .literal count text, acc => do
    repeatDraw (fun acc => pure (acc ++ text)) (← count.draw) acc
  | .chars count set, acc => do repeatDraw (drawChar set) (← count.draw) acc
  | .seq count parts, acc => do repeatDraw (drawAll parts) (← count.draw) acc
  | .any count branches, acc => do
    repeatDraw (fun acc => do drawNth branches (← Uniform.index branches.length) acc)
      (← count.draw) acc

/-- Draw every part in order. -/
def drawAll : List Sampler → String → Draw σ String
  | [], acc => pure acc
  | s :: ss, acc => do drawAll ss (← drawOnto s acc)

/-- Draw the branch with a number. -/
def drawNth : List Sampler → Nat → String → Draw σ String
  | [], _, acc => pure acc
  | s :: _, 0, acc => drawOnto s acc
  | _ :: ss, i + 1, acc => drawNth ss i acc

end

/-- Draw a text. -/
def draw (s : Sampler) : Draw σ String := drawOnto s ""

end Sampler

end Keyload.Regex
