import Keyload.Random.Uniform

/-!
# Slots

The bookkeeping of subtree churn. A cycle first deletes as many distinct subtrees as there are slots,
one a step, and then recreates them in the same order. A subtree stays in its slot from its delete to
its recreation, so that never more are missing than there are slots.
-/
namespace Keyload.Churn

/-- What a step asks for, by the number of the subtree. -/
inductive SlotStep where
  | delete (index : Nat)
  | recreate (index : Nat)
  deriving DecidableEq, Repr

/-- The slots of subtree churn. -/
structure Slots where
  /-- The number of subtrees to choose from. -/
  prefixes : Nat
  slots : List (Option Nat)
  /-- The subtrees deleted and not yet recreated. -/
  missing : List Nat
  /-- The slot of the next step. -/
  cursor : Nat
  deleting : Bool
  deriving DecidableEq, Repr

namespace Slots

/-- The number of slots for a share of the subtrees: rounded down, but one if there is anything to share. -/
def share (prefixes pct : Nat) : Except Fault Nat := do
  let n := min ((← Word.mul prefixes pct) / 100) prefixes
  pure (if n = 0 ∧ 0 < prefixes ∧ 0 < pct then 1 else n)

/-- Empty slots for a share of the subtrees. -/
def new (prefixes pct : Nat) : Except Fault Slots := do
  pure ⟨prefixes, List.replicate (← share prefixes pct) none, [], 0, true⟩

/-- The number of slots. -/
def size (s : Slots) : Nat := s.slots.length

/-- The number of subtrees that are missing. -/
def outstanding (s : Slots) : Nat := s.missing.length

/-- The slots after a step has used the one under the cursor. -/
def turn (s : Slots) : Slots :=
  if s.cursor + 1 = s.slots.length then { s with cursor := 0, deleting := !s.deleting }
  else { s with cursor := s.cursor + 1 }

/-- The slots after the subtree under the cursor was chosen. -/
def fill (s : Slots) (index : Nat) : Slots :=
  turn { s with slots := s.slots.set s.cursor (some index), missing := index :: s.missing }

/-- The slots after the subtree under the cursor was taken out. -/
def clear (s : Slots) (index : Nat) : Slots :=
  turn { s with slots := s.slots.set s.cursor none, missing := s.missing.erase index }

variable {σ : Type} [RandomSource σ]

/-- Draws before the first subtree that is there is taken instead. -/
def patience (prefixes : Nat) : Nat := 64 * prefixes + 1024

/-- Draw a subtree until one is met that is not missing. -/
def choose (prefixes : Nat) (missing : List Nat) : Nat → Draw σ Nat
  | 0 =>
    match (List.range prefixes).find? fun i => !missing.contains i with
    | some i => pure i
    | none => Draw.stop .emptyRange
  | tries + 1 => do
    let i ← Uniform.below prefixes
    if missing.contains i then choose prefixes missing tries else pure i

/-- The next step, none without slots. -/
def next (s : Slots) : Draw σ (Option SlotStep × Slots) :=
  if s.slots.isEmpty then pure (none, s)
  else if s.deleting then do
    let i ← choose s.prefixes s.missing (patience s.prefixes)
    pure (some (.delete i), s.fill i)
  else
    match s.slots[s.cursor]? with
    | some (some i) => pure (some (.recreate i), s.clear i)
    | _ => pure (none, s)

end Slots

end Keyload.Churn
