import Keyload.Fault

/-!
# Decimal words

Reading an unsigned machine word written in decimal: an optional `+`, then one or more ASCII digits,
no blanks and no grouping, and a value below the bound.
-/
namespace Keyload.Decimal

/-- The value of an ASCII digit. -/
def digit? (c : Char) : Option Nat :=
  if '0' ≤ c ∧ c ≤ '9' then some (c.toNat - '0'.toNat) else none

/-- The number that digits spell, continuing from `acc`; refused at the first other character. -/
def spell? : Nat → List Char → Option Nat
  | acc, [] => some acc
  | acc, c :: rest => (digit? c).bind fun d => spell? (acc * 10 + d) rest

/-- The digits of an unsigned number: at least one, a leading `+` allowed. -/
def unsigned? : List Char → Option Nat
  | '+' :: c :: rest => spell? 0 (c :: rest)
  | ['+'] => none
  | [] => none
  | cs => spell? 0 cs

/-- An unsigned number below `bound`. -/
def below? (bound : Nat) (cs : List Char) : Option Nat :=
  (unsigned? cs).filter (· < bound)

/-- A 64-bit word. -/
def word? (cs : List Char) : Option Nat := below? Word.limit cs

end Keyload.Decimal
