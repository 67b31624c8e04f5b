/-!
# Faults

Some inputs do not end in an error value but stop the whole run: a sum that does not fit its machine
word, an index outside its list, a field too wide to print. They are kept apart from the errors of
the domain, so that a theorem can say which of the two an operation may end in.
-/
namespace Keyload

/-- Why a run stops at once. -/
inductive Fault where
  /-- An arithmetic result does not fit its machine word. -/
  | overflow
  /-- An index or a slice bound lies outside its list. -/
  | outOfRange
  /-- A field to print is wider than 65535 characters. -/
  | tooWide
  /-- A text or a list is longer than memory can address. -/
  | tooLong
  /-- A number is drawn from an empty range. -/
  | emptyRange
  /-- A number is divided by zero. -/
  | zeroDivisor
  deriving DecidableEq, Repr

/-- A computation that yields a value, fails with a domain error `ε`, or stops with a fault. -/
abbrev Outcome (ε : Type) := ExceptT ε (Except Fault)

/-- Stop with a fault. -/
def Outcome.stop {ε α : Type} (f : Fault) : Outcome ε α := ExceptT.mk (.error f)

namespace Word

/-- One more than the largest 64-bit word. -/
def limit : Nat := Nat.pow 2 64

/-- One more than the largest 32-bit word. -/
def halfLimit : Nat := Nat.pow 2 32

/-- One more than the largest 64-bit word with a sign. -/
def signedLimit : Nat := Nat.pow 2 63

/-- The largest 64-bit word. -/
def top : Nat := limit - 1

/-- The longest text or list that memory can address. -/
def longest : Nat := signedLimit - 1

/-- A number that must fit a 64-bit word. -/
def fit (n : Nat) : Except Fault Nat :=
  if n < limit then .ok n else .error .overflow

/-- A sum that must fit a 64-bit word. -/
def add (a b : Nat) : Except Fault Nat := fit (a + b)

/-- A product that must fit a 64-bit word. -/
def mul (a b : Nat) : Except Fault Nat := fit (a * b)

/-- A remainder, whose divisor must not be zero. -/
def rem (a b : Nat) : Except Fault Nat :=
  if b = 0 then .error .zeroDivisor else .ok (a % b)

/-- A product that stays at the largest word when it does not fit. -/
def satMul (a b : Nat) : Nat := min (a * b) top

/-- A sum that stays at the largest word when it does not fit. -/
def satAdd (a b : Nat) : Nat := min (a + b) top

theorem fit_eq_ok_iff {n m : Nat} : fit n = .ok m ↔ n < limit ∧ m = n := by
  unfold fit
  split
  · simp_all [eq_comm]
  · simp only [reduceCtorEq, false_iff]
    omega

end Word

end Keyload
