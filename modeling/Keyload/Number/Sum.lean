/-!
# Sums

The sum of a list of numbers.
-/
namespace Keyload

/-- The sum of a list. -/
def sumAll : List Nat → Nat
  | [] => 0
  | n :: rest => n + sumAll rest

end Keyload
