import Keyload.Number.Radix

/-!
# Durations

The text of a duration of whole milliseconds: seconds with the needed decimal places from one second
on, milliseconds below, and `0ns` for none.
-/
namespace Keyload.Duration

/-- The three decimals of a second, without trailing zeros. -/
def decimals (ms : Nat) : List Char :=
  let three := [ms / 100, ms / 10 % 10, ms % 10].map (Radix.digitChar false)
  (three.reverse.dropWhile (· == '0')).reverse

/-- The text of a duration. -/
def text (ms : Nat) : String :=
  if ms = 0 then "0ns"
  else if ms < 1000 then String.ofList (Radix.decimal ms) ++ "ms"
  else
    match decimals (ms % 1000) with
    | [] => String.ofList (Radix.decimal (ms / 1000)) ++ "s"
    | ds => String.ofList (Radix.decimal (ms / 1000)) ++ "." ++ String.ofList ds ++ "s"

end Keyload.Duration
