/-!
# Numerals

Numbers written in a positional radix without leading zeros.
-/
namespace Keyload.Radix

theorem one_lt_two : 1 < 2 := by decide

theorem one_lt_eight : 1 < 8 := by decide

theorem one_lt_ten : 1 < 10 := by decide

theorem one_lt_sixteen : 1 < 16 := by decide

/-- The character of one digit, letters from ten on. -/
def digitChar (upper : Bool) (d : Nat) : Char :=
  if d < 10 then Char.ofNat ('0'.toNat + d)
  else Char.ofNat ((if upper then 'A' else 'a').toNat + (d - 10))

/-- The digits of `n`, most significant first; none for zero. -/
def significant (base : Nat) (h : 1 < base) (n : Nat) : List Nat :=
  if _hn : n = 0 then [] else significant base h (n / base) ++ [n % base]
termination_by n
decreasing_by exact Nat.div_lt_self (Nat.pos_of_ne_zero _hn) h

/-- The digits of `n`, most significant first; a single zero for zero. -/
def digits (base : Nat) (h : 1 < base) (n : Nat) : List Nat :=
  if n = 0 then [0] else significant base h n

/-- The numeral of `n`. -/
def numeral (base : Nat) (h : 1 < base) (upper : Bool) (n : Nat) : List Char :=
  (digits base h n).map (digitChar upper)

/-- The decimal numeral of `n`. -/
def decimal (n : Nat) : List Char := numeral 10 one_lt_ten false n

/-- Two lower-case hexadecimal digits. -/
def hexByte (b : UInt8) : List Char :=
  [digitChar false (b.toNat / 16), digitChar false (b.toNat % 16)]

/-- Sixteen lower-case hexadecimal digits. -/
def hexWord (w : UInt64) : String :=
  String.ofList ((List.range 16).map fun i => digitChar false (w.toNat / Nat.pow 16 (15 - i) % 16))

/-- The lower-case hexadecimal text of bytes. -/
def hexBytes (bs : ByteArray) : String :=
  String.ofList (bs.toList.flatMap hexByte)

end Keyload.Radix
