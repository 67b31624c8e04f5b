import Mathlib.Data.Nat.Digits.Lemmas
import Keyload.Number.Radix

/-!
What a numeral says: its digits, taken from an alphabet, denote the number in the base that the alphabet has digits
for, and a zero leads none but the numeral of zero (`numeral_spells`).
-/
namespace Keyload.Radix

/-- A numeral of a number in the digits of an alphabet, from zero on. -/
structure Spells (alphabet : List Char) (n : ℕ) (numeral : List Char) : Prop where
  some_digit : numeral ≠ []
  digits : ∀ c ∈ numeral, c ∈ alphabet
  value : Nat.ofDigits alphabet.length (numeral.map alphabet.idxOf).reverse = n
  no_leading_zero : numeral.head? = alphabet.head? → numeral.length = 1

variable {base : ℕ} {large : 1 < base} {upper : Bool}

theorem significant_eq (n : ℕ) : significant base large n = (Nat.digits base n).reverse := by
  induction n using Nat.strong_induction_on with
  | _ n ih =>
    rw [significant]
    split
    · rename_i zero
      simp [zero]
    · rename_i positive
      rw [ih _ (Nat.div_lt_self (Nat.pos_of_ne_zero positive) large),
        Nat.digits_def' large (Nat.pos_of_ne_zero positive),List.reverse_cons]

/-- The digits of a number are below the base and denote it, and none but zero begins with a zero. -/
theorem digits_denote (large : 1 < base) (n : ℕ) : digits base large n ≠ [] ∧ (∀ d ∈ digits base large n, d < base) ∧
    Nat.ofDigits base (digits base large n).reverse = n ∧
    ((digits base large n).head? = some 0 → (digits base large n).length = 1) := by
  unfold digits
  split
  · rename_i zero
    subst zero
    simp only [List.mem_singleton,forall_eq]
    exact ⟨List.cons_ne_nil _ _,by omega,by simp,fun _ => rfl⟩
  · rename_i positive
    rw [significant_eq,List.reverse_reverse]
    have some_digit : Nat.digits base n ≠ [] := Nat.digits_ne_nil_iff_ne_zero.mpr positive
    refine ⟨by simpa using some_digit,?_,Nat.ofDigits_digits base n,fun leading => ?_⟩
    · intro d member
      exact Nat.digits_lt_base large (List.mem_reverse.mp member)
    · rw [List.head?_reverse,List.getLast?_eq_getLast_of_ne_nil some_digit,Option.some.injEq] at leading
      exact absurd leading (Nat.getLast_digit_ne_zero base positive)

/-- The digits of a base in order. -/
def alphabet (base : ℕ) (upper : Bool) : List Char := (List.range base).map (digitChar upper)

/-- A number is written in the digits of its base. -/
theorem numeral_spells (distinct : (alphabet base upper).Nodup) (n : ℕ) :
    Spells (alphabet base upper) n (numeral base large upper n) := by
  have size : (alphabet base upper).length = base := by simp [alphabet]
  have at_digit (d : ℕ) (below : d < base) : (alphabet base upper)[d]? = some (digitChar upper d) := by
    simp [alphabet,below]
  have index (d : ℕ) (below : d < base) : (alphabet base upper).idxOf (digitChar upper d) = d := by
    have inside : d < (alphabet base upper).length := by rwa [size]
    have here : (alphabet base upper)[d] = digitChar upper d :=
      Option.some.inj ((List.getElem?_eq_getElem inside).symm.trans (at_digit d below))
    rw [← here,List.Nodup.idxOf_getElem distinct]
  obtain ⟨some_digit,below,value,leading⟩ := digits_denote large n
  constructor
  case some_digit => simpa [numeral] using some_digit
  case digits =>
    intro c member
    obtain ⟨d,digit,rfl⟩ := List.mem_map.mp member
    exact List.mem_of_getElem? (at_digit d (below d digit))
  case value =>
    have indices : (numeral base large upper n).map (alphabet base upper).idxOf = digits base large n := by
      rw [numeral,List.map_map]
      exact (List.map_congr_left fun d digit => index d (below d digit)).trans (List.map_id _)
    rw [size,indices,value]
  case no_leading_zero =>
    intro zero
    rw [numeral,List.length_map]
    apply leading
    rw [numeral,List.head?_map] at zero
    cases first : (digits base large n).head? with
    | none => exact absurd (List.head?_eq_none_iff.mp first) some_digit
    | some d =>
      have small := below d (List.mem_of_mem_head? first)
      rw [first,Option.map_some,List.head?_eq_getElem?,at_digit 0 (by omega),Option.some.injEq] at zero
      have same := congrArg (alphabet base upper).idxOf zero
      rw [index d small,index 0 (by omega)] at same
      rw [same]

end Keyload.Radix
