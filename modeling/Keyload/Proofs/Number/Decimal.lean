import Mathlib.Data.Nat.Digits.Lemmas
import Keyload.Number.Decimal

/-!
What a decimal word says. Digits are read as the number they denote in base ten (`spell_iff`), with a `+` in front of
them or without, and a word is read whenever the number is below its limit (`word_iff`).
-/
namespace Keyload.Decimal

/-- The number that an ASCII digit stands for. -/
def value (c : Char) : Nat := c.toNat - '0'.toNat

/-- Digits that denote a number, the highest first. -/
def Denotes (digits : List Char) (n : Nat) : Prop :=
  (∀ c ∈ digits, c.isDigit = true) ∧ Nat.ofDigits 10 (digits.map value).reverse = n

/-- A number as it is written: at least one digit, and perhaps a sign. -/
inductive Writes : List Char → Nat → Prop where
  | plain {digits : List Char} {n : Nat} (some_digit : digits ≠ []) (denotes : Denotes digits n) : Writes digits n
  | signed {digits : List Char} {n : Nat} (some_digit : digits ≠ []) (denotes : Denotes digits n) :
    Writes ('+' :: digits) n

theorem digit_iff {c : Char} {d : Nat} : digit? c = some d ↔ c.isDigit = true ∧ value c = d := by
  have digit : c.isDigit = true ↔ '0' ≤ c ∧ c ≤ '9' := by
    simp only [Char.isDigit,Bool.and_eq_true,decide_eq_true_eq]
    exact Iff.rfl
  unfold digit?
  split
  · rename_i inside
    exact ⟨fun same => ⟨digit.mpr inside,Option.some.inj same⟩,fun same => congrArg some same.2⟩
  · rename_i outside
    exact iff_of_false (by simp) fun same => outside (digit.mp same.1)

/-- A digit in front of others. -/
theorem denotes_cons {c : Char} {digits : List Char} {n : Nat} :
    Denotes (c :: digits) n ↔ c.isDigit = true ∧ ∃ m, Denotes digits m ∧ n = m + 10 ^ digits.length * value c := by
  unfold Denotes
  rw [List.map_cons,List.reverse_cons,Nat.ofDigits_append,Nat.ofDigits_singleton,List.length_reverse,List.length_map,
    List.forall_mem_cons]
  constructor
  · rintro ⟨⟨first,others⟩,rfl⟩
    exact ⟨first,_,⟨others,rfl⟩,rfl⟩
  · rintro ⟨first,m,⟨others,rfl⟩,rfl⟩
    exact ⟨⟨first,others⟩,rfl⟩

theorem spell_iff {digits : List Char} {acc n : Nat} :
    spell? acc digits = some n ↔ ∃ m, Denotes digits m ∧ n = acc * 10 ^ digits.length + m := by
  induction digits generalizing acc with
  | nil =>
    have nothing : ∀ m, Denotes [] m ↔ 0 = m := fun m => by simp [Denotes]
    simp [spell?,nothing,eq_comm]
  | cons c digits ih =>
    simp only [spell?,Option.bind_eq_some_iff,digit_iff,ih,denotes_cons,List.length_cons,Nat.pow_succ]
    constructor
    · rintro ⟨d,⟨digit,rfl⟩,m,denotes,rfl⟩
      exact ⟨_,⟨digit,m,denotes,rfl⟩,by ring⟩
    · rintro ⟨-,⟨digit,m,denotes,rfl⟩,rfl⟩
      exact ⟨_,⟨digit,rfl⟩,m,denotes,by ring⟩

theorem spell_denotes {digits : List Char} {n : Nat} : spell? 0 digits = some n ↔ Denotes digits n := by
  rw [spell_iff]
  simp

theorem value_lt {c : Char} (digit : c.isDigit = true) : value c < 10 := by
  have last : c.toNat ≤ '9'.toNat := by
    simp only [Char.isDigit,Bool.and_eq_true,decide_eq_true_eq] at digit
    exact digit.2
  have zero : '0'.toNat = 48 := rfl
  have nine : '9'.toNat = 57 := rfl
  unfold value
  omega

/-- So many digits denote no larger number. -/
theorem denotes_lt {digits : List Char} {n : Nat} (denotes : Denotes digits n) : n < 10 ^ digits.length := by
  obtain ⟨digit,rfl⟩ := denotes
  have small : ∀ d ∈ (digits.map value).reverse, d < 10 := by
    intro d member
    obtain ⟨c,there,rfl⟩ := List.mem_map.mp (List.mem_reverse.mp member)
    exact value_lt (digit c there)
  simpa using Nat.ofDigits_lt_base_pow_length (by decide) small

/-- A sign is no digit. -/
theorem not_denotes_sign {digits : List Char} {n : Nat} : ¬ Denotes ('+' :: digits) n := by
  rintro ⟨digit,-⟩
  exact absurd (digit '+' List.mem_cons_self) (by decide)

theorem unsigned_iff {cs : List Char} {n : Nat} : unsigned? cs = some n ↔ Writes cs n := by
  unfold unsigned?
  split
  · rename_i c rest
    rw [spell_denotes]
    constructor
    · exact .signed (List.cons_ne_nil c rest)
    · rintro (⟨-,denotes⟩ | ⟨-,denotes⟩)
      · exact (not_denotes_sign denotes).elim
      · exact denotes
  · refine iff_of_false (by simp) ?_
    rintro (⟨-,denotes⟩ | ⟨no_digit,-⟩)
    · exact not_denotes_sign denotes
    · exact no_digit rfl
  · refine iff_of_false (by simp) ?_
    rintro ⟨no_digit,-⟩
    exact no_digit rfl
  · rename_i signed sign empty
    rw [spell_denotes]
    constructor
    · exact .plain empty
    · rintro (⟨-,denotes⟩ | ⟨some_digit,-⟩)
      · exact denotes
      · obtain ⟨c,rest,rfl⟩ := List.exists_cons_of_ne_nil some_digit
        exact (signed c rest rfl).elim

/-- A word is read as the number that is written, if there is room for it. -/
theorem word_iff {cs : List Char} {n : Nat} : word? cs = some n ↔ Writes cs n ∧ n < Word.limit := by
  rw [word?,below?,Option.filter_eq_some_iff,unsigned_iff,decide_eq_true_eq]

example : word? "+0042".toList = some 42 := by decide

end Keyload.Decimal
