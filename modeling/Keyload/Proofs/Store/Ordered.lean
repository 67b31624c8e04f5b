import Std.Data.TreeMap.Lemmas
import Keyload.Store.Memory

/-!
Why a scan finds all keys that start with a text. In the order of texts such keys stand together, from the text
itself on: a key that is not before the text and does not start with it has left them behind for good. So the scan
from the text on, which ends at the first other key, yields exactly the entries whose keys start with the text.
-/
namespace Keyload.Memory

/-- Past a text, what follows a list of characters that does not start with the text does not start with it either. -/
private theorem prefix_of_between {base : List Char} : ∀ {k k' : List Char}, ¬ k < base → ¬ k' < k → base <+: k' →
    base <+: k := by
  induction base with
  | nil => intro k k' _ _ _; exact List.nil_prefix
  | cons a base ih =>
    intro k k' after before starts
    obtain ⟨more,rfl⟩ := starts
    cases k with
    | nil => exact absurd (List.nil_lt_cons a base) after
    | cons b k =>
      rw [List.cons_append,List.cons_lt_cons_iff,not_or,not_and] at before
      rw [List.cons_lt_cons_iff,not_or,not_and] at after
      obtain rfl : a = b := Char.le_antisymm (Char.not_lt.mp after.1) (Char.not_lt.mp before.1)
      exact (List.prefix_cons_inj a).mpr (ih (after.2 rfl) (before.2 rfl) (List.prefix_append base more))

private theorem le_iff {a b : String} : a ≤ b ↔ ¬ b.toList < a.toList := by
  rw [← String.not_lt,String.lt_iff]

private theorem isGE_iff {a b : String} : (compare a b).isGE = true ↔ b ≤ a :=
  isGE_compareOfLessAndEq String.le_antisymm String.not_le String.le_total

/-- A key between a text and one that starts with it starts with it too. -/
theorem startsWith_between {base k k' : String} (after : base ≤ k) (before : k ≤ k')
    (starts : startsWith base k' = true) : startsWith base k = true := by
  rw [startsWith,List.isPrefixOf_iff_prefix] at starts ⊢
  exact prefix_of_between (le_iff.mp after) (le_iff.mp before) starts

/-- A key is not before a text that it starts with. -/
theorem le_of_startsWith {base k : String} (starts : startsWith base k = true) : base ≤ k := by
  rw [startsWith,List.isPrefixOf_iff_prefix] at starts
  exact le_iff.mpr (List.not_lt.mpr starts.le)

/-- Where a property never comes back, the first elements that have it are all that have it. -/
private theorem takeWhile_eq_filter {α : Type} {p : α → Bool} {l : List α}
    (leaves : l.Pairwise fun a b => p b = true → p a = true) : l.takeWhile p = l.filter p := by
  induction leaves with
  | nil => rfl
  | @cons a l later _ ih =>
    cases here : p a with
    | true => simp [here,ih]
    | false =>
      have none_later : l.filter p = [] := by
        refine List.filter_eq_nil_iff.mpr fun b member holds => ?_
        rw [later b member holds] at here
        cases here
      simp [here,none_later]

/-- The scan yields the entries whose keys start with the text, and no others. -/
theorem below_eq (m : Memory) (base : String) :
    m.below base = m.data.toList.filter fun (k,_) => startsWith base k := by
  have ordered : m.data.toList.Pairwise fun e e' => e.1 ≤ e'.1 := by
    refine (Std.TreeMap.ordered_keys_toList (t := m.data)).imp fun {e e'} less => String.not_lt.mp fun greater => ?_
    exact String.lt_irrefl _ (String.lt_trans greater (compareOfLessAndEq_eq_lt.mp less))
  have from_on : ∀ e ∈ m.entriesFrom base, base ≤ e.1 := fun e member => isGE_iff.mp (List.mem_filter.mp member).2
  have leaves : (m.entriesFrom base).Pairwise fun e e' => startsWith base e'.1 = true → startsWith base e.1 = true :=
    (ordered.filter _).imp_of_mem fun member _ before starts => startsWith_between (from_on _ member) before starts
  rw [below,takeWhile_eq_filter leaves,entriesFrom,List.filter_filter]
  refine List.filter_congr fun e _ => ?_
  cases starts : startsWith base e.1 with
  | false => simp [starts]
  | true => simpa [starts] using isGE_iff.mpr (le_of_startsWith starts)

end Keyload.Memory
