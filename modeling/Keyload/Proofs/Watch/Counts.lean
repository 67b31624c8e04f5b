import Mathlib.Tactic.SplitIfs
import Keyload.Proofs.Number.Decimal
import Keyload.Proofs.Pattern.Written
import Keyload.Watch.Counts

/-!
Reading a list of watch counts. An entry is read as what it stands for (`readEntry_iff`). A strict list is refused for
its first entry that stands for nothing, a lenient one has no watchers there (`reading`); a strict list
is refused as well if it does not fit the tree, and a lenient one is made to fit (`fitting`).
-/
namespace Keyload.Watch.Counts

/-! ### Entries -/

/-- The entries of a list, without the blanks around them. -/
def entries (spec : String) : List (List Char) := (spec.toList.splitOn ',').map trimBlanks

/-- What an entry stands for. -/
inductive StandsFor : List Char → Count → Prop where
  | all : StandsFor ['n'] .all
  | number {entry : List Char} {n : Nat} (written : Decimal.Writes entry n) (fits : n < Word.limit) :
    StandsFor entry (.exactly n)

/-- An entry that is neither `n` nor the number of a machine word. -/
def Unread (entry : List Char) : Prop := entry ≠ ['n'] ∧ ∀ n < Word.limit, ¬ Decimal.Writes entry n

theorem readEntry_iff {entry : List Char} {count : Count} :
    readEntry? entry = some count ↔ StandsFor entry count := by
  have n_no_number : ∀ n, Decimal.Writes ['n'] n → ¬ n < Word.limit := by
    intro n written fits
    have read := Decimal.word_iff.mpr ⟨written,fits⟩
    cases read
  unfold readEntry?
  split
  · rename_i all
    subst all
    constructor
    · rintro ⟨⟩
      exact .all
    · rintro (_ | ⟨written,fits⟩)
      · rfl
      · exact (n_no_number _ written fits).elim
  · rename_i other
    rw [Option.map_eq_some_iff]
    constructor
    · rintro ⟨n,read,rfl⟩
      obtain ⟨written,fits⟩ := Decimal.word_iff.mp read
      exact .number written fits
    · rintro (_ | ⟨written,fits⟩)
      · exact (other rfl).elim
      · exact ⟨_,Decimal.word_iff.mpr ⟨written,fits⟩,rfl⟩

theorem readEntry_none {entry : List Char} : readEntry? entry = none ↔ Unread entry := by
  rw [Option.eq_none_iff_forall_ne_some]
  constructor
  · intro unread
    refine ⟨?_,fun n fits written => unread _ (readEntry_iff.mpr (.number written fits))⟩
    rintro rfl
    exact unread .all rfl
  · rintro ⟨other,no_number⟩ count read
    rcases readEntry_iff.mp read with _ | ⟨written,fits⟩
    · exact other rfl
    · exact no_number _ fits written

instance (entry : List Char) : Decidable (Unread entry) := decidable_of_iff _ readEntry_none

/-- The first entry that is not read. -/
def FirstUnread (entries : List (List Char)) (bad : List Char) : Prop :=
  ∃ before after, entries = before ++ bad :: after ∧ (∀ entry ∈ before, ¬ Unread entry) ∧ Unread bad

/-- The count of an entry: what it stands for, or no watchers. -/
def Counted (entry : List Char) (count : Count) : Prop := StandsFor entry count ∨ Unread entry ∧ count = .exactly 0

theorem firstUnread_nil {bad : List Char} : ¬ FirstUnread [] bad := by
  rintro ⟨before,after,no_entries,-⟩
  simp at no_entries

theorem firstUnread_cons {entry bad : List Char} {rest : List (List Char)} :
    FirstUnread (entry :: rest) bad ↔ Unread entry ∧ bad = entry ∨ ¬ Unread entry ∧ FirstUnread rest bad := by
  constructor
  · rintro ⟨before,after,split,read,unread⟩
    rcases before with _ | ⟨first,before⟩
    · cases split
      exact .inl ⟨unread,rfl⟩
    · cases split
      obtain ⟨first,others⟩ := List.forall_mem_cons.mp read
      exact .inr ⟨first,before,after,rfl,others,unread⟩
  · rintro (⟨unread,rfl⟩ | ⟨read,before,after,rfl,others,unread⟩)
    · exact ⟨[],rest,rfl,by simp,unread⟩
    · exact ⟨entry :: before,after,rfl,List.forall_mem_cons.mpr ⟨read,others⟩,unread⟩

variable {strict : Bool} {entry : List Char} {rest es : List (List Char)}

theorem readEntries_read {count : Count} (read : readEntry? entry = some count) :
    readEntries strict (entry :: rest) =
      (readEntries strict rest).map fun others => (count :: others.1,others.2) := by
  rw [readEntries]
  simp only [read]
  cases readEntries strict rest <;> rfl

theorem readEntries_refused (unread : readEntry? entry = none) :
    readEntries true (entry :: rest) = .error (.invalidWatchCount (String.ofList entry)) := by
  rw [readEntries]
  simp only [unread]
  rfl

theorem readEntries_skipped (unread : readEntry? entry = none) :
    readEntries false (entry :: rest) = (readEntries false rest).map fun others =>
      (.exactly 0 :: others.1,notNumber (String.ofList entry) :: others.2) := by
  rw [readEntries]
  simp only [unread]
  cases readEntries false rest <;> rfl

theorem map_error_iff {ε α β : Type} {x : Except ε α} {f : α → β} {e : ε} : x.map f = .error e ↔ x = .error e := by
  cases x <;> simp [Except.map]

theorem map_ok_iff {ε α β : Type} {x : Except ε α} {f : α → β} {b : β} :
    x.map f = .ok b ↔ ∃ a, x = .ok a ∧ f a = b := by
  cases x <;> simp [Except.map]

theorem readEntries_error {e : DefinitionError} : readEntries strict es = .error e ↔
    strict = true ∧ ∃ bad, FirstUnread es bad ∧ e = .invalidWatchCount (String.ofList bad) := by
  induction es with
  | nil => simp [readEntries,firstUnread_nil]
  | cons entry rest ih =>
    simp only [firstUnread_cons]
    cases read : readEntry? entry with
    | some count =>
      have readable : ¬ Unread entry := by simp [← readEntry_none,read]
      rw [readEntries_read read,map_error_iff,ih]
      simp [readable]
    | none =>
      have unread := readEntry_none.mp read
      cases strict with
      | true =>
        rw [readEntries_refused read]
        simp [unread,eq_comm]
      | false =>
        rw [readEntries_skipped read,map_error_iff,ih]
        simp

theorem readEntries_ok {counts : List Count} {warnings : List LogEvent}
    (read : readEntries strict es = .ok (counts,warnings)) :
    List.Forall₂ Counted es counts ∧
      warnings = (es.filter (Unread ·)).map fun entry => notNumber (String.ofList entry) := by
  induction es generalizing counts warnings with
  | nil =>
    cases read
    exact ⟨.nil,rfl⟩
  | cons entry rest ih =>
    cases first : readEntry? entry with
    | some count =>
      have readable : ¬ Unread entry := by simp [← readEntry_none,first]
      rw [readEntries_read first,map_ok_iff] at read
      obtain ⟨others,read,same⟩ := read
      cases same
      obtain ⟨counted,warned⟩ := ih read
      exact ⟨.cons (.inl (readEntry_iff.mp first)) counted,by simpa [readable] using warned⟩
    | none =>
      have unread := readEntry_none.mp first
      cases strict with
      | true =>
        rw [readEntries_refused first] at read
        cases read
      | false =>
        rw [readEntries_skipped first,map_ok_iff] at read
        obtain ⟨others,read,same⟩ := read
        cases same
        obtain ⟨counted,warned⟩ := ih read
        exact ⟨.cons (.inr ⟨unread,rfl⟩) counted,by simpa [unread] using warned⟩

/-! ### Lists -/

theorem read_eq (spec : String) (strict : Bool) :
    read spec strict = (readEntries strict (entries spec)).map fun r => (⟨r.1,strict⟩,r.2) := by
  rw [read,Text.splitAll_eq,entries]
  cases readEntries strict ((spec.toList.splitOn ',').map trimBlanks) <;> rfl

theorem read_error {spec : String} {strict : Bool} {e : DefinitionError} : read spec strict = .error e ↔
    strict = true ∧ ∃ bad, FirstUnread (entries spec) bad ∧ e = .invalidWatchCount (String.ofList bad) := by
  rw [read_eq,map_error_iff,readEntries_error]

theorem read_ok {spec : String} {strict : Bool} {c : Counts} {warnings : List LogEvent}
    (read : read spec strict = .ok (c,warnings)) :
    c.strict = strict ∧ List.Forall₂ Counted (entries spec) c.list ∧
      warnings = ((entries spec).filter (Unread ·)).map fun entry => notNumber (String.ofList entry) := by
  rw [read_eq,map_ok_iff] at read
  obtain ⟨r,read,same⟩ := read
  cases same
  exact ⟨rfl,readEntries_ok read⟩

example : read " 3,n , x" true = .error (.invalidWatchCount "x") := by decide

/-! ### Levels -/

variable {c : Counts} {depth : Nat}

/-- The count of a level; a level that is not listed has no watchers. -/
def countAt (c : Counts) (level : Nat) : Count := c.list[level]?.getD (.exactly 0)

theorem forDepth_error {e : DefinitionError} : c.forDepth depth = .error e ↔
    c.strict = true ∧ c.list.length ≠ depth ∧ e = .watchLevelMismatch c.list.length depth := by
  unfold forDepth levels
  split
  · rename_i fits
    simp [fits]
  · rename_i uneven
    split
    · rename_i strict
      simp [strict,uneven,eq_comm]
    · rename_i lenient
      simp [lenient]

/-- A strict list has a count for every level and no more. -/
def Fits (c : Counts) (depth : Nat) : Prop := c.strict = true → c.list.length = depth

theorem fits_or (c : Counts) (depth : Nat) : c.Fits depth ∨ ∃ e, c.forDepth depth = .error e := by
  by_cases fits : c.Fits depth
  · exact .inl fits
  · obtain ⟨strict,uneven⟩ := Classical.not_imp.mp fits
    exact .inr ⟨_,forDepth_error.mpr ⟨strict,uneven,rfl⟩⟩

theorem forDepth_fits (fits : c.Fits depth) :
    ∃ warnings, c.forDepth depth = .ok ((List.range depth).map c.countAt,warnings) := by
  unfold forDepth
  split_ifs with even strict
  · exact ⟨_,rfl⟩
  · exact (even (fits strict)).elim
  · exact ⟨_,rfl⟩

/-- What is too much is dropped, and what is missing has no watchers. -/
theorem fitted_eq (c : Counts) (depth : Nat) : (List.range depth).map c.countAt =
    c.list.take depth ++ List.replicate (depth - c.list.length) (.exactly 0) := by
  apply List.ext_getElem?
  intro level
  rw [List.getElem?_map,List.getElem?_append,List.length_take]
  unfold countAt
  by_cases inside : level < depth
  · rw [List.getElem?_range inside]
    by_cases listed : level < c.list.length
    · rw [if_pos (by omega),List.getElem?_take_of_lt inside]
      simp [listed]
    · rw [if_neg (by omega),List.getElem?_replicate_of_lt (by omega)]
      simp [Nat.le_of_not_lt listed]
  · rw [List.getElem?_eq_none (by simpa using inside),if_neg (by omega),List.getElem?_eq_none (by simp; omega)]
    rfl

/-- What is read of a list. -/
structure Reading (spec : String) (strict : Bool) : Prop where
  refused : ∀ e, read spec strict = .error e ↔
    strict = true ∧ ∃ bad, FirstUnread (entries spec) bad ∧ e = .invalidWatchCount (String.ofList bad)
  counted : ∀ c warnings, read spec strict = .ok (c,warnings) →
    c.strict = strict ∧ List.Forall₂ Counted (entries spec) c.list ∧
      warnings = ((entries spec).filter (Unread ·)).map fun entry => notNumber (String.ofList entry)

/-- What becomes of a list in a tree of some depth. -/
structure Fitting (c : Counts) (depth : Nat) : Prop where
  refused : ∀ e, c.forDepth depth = .error e ↔
    c.strict = true ∧ c.list.length ≠ depth ∧ e = .watchLevelMismatch c.list.length depth
  fitted : c.Fits depth → ∃ warnings, c.forDepth depth =
    .ok (c.list.take depth ++ List.replicate (depth - c.list.length) (.exactly 0),warnings)

theorem reading (spec : String) (strict : Bool) : Reading spec strict := by
  constructor
  case refused => exact fun e => read_error
  case counted => exact fun c warnings => read_ok

theorem fitting (c : Counts) (depth : Nat) : Fitting c depth := by
  constructor
  case refused => exact fun e => forDepth_error
  case fitted =>
    intro fits
    rw [← fitted_eq]
    exact forDepth_fits fits

end Keyload.Watch.Counts
