import Mathlib.Data.List.Perm.Subperm
import Keyload.Churn.Slots
import Keyload.Proofs.KeySpace.Walk

/-!
The cycle of the slots. Subtrees go missing one by one in the order of the slots until every slot holds one, and
come back in the same order, so that the subtrees in slots are always the missing ones, each of them once. A step
never fails, and every step that is possible can be drawn.
-/
namespace Keyload.Churn.Slots
open Draw (Reads Tape Scripted scripted_pure scripted_stop)

/-- The subtrees in slots, in the order of the slots. -/
def held (s : Slots) : List Nat := s.slots.filterMap id

/-- The steps taken since the last whole cycle. -/
def place (s : Slots) : Nat := if s.deleting then s.cursor else s.size + s.cursor

/-- While subtrees are deleted, they fill the slots up to the cursor; later those from the cursor on are still full. -/
structure Sound (s : Slots) : Prop where
  room : s.size ≤ s.prefixes
  inside : s.cursor < s.size
  filling : s.deleting = true → s.slots = s.held.map some ++ List.replicate (s.size - s.cursor) none
  emptying : s.deleting = false → s.slots = List.replicate s.cursor none ++ s.held.map some
  known : ∀ i ∈ s.held, i < s.prefixes
  distinct : s.held.Nodup
  same : s.missing.Perm s.held

theorem held_map (is : List Nat) : (is.map some).filterMap id = is := by
  induction is with
  | nil => rfl
  | cons i is ih => simp

theorem held_filled (is : List Nat) (n : Nat) : (is.map some ++ List.replicate n none).filterMap id = is := by
  rw [List.filterMap_append,held_map]
  simp

theorem held_emptied (is : List Nat) (n : Nat) : (List.replicate n none ++ is.map some).filterMap id = is := by
  rw [List.filterMap_append,held_map]
  simp

namespace Sound

variable {s : Slots} (sound : Sound s)
include sound

theorem cursor_of_filling (deleting : s.deleting = true) : s.cursor = s.held.length := by
  have lengths := congrArg List.length (sound.filling deleting)
  have := sound.inside
  simp only [List.length_append,List.length_map,List.length_replicate] at lengths
  unfold size at *
  omega

theorem cursor_of_emptying (recreating : s.deleting = false) : s.cursor + s.held.length = s.size := by
  have lengths := congrArg List.length (sound.emptying recreating)
  simp only [List.length_append,List.length_map,List.length_replicate] at lengths
  unfold size
  omega

theorem missing_short (deleting : s.deleting = true) : s.missing.length < s.prefixes := by
  have := sound.same.length_eq
  have := sound.cursor_of_filling deleting
  have := sound.inside
  have := sound.room
  omega

theorem slots_ne_nil : s.slots.isEmpty = false := by
  have := sound.inside
  unfold size at this
  cases slots : s.slots with
  | nil => rw [slots] at this; cases this
  | cons slot slots => rfl

end Sound

/-! ### What a step does -/

@[simp] theorem turn_slots (s : Slots) : s.turn.slots = s.slots := by unfold turn; split <;> rfl

@[simp] theorem turn_prefixes (s : Slots) : s.turn.prefixes = s.prefixes := by unfold turn; split <;> rfl

@[simp] theorem turn_missing (s : Slots) : s.turn.missing = s.missing := by unfold turn; split <;> rfl

@[simp] theorem fill_size (s : Slots) (i : Nat) : (s.fill i).size = s.size := by simp [fill,size]

@[simp] theorem clear_size (s : Slots) (i : Nat) : (s.clear i).size = s.size := by simp [clear,size]

@[simp] theorem fill_prefixes (s : Slots) (i : Nat) : (s.fill i).prefixes = s.prefixes := by simp [fill]

@[simp] theorem clear_prefixes (s : Slots) (i : Nat) : (s.clear i).prefixes = s.prefixes := by simp [clear]

private theorem filled {s : Slots} (sound : Sound s) (deleting : s.deleting = true) (i : Nat) :
    s.slots.set s.cursor (some i) =
      (s.held ++ [i]).map some ++ List.replicate (s.size - (s.cursor + 1)) none := by
  have free : s.size - s.cursor = (s.size - (s.cursor + 1)) + 1 := by have := sound.inside; omega
  rw [sound.filling deleting,sound.cursor_of_filling deleting,List.set_append_right _ _ (by simp),
    List.length_map,Nat.sub_self,← sound.cursor_of_filling deleting,free]
  simp [List.replicate_succ]

private theorem emptied {s : Slots} (recreating : s.deleting = false) (sound : Sound s) {i : Nat} {rest : List Nat}
    (first : s.held = i :: rest) :
    s.slots.set s.cursor none = List.replicate (s.cursor + 1) none ++ rest.map some := by
  rw [sound.emptying recreating,first,List.set_append_right _ _ (by simp),List.length_replicate,Nat.sub_self]
  simp [List.replicate_succ']

/-- Another subtree is deleted. -/
theorem fill_sound {s : Slots} (sound : Sound s) (deleting : s.deleting = true) {i : Nat} (known : i < s.prefixes)
    (present : i ∉ s.held) : Sound (s.fill i) ∧ (s.fill i).held = s.held ++ [i] := by
  have laid := filled sound deleting i
  have held : (s.fill i).held = s.held ++ [i] := by
    rw [Slots.held,fill,turn_slots]
    simp only [laid,held_filled]
  have slots : (s.fill i).slots = (s.fill i).held.map some ++ List.replicate (s.size - (s.cursor + 1)) none := by
    rw [held,fill,turn_slots]
    exact laid
  have inside := sound.inside
  refine ⟨⟨by simpa using sound.room,?_,?_,?_,?_,?_,?_⟩,held⟩
  · rw [fill_size]
    unfold fill turn
    split
    · simp only
      omega
    · rename_i more
      simp only [List.length_set] at more ⊢
      unfold size at *
      omega
  · intro still
    rw [fill_size,slots]
    unfold fill turn at still ⊢
    split at still
    · simp [deleting] at still
    · rename_i more
      rw [if_neg more]
  · intro turned
    rw [slots]
    unfold fill turn at turned ⊢
    split at turned
    · rename_i last
      simp only [List.length_set] at last
      rw [if_pos (by simpa using last),show s.size - (s.cursor + 1) = 0 by unfold size; omega]
      simp
    · simp [deleting] at turned
  · rw [held,fill_prefixes]
    intro j member
    rcases List.mem_append.mp member with old | new
    · exact sound.known j old
    · rw [List.mem_singleton.mp new]
      exact known
  · rw [held,List.nodup_append]
    refine ⟨sound.distinct,List.pairwise_singleton _ i,fun a old b new => ?_⟩
    rw [List.mem_singleton.mp new]
    rintro rfl
    exact present old
  · rw [held]
    refine List.Perm.trans ?_ (@List.perm_append_comm _ [i] _)
    simpa [fill] using sound.same.cons i

/-- The subtree that was deleted first comes back. -/
theorem clear_sound {s : Slots} (sound : Sound s) (recreating : s.deleting = false) {i : Nat} {rest : List Nat}
    (first : s.held = i :: rest) : Sound (s.clear i) ∧ (s.clear i).held = rest := by
  have laid := emptied recreating sound first
  have held : (s.clear i).held = rest := by
    rw [Slots.held,clear,turn_slots]
    simp only [laid,held_emptied]
  have slots : (s.clear i).slots = List.replicate (s.cursor + 1) none ++ (s.clear i).held.map some := by
    rw [held,clear,turn_slots]
    exact laid
  have count := sound.cursor_of_emptying recreating
  rw [first,List.length_cons] at count
  refine ⟨⟨by simpa using sound.room,?_,?_,?_,?_,?_,?_⟩,held⟩
  · rw [clear_size]
    unfold clear turn
    split
    · simp only
      omega
    · rename_i more
      simp only [List.length_set] at more ⊢
      unfold size at *
      omega
  · intro turned
    rw [clear_size,slots,held]
    unfold clear turn at turned ⊢
    split at turned
    · rename_i last
      simp only [List.length_set] at last
      have none_left : rest = [] := List.length_eq_zero_iff.mp (by unfold size at count; omega)
      rw [if_pos (by simpa using last),none_left,show s.size - 0 = s.cursor + 1 from last.symm]
      simp
    · simp [recreating] at turned
  · intro still
    rw [slots]
    unfold clear turn at still ⊢
    split at still
    · simp [recreating] at still
    · rename_i more
      rw [if_neg more]
  · rw [held,clear_prefixes]
    exact fun j member => sound.known j (by rw [first]; exact List.mem_cons_of_mem i member)
  · rw [held]
    have distinct := sound.distinct
    rw [first] at distinct
    exact (List.nodup_cons.mp distinct).2
  · rw [held]
    have same := sound.same.erase i
    rw [first,List.erase_cons_head] at same
    simpa [clear] using same

theorem fill_place {s : Slots} (sound : Sound s) (deleting : s.deleting = true) (i : Nat) :
    (s.fill i).place = (s.place + 1) % (2 * s.size) := by
  have inside := sound.inside
  simp only [place,fill_size,deleting,if_true]
  unfold fill turn
  simp only [List.length_set,deleting,Bool.not_true]
  split
  · rename_i last
    change s.cursor + 1 = s.size at last
    rw [last,Nat.mod_eq_of_lt (by omega)]
    simp
  · rename_i more
    change ¬ s.cursor + 1 = s.size at more
    rw [Nat.mod_eq_of_lt (by omega)]
    simp

theorem clear_place {s : Slots} (sound : Sound s) (recreating : s.deleting = false) (i : Nat) :
    (s.clear i).place = (s.place + 1) % (2 * s.size) := by
  have inside := sound.inside
  simp only [place,clear_size,recreating,Bool.false_eq_true,if_false]
  unfold clear turn
  simp only [List.length_set,recreating,Bool.not_false]
  split
  · rename_i last
    change s.cursor + 1 = s.size at last
    rw [show s.size + s.cursor + 1 = 2 * s.size by omega,Nat.mod_self]
    simp
  · rename_i more
    change ¬ s.cursor + 1 = s.size at more
    rw [Nat.mod_eq_of_lt (by omega)]
    simp only [Bool.false_eq_true,if_false]
    omega

theorem place_lt {s : Slots} (sound : Sound s) : s.place < 2 * s.size := by
  have := sound.inside
  unfold place
  split <;> omega

/-- Nothing is missing at the beginning of a cycle. -/
theorem held_of_place {s : Slots} (sound : Sound s) (whole : s.place = 0) : s.held = [] := by
  have inside := sound.inside
  unfold place at whole
  split at whole
  · rename_i deleting
    have := sound.cursor_of_filling deleting
    exact List.length_eq_zero_iff.mp (by omega)
  · omega

/-- Slots for a share of at least one hundredth are at the beginning of a cycle. -/
theorem new_sound {prefixes pct : Nat} {s : Slots} (stocked : 0 < prefixes) (some_share : 0 < pct)
    (run : Slots.new prefixes pct = .ok s) : Sound s ∧ s.prefixes = prefixes ∧ s.place = 0 ∧ prefixes < Word.limit := by
  unfold Slots.new at run
  cases shared : share prefixes pct with
  | error e => rw [shared] at run; cases run
  | ok n =>
    rw [shared] at run
    cases run
    unfold share at shared
    cases product : Word.mul prefixes pct with
    | error e => rw [product] at shared; cases shared
    | ok m =>
      rw [product] at shared
      cases shared
      obtain ⟨fits,rfl⟩ := Word.fit_eq_ok_iff.mp product
      have : prefixes * 1 ≤ prefixes * pct := Nat.mul_le_mul_left _ some_share
      refine ⟨⟨?_,?_,fun _ => ?_,fun h => (by cases h),?_,?_,?_⟩,rfl,rfl,by omega⟩
      · simp only [size,List.length_replicate]
        split <;> omega
      · simp only [size,List.length_replicate]
        split <;> omega
      all_goals simp [held,size]

/-! ### Which steps are drawn -/

section
variable {σ : Type} [RandomSource σ]

theorem some_present {prefixes : Nat} {missing : List Nat} (short : missing.length < prefixes) :
    ∃ i, i < prefixes ∧ i ∉ missing := by
  by_contra none_present
  push Not at none_present
  have sub : List.range prefixes ⊆ missing := fun i member => none_present i (List.mem_range.mp member)
  have := (List.subperm_of_subset List.nodup_range sub).length_le
  rw [List.length_range] at this
  omega

theorem choose_draws {prefixes : Nat} {missing : List Nat} (short : missing.length < prefixes) (tries : Nat) (g : σ) :
    ∃ i g', choose prefixes missing tries g = .ok (i,g') ∧ i < prefixes ∧ i ∉ missing := by
  induction tries generalizing g with
  | zero =>
    rw [choose]
    cases found : (List.range prefixes).find? fun i => !missing.contains i with
    | none =>
      obtain ⟨i,known,present⟩ := some_present short
      have := List.find?_eq_none.mp found i (List.mem_range.mpr known)
      simp [present] at this
    | some i =>
      have present := List.find?_some found
      have known := List.mem_range.mp (List.mem_of_find?_eq_some found)
      exact ⟨i,g,rfl,known,by simpa using present⟩
  | succ tries ih =>
    obtain ⟨i,h,drawn,known⟩ := Uniform.below_draws (by omega : 0 < prefixes) g
    rw [choose,Draw.bind_run drawn]
    by_cases gone : i ∈ missing
    · rw [if_pos (by simpa using gone)]
      exact ih h
    · rw [if_neg (by simpa using gone)]
      exact ⟨i,h,rfl,known,gone⟩

/-- A step while subtrees are deleted. -/
theorem next_filling {s : Slots} (sound : Sound s) (deleting : s.deleting = true) (g : σ) :
    ∃ i g', s.next g = .ok ((some (.delete i),s.fill i),g') ∧ i < s.prefixes ∧ i ∉ s.held := by
  obtain ⟨i,g',drawn,known,present⟩ := choose_draws (sound.missing_short deleting) (patience s.prefixes) g
  refine ⟨i,g',?_,known,fun old => present (sound.same.mem_iff.mpr old)⟩
  rw [next,if_neg (by simp [sound.slots_ne_nil]),if_pos deleting,Draw.bind_run drawn]
  rfl

/-- A step while subtrees come back. -/
theorem next_emptying {s : Slots} (sound : Sound s) (recreating : s.deleting = false) (g : σ) :
    ∃ i rest, s.held = i :: rest ∧ s.next g = .ok ((some (.recreate i),s.clear i),g) := by
  have count := sound.cursor_of_emptying recreating
  have inside := sound.inside
  cases first : s.held with
  | nil =>
    rw [first] at count
    simp only [List.length_nil] at count
    omega
  | cons i rest =>
    refine ⟨i,rest,rfl,?_⟩
    have under : s.slots[s.cursor]? = some (some i) := by
      rw [sound.emptying recreating,first,List.getElem?_append_right (by simp)]
      simp
    rw [next,if_neg (by simp [sound.slots_ne_nil]),if_neg (by simp [recreating])]
    simp only [under]
    rfl

end

/-- Every subtree that is there can be drawn, with a single word. -/
theorem next_reads {s : Slots} (sound : Sound s) (deleting : s.deleting = true) (fits : s.prefixes ≤ Word.limit)
    {i : Nat} (known : i < s.prefixes) (present : i ∉ s.held) :
    ∃ w, Reads (s.next : Draw Tape _) [w] (some (.delete i),s.fill i) := by
  obtain ⟨w,reads⟩ := Uniform.below_reads known fits
  refine ⟨w,fun rest => ?_⟩
  have present : ¬ s.missing.contains i = true := by simpa [sound.same.mem_iff] using present
  have tries : patience s.prefixes = (64 * s.prefixes + 1023) + 1 := rfl
  rw [next,if_neg (by simp [sound.slots_ne_nil]),if_pos deleting,tries,choose,bind_assoc,Draw.bind_run (reads rest),
    if_neg present]
  rfl

end Keyload.Churn.Slots
