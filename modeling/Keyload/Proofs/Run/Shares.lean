import Mathlib.Tactic.SplitIfs
import Keyload.Run.Course
import Keyload.Store.Pool

/-!
The shares of the clients. A pool that is divided is dealt out in one order, each share beginning where the one before
it ends (`mem_plan_iff`), so no client is left over and none is used twice; a pool that is not divided is used by all
as a whole (`plan_shares`).
-/
namespace Keyload

/-- Who gets a share of the clients, in the order in which the shares are dealt. -/
inductive Sharer where
  | reads
  | valueChurn
  | levelChurn
  | watches

/-- Whether an activity runs. -/
def ActiveSet.runs (active : ActiveSet) : Sharer → Bool
  | .reads => active.reads
  | .valueChurn => active.valueChurn
  | .levelChurn => active.levelChurn
  | .watches => active.watches

/-- The share of an activity. -/
def ClientSplit.share (s : ClientSplit) : Sharer → ClientRange
  | .reads => s.reads
  | .valueChurn => s.valueChurn
  | .levelChurn => s.levelChurn
  | .watches => s.watches

namespace ClientRange

def size (r : ClientRange) : Nat := r.stop - r.first

instance : Membership Nat ClientRange := ⟨fun r i => r.first ≤ i ∧ i < r.stop⟩

theorem mem_iff {r : ClientRange} {i : Nat} : i ∈ r ↔ r.first ≤ i ∧ i < r.stop := Iff.rfl

/-- Two ranges of the same clients. -/
theorem size_eq {r : ClientRange} {first stop : Nat} (same : ∀ i, i ∈ r ↔ first ≤ i ∧ i < stop) :
    r.size = stop - first := by
  have low := same r.first
  have high := same (r.stop - 1)
  have low' := same first
  have high' := same (stop - 1)
  simp only [mem_iff] at low high low' high'
  unfold size
  omega

/-- The range lies within a pool of `n` clients. -/
def Within (r : ClientRange) (n : Nat) : Prop := r.first ≤ r.stop ∧ r.stop ≤ n

/-- The clients of a range within a pool can be taken from it. -/
theorem Within.subset {r : ClientRange} {p : Pool} (within : r.Within p.size) :
    ∃ q, p.subset r.first r.stop = .ok q ∧ q.size = r.size := by
  refine ⟨_,if_pos within,?_⟩
  obtain ⟨order,inside⟩ := within
  unfold Pool.size at *
  rw [List.length_take,List.length_drop,size]
  omega

theorem Within.clientsOf {r : ClientRange} {σ : Type} {c : Course σ} (within : r.Within c.pool.length) :
    ∃ places, c.clientsOf r = .ok places ∧ places.length = r.size := by
  refine ⟨_,if_pos within,?_⟩
  obtain ⟨order,inside⟩ := within
  rw [List.length_take,List.length_drop,size]
  omega

end ClientRange

namespace ClientSplit

/-- The shares of a pool of `n` clients that is divided. -/
structure Divides (s : ClientSplit) (n : Nat) (active : ActiveSet) : Prop where
  busy : ∀ a, active.runs a = true → 0 < (s.share a).size
  idle : ∀ a, active.runs a = false → (s.share a).size = 0
  disjoint : ∀ a b i, i ∈ s.share a → i ∈ s.share b → a = b
  covers : ∀ i, i < n ↔ ∃ a, active.runs a = true ∧ i ∈ s.share a
  reads : active.reads = true → s.reads.size = 1
  valueChurn : active.valueChurn = true → s.valueChurn.size = 1
  halves : active.levelChurn = true → active.watches = true →
    s.levelChurn.size = s.watches.size ∨ s.levelChurn.size = s.watches.size + 1

variable {n i next : Nat} {active : ActiveSet}

/-! ### Where the shares end -/

/-- The clients that reads and value churn take. -/
def light (active : ActiveSet) : Nat := active.reads.toNat + active.valueChurn.toNat

/-- Where the share of level churn ends and that of the watches begins. -/
def middle (n : Nat) (active : ActiveSet) : Nat :=
  if active.levelChurn then
    if active.watches then light active + (n - light active - (n - light active) / 2) else n
  else light active

/-- Where a share begins in a pool that is divided. -/
def begins (n : Nat) (active : ActiveSet) : Sharer → Nat
  | .reads => 0
  | .valueChurn => active.reads.toNat
  | .levelChurn => light active
  | .watches => middle n active

/-- Where a share ends. -/
def ends (n : Nat) (active : ActiveSet) : Sharer → Nat
  | .reads => active.reads.toNat
  | .valueChurn => light active
  | .levelChurn => middle n active
  | .watches => n

theorem light_le (active : ActiveSet) : light active ≤ 2 := by
  have reads := active.reads.toNat_le
  have valueChurn := active.valueChurn.toNat_le
  unfold light
  omega

theorem toNat_pos {b : Bool} : 0 < b.toNat ↔ b = true := by
  cases b <;> decide

theorem takeOne_next (taken : Bool) (next : Nat) : (takeOne taken next).2 = next + taken.toNat := by
  cases taken <;> rfl

theorem mem_takeOne {taken : Bool} : i ∈ (takeOne taken next).1 ↔ next ≤ i ∧ i < next + taken.toNat := by
  cases taken with
  | true => exact Iff.rfl
  | false =>
    show 0 ≤ i ∧ i < 0 ↔ next ≤ i ∧ i < next
    omega

theorem mem_nobody : ¬ i ∈ nobody := by
  rintro ⟨-,below⟩
  exact Nat.not_lt_zero i below

theorem nobody_within (n : Nat) : nobody.Within n := ⟨Nat.le_refl 0,Nat.zero_le n⟩

theorem takeOne_within {taken : Bool} (inside : next + taken.toNat ≤ n) : (takeOne taken next).1.Within n := by
  cases taken with
  | true => exact ⟨Nat.le_succ next,inside⟩
  | false => exact nobody_within n

theorem plan_whole (whole : ¬ (sharedUpTo < n ∧ (active.levelChurn || active.watches) = true)) :
    plan n active = ⟨⟨0,n⟩,⟨0,n⟩,⟨0,n⟩,⟨0,n⟩⟩ := by
  apply if_pos
  by_cases small : n ≤ sharedUpTo
  · exact .inl small
  · exact .inr (by simpa using fun heavy => whole ⟨Nat.lt_of_not_le small,heavy⟩)

/-- The shares of a pool that is divided, one beginning where the other ends. -/
theorem plan_divided (large : sharedUpTo < n) (heavy : (active.levelChurn || active.watches) = true) :
    plan n active = {
      reads := (takeOne active.reads 0).1
      valueChurn := (takeOne active.valueChurn active.reads.toNat).1
      levelChurn := if active.levelChurn then ⟨light active,middle n active⟩ else nobody
      watches := if active.watches then ⟨middle n active,n⟩ else nobody } := by
  have divided : ¬ (n ≤ sharedUpTo ∨ (!(active.levelChurn || active.watches)) = true) := by
    simp [heavy,Nat.not_le_of_lt large]
  have first : (takeOne active.reads 0).2 = active.reads.toNat := (takeOne_next _ _).trans (Nat.zero_add _)
  have second : (takeOne active.valueChurn active.reads.toNat).2 = light active := takeOne_next _ _
  rw [plan,if_neg divided]
  simp only [first,second]
  unfold middle
  cases level : active.levelChurn <;> cases watches : active.watches
  · simp [level,watches] at heavy
  · rfl
  · rfl
  · rfl

/-- A client belongs to a share of a divided pool if it comes after where the share before ends. -/
theorem mem_plan_iff (large : sharedUpTo < n) (heavy : (active.levelChurn || active.watches) = true) (a : Sharer) :
    i ∈ (plan n active).share a ↔ begins n active a ≤ i ∧ i < ends n active a := by
  rw [plan_divided large heavy]
  cases a with
  | reads =>
    have taken : i ∈ (takeOne active.reads 0).1 ↔ 0 ≤ i ∧ i < 0 + active.reads.toNat := mem_takeOne
    rwa [Nat.zero_add] at taken
  | valueChurn => exact mem_takeOne
  | levelChurn =>
    show i ∈ (if active.levelChurn then _ else _) ↔ light active ≤ i ∧ i < middle n active
    split
    · exact Iff.rfl
    · rename_i idle
      rw [middle,if_neg idle]
      exact iff_of_false mem_nobody (by omega)
  | watches =>
    show i ∈ (if active.watches then _ else _) ↔ middle n active ≤ i ∧ i < n
    split
    · exact Iff.rfl
    · rename_i idle
      have level : active.levelChurn = true := by simpa [idle] using heavy
      rw [middle,if_pos level,if_neg idle]
      exact iff_of_false mem_nobody (by omega)

theorem size_plan (large : sharedUpTo < n) (heavy : (active.levelChurn || active.watches) = true) (a : Sharer) :
    ((plan n active).share a).size = ends n active a - begins n active a :=
  ClientRange.size_eq fun _ => mem_plan_iff large heavy a

/-- Where a pool is divided, the shares come one after the other. -/
theorem ends_order (active : ActiveSet) (large : sharedUpTo < n) :
    active.reads.toNat ≤ light active ∧ light active ≤ middle n active ∧ middle n active ≤ n := by
  have few := light_le active
  have many : 4 < n := large
  refine ⟨Nat.le_add_right _ _,?_⟩
  unfold middle
  split_ifs <;> omega

/-- Who runs gets a client, and nobody else does. -/
theorem begins_lt_ends (large : sharedUpTo < n) (heavy : (active.levelChurn || active.watches) = true) (a : Sharer) :
    begins n active a < ends n active a ↔ active.runs a = true := by
  have few := light_le active
  have many : 4 < n := large
  cases a with
  | reads => simp [begins,ends,ActiveSet.runs,toNat_pos]
  | valueChurn =>
    show active.reads.toNat < active.reads.toNat + active.valueChurn.toNat ↔ active.valueChurn = true
    rw [Nat.lt_add_right_iff_pos,toNat_pos]
  | levelChurn =>
    show light active < middle n active ↔ active.levelChurn = true
    unfold middle
    split_ifs with level watches
    · exact iff_of_true (by omega) level
    · exact iff_of_true (by omega) level
    · exact iff_of_false (Nat.lt_irrefl _) level
  | watches =>
    show middle n active < n ↔ active.watches = true
    unfold middle
    split_ifs with level watches
    · exact iff_of_true (by omega) watches
    · exact iff_of_false (Nat.lt_irrefl _) watches
    · exact iff_of_true (by omega) (by simpa [level] using heavy)

/-- Whose client this is in a pool that is divided. -/
def owner (n : Nat) (active : ActiveSet) (i : Nat) : Sharer :=
  if i < active.reads.toNat then .reads
  else if i < light active then .valueChurn
  else if i < middle n active then .levelChurn
  else .watches

/-- Every client has one owner. -/
theorem mem_plan_owner (large : sharedUpTo < n) (heavy : (active.levelChurn || active.watches) = true) (a : Sharer) :
    i ∈ (plan n active).share a ↔ i < n ∧ a = owner n active i := by
  obtain ⟨reads,level,watches⟩ := ends_order active large
  rw [mem_plan_iff large heavy,owner]
  cases a <;> simp only [begins,ends] <;> split_ifs <;> simp <;> omega

/-- A pool of more than four clients is divided for level churn and watches. -/
theorem plan_divides (large : sharedUpTo < n) (heavy : (active.levelChurn || active.watches) = true) :
    (plan n active).Divides n active := by
  have size := size_plan large heavy
  have runs := begins_lt_ends large heavy
  have owned (a : Sharer) (i : Nat) : i ∈ (plan n active).share a ↔ _ := mem_plan_owner large heavy a
  constructor
  case busy =>
    intro a running
    rw [size]
    exact Nat.sub_pos_of_lt ((runs a).mpr running)
  case idle =>
    intro a resting
    rw [size]
    refine Nat.sub_eq_zero_of_le (Nat.le_of_not_lt fun some_client => ?_)
    rw [(runs a).mp some_client] at resting
    cases resting
  case disjoint =>
    intro a b i first second
    exact ((owned a i).mp first).2.trans ((owned b i).mp second).2.symm
  case covers =>
    intro i
    constructor
    · intro inside
      have member := (owned _ i).mpr ⟨inside,rfl⟩
      have between := (mem_plan_iff large heavy _).mp member
      exact ⟨_,(runs _).mp (by omega),member⟩
    · rintro ⟨a,-,member⟩
      exact ((owned a i).mp member).1
  case reads =>
    intro running
    have one := size .reads
    show ((plan n active).share .reads).size = 1
    simpa [begins,ends,running] using one
  case valueChurn =>
    intro running
    have one := size .valueChurn
    show ((plan n active).share .valueChurn).size = 1
    simpa [begins,ends,light,running] using one
  case halves =>
    intro level watches
    have first : (plan n active).levelChurn.size = _ := size .levelChurn
    have second : (plan n active).watches.size = _ := size .watches
    have few := light_le active
    have many : 4 < n := large
    simp only [begins,ends,middle,if_pos level,if_pos watches] at first second
    omega

/-- Every share lies within the pool. -/
theorem share_within (n : Nat) (active : ActiveSet) (a : Sharer) : ((plan n active).share a).Within n := by
  by_cases divided : sharedUpTo < n ∧ (active.levelChurn || active.watches) = true
  · obtain ⟨large,heavy⟩ := divided
    obtain ⟨reads,level,watches⟩ := ends_order active large
    rw [plan_divided large heavy]
    cases a with
    | reads => exact takeOne_within (by omega)
    | valueChurn => exact takeOne_within (by unfold light at *; omega)
    | levelChurn =>
      show ClientRange.Within (if active.levelChurn then _ else _) n
      split_ifs
      · exact ⟨level,watches⟩
      · exact nobody_within n
    | watches =>
      show ClientRange.Within (if active.watches then _ else _) n
      split_ifs
      · exact ⟨watches,Nat.le_refl n⟩
      · exact nobody_within n
  · rw [plan_whole divided]
    cases a <;> exact ⟨Nat.zero_le n,Nat.le_refl n⟩

/-- The shares of `n` clients. -/
structure Shares (n : Nat) (active : ActiveSet) (s : ClientSplit) : Prop where
  within : ∀ a, (s.share a).Within n
  /-- The clients of a share can be taken from the pool. -/
  subset : ∀ a (p : Pool), p.size = n →
    ∃ q, p.subset (s.share a).first (s.share a).stop = .ok q ∧ q.size = (s.share a).size
  /-- So can their places in a run. -/
  clientsOf : ∀ a (σ : Type) (c : Course σ), c.pool.length = n →
    ∃ places, c.clientsOf (s.share a) = .ok places ∧ places.length = (s.share a).size
  divided : 4 < n → (active.levelChurn || active.watches) = true → s.Divides n active
  whole : ¬ (4 < n ∧ (active.levelChurn || active.watches) = true) → ∀ a, s.share a = ⟨0,n⟩

/-- The clients can be shared out as they are planned to be, however many there are and whatever runs. -/
theorem plan_shares (n : Nat) (active : ActiveSet) : Shares n active (plan n active) := by
  constructor
  case within => exact share_within n active
  case subset =>
    rintro a p rfl
    exact (share_within p.size active a).subset
  case clientsOf =>
    rintro a σ c rfl
    exact (share_within c.pool.length active a).clientsOf
  case divided =>
    intro large heavy
    exact plan_divides large heavy
  case whole =>
    intro undivided a
    rw [plan_whole undivided]
    cases a <;> rfl

example : plan 9 ⟨true,true,true,true⟩ = ⟨⟨0,1⟩,⟨1,2⟩,⟨2,6⟩,⟨6,9⟩⟩ := by decide

end ClientSplit

end Keyload
