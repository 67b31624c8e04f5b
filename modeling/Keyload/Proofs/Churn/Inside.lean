import Keyload.Proofs.Churn.Subtrees
import Keyload.Proofs.KeySpace.Leaves

/-!
Activities that stay inside the tree of a pattern. New values go to listed leaf keys, and a subtree is built below a
listed node, so every put of every step has a leaf key.
-/
namespace Keyload

/-- A put, if this is one, is of a leaf key. -/
def Operation.Inside (p : Pattern) (op : Operation) : Prop := ∀ key value, op = .put key value → p.Leaf key

namespace Churn
open Cursor (LeafLast)

/-- There are `n` subtrees, and those in slots are among them. -/
structure Slots.Among (s : Slots) (n : Nat) : Prop where
  prefixes : s.prefixes = n
  known : ∀ i, some i ∈ s.slots → i < n

/-- An activity whose puts are of leaf keys. -/
inductive Activity.Inside (p : Pattern) : Activity → Prop where
  | value {a : ValueChurn} (keys : ∀ key ∈ a.keys, p.Leaf key) : Inside p (.value a)
  | level {a : LevelChurn} (same : a.pattern = p) (above : a.level + 1 < p.levels.length)
      (nodes : ∀ base ∈ a.prefixes, p.Node a.level base) (slots : a.slots.Among a.prefixes.size) : Inside p (.level a)
  | read (a : LevelRead) : Inside p (.read a)

/-- A step whose puts are of leaf keys. -/
inductive Step.Inside (p : Pattern) (levels : List Pattern.Level) : Step → Prop where
  | send {op : Operation} (inside : op.Inside p) : Inside p levels (.send op)
  | build {subtree : Cursor} (yields : subtree.Yields p) (same : levels = p.levels) : Inside p levels (.build subtree)
  | nothing : Inside p levels .nothing

variable {σ : Type} [RandomSource σ] {p : Pattern} {g g' : σ}

/-! ### Slots -/

theorem below_known {n i : Nat} (drawn : Uniform.below n g = .ok (i,g')) : i < n := by
  by_cases some_number : 0 < n
  · obtain ⟨j,h,again,inside⟩ := Uniform.below_draws some_number g
    rw [again] at drawn
    cases drawn
    exact inside
  · rw [Uniform.below,if_pos (by omega)] at drawn
    cases drawn

namespace Slots

theorem choose_known {prefixes tries i : Nat} {missing : List Nat}
    (drawn : choose prefixes missing tries g = .ok (i,g')) : i < prefixes := by
  induction tries generalizing g with
  | zero =>
    rw [choose] at drawn
    cases found : (List.range prefixes).find? fun i => !missing.contains i with
    | some j =>
      simp only [found] at drawn
      cases drawn
      exact List.mem_range.mp (List.mem_of_find?_eq_some found)
    | none =>
      simp only [found] at drawn
      cases drawn
  | succ tries ih =>
    obtain ⟨j,h,below,drawn⟩ := Draw.bind_ok drawn
    split at drawn
    · exact ih drawn
    · cases drawn
      exact below_known below

variable {s s' : Slots} {n : Nat}

theorem Among.fill (among : s.Among n) {i : Nat} (known : i < n) : (s.fill i).Among n := by
  refine ⟨(fill_prefixes s i).trans among.prefixes,fun j member => ?_⟩
  rw [Slots.fill,turn_slots] at member
  rcases List.mem_or_eq_of_mem_set member with old | new
  · exact among.known j old
  · cases new
    exact known

theorem Among.clear (among : s.Among n) (i : Nat) : (s.clear i).Among n := by
  refine ⟨(clear_prefixes s i).trans among.prefixes,fun j member => ?_⟩
  rw [Slots.clear,turn_slots] at member
  rcases List.mem_or_eq_of_mem_set member with old | new
  · exact among.known j old
  · cases new

theorem among_new {pct : Nat} (created : Slots.new n pct = .ok s) : s.Among n := by
  unfold Slots.new at created
  cases shared : share n pct with
  | error f =>
    rw [shared] at created
    cases created
  | ok size =>
    rw [shared] at created
    cases created
    refine ⟨rfl,fun i member => ?_⟩
    cases (List.mem_replicate.mp member).2

/-- A step deletes one of the subtrees, or brings one of them back. -/
theorem Among.next (among : s.Among n) {step : Option SlotStep} (run : s.next g = .ok ((step,s'),g')) :
    s'.Among n ∧ ∀ i, step = some (.recreate i) → i < n := by
  by_cases empty : s.slots.isEmpty = true
  · rw [Slots.next,if_pos empty] at run
    cases run
    exact ⟨among,fun i same => by cases same⟩
  rw [Slots.next,if_neg empty] at run
  by_cases deleting : s.deleting = true
  · rw [if_pos deleting] at run
    obtain ⟨i,h,chosen,run⟩ := Draw.bind_ok run
    cases run
    have known := choose_known chosen
    rw [among.prefixes] at known
    exact ⟨among.fill known,fun i same => by cases same⟩
  · rw [if_neg deleting] at run
    cases at_cursor : s.slots[s.cursor]? with
    | none =>
      simp only [at_cursor] at run
      cases run
      exact ⟨among,fun i same => by cases same⟩
    | some slot =>
      cases slot with
      | none =>
        simp only [at_cursor] at run
        cases run
        exact ⟨among,fun i same => by cases same⟩
      | some i =>
        simp only [at_cursor] at run
        cases run
        refine ⟨among.clear i,fun j same => ?_⟩
        cases same
        exact among.known i (List.mem_of_getElem? at_cursor)

end Slots

/-! ### Steps -/

theorem Activity.Inside.levels {a : Activity} (inside : a.Inside p) {b : LevelChurn} (same : a = .level b) :
    a.levels = p.levels := by
  subst same
  cases inside with
  | level same above nodes slots => exact congrArg Pattern.levels same

/-- A step of an activity that stays inside a pattern stays inside it. -/
theorem Activity.Inside.next {a b : Activity} (inside : a.Inside p) {step : Step}
    (run : a.next g = .ok ((step,b),g')) : b.Inside p ∧ step.Inside p b.levels := by
  cases inside with
  | @value a keys =>
    obtain ⟨op,h,put,run⟩ := Draw.bind_ok run
    cases run
    obtain ⟨i,h,drawn,put⟩ := Draw.bind_ok put
    obtain ⟨value,h',-,put⟩ := Draw.bind_ok put
    cases put
    have known := below_known drawn
    refine ⟨.value keys,.send fun key value same => ?_⟩
    cases same
    rw [Array.getElem?_eq_getElem known]
    exact keys _ (Array.getElem_mem known)
  | @level a same above nodes slots =>
    obtain ⟨⟨step,s⟩,h,turned,run⟩ := Draw.bind_ok run
    obtain ⟨slots,known⟩ := slots.next turned
    have after : Activity.Inside p (.level { a with slots := s }) := .level same above nodes slots
    cases step with
    | none =>
      cases run
      exact ⟨after,.nothing⟩
    | some step =>
      cases step with
      | delete i =>
        cases run
        exact ⟨after,.send fun key value same => by cases same⟩
      | recreate i =>
        cases run
        refine ⟨after,.build ?_ (congrArg Pattern.levels same)⟩
        have known := known i rfl
        refine Cursor.yields_below (nodes _ ?_) above
        rw [Array.getElem?_eq_getElem known]
        exact Array.getElem_mem known
  | read a =>
    obtain ⟨op,h,got,run⟩ := Draw.bind_ok run
    cases run
    obtain ⟨i,h,-,got⟩ := Draw.bind_ok got
    cases got
    exact ⟨.read a,.send fun key value same => by cases same⟩

/-- The puts of a subtree below a node are of leaf keys. -/
theorem draw_inside (leafLast : LeafLast p.levels) (fixed : ∀ l ∈ p.levels, l.isRandom = false) {c c' : Cursor}
    (yields : c.Yields p) {op : Operation} (run : Activity.draw p.levels c g = .ok ((some op,c'),g')) :
    op.Inside p ∧ c'.Yields p := by
  obtain ⟨⟨entry,c₁⟩,h,advanced,run⟩ := Draw.bind_ok run
  cases entry with
  | none => cases run
  | some e =>
    cases run
    obtain ⟨leaf,further⟩ := yields.advance leafLast fixed advanced
    refine ⟨fun key value same => ?_,further⟩
    cases same
    exact leaf

/-! ### Definitions -/

section
variable {ks : KeySpace} (single : ks.patterns = [p]) (leafLast : LeafLast p.levels)
  (fixed : ∀ l ∈ p.levels, l.isRandom = false)
include single leafLast fixed

/-- New values go to leaf keys. -/
theorem inside_of_value {a : ValueChurn} (created : (ValueChurn.new ks).run = .ok (.ok a)) :
    Activity.Inside p (.value a) := by
  obtain ⟨q,only,created⟩ := Outcome.bind_ok created
  obtain rfl := onlyPattern_single single only
  obtain ⟨keys,listed,created⟩ := Outcome.bind_ok created
  have depth : 0 < q.depth := List.length_pos_iff.mpr (Cursor.leafLast_ne_nil leafLast)
  have listed : ks.prefixes (q.depth - 1) = .ok keys.1 := prefixes_of_populated listed
  have same : a.keys = keys.1 := by
    dsimp only at created
    split at created
    · cases created
      rfl
    · cases created
  refine .value fun key member => ?_
  rw [same] at member
  have node := KeySpace.node_of_prefixes single leafLast fixed (Nat.sub_lt depth Nat.one_pos) listed member
  have whole : q.levels.take (q.depth - 1 + 1) = q.levels := by
    rw [Nat.sub_add_cancel depth]
    exact List.take_length
  exact ⟨whole ▸ node.narrow,whole ▸ node.text⟩

/-- Subtrees are built below nodes. -/
theorem inside_of_level {a : LevelChurn} {level pct : Nat} (created : (LevelChurn.new ks level pct).run = .ok (.ok a)) :
    Activity.Inside p (.level a) := by
  obtain ⟨same,rfl,above,-,listed,slots⟩ := LevelChurn.new_cases single created
  refine .level same above (fun base member => ?_) (Slots.among_new slots)
  exact KeySpace.node_of_prefixes single leafLast fixed (by omega) listed member

end

end Churn

end Keyload
