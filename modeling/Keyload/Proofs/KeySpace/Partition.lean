import Keyload.Proofs.KeySpace.Leaves

/-!
Subtrees partition the tree. Where no name is drawn, a walk over the whole tree is a list of the nodes of a level and,
for each of them in turn, a walk over what is below it (`walk_parts`). Names that can not be printed stop both at once,
before anything is drawn, and otherwise no name draws at all. So the nodes may be listed beforehand
(`subtrees_partition`), whether the walk goes on to the leaves or stops at a level above them.
-/
namespace Keyload
open Pattern (Level)

namespace Pattern.Level

variable {σ : Type} [RandomSource σ] {l : Level}

/-- A name that is listed or printed draws nothing. -/
theorem fixed_pure (fixed : l.isRandom = false) (listed : l.Listed) (narrow : l.Narrow) {i : Nat}
    (inside : i < l.count) : (l.instanceName i : Draw σ String) = pure (l.nameAt i) := by
  funext g
  obtain ⟨n,drawn⟩ := fixed_drawn fixed listed narrow inside g
  rw [drawn,fixed_named fixed σ i g g n inside drawn]
  rfl

theorem wide_stops (wide : ¬ l.Narrow) (i : Nat) : (l.instanceName i : Draw σ String) = Draw.stop .tooWide := by
  unfold Narrow at wide
  push Not at wide
  obtain ⟨f,segment,wide⟩ := wide
  funext g
  simp only [instanceName,segment,Format.render,if_neg (Nat.not_le.mpr wide)]
  rfl

end Pattern.Level

namespace Cursor

/-! ### One part after the other -/

section
variable {σ α β γ : Type}

/-- What `f` yields for each of some nodes, one after the other. -/
def gather (f : α → Draw σ (List β)) : List α → Draw σ (List β)
  | [] => pure []
  | a :: rest => do
    let bs ← f a
    let more ← gather f rest
    pure (bs ++ more)

theorem each_gather (f : Nat → Draw σ (List β)) (n i : Nat) : each f n i = gather f (List.range' i n) := by
  induction n generalizing i with
  | zero => rfl
  | succ n ih => rw [each,List.range'_succ,gather,ih]

theorem gather_append (f : α → Draw σ (List β)) (as more : List α) :
    gather f (as ++ more) = (do
      let bs ← gather f as
      let others ← gather f more
      pure (bs ++ others)) := by
  induction as with
  | nil => simp [gather]
  | cons a rest ih => simp only [List.cons_append,gather,ih,bind_assoc,pure_bind,List.append_assoc]

theorem gather_flatMap (f : α → Draw σ (List β)) (t : γ → List α) (cs : List γ) :
    gather f (cs.flatMap t) = gather (fun c => gather f (t c)) cs := by
  induction cs with
  | nil => rfl
  | cons c rest ih => rw [List.flatMap_cons,gather_append,ih,gather]

theorem gather_congr {f f' : α → Draw σ (List β)} {as : List α} (same : ∀ a ∈ as, f a = f' a) :
    gather f as = gather f' as := by
  induction as with
  | nil => rfl
  | cons a rest ih =>
    rw [gather,gather,same a List.mem_cons_self,ih fun b member => same b (List.mem_cons_of_mem a member)]

theorem gather_pure (t : α → List β) (as : List α) :
    (gather (fun a => pure (t a)) as : Draw σ _) = pure (as.flatMap t) := by
  induction as with
  | nil => rfl
  | cons a rest ih => simp [gather,ih]

theorem gather_stop {f : α → Draw σ (List β)} {as : List α} {e : Fault} (some_part : as ≠ [])
    (stops : ∀ a ∈ as, f a = Draw.stop e) : gather f as = Draw.stop e := by
  cases as with
  | nil => exact absurd rfl some_part
  | cons a rest =>
    rw [gather,stops a List.mem_cons_self]
    rfl

/-- A part of what was gathered. -/
theorem gather_turn {f : α → Draw σ (List β)} {as : List α} {a : α} (member : a ∈ as) {g g' : σ} {bs : List β}
    (run : gather f as g = .ok (bs,g')) : ∃ part h h', f a h = .ok (part,h') := by
  induction as generalizing g g' bs with
  | nil => cases member
  | cons a' rest ih =>
    obtain ⟨part,h,first,run⟩ := Draw.bind_ok run
    obtain ⟨more,h',later,-⟩ := Draw.bind_ok run
    rcases List.mem_cons.mp member with rfl | member
    · exact ⟨part,g,h,first⟩
    · exact ih member later

end

/-! ### Names that can not be printed -/

/-- Some level that a walk comes to has names that can not be printed. -/
def Blocked : List Level → Prop
  | [] => False
  | l :: rest => 0 < l.count ∧ (¬ l.Narrow ∨ Blocked rest)

/-- Levels above the leaves, without names that are drawn. -/
structure Upper (levels : List Level) : Prop where
  fixed : ∀ l ∈ levels, l.isRandom = false
  listed : ∀ l ∈ levels, l.Listed
  inner : ∀ l ∈ levels, l.isLeaf = false

theorem Upper.tail {l : Level} {rest : List Level} (upper : Upper (l :: rest)) : Upper rest where
  fixed m member := upper.fixed m (List.mem_cons_of_mem l member)
  listed m member := upper.listed m (List.mem_cons_of_mem l member)
  inner m member := upper.inner m (List.mem_cons_of_mem l member)

variable {σ : Type} [RandomSource σ] {stop : Option Nat}

private theorem visit_upper {l : Level} {rest : List Level} (upper : Upper (l :: rest)) (narrow : l.Narrow) {k : Nat}
    (goes : stop ≠ some k) (deeper : String → Draw σ (List Entry)) (base : String) {i : Nat} (inside : i < l.count) :
    visit stop l k deeper base i = deeper (base ++ "/" ++ l.nameAt i) := by
  have fixed := upper.fixed l List.mem_cons_self
  have name := l.fixed_pure (σ := σ) fixed (upper.listed l List.mem_cons_self) narrow inside
  simp only [visit,name,pure_bind,if_neg goes,upper.inner l List.mem_cons_self]
  rfl

/-- A walk that comes to names that can not be printed stops there, without having drawn anything. -/
theorem walk_blocked {above : List Level} (below : List Level) (upper : Upper above) (blocked : Blocked above) {k : Nat}
    (goes : ∀ j, k ≤ j → j < k + above.length → stop ≠ some j) (base : String) :
    (walk stop (above ++ below) k base : Draw σ _) = Draw.stop .tooWide := by
  induction above generalizing k base with
  | nil => exact absurd blocked id
  | cons l rest ih =>
    obtain ⟨some_name,blocked⟩ := blocked
    rw [List.cons_append,walk,each_gather,← List.range_eq_range']
    apply gather_stop
    · simp only [ne_eq,List.range_eq_nil]
      omega
    · intro i member
      have inside := List.mem_range.mp member
      by_cases narrow : l.Narrow
      · rw [visit_upper upper narrow (goes k (Nat.le_refl k) (by simp)) _ base inside]
        apply ih upper.tail (blocked.resolve_left fun wide => wide narrow)
        intro j lower higher
        exact goes j (by omega) (by rw [List.length_cons]; omega)
      · rw [visit,Level.wide_stops narrow]
        rfl

/-- A walk is a walk below each node of a level in turn, where all names down to there can be printed. -/
theorem walk_parts {above : List Level} (below : List Level) (upper : Upper above) (free : ¬ Blocked above) {k : Nat}
    (goes : ∀ j, k ≤ j → j < k + above.length → stop ≠ some j) (base : String) :
    (walk stop (above ++ below) k base : Draw σ _) =
      gather (walk stop below (k + above.length)) (texts Level.nameAt above base) := by
  induction above generalizing k base with
  | nil => simp [texts,gather]
  | cons l rest ih =>
    rw [List.cons_append,walk,each_gather,← List.range_eq_range',texts,gather_flatMap]
    apply gather_congr
    intro i member
    have inside := List.mem_range.mp member
    have free : l.Narrow ∧ ¬ Blocked rest := by
      by_contra other
      apply free
      exact ⟨by omega,by tauto⟩
    rw [visit_upper upper free.1 (goes k (Nat.le_refl k) (by simp)) _ base inside,ih upper.tail free.2,List.length_cons,
      Nat.add_assoc,Nat.add_comm 1]
    intro j lower higher
    exact goes j (by omega) (by rw [List.length_cons]; omega)

theorem blocked_append (above below : List Level) :
    Blocked (above ++ below) ↔ Blocked above ∨ 0 < (above.map Level.count).prod ∧ Blocked below := by
  induction above with
  | nil => simp [Blocked]
  | cons l rest ih =>
    simp only [List.cons_append,Blocked,ih,List.map_cons,List.prod_cons,Nat.pos_iff_ne_zero,Nat.mul_ne_zero_iff]
    tauto

/-- A walk that ends has come to no name that can not be printed. -/
theorem free_of_walk {levels : List Level} (leafLast : LeafLast levels) {k : Nat} {base : String} {g g' : σ}
    {es : List Entry} (run : walk none levels k base g = .ok (es,g')) : ¬ Blocked levels := by
  induction levels generalizing k base g g' es with
  | nil => exact id
  | cons l rest ih =>
    rintro ⟨some_name,blocked⟩
    obtain ⟨part,h,h',turn,-⟩ := each_turn some_name run
    obtain ⟨name,h₁,drawn,turn⟩ := Draw.bind_ok turn
    rcases blocked with wide | blocked
    · exact wide (Level.narrow_of_drawn drawn)
    · cases rest with
      | nil => exact blocked
      | cons l' rest =>
        obtain ⟨inner,deeper⟩ := leafLast_cons leafLast
        rw [if_neg (by simp),inner] at turn
        exact ih deeper turn blocked

/-- A walk to a level yields its nodes, or comes to a name that can not be printed. -/
theorem walk_listing {above : List Level} (below : List Level) {l : Level} (upper : Upper above)
    (fixed : l.isRandom = false) (listed : l.Listed) {k wanted : Nat} (at_l : k + above.length = wanted)
    (base : String) :
    (Blocked (above ++ [l]) → (walk (some wanted) (above ++ l :: below) k base : Draw σ _) = Draw.stop .tooWide) ∧
      (¬ Blocked (above ++ [l]) → (walk (some wanted) (above ++ l :: below) k base : Draw σ _) =
        pure ((texts Level.nameAt (above ++ [l]) base).map fun key => ⟨wanted,key,none⟩)) := by
  have goes : ∀ j, k ≤ j → j < k + above.length → some wanted ≠ some j := by
    intro j _ short same
    cases same
    omega
  rw [blocked_append]
  by_cases blocked : Blocked above
  · exact ⟨fun _ => walk_blocked _ upper blocked goes base,fun free => absurd (.inl blocked) free⟩
  rw [walk_parts _ upper blocked goes base,at_l]
  constructor
  · intro reached
    obtain ⟨some_node,some_name,wide⟩ := reached.resolve_left blocked
    apply gather_stop
    · rw [← List.length_pos_iff,length_texts]
      exact some_node
    · intro node _
      rw [walk,each_gather]
      apply gather_stop
      · simp only [ne_eq,List.range'_eq_nil_iff]
        omega
      · intro i _
        rw [visit,Level.wide_stops (wide.resolve_right id)]
        rfl
  · intro free
    rw [texts_append,List.map_flatMap,← gather_pure]
    apply gather_congr
    intro node member
    have some_node : 0 < (above.map Level.count).prod := by
      rw [← length_texts Level.nameAt above base]
      exact List.length_pos_of_mem member
    rw [walk,each_gather,← List.range_eq_range',texts,List.map_flatMap,← gather_pure]
    apply gather_congr
    intro i member
    have inside := List.mem_range.mp member
    have narrow : l.Narrow := by
      by_contra wide
      exact free (.inr ⟨some_node,by omega,.inl wide⟩)
    rw [visit,Level.fixed_pure fixed listed narrow inside,pure_bind,if_pos rfl]
    rfl

/-- All entries that a cursor yields from where it stands. -/
def entries (c : Cursor) (levels : List Level) : Draw σ (List Entry) := Array.toList <$> c.rest levels

theorem entries_below (levels : List Level) (stop : Option Nat) (base : String) (k : Nat) :
    ((below base k stop).entries levels : Draw σ _) = walk stop (levels.drop k) k base := by
  unfold entries
  rw [rest_eq,show (below base k stop).stop = stop from rfl,stackWalk_below]
  simp

end Cursor

namespace KeySpace
open Cursor (texts LeafLast Blocked Upper)

variable {ks : KeySpace} {p : Pattern} {level : Nat}

/-- The levels down to one above the leaves. -/
theorem upper_levels (compiled : Pattern.Compiled p) (fixed : ∀ l ∈ p.levels, l.isRandom = false)
    (inside : level < p.levels.length) : Upper (p.levels.take level) where
  fixed l member := fixed l (List.mem_of_mem_take member)
  listed l member := Pattern.Compiler.compiled_listed compiled l (List.mem_of_mem_take member)
  inner := Cursor.leafLast_inner (Pattern.Compiler.compiled_leafLast compiled) inside

/-- A walk to a level of the tree yields the nodes of it, or comes to a name that can not be printed. -/
theorem level_listing {σ : Type} [RandomSource σ] (compiled : Pattern.Compiled p)
    (fixed : ∀ l ∈ p.levels, l.isRandom = false) (inside : level < p.levels.length) :
    (Blocked (p.levels.take (level + 1)) →
        (Cursor.walk (some level) p.levels 0 "" : Draw σ _) = Draw.stop .tooWide) ∧
      (¬ Blocked (p.levels.take (level + 1)) → (Cursor.walk (some level) p.levels 0 "" : Draw σ _) =
        pure ((texts Level.nameAt (p.levels.take (level + 1)) "").map fun key => ⟨level,key,none⟩)) := by
  obtain ⟨split,upper,count⟩ := levels_split inside
  have here : p.levels[level] ∈ p.levels := List.getElem_mem inside
  have listing := Cursor.walk_listing (σ := σ) (p.levels.drop (level + 1)) (upper_levels compiled fixed inside)
    (fixed _ here) (Pattern.Compiler.compiled_listed compiled _ here) count ""
  rw [← upper,← split] at listing
  exact listing

theorem prefixes_walk (single : ks.patterns = [p]) (level : Nat) :
    ks.prefixes level =
      (Cursor.walk (some level) p.levels 0 "" (ks.levelSource level)).map fun r =>
        ((r.1.filter fun e => e.level == level).map Entry.key).toArray := by
  rw [prefixes,single]
  simp only [drawPrefixes,patternPrefixes_walk,Draw.bind_apply,Draw.map_apply]
  cases Cursor.walk (some level) p.levels 0 "" (ks.levelSource level) with
  | error f => rfl
  | ok r =>
    show Except.ok (_ ++ []).toArray = _
    rw [List.append_nil]
    rfl

/-- The list of a level is there at once, or a name of it can not be printed. -/
theorem prefixes_listing (single : ks.patterns = [p]) (compiled : Pattern.Compiled p)
    (fixed : ∀ l ∈ p.levels, l.isRandom = false) (inside : level < p.levels.length) :
    (Blocked (p.levels.take (level + 1)) → ks.prefixes level = .error .tooWide) ∧
      (¬ Blocked (p.levels.take (level + 1)) →
        ks.prefixes level = .ok (texts Level.nameAt (p.levels.take (level + 1)) "").toArray) := by
  obtain ⟨wide,free⟩ := level_listing (σ := Xoshiro) compiled fixed inside
  rw [prefixes_walk single]
  constructor
  · intro blocked
    rw [wide blocked]
    rfl
  · intro unblocked
    rw [free unblocked]
    refine congrArg (fun keys => Except.ok (List.toArray keys)) (entries_keys ?_)
    rw [List.map_map]
    rfl

/-- Once all keys were enumerated, the nodes of every level can be listed. -/
theorem prefixes_of_walk {σ : Type} [RandomSource σ] (single : ks.patterns = [p]) (compiled : Pattern.Compiled p)
    (fixed : ∀ l ∈ p.levels, l.isRandom = false) (inside : level < p.levels.length) {g g' : σ} {es : List Entry}
    (run : Cursor.walk none p.levels 0 "" g = .ok (es,g')) :
    ks.prefixes level = .ok (texts Level.nameAt (p.levels.take (level + 1)) "").toArray := by
  have free := Cursor.free_of_walk (Pattern.Compiler.compiled_leafLast compiled) run
  rw [← List.take_append_drop (level + 1) p.levels,Cursor.blocked_append,not_or] at free
  exact (prefixes_listing single compiled fixed inside).2 free.1

/-- The list of a level, for whoever draws from a source of its own. -/
theorem lift_prefixes {σ : Type} [RandomSource σ] (single : ks.patterns = [p]) (compiled : Pattern.Compiled p)
    (fixed : ∀ l ∈ p.levels, l.isRandom = false) (inside : level < p.levels.length) :
    (Draw.lift (ks.prefixes level) : Draw σ _) =
      (fun es => (es.map Entry.key).toArray) <$> Cursor.walk (some level) p.levels 0 "" := by
  obtain ⟨wide,free⟩ := level_listing (σ := σ) compiled fixed inside
  obtain ⟨error,listed⟩ := prefixes_listing single compiled fixed inside
  by_cases blocked : Blocked (p.levels.take (level + 1))
  · rw [wide blocked,error blocked]
    rfl
  · rw [free blocked,listed blocked,map_pure]
    simp only [List.map_map,Function.comp_def,List.map_id']
    rfl

/-- A walk over the tree, to its leaves or to a level further down, is a walk below each node of a list. -/
theorem walk_nodes {σ : Type} [RandomSource σ] (single : ks.patterns = [p]) (compiled : Pattern.Compiled p)
    (fixed : ∀ l ∈ p.levels, l.isRandom = false) (above : level + 1 < p.levels.length) {stop : Option Nat}
    (goes : ∀ j ≤ level, stop ≠ some j) :
    (Cursor.walk stop p.levels 0 "" : Draw σ _) = (do
      let nodes ← Draw.lift (ks.prefixes level)
      Cursor.gather (Cursor.walk stop (p.levels.drop (level + 1)) (level + 1)) nodes.toList) := by
  have upper := upper_levels compiled fixed above
  have length : (p.levels.take (level + 1)).length = level + 1 := by
    rw [List.length_take]
    omega
  have goes : ∀ j, 0 ≤ j → j < 0 + (p.levels.take (level + 1)).length → stop ≠ some j := by
    intro j _ short
    exact goes j (by omega)
  have split := List.take_append_drop (level + 1) p.levels
  obtain ⟨error,listed⟩ := prefixes_listing single compiled fixed (Nat.lt_of_succ_lt above)
  by_cases blocked : Blocked (p.levels.take (level + 1))
  · have walked := Cursor.walk_blocked (σ := σ) (p.levels.drop (level + 1)) upper blocked goes ""
    rw [split] at walked
    rw [walked,error blocked]
    rfl
  · have walked := Cursor.walk_parts (σ := σ) (p.levels.drop (level + 1)) upper blocked goes ""
    rw [split,length,Nat.zero_add] at walked
    rw [walked,listed blocked]
    rfl

/-- Before the keys of a subtree. -/
def subtree (level : Nat) (node : String) : Cursor := (Cursor.start none).startingAt node (level + 1)

/-- The subtrees below the nodes of a level have the keys of `es`, whatever source each of them draws its values from;
nothing but a value can stop one. -/
def SubtreeKeys (ks : KeySpace) (p : Pattern) (level : Nat) (es : List Entry) : Prop :=
  ∃ nodes, ks.prefixes level = .ok nodes ∧
    (∀ parts : List (List Entry), List.Forall₂ (fun node part => ∃ (τ : Type) (_ : RandomSource τ) (h h' : τ),
        (subtree level node).entries p.levels h = .ok (part,h')) nodes.toList parts →
      parts.flatten.map Entry.key = es.map Entry.key) ∧
    ∀ node ∈ nodes, ∀ (τ : Type) [RandomSource τ] (h : τ),
      (∃ part h', (subtree level node).entries p.levels h = .ok (part,h')) ∨
        ∃ f, (subtree level node).entries p.levels h = .error f ∧ ∃ l ∈ p.levels, l.ValueFault f

/-- The nodes of a level, and the subtrees below them. -/
structure Partitioned (ks : KeySpace) (p : Pattern) (level : Nat) : Prop where
  /-- All entries, draw by draw and up to the same fault, are those of the subtrees one after the other. -/
  whole : ∀ (σ : Type) [RandomSource σ], ((Cursor.start none).entries p.levels : Draw σ _) = (do
    let nodes ← Draw.lift (ks.prefixes level)
    Cursor.gather (fun node => (subtree level node).entries p.levels) nodes.toList)
  /-- So are those of a level further down, which nobody draws for. -/
  further : ∀ m, level < m → m < p.depth → ∀ (σ : Type) [RandomSource σ], (Draw.lift (ks.prefixes m) : Draw σ _) = (do
    let nodes ← Draw.lift (ks.prefixes level)
    let es ← Cursor.gather (fun node => ((subtree level node).stopAt m).entries p.levels) nodes.toList
    pure (es.map Entry.key).toArray)
  /-- It is the same whether a cursor is told first where to start or where to stop. -/
  either : ∀ m node, ((Cursor.start none).stopAt m).startingAt node (level + 1) = (subtree level node).stopAt m
  /-- Once all keys were enumerated, from any source, the subtrees have the same keys. -/
  sources : ∀ (σ : Type) [RandomSource σ] (g g' : σ) es, (Cursor.start none).entries p.levels g = .ok (es,g') →
    SubtreeKeys ks p level es

theorem subtree_entries {σ : Type} [RandomSource σ] (levels : List Level) (level : Nat) (node : String) :
    ((subtree level node).entries levels : Draw σ _) =
      Cursor.walk none (levels.drop (level + 1)) (level + 1) node := Cursor.entries_below levels none node (level + 1)

theorem subtree_keys {σ : Type} [RandomSource σ] (single : ks.patterns = [p]) (compiled : Pattern.Compiled p)
    (fixed : ∀ l ∈ p.levels, l.isRandom = false) (above : level + 1 < p.levels.length) {g g' : σ} {es : List Entry}
    (run : Cursor.walk none p.levels 0 "" g = .ok (es,g')) :
    SubtreeKeys ks p level es := by
  have leafLast := Pattern.Compiler.compiled_leafLast compiled
  have deeper := Cursor.leafLast_drop leafLast (level + 1) above
  have fixed_below : ∀ l ∈ p.levels.drop (level + 1), l.isRandom = false :=
    fun l member => fixed l (List.mem_of_mem_drop member)
  have keys := Cursor.walk_keys (fun l member => Level.fixed_named (fixed l member)) leafLast run
  have split := Cursor.texts_append Level.nameAt (p.levels.take (level + 1)) (p.levels.drop (level + 1)) ""
  rw [List.take_append_drop] at split
  have listed := prefixes_of_walk single compiled fixed (Nat.lt_of_succ_lt above) run
  rw [walk_nodes single compiled fixed above (by simp),listed] at run
  refine ⟨_,listed,?_,?_⟩
  · intro parts subtrees
    rw [List.toList_toArray] at subtrees
    rw [keys,split]
    clear run
    generalize texts Level.nameAt (p.levels.take (level + 1)) "" = nodes at subtrees ⊢
    induction subtrees with
    | nil => rfl
    | cons first _ ih =>
      obtain ⟨τ,_,h,h',first⟩ := first
      rw [subtree_entries] at first
      have part := Cursor.walk_keys (fun l member => Level.fixed_named (fixed_below l member)) deeper first
      rw [List.flatten_cons,List.map_append,List.flatMap_cons,part,ih]
  · intro node member τ _ h
    obtain ⟨part,h₁,h₂,turn⟩ := Cursor.gather_turn (Array.mem_toList_iff.mpr member) run
    rw [subtree_entries]
    rcases Cursor.walk_again fixed_below turn h with ⟨part',h',again,-⟩ | ⟨f,stopped,l,below,fault⟩
    · exact .inl ⟨part',h',again⟩
    · exact .inr ⟨f,stopped,l,List.mem_of_mem_drop below,fault⟩

/-- Where no name is drawn, the subtrees below the nodes of a level above the leaves make up the tree, in order. -/
theorem subtrees_partition (single : ks.patterns = [p]) (compiled : Pattern.Compiled p)
    (fixed : ∀ l ∈ p.levels, l.isRandom = false) (above : level + 1 < p.depth) : Partitioned ks p level where
  whole σ _ := by
    simp only [subtree_entries]
    rw [Cursor.start,Cursor.entries_below,List.drop_zero]
    exact walk_nodes single compiled fixed above (by simp)
  further m lower inside σ _ := by
    have goes : ∀ j ≤ level, some m ≠ some j := by
      intro j short same
      cases same
      omega
    have below (node : String) : ((subtree level node).stopAt m).entries p.levels =
        (Cursor.walk (some m) (p.levels.drop (level + 1)) (level + 1) node : Draw σ _) :=
      Cursor.entries_below p.levels (some m) node (level + 1)
    simp only [below]
    rw [lift_prefixes single compiled fixed inside,walk_nodes single compiled fixed above goes]
    simp only [map_bind,bind_pure_comp]
  either m node := rfl
  sources σ _ g g' es run := by
    rw [Cursor.start,Cursor.entries_below,List.drop_zero] at run
    exact subtree_keys single compiled fixed above run

/-- Two levels of two names each, and one of the keys. -/
theorem pairs_partition : ∃ ks p, ks.patterns = [p] ∧ Pattern.Compiled p ∧ (∀ l ∈ p.levels, l.isRandom = false) ∧
    p.depth = 3 ∧ (ks.prefixes 1).toOption = some #["/a/a","/a/b","/b/a","/b/b"] ∧ Partitioned ks p 0 := by
  let c : Pattern.Compiler := ⟨⟨[⟨"r",2,0,none,#["a","b"]⟩]⟩,none⟩
  let space (p : Pattern) : KeySpace := ⟨[p],1,List.cons_ne_nil p []⟩
  let check (p : Pattern) : Bool := p.levels.all (fun l => !l.isRandom) && decide (p.depth = 3 ∧
    ((space p).prefixes 1).toOption = some #["/a/a","/a/b","/b/a","/b/b"])
  obtain ⟨p,compiled,checked⟩ := Pattern.Compiler.compiled_of_makes c "/:r/:r/x;z" check (by decide +kernel)
  obtain ⟨fixed,checked⟩ := Bool.and_eq_true_iff.mp checked
  obtain ⟨depth,listed⟩ := of_decide_eq_true checked
  have fixed : ∀ l ∈ p.levels, l.isRandom = false := by
    intro l member
    simpa using List.all_eq_true.mp fixed l member
  exact ⟨space p,p,rfl,compiled,fixed,depth,listed,subtrees_partition rfl compiled fixed (by omega)⟩

end KeySpace

end Keyload
