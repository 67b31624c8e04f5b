import Keyload.KeySpace.Lists
import Keyload.Proofs.KeySpace.NestedLoops
import Keyload.Proofs.KeySpace.Passes

/-!
Prefix lists do not depend on what was asked for before. Whatever is kept for a level is what would be drawn for it
(`Kept`), so an access is answered as if it were the first one, and leaves things so (`Access.run_kept`, `answers`).
The list itself joins what the patterns add to it in turn, all from the source of the level. A pattern that has the
level adds the names of its nodes there; one that ends above it is walked down to its values and adds nothing
(`patternPrefixes_names`).
-/
namespace Keyload
open Pattern (Level)

namespace Cursor

/-! ### A whole tree -/

theorem visited_all {vs : List Node} {n : Nat} (enough : (vs.filter Node.lowest).length < n) : visited vs n = vs := by
  induction vs generalizing n with
  | nil => cases n <;> rfl
  | cons v later ih =>
    obtain ⟨n,rfl⟩ : ∃ m, n = m + 1 := ⟨n - 1,by omega⟩
    rw [visited]
    by_cases lowest : v.lowest
    · rw [List.filter_cons_of_pos lowest,List.length_cons] at enough
      rw [if_pos lowest,ih (by omega)]
    · rw [List.filter_cons_of_neg lowest] at enough
      rw [if_neg lowest,ih enough]

theorem mul_lt_work (l : Level) {rest : List Level} {n : Nat} (few : n ≤ subtreeWork rest) :
    l.count * n < subtreeWork (l :: rest) := by
  have deeper : l.count * n ≤ l.count * (1 + subtreeWork rest) := Nat.mul_le_mul_left l.count (by omega)
  rw [subtreeWork]
  omega

theorem prod_le_work (levels : List Level) (n : Nat) : ((levels.take n).map Level.count).prod ≤ subtreeWork levels := by
  induction levels generalizing n with
  | nil => simp [subtreeWork]
  | cons l rest ih =>
    cases n with
    | zero => simp [subtreeWork]
    | succ n => exact Nat.le_of_lt (mul_lt_work l (ih n))

/-- A tree has fewer nodes at a level than a walk over it has steps. -/
theorem prod_lt_work {levels : List Level} (some_level : levels ≠ []) (n : Nat) (stop : Option Nat) :
    ((levels.take (n + 1)).map Level.count).prod < work levels (start stop).stack := by
  obtain ⟨l,rest,rfl⟩ := List.exists_cons_of_ne_nil some_level
  have steps : work (l :: rest) (start stop).stack = subtreeWork (l :: rest) := by
    simp [start,below,work,sumAll,frameWork,subtreeWork]
  rw [steps]
  exact mul_lt_work l (prod_le_work rest n)

variable {σ : Type} [RandomSource σ]

/-- All entries of a tree join what is drawn for its nodes down to the level of the entries, each of them once. -/
theorem rest_start {levels : List Level} (leafLast : LeafLast levels) (stop : Option Nat) :
    ((start stop).rest levels : Draw σ _) =
      (fun seen => ((tuples ((levels.take (entryLevel levels 0 stop + 1)).map Level.count)).map
        (entryOf "" (entryLevel levels 0 stop) (seenAt seen))).toArray) <$>
        (nodesBelow (levels.take (entryLevel levels 0 stop + 1)) []).mapM
          (see (decide (stop ≠ some (entryLevel levels 0 stop)))) := by
  have some_level := leafLast_ne_nil leafLast
  have inside : 0 < levels.length := List.length_pos_iff.mpr some_level
  have length := length_entered inside stop
  have reaches := reaches_entered leafLast inside stop
  have few := prod_lt_work some_level (entryLevel levels 0 stop) stop
  have whole : entered levels 0 stop = levels.take (entryLevel levels 0 stop + 1) := List.drop_zero
  rw [whole] at length reaches
  have some_part : levels.take (entryLevel levels 0 stop + 1) ≠ [] := by
    rintro none_level
    rw [none_level,List.length_nil] at length
    omega
  have all_tuples : (tuples ((levels.take (entryLevel levels 0 stop + 1)).map Level.count)).take
      (work levels (start stop).stack) = tuples ((levels.take (entryLevel levels 0 stop + 1)).map Level.count) := by
    apply List.take_of_length_le
    rw [length_tuples]
    omega
  have run := take_reached (σ := σ) reaches some_part "" (work levels (start stop).stack)
  rw [visited_all (length_lowest some_part [] ▸ few),all_tuples,length,Nat.add_sub_cancel] at run
  rw [rest]
  change (take levels _ (below "" 0 stop) #[] >>= _ : Draw σ _) = _
  rw [run]
  simp

end Cursor

namespace KeySpace
open Cursor (tuples nodesBelow see seenAt textOf)

variable {σ : Type} [RandomSource σ]

/-- What a pattern adds to the list of a level: the names of its nodes there. A pattern that ends above the level is
drawn down to its values, and adds nothing. -/
def levelNames (level : Nat) (p : Pattern) : Draw σ (List String) :=
  (fun seen =>
    if level < p.depth then (tuples ((p.levels.take (level + 1)).map Level.count)).map (textOf "" (seenAt seen))
    else []) <$>
    (nodesBelow (p.levels.take (level + 1)) []).mapM (see (decide (p.depth ≤ level)))

/-- Of entries at one level, a list has all or none. -/
private theorem entries_listed (table : List Nat → Cursor.Sighting) (e level : Nat) (paths : List (List Nat)) :
    ((paths.map (Cursor.entryOf "" e table)).filter fun entry => entry.level == level).map Entry.key =
      if e = level then paths.map (textOf "" table) else [] := by
  have all_or_none :
      (fun entry : Entry => entry.level == level) ∘ Cursor.entryOf "" e table = fun _ => e == level := rfl
  rw [List.filter_map,List.map_map,all_or_none]
  by_cases here : e = level
  · rw [if_pos here,List.filter_eq_self.mpr fun path _ => beq_iff_eq.mpr here]
    rfl
  · rw [if_neg here,List.filter_eq_nil_iff.mpr fun path _ same => here (beq_iff_eq.mp same),List.map_nil]

theorem patternPrefixes_names {p : Pattern} (leafLast : Cursor.LeafLast p.levels) (level : Nat) :
    (patternPrefixes p level : Draw σ _) = levelNames level p := by
  have stopped : (Cursor.start none).stopAt level = Cursor.start (some level) := rfl
  have some_level := List.length_pos_iff.mpr (Cursor.leafLast_ne_nil leafLast)
  have depth : p.depth = p.levels.length := rfl
  rw [patternPrefixes,stopped,Cursor.rest_start leafLast,levelNames]
  simp only [bind_pure_comp,Functor.map_map,entries_listed]
  by_cases inside : level < p.depth
  · have here : Cursor.entryLevel p.levels 0 (some level) = level := if_pos ⟨Nat.zero_le level,inside⟩
    rw [here,decide_eq_false (by simp : ¬ some level ≠ some level),decide_eq_false (by omega : ¬ p.depth ≤ level)]
    simp only [inside,if_true]
  · have last : Cursor.entryLevel p.levels 0 (some level) = p.levels.length - 1 := if_neg fun h => inside h.2
    have other : ¬ p.levels.length - 1 = level := by omega
    have whole : p.levels.take (p.levels.length - 1 + 1) = p.levels.take (level + 1) := by
      rw [List.take_of_length_le (by omega),List.take_of_length_le (by omega)]
    rw [last,whole,decide_eq_true (by simpa using Ne.symm other : some level ≠ some (p.levels.length - 1)),
      decide_eq_true (by omega : p.depth ≤ level)]
    simp only [inside,other,if_false]

theorem levelNames_length {p : Pattern} {level : Nat} {g g' : σ} {names : List String}
    (run : levelNames level p g = .ok (names,g')) :
    names.length = if level < p.depth then ((p.levels.take (level + 1)).map Level.count).prod else 0 := by
  obtain ⟨seen,-,rfl⟩ := Draw.map_ok run
  by_cases inside : level < p.depth
  · rw [if_pos inside,if_pos inside,List.length_map,Cursor.length_tuples]
  · rw [if_neg inside,if_neg inside,List.length_nil]

/-- What a pattern adds stops only at what is drawn for one of its nodes. -/
theorem levelNames_fault {p : Pattern} (listed : ∀ l ∈ p.levels, l.Listed) (narrow : ∀ l ∈ p.levels, l.Narrow)
    {level : Nat} {g : σ} {f : Fault} (stopped : levelNames level p g = .error f) : ∃ l ∈ p.levels, l.DrawFault f := by
  have stopped := Draw.map_error stopped
  rw [Cursor.mapM_sight] at stopped
  cases unseen : (Cursor.sight (decide (p.depth ≤ level)) (nodesBelow (p.levels.take (level + 1)) []) g).2 with
  | ok h =>
    rw [unseen] at stopped
    cases stopped
  | error f' =>
    rw [unseen] at stopped
    cases stopped
    obtain ⟨v,member,h,unseen⟩ := Cursor.sight_fault unseen
    obtain ⟨level,bound,-⟩ := Cursor.mem_nodesBelow member
    have level : v.level ∈ p.levels := List.mem_of_mem_take level
    exact ⟨v.level,level,Cursor.see_fault (listed v.level level) (narrow v.level level) bound unseen⟩

/-! ### Several patterns -/

section
variable {ps : List Pattern} {level : Nat}

theorem drawPrefixes_names (leafLast : ∀ p ∈ ps, Cursor.LeafLast p.levels) :
    (drawPrefixes level ps : Draw σ _) = List.flatten <$> ps.mapM (levelNames level) := by
  induction ps with
  | nil => simp [drawPrefixes]
  | cons p ps ih =>
    rw [drawPrefixes,patternPrefixes_names (leafLast p List.mem_cons_self),
      ih fun q member => leafLast q (List.mem_cons_of_mem p member)]
    simp

theorem drawPrefixes_length (leafLast : ∀ p ∈ ps, Cursor.LeafLast p.levels) {g g' : σ} {names : List String}
    (run : drawPrefixes level ps g = .ok (names,g')) :
    names.length = ((ps.filter fun p => level < p.depth).map fun p =>
      ((p.levels.take (level + 1)).map Level.count).prod).sum := by
  induction ps generalizing g names with
  | nil =>
    cases run
    rfl
  | cons p ps ih =>
    obtain ⟨first,h,drawn,run⟩ := Draw.bind_ok run
    obtain ⟨later,h',others,last⟩ := Draw.bind_ok run
    cases last
    rw [patternPrefixes_names (leafLast p List.mem_cons_self)] at drawn
    have later_length := ih (fun q member => leafLast q (List.mem_cons_of_mem p member)) others
    rw [List.length_append,levelNames_length drawn,later_length]
    by_cases inside : level < p.depth <;> simp [inside]

theorem drawPrefixes_fault (enumerable : Bounded.Enumerable ps) {g : σ} {f : Fault}
    (stopped : drawPrefixes level ps g = .error f) : Bounded.DrawFault ps f := by
  induction ps generalizing g with
  | nil => cases stopped
  | cons p ps ih =>
    rcases Draw.bind_error stopped with undrawn | ⟨first,h,-,stopped⟩
    · rw [patternPrefixes_names (enumerable.leafLast p List.mem_cons_self)] at undrawn
      exact ⟨p,List.mem_cons_self,levelNames_fault (enumerable.listed p List.mem_cons_self)
        (enumerable.narrow p List.mem_cons_self) undrawn⟩
    · rcases Draw.bind_error stopped with unlisted | ⟨later,h',-,last⟩
      · obtain ⟨q,member,fault⟩ := ih enumerable.tail unlisted
        exact ⟨q,List.mem_cons_of_mem p member,fault⟩
      · cases last

end

end KeySpace

namespace PrefixLists

/-! ### One access after the other -/

/-- An access to the list of a level. -/
inductive Access where
  | prefixes (level : Nat)
  | keyList (level : Nat)

/-- The list of a level, or the text of it. -/
def Access.run : Access → StateM PrefixLists (Except Fault (Array String ⊕ String))
  | .prefixes level => do
    let keys ← PrefixLists.prefixes level
    pure (keys.map .inl)
  | .keyList level => do
    let text ← PrefixLists.keyList level
    pure (text.map .inr)

/-- The list of a level, or the text of it, where nothing is kept. -/
def Access.answer (ks : KeySpace) : Access → Except Fault (Array String ⊕ String)
  | .prefixes level => (ks.prefixes level).map .inl
  | .keyList level => (ks.keyList level).map .inr

/-- What is kept is what would be drawn. -/
structure Kept (ks : KeySpace) (t : PrefixLists) : Prop where
  keySpace : t.keySpace = ks
  drawn : ∀ level keys, t.kept.lookup level = some keys → ks.prefixes level = .ok keys

variable {ks : KeySpace} {t : PrefixLists}

theorem kept_new (ks : KeySpace) : Kept ks (new ks) where
  keySpace := rfl
  drawn level keys found := by cases found

/-- What is kept still is what would be drawn, with another list that was drawn. -/
private theorem Kept.add (kept : Kept ks t) {level : Nat} {keys : Array String} (drawn : ks.prefixes level = .ok keys) :
    Kept ks { t with kept := (level,keys) :: t.kept } where
  keySpace := kept.keySpace
  drawn level' keys' found := by
    rw [List.lookup_cons] at found
    by_cases same : level' = level
    · rw [beq_iff_eq.mpr same] at found
      cases found
      rw [same,drawn]
    · rw [beq_eq_false_iff_ne.mpr same] at found
      exact kept.drawn level' keys' found

theorem prefixes_kept (kept : Kept ks t) (level : Nat) :
    (prefixes level t).1 = ks.prefixes level ∧ Kept ks (prefixes level t).2 := by
  unfold prefixes
  cases found : t.kept.lookup level with
  | some keys => exact ⟨(kept.drawn level keys found).symm,kept⟩
  | none =>
    rw [kept.keySpace]
    cases drawn : ks.prefixes level with
    | error f => exact ⟨rfl,kept⟩
    | ok keys => exact ⟨rfl,kept.keySpace ▸ kept.add drawn⟩

theorem Access.run_kept (kept : Kept ks t) (a : Access) : (a.run t).1 = a.answer ks ∧ Kept ks (a.run t).2 := by
  cases a with
  | prefixes level =>
    obtain ⟨same,later⟩ := prefixes_kept kept level
    refine ⟨?_,later⟩
    rw [answer,← same]
    rfl
  | keyList level =>
    obtain ⟨same,later⟩ := prefixes_kept kept level
    refine ⟨?_,later⟩
    rw [answer,KeySpace.keyList,← same]
    rfl

/-- Each access is answered as if it were the first, whatever was asked for before. -/
theorem answers (kept : Kept ks t) (asked : List Access) :
    (asked.mapM Access.run t).1 = asked.map (Access.answer ks) := by
  induction asked generalizing t with
  | nil => rfl
  | cons a later ih =>
    obtain ⟨same,kept'⟩ := a.run_kept kept
    rw [List.mapM_cons,List.map_cons]
    exact congrArg₂ List.cons same (ih kept')

end PrefixLists

namespace KeySpace

/-- The lists of all levels, whoever asks for them and whenever. -/
structure Steady (ks : KeySpace) : Prop where
  /-- Of accesses in any order, each is answered as if it were the only one. -/
  history : ∀ asked : List PrefixLists.Access,
    (asked.mapM PrefixLists.Access.run (PrefixLists.new ks)).1 = asked.map (PrefixLists.Access.answer ks)
  /-- The patterns add their names one after the other, from one source that the seed and the level make. -/
  names : ∀ level, ks.prefixes level =
    (ks.patterns.mapM (levelNames level) (Xoshiro.ofSeed (ks.seed ^^^ UInt64.ofNat level))).map
      fun r => r.1.flatten.toArray
  /-- Every node at the level is listed, of the patterns that have it. -/
  size : ∀ level keys, ks.prefixes level = .ok keys → keys.size =
    ((ks.patterns.filter fun p => level < p.depth).map fun p =>
      ((p.levels.take (level + 1)).map Level.count).prod).sum
  /-- A list that is not there is one that can not be drawn. -/
  faults : ∀ level f, ks.prefixes level = .error f → Bounded.DrawFault ks.patterns f

/-- Every level has one list, whoever asks for it and whenever: the names of the patterns that have the level, drawn
from a source of its own. -/
theorem lists_steady {ks : KeySpace} (compiled : ∀ p ∈ ks.patterns, Pattern.Compiled p)
    (narrow : ∀ p ∈ ks.patterns, ∀ l ∈ p.levels, l.Narrow) : Steady ks := by
  have enumerable : Bounded.Enumerable ks.patterns :=
    ⟨fun p member => Pattern.Compiler.compiled_leafLast (compiled p member),
      fun p member => Pattern.Compiler.compiled_listed (compiled p member),narrow⟩
  constructor
  case history =>
    intro asked
    exact PrefixLists.answers (PrefixLists.kept_new ks) asked
  case names =>
    intro level
    rw [prefixes,drawPrefixes_names enumerable.leafLast,Draw.map_apply,levelSource]
    cases ks.patterns.mapM (levelNames level) (Xoshiro.ofSeed (ks.seed ^^^ UInt64.ofNat level)) <;> rfl
  case size =>
    intro level keys listed
    obtain ⟨g,drawn⟩ := prefixes_drawn listed
    exact drawPrefixes_length enumerable.leafLast drawn
  case faults =>
    intro level f stopped
    exact drawPrefixes_fault enumerable (prefixes_undrawn stopped)

/-- Two patterns, of which the first has drawn names and the second ends above the level. -/
theorem drawn_names_steady : ∃ ks, (∀ p ∈ ks.patterns, Pattern.Compiled p) ∧
    (∀ p ∈ ks.patterns, ∀ l ∈ p.levels, l.Narrow) ∧ ks.patterns.map Pattern.depth = [2,1] ∧
    (ks.prefixes 1).toOption.map Array.size = some 2 ∧ Steady ks := by
  let c : Pattern.Compiler := ⟨⟨[⟨"r",2,0,none,#["a","b"]⟩]⟩,none⟩
  let space (p q : Pattern) : KeySpace := ⟨[p,q],1,List.cons_ne_nil p [q]⟩
  let plain (p : Pattern) : Bool := p.levels.all fun l => l.segment matches .names _ | .random _
  let check (p q : Pattern) : Bool := plain p && plain q && decide ([p,q].map Pattern.depth = [2,1] ∧
    ((space p q).prefixes 1).toOption.map Array.size = some 2)
  obtain ⟨p,compiled_p,checked⟩ := Pattern.Compiler.compiled_of_makes c "/:r/![x-z]{2};z"
    (fun p => c.makes "/:r;z" (check p)) (by decide +kernel)
  obtain ⟨q,compiled_q,checked⟩ := Pattern.Compiler.compiled_of_makes c "/:r;z" (check p) checked
  obtain ⟨plain_levels,checked⟩ := Bool.and_eq_true_iff.mp checked
  obtain ⟨plain_p,plain_q⟩ := Bool.and_eq_true_iff.mp plain_levels
  obtain ⟨depths,size⟩ := of_decide_eq_true checked
  have narrow_levels {r : Pattern} (checked : plain r = true) : ∀ l ∈ r.levels, l.Narrow := by
    intro l member f format
    have here := List.all_eq_true.mp checked l member
    rw [format] at here
    cases here
  have compiled : ∀ r ∈ [p,q], Pattern.Compiled r :=
    List.forall_mem_cons.mpr ⟨compiled_p,List.forall_mem_singleton.mpr compiled_q⟩
  have narrow : ∀ r ∈ [p,q], ∀ l ∈ r.levels, l.Narrow :=
    List.forall_mem_cons.mpr ⟨narrow_levels plain_p,List.forall_mem_singleton.mpr (narrow_levels plain_q)⟩
  exact ⟨space p q,compiled,narrow,depths,size,lists_steady compiled narrow⟩

end KeySpace

end Keyload
