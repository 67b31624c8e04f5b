import Keyload.Proofs.KeySpace.Passes

/-!
The leaf keys of a pattern of fixed names. A cursor that stands below a node of the pattern yields leaf keys alone, and
so does a bounded enumeration. A name that can not be printed stops whoever comes to it, so that a leaf key is only ever
yielded where all names can be printed; and then the list of the last level can be drawn and has it (`Leaf.listed`).
-/
namespace Keyload
open Pattern (Level)
open Cursor (texts LeafLast)

/-- A leaf key of a pattern of which every name can be printed. -/
structure Pattern.Leaf (p : Pattern) (key : String) : Prop where
  narrow : ∀ l ∈ p.levels, l.Narrow
  text : key ∈ texts Level.nameAt p.levels ""

/-- A node of a pattern at a level, to which all names can be printed. -/
structure Pattern.Node (p : Pattern) (level : Nat) (base : String) : Prop where
  narrow : ∀ l ∈ p.levels.take (level + 1), l.Narrow
  text : base ∈ texts Level.nameAt (p.levels.take (level + 1)) ""

/-- Open nodes to which all names could be printed, and below which there are only leaf keys. -/
structure Cursor.Below (p : Pattern) (stack : List Frame) : Prop where
  narrow : ∀ f ∈ stack, ∀ l ∈ p.levels.take f.level, l.Narrow
  texts : ∀ key ∈ stackTexts p.levels stack, key ∈ texts Level.nameAt p.levels ""

/-- A cursor that yields leaf keys alone. -/
structure Cursor.Yields (p : Pattern) (c : Cursor) : Prop where
  leaves : c.stop = none
  below : Below p c.stack

/-- An enumeration of a pattern that yields leaf keys alone. -/
structure Bounded.Yields (p : Pattern) (b : Bounded) : Prop where
  single : b.patterns = [p]
  place : ∀ c ps, b.place = some (c,ps) → ps = [p] ∧ c.Yields p

variable {σ : Type} [RandomSource σ] {p : Pattern}

/-! ### Names that are drawn -/

theorem Pattern.Level.narrow_of_drawn {l : Level} {i : Nat} {g g' : σ} {n : String}
    (drawn : l.instanceName i g = .ok (n,g')) : l.Narrow := by
  intro f segment
  unfold instanceName at drawn
  rw [segment] at drawn
  by_contra wide
  simp only [Format.render,if_neg wide] at drawn
  cases drawn

theorem Pattern.Level.fixed_drawn {l : Level} (fixed : l.isRandom = false) (listed : l.Listed) (narrow : l.Narrow)
    {i : Nat} (inside : i < l.count) (g : σ) : ∃ n, l.instanceName i g = .ok (n,g) := by
  cases drawn : l.instanceName i g with
  | ok r =>
    rw [instanceName_fixed fixed] at drawn
    cases name : l.fixedName i with
    | error f => rw [name] at drawn; cases drawn
    | ok n => rw [name] at drawn; cases drawn; exact ⟨n,rfl⟩
  | error f =>
    unfold instanceName at drawn
    cases segment : l.segment with
    | names names =>
      have enough := listed names segment
      simp only [segment,Array.getElem?_eq_getElem (Nat.lt_of_lt_of_le inside enough)] at drawn
      cases drawn
    | format f =>
      simp only [segment,Format.render,if_pos (narrow f segment)] at drawn
      cases drawn
    | random r => simp [isRandom,segment] at fixed

/-! ### Cursors -/

namespace Cursor

theorem leaf_last {levels : List Level} (leafLast : LeafLast levels) {k : Nat} {l : Level} (at_k : levels[k]? = some l)
    (leaf : l.isLeaf = true) : levels = levels.take k ++ [l] := by
  obtain ⟨inside,rfl⟩ := List.getElem?_eq_some_iff.mp at_k
  have last : levels.length ≤ k + 1 := by
    by_contra further
    have inner := leafLast_inner leafLast (n := k + 1) (by omega) levels[k]
      (by rw [List.take_succ_eq_append_getElem inside]; exact List.mem_append_right _ List.mem_cons_self)
    rw [inner] at leaf
    cases leaf
  rw [← List.take_succ_eq_append_getElem inside,List.take_of_length_le last]

/-- Up to the next key, and at the nodes that are open after it, all names can be printed. -/
theorem advanceStack_narrow (leafLast : LeafLast p.levels) {stack after : List Frame} {g g' : σ} {e : Entry}
    (narrow : ∀ f ∈ stack, ∀ l ∈ p.levels.take f.level, l.Narrow)
    (run : advanceStack p.levels none stack g = .ok ((some e,after),g')) :
    (∀ l ∈ p.levels, l.Narrow) ∧ ∀ f ∈ after, ∀ l ∈ p.levels.take f.level, l.Narrow := by
  induction stack using advanceStack.induct p.levels generalizing g with
  | case1 =>
    rw [advanceStack] at run
    cases run
  | case2 f rest beyond ih =>
    rw [advanceStack_beyond rest beyond] at run
    exact ih (fun f' member => narrow f' (List.mem_cons_of_mem f member)) run
  | case3 f rest l at_f more ih =>
    rw [advanceStack_next rest at_f more] at run
    obtain ⟨name,h,drawn,run⟩ := Draw.bind_ok run
    have inside := (List.getElem?_eq_some_iff.mp at_f).1
    have upper : p.levels.take (f.level + 1) = p.levels.take f.level ++ [l] := by
      obtain ⟨inside,rfl⟩ := List.getElem?_eq_some_iff.mp at_f
      exact List.take_succ_eq_append_getElem inside
    have down : ∀ m ∈ p.levels.take f.level ++ [l], m.Narrow := by
      intro m member
      rcases List.mem_append.mp member with above | here
      · exact narrow f List.mem_cons_self m above
      · rw [List.mem_singleton.mp here]
        exact Level.narrow_of_drawn drawn
    have left : ∀ f' ∈ { f with next := f.next + 1 } :: rest, ∀ l ∈ p.levels.take f'.level, l.Narrow := by
      intro f' member
      rcases List.mem_cons.mp member with rfl | member
      · exact narrow f List.mem_cons_self
      · exact narrow f' (List.mem_cons_of_mem f member)
    rw [if_neg (by simp)] at run
    by_cases leaf : l.isLeaf = true
    · rw [if_pos leaf] at run
      obtain ⟨value,h',-,run⟩ := Draw.bind_ok run
      cases run
      rw [leaf_last leafLast at_f leaf]
      refine ⟨down,?_⟩
      rw [← leaf_last leafLast at_f leaf]
      exact left
    · rw [if_neg leaf] at run
      refine ih name (fun f' member => ?_) run
      rcases List.mem_cons.mp member with rfl | member
      · rw [upper]
        exact down
      · exact left f' member
  | case4 f rest l at_f spent ih =>
    rw [advanceStack_spent rest at_f spent] at run
    exact ih (fun f' member => narrow f' (List.mem_cons_of_mem f member)) run

/-- What a cursor below a node yields is a leaf key, and the cursor still stands below a node. -/
theorem Yields.advance {c c' : Cursor} (yields : c.Yields p) (leafLast : LeafLast p.levels)
    (fixed : ∀ l ∈ p.levels, l.isRandom = false) {g g' : σ} {e : Entry}
    (run : c.advance p.levels g = .ok ((some e,c'),g')) : p.Leaf e.key ∧ c'.Yields p := by
  obtain ⟨⟨entry,after⟩,h,drawn,last⟩ := Draw.bind_ok run
  cases last
  rw [yields.leaves] at drawn
  have left := (advanceStack_texts leafLast drawn).same fixed
  obtain ⟨narrow,further⟩ := advanceStack_narrow leafLast yields.below.narrow drawn
  refine ⟨⟨narrow,yields.below.texts e.key ?_⟩,yields.leaves,further,fun key member => yields.below.texts key ?_⟩
  · rw [left]
    exact List.mem_cons_self
  · rw [left]
    exact List.mem_cons_of_mem e.key member

theorem yields_start (leafLast : LeafLast p.levels) : (Cursor.start none).Yields p := by
  refine ⟨rfl,fun f member => ?_,fun key member => ?_⟩
  · rw [List.mem_singleton.mp member]
    simp
  · have inside : 0 < p.levels.length := List.length_pos_iff.mpr (leafLast_ne_nil leafLast)
    have member : key ∈ stackTexts p.levels [⟨0,0,""⟩] := member
    rw [stackTexts_cons,frameTexts_child p.levels inside] at member
    simpa [stackTexts] using member

/-- Below a node there are leaf keys alone. -/
theorem yields_below {level : Nat} {base : String} (node : p.Node level base) (above : level + 1 < p.levels.length) :
    (Cursor.below base (level + 1) none).Yields p := by
  refine ⟨rfl,fun f member => ?_,fun key member => ?_⟩
  · rw [List.mem_singleton.mp member]
    exact node.narrow
  · have member : key ∈ stackTexts p.levels [⟨level + 1,0,base⟩] := member
    rw [stackTexts_cons,frameTexts_child p.levels above] at member
    have parts := texts_append Level.nameAt (p.levels.take (level + 1)) (p.levels.drop (level + 1)) ""
    rw [List.take_append_drop] at parts
    rw [parts,List.mem_flatMap]
    exact ⟨base,node.text,by simpa [stackTexts] using member⟩

end Cursor

/-! ### Bounded enumerations -/

namespace Bounded

theorem yields_start (leafLast : LeafLast p.levels) (total : Nat) : (Bounded.start [p] total).Yields p := by
  refine ⟨rfl,fun c ps place => ?_⟩
  cases place
  exact ⟨rfl,Cursor.yields_start leafLast⟩

/-- A pass over one pattern yields its leaf keys. -/
theorem scan_yields (leafLast : LeafLast p.levels) (fixed : ∀ l ∈ p.levels, l.isRandom = false) {c c' : Cursor}
    {ps : List Pattern} {g g' : σ} {e : Entry} (yields : c.Yields p)
    (run : scan c [p] g = .ok (some (e,c',ps),g')) : p.Leaf e.key ∧ ps = [p] ∧ c'.Yields p := by
  obtain ⟨⟨entry,c₁⟩,h,advanced,run⟩ := Draw.bind_ok run
  cases entry with
  | some e' =>
    cases run
    obtain ⟨leaf,further⟩ := yields.advance leafLast fixed advanced
    exact ⟨leaf,rfl,further⟩
  | none => cases run

/-- A step of an enumeration yields a leaf key, and those after it do so too. -/
theorem Yields.next {b b' : Bounded} (yields : b.Yields p) (leafLast : LeafLast p.levels)
    (fixed : ∀ l ∈ p.levels, l.isRandom = false) {g g' : σ} {entry : Option Entry}
    (run : b.next g = .ok ((entry,b'),g')) : (∀ e, entry = some e → p.Leaf e.key) ∧ b'.Yields p := by
  by_cases ended : 0 < b.total ∧ b.total ≤ b.emitted
  · rw [next_ended ended] at run
    cases run
    exact ⟨fun e same => (by cases same),yields⟩
  cases place : b.place with
  | none =>
    rw [next_closed place] at run
    cases run
    exact ⟨fun e same => (by cases same),yields⟩
  | some at_place =>
    obtain ⟨c,ps⟩ := at_place
    obtain ⟨rfl,below⟩ := yields.place c ps place
    have emits {nth : Nat} {e : Entry} {c' : Cursor} {ps' : List Pattern} (leaf : p.Leaf e.key) (same : ps' = [p])
        (further : c'.Yields p) : (∀ e', some e = some e' → p.Leaf e'.key) ∧ (b.emit nth c' ps').Yields p := by
      refine ⟨fun e' same => Option.some.inj same ▸ leaf,yields.single,fun c ps place => ?_⟩
      cases place
      exact ⟨same,further⟩
    have closes {n : Nat} : Yields p { b with emittedInPass := n, place := none } :=
      ⟨yields.single,fun c ps place => by cases place⟩
    rw [Bounded.next,if_neg ended,place] at run
    obtain ⟨found,h,scanned,run⟩ := Draw.bind_ok run
    cases found with
    | some r =>
      obtain ⟨e,c',ps'⟩ := r
      cases run
      obtain ⟨leaf,same,further⟩ := scan_yields leafLast fixed below scanned
      exact emits leaf same further
    | none =>
      simp only at run
      split at run
      · cases run
        exact ⟨fun e same => (by cases same),closes⟩
      · obtain ⟨found,h',scanned,run⟩ := Draw.bind_ok run
        rw [yields.single] at scanned
        cases found with
        | some r =>
          obtain ⟨e,c',ps'⟩ := r
          cases run
          obtain ⟨leaf,same,further⟩ := scan_yields leafLast fixed (Cursor.yields_start leafLast) scanned
          exact emits leaf same further
        | none =>
          cases run
          exact ⟨fun e same => (by cases same),closes⟩

end Bounded

/-! ### Lists of nodes -/

namespace Cursor

omit [RandomSource σ] in
theorem each_total {α : Type} {f : Nat → Draw σ (List α)} {n i : Nat}
    (turn : ∀ j, i ≤ j → j < i + n → ∀ g, ∃ as g', f j g = .ok (as,g')) (g : σ) : ∃ as g', each f n i g = .ok (as,g') := by
  induction n generalizing i g with
  | zero => exact ⟨[],g,rfl⟩
  | succ n ih =>
    obtain ⟨as,h,first⟩ := turn i (Nat.le_refl i) (by omega) g
    obtain ⟨bs,h',later⟩ := ih (i := i + 1) (fun j lower upper => turn j (by omega) (by omega)) h
    refine ⟨as ++ bs,h',?_⟩
    rw [each,Draw.bind_run first,Draw.bind_run later]
    rfl

/-- The nodes of a level can be listed where all names down to it can be printed. -/
theorem walk_total {above below : List Level} {l : Level} (fixed : ∀ m ∈ above ++ [l], m.isRandom = false)
    (listed : ∀ m ∈ above ++ [l], m.Listed) (narrow : ∀ m ∈ above ++ [l], m.Narrow)
    (inner : ∀ m ∈ above, m.isLeaf = false) {k wanted : Nat} (at_l : k + above.length = wanted) (base : String) (g : σ) :
    ∃ es g', walk (some wanted) (above ++ l :: below) k base g = .ok (es,g') := by
  induction above generalizing k base g with
  | nil =>
    obtain rfl : k = wanted := at_l
    refine each_total (fun i _ inside g => ?_) g
    obtain ⟨n,drawn⟩ := Level.fixed_drawn (fixed l List.mem_cons_self) (listed l List.mem_cons_self)
      (narrow l List.mem_cons_self) (by omega : i < l.count) g
    refine ⟨[⟨k,base ++ "/" ++ n,none⟩],g,?_⟩
    rw [visit,Draw.bind_run drawn,if_pos rfl]
    rfl
  | cons m rest ih =>
    rw [List.length_cons] at at_l
    refine each_total (fun i _ inside g => ?_) g
    obtain ⟨n,drawn⟩ := Level.fixed_drawn (fixed m List.mem_cons_self) (listed m List.mem_cons_self)
      (narrow m List.mem_cons_self) (by omega : i < m.count) g
    obtain ⟨es,g',deeper⟩ := ih (fun o member => fixed o (List.mem_cons_of_mem m member))
      (fun o member => listed o (List.mem_cons_of_mem m member)) (fun o member => narrow o (List.mem_cons_of_mem m member))
      (fun o member => inner o (List.mem_cons_of_mem m member)) (by omega : k + 1 + rest.length = wanted)
      (base ++ "/" ++ n) g
    refine ⟨es,g',?_⟩
    have goes : some wanted ≠ some k := by simp; omega
    rw [visit,Draw.bind_run drawn,if_neg goes,inner m List.mem_cons_self]
    exact deeper

/-- Where a node of a level was listed, all names down to it can be printed. -/
theorem walk_narrow {above below : List Level} {l : Level} (inner : ∀ m ∈ above, m.isLeaf = false) {k wanted : Nat}
    (at_l : k + above.length = wanted) {base : String} {g g' : σ} {es : List Entry} {e : Entry} (member : e ∈ es)
    (run : walk (some wanted) (above ++ l :: below) k base g = .ok (es,g')) : ∀ m ∈ above ++ [l], m.Narrow := by
  induction above generalizing k base g g' es with
  | nil =>
    obtain ⟨i,part,h,h',-,-,turn,-⟩ := each_from run member
    obtain ⟨n,h₁,drawn,-⟩ := Draw.bind_ok turn
    intro m only
    rw [List.mem_singleton.mp only]
    exact Level.narrow_of_drawn drawn
  | cons m rest ih =>
    rw [List.length_cons] at at_l
    obtain ⟨i,part,h,h',-,-,turn,found⟩ := each_from run member
    obtain ⟨n,h₁,drawn,turn⟩ := Draw.bind_ok turn
    have goes : some wanted ≠ some k := by simp; omega
    rw [if_neg goes,inner m List.mem_cons_self] at turn
    intro o among
    rcases List.mem_cons.mp among with rfl | among
    · exact Level.narrow_of_drawn drawn
    · exact ih (fun o member => inner o (List.mem_cons_of_mem m member)) (by omega) found turn o among

end Cursor

namespace KeySpace

variable {ks : KeySpace} {level : Nat}

/-- What is listed for a level are nodes of it. -/
theorem node_of_prefixes (single : ks.patterns = [p]) (leafLast : LeafLast p.levels)
    (fixed : ∀ l ∈ p.levels, l.isRandom = false) (inside : level < p.levels.length) {keys : Array String}
    (listed : ks.prefixes level = .ok keys) {key : String} (member : key ∈ keys) : p.Node level key := by
  have nodes := prefixes_texts single leafLast inside
    (fun l above => Level.fixed_named (fixed l (List.mem_of_mem_take above))) listed
  refine ⟨?_,nodes ▸ Array.mem_toList_iff.mpr member⟩
  obtain ⟨g,drawn⟩ := prefixes_single single listed
  obtain ⟨split,upper,count⟩ := levels_split inside
  rw [patternPrefixes_walk] at drawn
  obtain ⟨es,walked,same⟩ := Draw.map_ok drawn
  have member : key ∈ (es.filter fun e => e.level == level).map Entry.key := by
    rw [same]
    exact Array.mem_toList_iff.mpr member
  obtain ⟨e,among,-⟩ := List.mem_map.mp member
  rw [split] at walked
  rw [upper]
  exact Cursor.walk_narrow (Cursor.leafLast_inner leafLast inside) count (List.mem_of_mem_filter among) walked

/-- A leaf key of which every name can be printed is listed for the last level. -/
theorem listed_of_leaf (single : ks.patterns = [p]) (compiled : Pattern.Compiled p)
    (fixed : ∀ l ∈ p.levels, l.isRandom = false) {key : String} (leaf : p.Leaf key) :
    ∃ keys, ks.prefixes (p.depth - 1) = .ok keys ∧ key ∈ keys := by
  have leafLast := Pattern.Compiler.compiled_leafLast compiled
  have depth : 0 < p.depth := List.length_pos_iff.mpr (Cursor.leafLast_ne_nil leafLast)
  have inside : p.depth - 1 < p.levels.length := Nat.sub_lt depth Nat.one_pos
  have whole : p.levels.take (p.depth - 1 + 1) = p.levels := by
    rw [Nat.sub_add_cancel depth]
    exact List.take_length
  have drawn : ∃ keys, ks.prefixes (p.depth - 1) = .ok keys := by
    obtain ⟨split,upper,count⟩ := levels_split inside
    rw [whole] at upper
    have all {Q : Level → Prop} (holds : ∀ l ∈ p.levels, Q l) :
        ∀ l ∈ p.levels.take (p.depth - 1) ++ [p.levels[p.depth - 1]], Q l := by
      rw [← upper]
      exact holds
    obtain ⟨es,g,walked⟩ : ∃ es g, Cursor.walk (some (p.depth - 1)) p.levels 0 "" (ks.levelSource (p.depth - 1)) =
        .ok (es,g) := by
      rw [split]
      exact Cursor.walk_total (all fixed) (all (Pattern.Compiler.compiled_listed compiled)) (all leaf.narrow)
        (Cursor.leafLast_inner leafLast inside) count "" _
    have listed : ∃ keys, patternPrefixes p (p.depth - 1) (ks.levelSource (p.depth - 1)) = .ok (keys,g) := by
      rw [patternPrefixes_walk,Draw.map_apply,walked]
      exact ⟨_,rfl⟩
    obtain ⟨keys,listed⟩ := listed
    rw [prefixes,single]
    unfold drawPrefixes
    rw [Draw.bind_run listed]
    exact ⟨_,rfl⟩
  obtain ⟨keys,listed⟩ := drawn
  refine ⟨keys,listed,?_⟩
  have nodes := prefixes_texts single leafLast inside
    (fun l above => Level.fixed_named (fixed l (List.mem_of_mem_take above))) listed
  rw [whole] at nodes
  rw [← Array.mem_toList_iff,nodes]
  exact leaf.text

end KeySpace

end Keyload
