import Keyload.Proofs.Churn.Subtrees
import Keyload.Proofs.KeySpace.Partition
import Keyload.Proofs.KeySpace.Populated
import Keyload.Proofs.Store.FiniteMap

/-!
What the reads of a level find in a loaded store. Names that are distinct and hold no slash make the keys of a tree
distinct (`texts_nodup`). A scan for the keys that start with the text of a node finds those of its subtree, and others
only where the node is the beginning of another one; where none is, a read answers with one subtree
(`read_covers_subtree`).
-/
namespace Keyload
open Pattern (Level)
open Memory (startsWith Below)

namespace Pattern.Level

/-- No two instances have one name. -/
def Distinct (l : Level) : Prop := ∀ i < l.count, ∀ j < l.count, ∀ n, l.Drawn i n → l.Drawn j n → i = j

variable {l : Level}

theorem nameAt_drawn (fixed : l.isRandom = false) (listed : l.Listed) (narrow : l.Narrow) {i : Nat}
    (inside : i < l.count) : l.Drawn i (l.nameAt i) :=
  ⟨Xoshiro,inferInstance,_,_,congrFun (fixed_pure fixed listed narrow inside) (Xoshiro.ofSeed 0)⟩

theorem distinct_of_names (fixed : l.isRandom = false)
    (names : ∀ i < l.count, ∀ j < l.count, l.nameAt i = l.nameAt j → i = j) : l.Distinct := by
  rintro i inside j inside' n ⟨σ,_,g,g',drawn⟩ ⟨τ,_,h,h',drawn'⟩
  apply names i inside j inside'
  rw [← fixed_named fixed σ i g g' n inside drawn,← fixed_named fixed τ j h h' n inside' drawn']

theorem unslashed_of_names (fixed : l.isRandom = false) (names : ∀ i < l.count, '/' ∉ (l.nameAt i).toList) :
    l.Unslashed := by
  rintro i inside n ⟨σ,_,g,g',drawn⟩
  rw [fixed_named fixed σ i g g' n inside drawn]
  exact names i inside

end Pattern.Level

namespace Cursor
open KeySpace (Cut names_unique)

/-- A text below a name goes on after it, at a slash or not at all. -/
private theorem texts_after {name : Level → Nat → String} {levels : List Level} {base n text : String}
    (member : text ∈ texts name levels (base ++ "/" ++ n)) :
    ∃ rest, Cut rest ∧ text.toList = base.toList ++ ('/' :: n.toList ++ rest) := by
  by_cases last : levels = []
  · subst last
    rw [List.mem_singleton.mp member]
    exact ⟨[],.inl rfl,by simp [String.toList_append]⟩
  · obtain ⟨more,rfl⟩ := texts_below last member
    exact ⟨'/' :: more.toList,.inr ⟨_,rfl⟩,by simp [String.toList_append]⟩

theorem name_unique {n n' : String} (unslashed : '/' ∉ n.toList) (unslashed' : '/' ∉ n'.toList)
    {rest rest' : List Char} (cut : Cut rest) (cut' : Cut rest')
    (same : '/' :: n.toList ++ rest = '/' :: n'.toList ++ rest') : n = n' := by
  have length : [n].length = [n'].length := rfl
  have names := names_unique length (by simpa using unslashed) (by simpa using unslashed') cut cut'
    (by simpa using same)
  exact (List.cons.inj names).1

/-- The texts of a tree are distinct where the names of each level are, and hold no slashes. -/
theorem texts_nodup {levels : List Level} (fixed : ∀ l ∈ levels, l.isRandom = false) (listed : ∀ l ∈ levels, l.Listed)
    (free : ¬ Blocked levels) (distinct : ∀ l ∈ levels, l.Distinct) (unslashed : ∀ l ∈ levels, l.Unslashed)
    (base : String) : (texts Level.nameAt levels base).Nodup := by
  induction levels generalizing base with
  | nil => exact List.nodup_singleton base
  | cons l rest ih =>
    by_cases none_there : l.count = 0
    · simp [texts,none_there]
    have free : l.Narrow ∧ ¬ Blocked rest := by
      by_contra other
      exact free ⟨Nat.pos_of_ne_zero none_there,by tauto⟩
    have drawn {i : Nat} (inside : i < l.count) : l.Drawn i (l.nameAt i) :=
      Level.nameAt_drawn (fixed l List.mem_cons_self) (listed l List.mem_cons_self) free.1 inside
    rw [texts,List.nodup_flatMap]
    constructor
    · intro i _
      exact ih (fun m member => fixed m (List.mem_cons_of_mem l member))
        (fun m member => listed m (List.mem_cons_of_mem l member)) free.2
        (fun m member => distinct m (List.mem_cons_of_mem l member))
        (fun m member => unslashed m (List.mem_cons_of_mem l member)) _
    · apply List.nodup_range.pairwise_of_forall_ne
      intro i member j member' other text here there
      have inside := List.mem_range.mp member
      have inside' := List.mem_range.mp member'
      obtain ⟨after,cut,same⟩ := texts_after here
      obtain ⟨after',cut',same'⟩ := texts_after there
      have names : l.nameAt i = l.nameAt j := by
        apply name_unique _ _ cut cut' (List.append_cancel_left (same.symm.trans same'))
        · exact unslashed l List.mem_cons_self i inside _ (drawn inside)
        · exact unslashed l List.mem_cons_self j inside' _ (drawn inside')
      apply other
      exact distinct l List.mem_cons_self i inside j inside' _ (drawn inside) (names ▸ drawn inside')

end Cursor

namespace Churn.LevelRead
open Cursor (texts Blocked)

/-- Of two nodes, none is the beginning of the other. -/
def PrefixFree (nodes : Array String) : Prop :=
  ∀ i j (known : i < nodes.size) (known' : j < nodes.size), i ≠ j → startsWith nodes[i] nodes[j] = false

/-- Whether a key is a node or below it. -/
def within (node key : String) : Bool := key == node || startsWith (node ++ "/") key

theorem within_iff (node key : String) : within node key = true ↔ key = node ∨ Below node key := by
  rw [within,Bool.or_eq_true,beq_iff_eq,Memory.startsWith_iff]
  rfl

theorem startsWith_within {node key : String} (inside : within node key = true) : startsWith node key = true := by
  rcases (within_iff node key).mp inside with rfl | below
  · exact (Memory.startsWith_iff key key).mpr ⟨"",String.append_empty.symm⟩
  · exact Memory.startsWith_below below

/-- The texts of some levels below a node are the node, where there is no level, or stand below it. -/
theorem within_texts {levels : List Level} {node key : String} (member : key ∈ texts Level.nameAt levels node) :
    within node key = true := by
  rw [within_iff]
  by_cases last : levels = []
  · subst last
    exact .inl (List.mem_singleton.mp member)
  · exact .inr (Cursor.texts_below last member)

/-- Two texts of which each key begins with both: one is the beginning of the other. -/
theorem startsWith_or {node node' key : String} (starts : startsWith node key = true)
    (starts' : startsWith node' key = true) : startsWith node node' = true ∨ startsWith node' node = true := by
  unfold startsWith at starts starts' ⊢
  rw [List.isPrefixOf_iff_prefix] at starts starts' ⊢
  rw [List.isPrefixOf_iff_prefix]
  exact List.prefix_or_prefix_of_prefix starts starts'

/-- Of the keys below some nodes, those that start with one of them are those below it. -/
theorem texts_under {nodes : Array String} (apart : PrefixFree nodes) {levels : List Level} {i : Nat}
    (known : i < nodes.size) {key : String} (member : key ∈ nodes.toList.flatMap (texts Level.nameAt levels)) :
    startsWith nodes[i] key = true ↔ key ∈ texts Level.nameAt levels nodes[i] := by
  constructor
  · intro starts
    obtain ⟨node,listed,here⟩ := List.mem_flatMap.mp member
    obtain ⟨j,known',rfl⟩ := Array.mem_iff_getElem.mp (Array.mem_toList_iff.mp listed)
    by_cases same : i = j
    · subst same
      exact here
    · rcases startsWith_or starts (startsWith_within (within_texts here)) with first | second
      · rw [apart i j known known' same] at first
        cases first
      · rw [apart j i known' known (Ne.symm same)] at second
        cases second
  · intro here
    exact startsWith_within (within_texts here)

theorem isLeaf_eq {levels : List Level} (leafLast : Cursor.LeafLast levels) {k : Nat} (inside : k < levels.length) :
    levels[k].isLeaf = !decide (k + 1 < levels.length) := by
  by_cases above : k + 1 < levels.length
  · rw [decide_eq_true above]
    apply Cursor.leafLast_inner leafLast above
    rw [List.take_succ_eq_append_getElem inside]
    exact List.mem_append_right _ List.mem_cons_self
  · have last := Cursor.leafLast_drop leafLast k inside
    rw [List.drop_eq_getElem_cons inside,List.drop_of_length_le (by omega)] at last
    rw [decide_eq_false above]
    exact last

/-- The reads of a level of a pattern; below the nodes, unless these are the keys. -/
theorem new_of_nodes {ks : KeySpace} {p : Pattern} {settings : Settings.Reads} {nodes : Array String}
    (single : ks.patterns = [p]) (leafLast : Cursor.LeafLast p.levels) (inside : settings.level < p.depth)
    (listed : ks.prefixes settings.level = .ok nodes) (some_node : 0 < nodes.size) :
    ∃ a, (LevelRead.new ks settings).run = .ok (.ok a) ∧ a.prefixes = nodes ∧ ∀ key, a.operation key =
      .get key (decide (settings.level + 1 < p.depth)) settings.serializable settings.keysOnly := by
  have pattern : onlyPattern ks "Get level" = pure p := by
    unfold onlyPattern KeySpace.single
    rw [single]
    rfl
  have prefixes : populated ks settings.level = pure ⟨nodes,some_node⟩ := by
    unfold populated
    rw [listed]
    simp only [Except.map,dif_pos some_node]
    rfl
  have inside : settings.level < p.levels.length := inside
  refine ⟨⟨nodes,p.levels[settings.level].isLeaf,settings.serializable,settings.keysOnly,some_node⟩,?_,rfl,?_⟩
  · unfold LevelRead.new
    rw [pattern,pure_bind,List.getElem?_eq_getElem inside]
    simp only [prefixes,pure_bind]
    rfl
  · intro key
    rw [operation,isLeaf_eq leafLast inside,Bool.not_not]
    rfl

/-- A read of a node, in a store that holds the keys below some nodes and no others: the keys below it are those that
start with its text, and those that are it or below it. -/
theorem keys_under {nodes : Array String} (apart : PrefixFree nodes) {levels : List Level} {m : Memory}
    (full : m.HasKeys (nodes.toList.flatMap (texts Level.nameAt levels))) {i : Nat} (known : i < nodes.size) :
    m.contents.keysUnder nodes[i] = (texts Level.nameAt levels nodes[i]).toFinset ∧
      (nodes.toList.flatMap (texts Level.nameAt levels)).toFinset.filter (fun key => within nodes[i] key = true) =
        (texts Level.nameAt levels nodes[i]).toFinset := by
  have among {key : String} (member : key ∈ texts Level.nameAt levels nodes[i]) :
      key ∈ nodes.toList.flatMap (texts Level.nameAt levels) :=
    List.mem_flatMap.mpr ⟨nodes[i],Array.getElem_mem_toList known,member⟩
  constructor
  · ext key
    have bound : m.contents.value key ≠ none ↔ key ∈ nodes.toList.flatMap (texts Level.nameAt levels) := by
      rw [← full key,← Std.TreeMap.mem_keys]
      exact Memory.get?_ne_none m key
    rw [FiniteMap.mem_keysUnder,bound,List.mem_toFinset,← List.isPrefixOf_iff_prefix]
    constructor
    · rintro ⟨member,starts⟩
      exact (texts_under apart known member).mp starts
    · intro member
      exact ⟨among member,(texts_under apart known (among member)).mpr member⟩
  · ext key
    rw [Finset.mem_filter,List.mem_toFinset,List.mem_toFinset]
    constructor
    · rintro ⟨member,inside⟩
      exact (texts_under apart known member).mp (startsWith_within inside)
    · intro member
      exact ⟨among member,within_texts member⟩

/-- The read of a node above the leaves. -/
theorem execute_below {m : Memory} {node : String} {found : Finset String} (under : m.contents.keysUnder node = found)
    (serializable keysOnly : Bool) : m.execute (.get node true serializable keysOnly) =
      (.ok (.get true found.card (∑ key ∈ found, m.contents.bytes keysOnly key)),m) := by
  have answered := congrArg Prod.fst (Memory.contents_execute m (.get node true serializable keysOnly))
  rw [FiniteMap.execute,under] at answered
  exact Prod.ext answered rfl

/-- The exact read of a key. -/
theorem execute_exact {m : Memory} {key : String} (member : key ∈ m.data) (serializable keysOnly : Bool) :
    m.execute (.get key false serializable keysOnly) = (.ok (.get false 1 (m.contents.bytes keysOnly key)),m) := by
  have bound : m.contents.value key ≠ none := by
    rw [← Std.TreeMap.mem_keys] at member
    exact (Memory.get?_ne_none m key).mpr member
  obtain ⟨value,bound⟩ := Option.ne_none_iff_exists'.mp bound
  have answered := congrArg Prod.fst (Memory.contents_execute m (.get key false serializable keysOnly))
  rw [FiniteMap.execute,bound] at answered
  exact Prod.ext answered rfl

/-- After a full load of a pattern without drawn names, whose names are distinct in each level and hold no slash: where
no node of a level is the beginning of another one, a read of a node answers with as many keys as its subtree has
and with the bytes of the keys that are the node or below it. -/
theorem read_covers_subtree {σ : Type} [RandomSource σ] {ks : KeySpace} {p : Pattern} (single : ks.patterns = [p])
    (compiled : Pattern.Compiled p) (fixed : ∀ l ∈ p.levels, l.isRandom = false)
    (distinct : ∀ l ∈ p.levels, l.Distinct) (unslashed : ∀ l ∈ p.levels, l.Unslashed) {settings : Settings.Reads}
    (inside : settings.level < p.depth) {n : Nat} {es : Array Entry} {b : Bounded} {g g' : σ}
    (loaded : (ks.keys 0).take n #[] g = .ok ((es,true,b),g')) {m : Memory}
    (full : m.HasKeys (es.toList.map Entry.key)) :
    ∃ nodes, ks.prefixes settings.level = .ok nodes ∧ (PrefixFree nodes → ∀ i (known : i < nodes.size),
      ∃ a, (LevelRead.new ks settings).run = .ok (.ok a) ∧ a.prefixes = nodes ∧
        let covered := (es.toList.map Entry.key).toFinset.filter fun key => within nodes[i] key = true
        m.execute (a.operation nodes[i]) = (.ok (.get (decide (settings.level + 1 < p.depth))
          ((p.levels.drop (settings.level + 1)).map Level.count).prod
          (∑ key ∈ covered, m.contents.bytes settings.keysOnly key)),m)) := by
  have leafLast := Pattern.Compiler.compiled_leafLast compiled
  have run := Bounded.take_single single loaded
  have keys := Cursor.walk_keys (fun l member => Level.fixed_named (fixed l member)) leafLast run
  have free := Cursor.free_of_walk leafLast run
  have whole := List.take_append_drop (settings.level + 1) p.levels
  obtain ⟨nodes,listed,upper⟩ : ∃ nodes, ks.prefixes settings.level = .ok nodes ∧
      nodes.toList = texts Level.nameAt (p.levels.take (settings.level + 1)) "" :=
    ⟨_,KeySpace.prefixes_of_walk single compiled fixed inside run,rfl⟩
  refine ⟨nodes,listed,?_⟩
  intro apart i known
  rw [← whole,Cursor.texts_append,← upper] at keys
  rw [keys] at full ⊢
  obtain ⟨under,covered⟩ := keys_under apart full known
  obtain ⟨a,created,prefixes,asks⟩ := new_of_nodes single leafLast inside listed (Nat.zero_lt_of_lt known)
  refine ⟨a,created,prefixes,?_⟩
  simp only [asks,covered]
  by_cases above : settings.level + 1 < p.depth
  · have below : ¬ Blocked (p.levels.drop (settings.level + 1)) := by
      intro blocked
      apply free
      rw [← whole,Cursor.blocked_append,← Cursor.length_texts Level.nameAt _ "",← upper]
      exact .inr ⟨Nat.zero_lt_of_lt known,blocked⟩
    have once := Cursor.texts_nodup (fun l member => fixed l (List.mem_of_mem_drop member))
      (fun l member => Pattern.Compiler.compiled_listed compiled l (List.mem_of_mem_drop member)) below
      (fun l member => distinct l (List.mem_of_mem_drop member))
      (fun l member => unslashed l (List.mem_of_mem_drop member)) nodes[i]
    rw [decide_eq_true above,execute_below under,List.toFinset_card_of_nodup once,Cursor.length_texts]
  · have last : p.levels.drop (settings.level + 1) = [] := List.drop_eq_nil_iff.mpr (Nat.not_lt.mp above)
    rw [last] at full ⊢
    have member : nodes[i] ∈ m.data := by
      rw [full,List.mem_flatMap]
      exact ⟨nodes[i],Array.getElem_mem_toList known,List.mem_singleton.mpr rfl⟩
    rw [decide_eq_false above,execute_exact member]
    simp [texts]

/-- Two keys below the first of two nodes. -/
theorem pairs_read : ∃ (ks : KeySpace) (p : Pattern) (es : Array Entry) (m : Memory), ks.patterns = [p] ∧
    Pattern.Compiled p ∧ (∀ l ∈ p.levels, l.isRandom = false) ∧ (∀ l ∈ p.levels, l.Distinct) ∧
    (∀ l ∈ p.levels, l.Unslashed) ∧ (∃ b g', (ks.keys 0).take 5 #[] (Xoshiro.ofSeed 1) = .ok ((es,true,b),g')) ∧
    m.HasKeys (es.toList.map Entry.key) ∧ PrefixFree #["/a","/b"] ∧
    ∃ a, (LevelRead.new ks ⟨none,0,false,true,false⟩).run = .ok (.ok a) ∧ a.prefixes = #["/a","/b"] ∧
      ∃ bytes, m.execute (a.operation "/a") = (.ok (.get true 2 bytes),m) := by
  let c : Pattern.Compiler := ⟨⟨[⟨"r",2,0,none,#["a","b"]⟩]⟩,none⟩
  let space (p : Pattern) : KeySpace := ⟨[p],1,List.cons_ne_nil p []⟩
  let load (p : Pattern) := ((space p).keys 0).take 5 #[] (Xoshiro.ofSeed 1)
  let plain (l : Level) : Bool := !l.isRandom && decide
    ((∀ i < l.count, ∀ j < l.count, l.nameAt i = l.nameAt j → i = j) ∧ ∀ i < l.count, '/' ∉ (l.nameAt i).toList)
  let check (p : Pattern) : Bool := p.levels.all plain && (decide (p.levels.map Level.count = [2,2,1] ∧
    ((space p).prefixes 0).toOption = some #["/a","/b"]) && LevelChurn.yields (load p) fun r => r.1.2.1)
  have apart : PrefixFree #["/a","/b"] := by
    intro i j known known' other
    obtain ⟨rfl,rfl⟩ | ⟨rfl,rfl⟩ : i = 0 ∧ j = 1 ∨ i = 1 ∧ j = 0 := by simp at known known'; omega
    · exact (by decide : startsWith "/a" "/b" = false)
    · exact (by decide : startsWith "/b" "/a" = false)
  obtain ⟨p,compiled,checked⟩ := Pattern.Compiler.compiled_of_makes c "/:r/:r/x;z" check (by decide +kernel)
  obtain ⟨names,checked⟩ := Bool.and_eq_true_iff.mp checked
  obtain ⟨shape,checked⟩ := Bool.and_eq_true_iff.mp checked
  obtain ⟨counts,listed⟩ := of_decide_eq_true shape
  obtain ⟨⟨⟨es,ended,b⟩,h⟩,loaded,checked⟩ := LevelChurn.ok_of_yields checked
  obtain rfl : ended = true := checked
  have plain (l : Level) (member : l ∈ p.levels) : l.isRandom = false ∧ l.Distinct ∧ l.Unslashed := by
    obtain ⟨fixed,names⟩ := Bool.and_eq_true_iff.mp (List.all_eq_true.mp names l member)
    obtain ⟨distinct,unslashed⟩ := of_decide_eq_true names
    have fixed : l.isRandom = false := by simpa using fixed
    exact ⟨fixed,Level.distinct_of_names fixed distinct,Level.unslashed_of_names fixed unslashed⟩
  have fixed (l : Level) (member : l ∈ p.levels) := (plain l member).1
  have distinct (l : Level) (member : l ∈ p.levels) := (plain l member).2.1
  have unslashed (l : Level) (member : l ∈ p.levels) := (plain l member).2.2
  have depth : p.depth = 3 := by
    have length := congrArg List.length counts
    rwa [List.length_map] at length
  let m := Memory.empty.executeAll ((es.toList.map fun e => (e.key,"")).map fun e => .put e.1 e.2)
  have full : m.HasKeys (es.toList.map Entry.key) := by
    intro key
    refine (Memory.mem_puts (m := .empty) rfl (es.toList.map fun e => (e.key,"")) key).2.trans ?_
    simp [Function.comp_def]
  let settings : Settings.Reads := ⟨none,0,false,true,false⟩
  have inside : settings.level < p.depth := by rw [depth]; decide
  have single : (space p).patterns = [p] := rfl
  obtain ⟨nodes,found,reads⟩ := read_covers_subtree single compiled fixed distinct unslashed inside loaded full
  rw [found] at listed
  obtain rfl := Option.some.inj listed
  obtain ⟨a,created,prefixes,answer⟩ := reads apart 0 (by decide)
  have above : decide (settings.level + 1 < p.depth) = true := by rw [depth]; rfl
  have product : ((p.levels.drop (settings.level + 1)).map Level.count).prod = 2 := by rw [List.map_drop,counts]; rfl
  rw [above,product] at answer
  exact ⟨space p,p,es,m,rfl,compiled,fixed,distinct,unslashed,⟨b,h,loaded⟩,full,apart,a,created,prefixes,_,answer⟩

end Churn.LevelRead

end Keyload
