import Mathlib.Algebra.Order.BigOperators.GroupWithZero.List
import Mathlib.Algebra.Order.Ring.Nat
import Keyload.Proofs.KeySpace.Names
import Keyload.Proofs.Store.Contents

/-!
Whether a pass over the keys fills the nodes that a list of prefixes names. Both walk one tree with random sources of
their own. Where every name down to the level is the same in all draws, they agree; where some name is not, and none
holds a slash, there are two sources for which they do not.
-/
namespace Keyload

namespace Pattern.Level

/-- The name of an instance can be drawn. -/
def Drawn (l : Level) (i : Nat) (name : String) : Prop :=
  ∃ (σ : Type) (_ : RandomSource σ) (g g' : σ), l.instanceName i g = .ok (name,g')

/-- All draws of a name agree. -/
def Steady (l : Level) : Prop := ∀ i < l.count, ∀ n m, l.Drawn i n → l.Drawn i m → n = m

/-- No name holds a slash. -/
def Unslashed (l : Level) : Prop := ∀ i < l.count, ∀ n, l.Drawn i n → '/' ∉ n.toList

/-- Every name can be drawn, and so can a value. -/
structure Drawable (l : Level) : Prop where
  names : ∀ i < l.count, ∃ n, l.Drawn i n
  values : ∃ (σ : Type) (_ : RandomSource σ) (g g' : σ) (value : String), l.drawValue g = .ok (value,g')

open Classical in
/-- A name that can be drawn. -/
noncomputable def someName (l : Level) (i : Nat) : String := if h : ∃ n, l.Drawn i n then h.choose else ""

theorem someName_drawn {l : Level} {i : Nat} (found : ∃ n, l.Drawn i n) : l.Drawn i (l.someName i) := by
  unfold someName
  rw [dif_pos found]
  exact found.choose_spec

theorem Steady.named {l : Level} (steady : l.Steady) : Named someName l := by
  intro σ _ i g g' n inside drawn
  have drawn : l.Drawn i n := ⟨σ,_,g,g',drawn⟩
  exact steady i inside n _ drawn (someName_drawn ⟨n,drawn⟩)

theorem random_drawn {l : Level} (random : l.isRandom = true) {i : Nat} {n : String} (drawn : l.Drawn i n) (j : Nat) :
    l.Drawn j n := by
  obtain ⟨σ,source,g,g',drawn⟩ := drawn
  refine ⟨σ,source,g,g',?_⟩
  unfold isRandom at random
  unfold instanceName at drawn ⊢
  cases segment : l.segment with
  | names names =>
    rw [segment] at random
    cases random
  | format f =>
    rw [segment] at random
    cases random
  | random r =>
    rw [segment] at drawn
    exact drawn

theorem fixed_steady {l : Level} (fixed : l.isRandom = false) : l.Steady := by
  rintro i inside n m ⟨σ,_,g,g',drawn⟩ ⟨τ,_,h,h',drawn'⟩
  rw [fixed_named fixed σ i g g' n inside drawn,fixed_named fixed τ i h h' m inside drawn']

theorem drawn_fixed {l : Level} (fixed : l.isRandom = false) {i : Nat} {n : String} :
    l.Drawn i n ↔ l.fixedName i = .ok n := by
  constructor
  · rintro ⟨σ,_,g,g',drawn⟩
    rw [instanceName_fixed fixed] at drawn
    cases named : l.fixedName i with
    | error f =>
      rw [named] at drawn
      cases drawn
    | ok m =>
      rw [named] at drawn
      cases drawn
      rfl
  · intro named
    exact ⟨Draw.Tape,inferInstance,Stream'.const 0,_,(instanceName_fixed fixed i _).trans (by rw [named]; rfl)⟩

end Pattern.Level

namespace Cursor
open Pattern (Level)

variable {σ : Type} [RandomSource σ] {levels : List Level} {k : Nat} {base : String} {g g' : σ} {es : List Entry}

/-- One instance in a pass: its key, or what is below it. -/
theorem visit_turn {l : Level} {deeper : String → Draw σ (List Entry)} {i : Nat}
    (turn : visit none l k deeper base i g = .ok (es,g')) :
    ∃ name, l.Drawn i name ∧ ((l.isLeaf = true ∧ ∃ value, es = [⟨k,base ++ "/" ++ name,some value⟩]) ∨
      l.isLeaf = false ∧ ∃ h, deeper (base ++ "/" ++ name) h = .ok (es,g')) := by
  obtain ⟨name,h,drawn,turn⟩ := Draw.bind_ok turn
  refine ⟨name,⟨σ,_,g,h,drawn⟩,?_⟩
  rw [if_neg (by simp)] at turn
  cases leaf : l.isLeaf with
  | true =>
    rw [leaf] at turn
    obtain ⟨value,h',-,turn⟩ := Draw.bind_ok turn
    cases turn
    exact .inl ⟨rfl,value,rfl⟩
  | false =>
    rw [leaf] at turn
    exact .inr ⟨rfl,h,turn⟩

/-- A pass has as many entries as there are ways down to the leaves. -/
theorem walk_length (leafLast : LeafLast levels) (run : walk none levels k base g = .ok (es,g')) :
    es.length = (levels.map Level.count).prod := by
  induction levels generalizing k base g g' es with
  | nil => exact absurd leafLast id
  | cons l rest ih =>
    rw [List.map_cons,List.prod_cons]
    refine each_length run fun i h part h' turn => ?_
    obtain ⟨name,-,⟨leaf,value,rfl⟩ | ⟨inner,h₁,turn⟩⟩ := visit_turn turn
    · cases rest with
      | nil => rfl
      | cons m rest =>
        rw [(leafLast_cons leafLast).1] at leaf
        cases leaf
    · cases rest with
      | nil =>
        rw [show l.isLeaf = true from leafLast] at inner
        cases inner
      | cons m rest => exact ih (leafLast_cons leafLast).2 turn

end Cursor

namespace KeySpace
open Pattern (Level)
open Cursor (texts LeafLast walk each visit)
open Memory (Below)
open Draw (Tape Reads reads_pure reads_bind)

/-- An entry of a level has a key: itself at the last level, some key below it above. -/
def Populates (p : Pattern) (level : Nat) (keys : List String) (entry : String) : Prop :=
  if level + 1 = p.depth then entry ∈ keys else ∃ key ∈ keys, Below entry key

theorem Populates.mono {p : Pattern} {level : Nat} {keys keys' : List String} {entry : String}
    (populates : Populates p level keys entry) (more : keys ⊆ keys') : Populates p level keys' entry := by
  unfold Populates at populates ⊢
  split
  · rename_i last
    rw [if_pos last] at populates
    exact more populates
  · rename_i above
    rw [if_neg above] at populates
    obtain ⟨key,member,below⟩ := populates
    exact ⟨key,more member,below⟩

/-- Whatever the sources, a pass over the keys fills the nodes that the list of a level names. -/
def Agrees (p : Pattern) (level : Nat) : Prop :=
  ∀ (σ : Type) [RandomSource σ] (g g' k k' : σ) (es : List Entry) (keys : List String),
    walk none p.levels 0 "" g = .ok (es,g') → patternPrefixes p level k = .ok (keys,k') →
      ∀ entry ∈ keys, Populates p level (es.map Entry.key) entry

/-! ### Steady names -/

section
variable {σ : Type} [RandomSource σ]

theorem walk_below {levels : List Level} {k : Nat} {base : String} {g g' : σ} {es : List Entry}
    (run : walk none levels k base g = .ok (es,g')) : ∀ e ∈ es, Below base e.key := by
  induction levels generalizing k base g g' es with
  | nil =>
    cases run
    intro e member
    cases member
  | cons l rest ih =>
    intro e member
    obtain ⟨i,part,h,h',-,-,turn,found⟩ := Cursor.each_from run member
    obtain ⟨name,-,⟨-,value,rfl⟩ | ⟨-,h₁,turn⟩⟩ := Cursor.visit_turn turn
    · rw [List.mem_singleton.mp found]
      exact ⟨name,rfl⟩
    · obtain ⟨more,below⟩ := ih turn e found
      exact ⟨name ++ "/" ++ more,by rw [below]; simp only [String.append_assoc]⟩

theorem walk_some {levels : List Level} (leafLast : LeafLast levels) (positive : ∀ l ∈ levels, 0 < l.count) {k : Nat}
    {base : String} {g g' : σ} {es : List Entry} (run : walk none levels k base g = .ok (es,g')) : es ≠ [] := by
  have some_entry : 0 < (levels.map Level.count).prod := List.prod_pos (by simpa using positive)
  rw [← Cursor.walk_length leafLast run] at some_entry
  exact List.ne_nil_of_length_pos some_entry

/-- Where names down to a level are steady, a pass over the keys fills the nodes of the level. -/
theorem populates_of_steady {p : Pattern} (leafLast : LeafLast p.levels) (positive : ∀ l ∈ p.levels, 0 < l.count)
    {level : Nat} (inside : level < p.depth) {name : Level → Nat → String}
    (named : ∀ l ∈ p.levels.take (level + 1), Level.Named name l) {g g' : σ} {es : List Entry}
    (walked : walk none p.levels 0 "" g = .ok (es,g')) {entry : String}
    (member : entry ∈ texts name (p.levels.take (level + 1)) "") : Populates p level (es.map Entry.key) entry := by
  unfold Populates
  split
  · rename_i last
    have whole : p.levels.take (level + 1) = p.levels := List.take_of_length_le (Nat.le_of_eq last.symm)
    rw [whole] at named member
    rw [Cursor.walk_keys named leafLast walked]
    exact member
  · rename_i above
    have deeper : level + 1 < p.levels.length := by
      unfold Pattern.depth at inside above
      omega
    rw [← List.take_append_drop (level + 1) p.levels] at walked
    obtain ⟨part,h,h',below,sub⟩ := Cursor.walk_node named (Cursor.leafLast_inner leafLast deeper) member walked
    have some_part := walk_some (Cursor.leafLast_drop leafLast (level + 1) deeper)
      (fun l at_l => positive l (List.mem_of_mem_drop at_l)) below
    obtain ⟨e,at_e⟩ := List.exists_mem_of_ne_nil part some_part
    exact ⟨e.key,List.mem_map_of_mem (sub at_e),walk_below below e at_e⟩

end

/-- Where names down to a level are steady, passes over the keys agree with the lists of the level. -/
theorem agrees_of_steady {p : Pattern} (leafLast : LeafLast p.levels) (positive : ∀ l ∈ p.levels, 0 < l.count)
    {level : Nat} (inside : level < p.depth) (steady : ∀ l ∈ p.levels.take (level + 1), l.Steady) : Agrees p level := by
  intro σ _ g g' k k' es keys walked listed entry member
  have named : ∀ l ∈ p.levels.take (level + 1), Level.Named Level.someName l := fun l at_l => (steady l at_l).named
  rw [patternPrefixes_texts leafLast inside named listed] at member
  exact populates_of_steady leafLast positive inside named walked member

/-! ### Texts as paths -/

/-- Every instance of a level can be given this name. -/
def Chosen (name : Level → Nat → String) (l : Level) : Prop := ∀ i < l.count, l.Drawn i (name l i)

/-- The text of names one below the other. -/
def path (base : String) (names : List String) : String := names.foldl (fun text name => text ++ "/" ++ name) base

theorem path_toList (base : String) (names : List String) :
    (path base names).toList = base.toList ++ names.flatMap fun name => '/' :: name.toList := by
  induction names generalizing base with
  | nil => simp [path]
  | cons name names ih =>
    show (path (base ++ "/" ++ name) names).toList = _
    rw [ih]
    simp [String.toList_append]

/-- A text of a level takes one name of every level down to it. -/
private theorem texts_path {name : Level → Nat → String} {levels : List Level} {base text : String}
    (member : text ∈ texts name levels base) : ∃ names, text = path base names ∧ names.length = levels.length ∧
      ∀ (j : Nat) (l : Level), levels[j]? = some l → ∃ i < l.count, names[j]? = some (name l i) := by
  induction levels generalizing base with
  | nil => exact ⟨[],List.mem_singleton.mp member,rfl,by simp⟩
  | cons l rest ih =>
    obtain ⟨i,inside,member⟩ := List.mem_flatMap.mp member
    obtain ⟨names,same,length,each_name⟩ := ih member
    refine ⟨name l i :: names,same,by simp [length],fun j m at_j => ?_⟩
    cases j with
    | zero =>
      cases at_j
      exact ⟨i,List.mem_range.mp inside,rfl⟩
    | succ j => exact each_name j m at_j

/-- What is left of a text after a name: nothing, or a slash and more. -/
def Cut (rest : List Char) : Prop := rest = [] ∨ ∃ more, rest = '/' :: more

private theorem names_cut {names : List String} {rest : List Char} (cut : Cut rest) :
    Cut ((names.flatMap fun name => '/' :: name.toList) ++ rest) := by
  cases names with
  | nil => simpa using cut
  | cons name names => exact .inr ⟨_,rfl⟩

private theorem names_unslashed {name : Level → Nat → String} {levels : List Level} {names : List String}
    (length : names.length = levels.length) (chosen : ∀ l ∈ levels, Chosen name l)
    (unslashed : ∀ l ∈ levels, l.Unslashed)
    (each_name : ∀ (j : Nat) (l : Level), levels[j]? = some l → ∃ i < l.count, names[j]? = some (name l i)) :
    ∀ n ∈ names, '/' ∉ n.toList := by
  intro n member
  obtain ⟨j,inside,rfl⟩ := List.mem_iff_getElem.mp member
  have at_j : levels[j]? = some levels[j] := List.getElem?_eq_getElem (length ▸ inside)
  obtain ⟨i,counted,same⟩ := each_name j _ at_j
  rw [List.getElem?_eq_getElem inside,Option.some.injEq] at same
  have at_level := List.getElem_mem (length ▸ inside : j < levels.length)
  rw [same]
  exact unslashed _ at_level i counted _ (chosen _ at_level i counted)

/-- Names without slashes can be read off a text. -/
theorem names_unique {names names' : List String} (length : names.length = names'.length)
    (unslashed : ∀ name ∈ names, '/' ∉ name.toList) (unslashed' : ∀ name ∈ names', '/' ∉ name.toList)
    {rest rest' : List Char} (cut : Cut rest) (cut' : Cut rest')
    (same : (names.flatMap fun name => '/' :: name.toList) ++ rest =
      (names'.flatMap fun name => '/' :: name.toList) ++ rest') : names = names' := by
  have first {chars : List Char} (free : '/' ∉ chars) {rest : List Char} (cut : Cut rest) :
      (chars ++ rest).takeWhile (· != '/') = chars := by
    have none_taken : rest.takeWhile (· != '/') = [] := by
      rcases cut with rfl | ⟨more,rfl⟩
      · rfl
      · simp
    rw [List.takeWhile_append_of_pos,none_taken,List.append_nil]
    intro c member
    simpa using fun is : c = '/' => free (is ▸ member)
  induction names generalizing names' with
  | nil => exact (List.length_eq_zero_iff.mp length.symm).symm
  | cons name names ih =>
    cases names' with
    | nil => simp at length
    | cons name' names' =>
      simp only [List.flatMap_cons,List.cons_append,List.append_assoc,List.cons.injEq,true_and] at same
      have taken := congrArg (List.takeWhile (· != '/')) same
      rw [first (unslashed name List.mem_cons_self) (names_cut cut),
        first (unslashed' name' List.mem_cons_self) (names_cut cut')] at taken
      rw [taken,List.append_cancel_left_eq] at same
      rw [String.toList_injective taken,ih (by simpa using length) (fun n member => unslashed n (.tail _ member))
        (fun n member => unslashed' n (.tail _ member)) same]

/-! ### Names that are chosen -/

/-- A loop whose turns can be made to yield something yields all of it. -/
private theorem each_reads {α β : Type} {f : Nat → Draw Tape (List α)} {key : α → β} {t : Nat → List β} {n i : Nat}
    (turn : ∀ j, i ≤ j → j < i + n → ∃ ws as, Reads (f j) ws as ∧ as.map key = t j) :
    ∃ ws as, Reads (each f n i) ws as ∧ as.map key = (List.range' i n).flatMap t := by
  induction n generalizing i with
  | zero => exact ⟨[],[],reads_pure [],rfl⟩
  | succ n ih =>
    obtain ⟨ws,as,first,keys⟩ := turn i (Nat.le_refl i) (by omega)
    obtain ⟨ws',as',later,keys'⟩ := ih (i := i + 1) fun j lower upper => turn j (by omega) (by omega)
    refine ⟨_,as ++ as',reads_bind first (reads_bind later (reads_pure (as ++ as'))),?_⟩
    rw [List.map_append,keys,keys',List.range'_succ,List.flatMap_cons]

private theorem chosen_reads {name : Level → Nat → String} {l : Level} (chosen : Chosen name l) {i : Nat}
    (inside : i < l.count) : ∃ ws, Reads (l.instanceName i) ws (name l i) := by
  obtain ⟨σ,_,g,g',drawn⟩ := chosen i inside
  exact (Pattern.instanceName_scripted l i).reads drawn

/-- Some words make a pass over the keys take the chosen names. -/
theorem walk_chosen {name : Level → Nat → String} {levels : List Level} (leafLast : LeafLast levels)
    (chosen : ∀ l ∈ levels, Chosen name l) (drawable : ∀ l ∈ levels, l.Drawable) (k : Nat) (base : String) :
    ∃ ws es, Reads (walk none levels k base) ws es ∧ es.map Entry.key = texts name levels base := by
  induction levels generalizing k base with
  | nil => exact absurd leafLast id
  | cons l rest ih =>
    rw [walk,texts,List.range_eq_range']
    refine each_reads fun i _ inside => ?_
    rw [Nat.zero_add] at inside
    obtain ⟨ws,named⟩ := chosen_reads (chosen l List.mem_cons_self) inside
    unfold visit
    cases rest with
    | nil =>
      have leaf : l.isLeaf = true := leafLast
      obtain ⟨σ,_,g,g',value,drawn⟩ := (drawable l List.mem_cons_self).values
      obtain ⟨vs,valued⟩ := (Pattern.drawValue_scripted l).reads drawn
      refine ⟨ws ++ (vs ++ []),[⟨k,base ++ "/" ++ name l i,some value⟩],reads_bind named ?_,rfl⟩
      rw [if_neg (by simp),if_pos leaf]
      exact reads_bind valued (reads_pure _)
    | cons l' rest =>
      obtain ⟨inner,deeper⟩ := Cursor.leafLast_cons leafLast
      obtain ⟨vs,es,walked,keys⟩ := ih deeper (fun m member => chosen m (.tail _ member))
        (fun m member => drawable m (.tail _ member)) (k + 1) (base ++ "/" ++ name l i)
      refine ⟨ws ++ vs,es,reads_bind named ?_,keys⟩
      rw [if_neg (by simp),inner]
      exact walked

/-- Some words make a pass over the prefixes of a level take the chosen names. -/
private theorem walkTo_chosen {name : Level → Nat → String} {above : List Level} (below : List Level) {l : Level}
    (inner : ∀ m ∈ above, m.isLeaf = false) (chosen : ∀ m ∈ above ++ [l], Chosen name m) {k wanted : Nat}
    (at_l : k + above.length = wanted) (base : String) :
    ∃ ws es, Reads (walk (some wanted) (above ++ l :: below) k base) ws es ∧
      es.map (fun e => (e.level,e.key)) = (texts name (above ++ [l]) base).map (wanted,·) := by
  induction above generalizing k base with
  | nil =>
    obtain rfl : k = wanted := at_l
    have whole : (texts name ([] ++ [l]) base).map (k,·) =
        (List.range' 0 l.count).flatMap fun i => [(k,base ++ "/" ++ name l i)] := by
      simp [texts,List.map_flatMap,List.range_eq_range']
    rw [whole,List.nil_append,walk]
    refine each_reads fun i _ inside => ?_
    rw [Nat.zero_add] at inside
    obtain ⟨ws,named⟩ := chosen_reads (chosen l List.mem_cons_self) inside
    refine ⟨ws ++ [],[⟨k,base ++ "/" ++ name l i,none⟩],reads_bind named ?_,rfl⟩
    rw [if_pos rfl]
    exact reads_pure _
  | cons m rest ih =>
    rw [List.length_cons] at at_l
    have whole : (texts name (m :: rest ++ [l]) base).map (wanted,·) =
        (List.range' 0 m.count).flatMap fun i =>
          (texts name (rest ++ [l]) (base ++ "/" ++ name m i)).map (wanted,·) := by
      simp only [List.cons_append,texts,List.map_flatMap,List.range_eq_range']
    rw [whole,List.cons_append,walk]
    refine each_reads fun i _ inside => ?_
    rw [Nat.zero_add] at inside
    obtain ⟨ws,named⟩ := chosen_reads (chosen m List.mem_cons_self) inside
    obtain ⟨vs,es,walked,keys⟩ := ih (fun o member => inner o (.tail _ member))
      (fun o member => chosen o (.tail _ member)) (by omega : k + 1 + rest.length = wanted) (base ++ "/" ++ name m i)
    refine ⟨ws ++ vs,es,reads_bind named ?_,keys⟩
    rw [if_neg (by simp; omega),inner m List.mem_cons_self]
    exact walked

/-- Some words make the list of a level take the chosen names. -/
theorem patternPrefixes_chosen {name : Level → Nat → String} {p : Pattern} (leafLast : LeafLast p.levels) {level : Nat}
    (inside : level < p.depth) (chosen : ∀ l ∈ p.levels.take (level + 1), Chosen name l) :
    ∃ ws, Reads (patternPrefixes p level) ws (texts name (p.levels.take (level + 1)) "") := by
  obtain ⟨split,upper,count⟩ := levels_split inside
  obtain ⟨ws,es,walked,entries⟩ := walkTo_chosen (p.levels.drop (level + 1))
    (Cursor.leafLast_inner leafLast inside) (upper ▸ chosen) count ""
  rw [← split] at walked
  refine ⟨ws,fun rest => ?_⟩
  rw [patternPrefixes_walk,Draw.map_apply,walked,upper,← entries_keys entries]
  rfl

/-! ### Names that are not steady -/

open Classical in
/-- One name for all instances of a level, and for every other level a name that can be drawn. -/
noncomputable def instead (l : Level) (n : String) (l' : Level) (i : Nat) : String :=
  if l' = l then n else l'.someName i

theorem texts_some (name : Level → Nat → String) {levels : List Level} (positive : ∀ l ∈ levels, 0 < l.count)
    (base : String) : ∃ text, text ∈ texts name levels base := by
  induction levels generalizing base with
  | nil => exact ⟨base,List.mem_singleton.mpr rfl⟩
  | cons l rest ih =>
    obtain ⟨text,member⟩ := ih (fun m member => positive m (.tail _ member)) (base ++ "/" ++ name l 0)
    exact ⟨text,List.mem_flatMap.mpr ⟨0,List.mem_range.mpr (positive l List.mem_cons_self),member⟩⟩

/-- Of two texts one of which goes on where the other ends, the names down to there are the same. -/
private theorem same_names {name name' : Level → Nat → String} {levels : List Level} {n : Nat} {key entry : String}
    (chosen : ∀ l ∈ levels, Chosen name l) (chosen' : ∀ l ∈ levels, Chosen name' l)
    (unslashed : ∀ l ∈ levels.take n, l.Unslashed) (at_key : key ∈ texts name levels "")
    (at_entry : entry ∈ texts name' (levels.take n) "") (goes_on : key = entry ∨ Below entry key) {l : Level}
    (member : l ∈ levels.take n) : ∃ i j, name l i = name' l j := by
  obtain ⟨names,rfl,length,each_name⟩ := texts_path at_key
  obtain ⟨names',rfl,length',each_name'⟩ := texts_path at_entry
  obtain ⟨rest,cut,same⟩ : ∃ rest, Cut rest ∧ (path "" names).toList = (path "" names').toList ++ rest := by
    rcases goes_on with same | ⟨more,same⟩
    · exact ⟨[],.inl rfl,by rw [same,List.append_nil]⟩
    · exact ⟨'/' :: more.toList,.inr ⟨_,rfl⟩,by rw [same]; simp [String.toList_append]⟩
  rw [path_toList,path_toList,← List.take_append_drop n names,List.flatMap_append] at same
  simp only [String.toList_empty,List.nil_append] at same
  have count : (names.take n).length = names'.length := by
    rw [length',List.length_take,List.length_take,length]
  have upper : ∀ (j : Nat) (l : Level), (levels.take n)[j]? = some l →
      ∃ i < l.count, (names.take n)[j]? = some (name l i) := by
    intro j l at_j
    rw [List.getElem?_take] at at_j ⊢
    split at at_j
    · rename_i early
      rw [if_pos early]
      exact each_name j l at_j
    · cases at_j
  have unique : names.take n = names' := by
    refine names_unique count ?_ ?_ (names_cut (.inl rfl : Cut [])) cut (by rw [List.append_nil]; exact same)
    · exact names_unslashed (count.trans length') (fun l at_l => chosen l (List.mem_of_mem_take at_l)) unslashed upper
    · exact names_unslashed length' (fun l at_l => chosen' l (List.mem_of_mem_take at_l)) unslashed each_name'
  obtain ⟨j,early,rfl⟩ := List.mem_iff_getElem.mp member
  obtain ⟨i,-,one⟩ := upper j _ (List.getElem?_eq_getElem early)
  obtain ⟨i',-,other⟩ := each_name' j _ (List.getElem?_eq_getElem early)
  rw [unique,other] at one
  exact ⟨i,i',(Option.some.inj one).symm⟩

/-- Where passes over the keys agree with the lists of a level, names down to the level are steady, as far as they hold
no slashes and can be drawn. -/
theorem steady_of_agrees {p : Pattern} (leafLast : LeafLast p.levels) (positive : ∀ l ∈ p.levels, 0 < l.count)
    {level : Nat} (inside : level < p.depth) (unslashed : ∀ l ∈ p.levels.take (level + 1), l.Unslashed)
    (drawable : ∀ l ∈ p.levels, l.Drawable) (agrees : Agrees p level) : ∀ l ∈ p.levels.take (level + 1), l.Steady := by
  intro l member
  cases random : l.isRandom with
  | false => exact Level.fixed_steady random
  | true =>
    intro i _ n n' drawn drawn'
    -- The name of a random level is drawn in the same way for every instance, so each of the two will do for all.
    have chosen {m : String} (drawn : l.Drawn i m) : ∀ l' ∈ p.levels, Chosen (instead l m) l' := by
      intro l' at_l' j inside'
      unfold instead
      split
      · rename_i same
        subst same
        exact Level.random_drawn random drawn j
      · exact Level.someName_drawn ((drawable l' at_l').names j inside')
    obtain ⟨ws,es,walked,keys⟩ := walk_chosen leafLast (chosen drawn) drawable 0 ""
    have upper {l' : Level} (at_l' : l' ∈ p.levels.take (level + 1)) : l' ∈ p.levels := List.mem_of_mem_take at_l'
    obtain ⟨vs,listed⟩ := patternPrefixes_chosen leafLast inside fun l' at_l' => chosen drawn' l' (upper at_l')
    obtain ⟨entry,at_entry⟩ := texts_some (instead l n') (fun l' at_l' => positive l' (upper at_l')) ""
    have filled := agrees Tape _ _ _ _ es _ (walked (Stream'.const 0)) (listed (Stream'.const 0)) entry at_entry
    rw [keys] at filled
    obtain ⟨key,at_key,goes_on⟩ : ∃ key ∈ texts (instead l n) p.levels "", key = entry ∨ Below entry key := by
      unfold Populates at filled
      split at filled
      · exact ⟨entry,filled,.inl rfl⟩
      · obtain ⟨key,at_key,below⟩ := filled
        exact ⟨key,at_key,.inr below⟩
    obtain ⟨_,_,same⟩ := same_names (chosen drawn) (chosen drawn') unslashed at_key at_entry goes_on member
    simpa [instead] using same

end KeySpace

end Keyload
