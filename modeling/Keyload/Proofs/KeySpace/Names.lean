import Keyload.Proofs.KeySpace.Walk

/-!
The keys that an enumeration yields where names do not depend on the draws. Levels of fixed names have one tree of
texts; every enumeration that ends yields its leaves, and a list of prefixes yields the nodes of a level. What
random numbers decide there are only the values.
-/
namespace Keyload

namespace Pattern.Level

/-- Whether names are drawn afresh for every key. -/
def isRandom (l : Level) : Bool :=
  match l.segment with
  | .random _ => true
  | _ => false

/-- The name of an instance where names are not drawn. -/
def fixedName (l : Level) (i : Nat) : Except Fault String :=
  match l.segment with
  | .names names =>
    match names[i]? with
    | some name => .ok name
    | none => .error .outOfRange
  | .format f => f.render i
  | .random _ => .error .outOfRange

/-- The name of an instance where names are not drawn, empty where it has none. -/
def nameAt (l : Level) (i : Nat) : String :=
  match l.fixedName i with
  | .ok name => name
  | .error _ => ""

/-- Whatever is drawn for an instance of the level is the name that `name` gives it. -/
def Named (name : Level → Nat → String) (l : Level) : Prop :=
  ∀ (σ : Type) [RandomSource σ] (i : Nat) (g g' : σ) (n : String), i < l.count →
    l.instanceName i g = .ok (n,g') → n = name l i

/-- A draw of a value of the level can stop with this fault. -/
def ValueFault (l : Level) (f : Fault) : Prop :=
  ∃ (σ : Type) (_ : RandomSource σ) (g : σ), l.drawValue g = .error f

/-- A text of the level's expression, or a value, can stop with this fault when it is drawn. -/
def DrawFault (l : Level) (f : Fault) : Prop :=
  (∃ (r : Regex) (σ : Type) (_ : RandomSource σ) (g : σ), l.segment = .random r ∧ r.draw g = .error f) ∨ ValueFault l f

/-- Where names are listed, there is one for every instance. -/
def Listed (l : Level) : Prop := ∀ names, l.segment = .names names → l.count ≤ names.size

/-- Where names are numbers, they are not too wide to print. -/
def Narrow (l : Level) : Prop := ∀ f, l.segment = .format f → f.verb.width ≤ Format.widest

variable {σ : Type} [RandomSource σ]

theorem instanceName_fault {l : Level} (listed : l.Listed) (narrow : l.Narrow) {i : Nat} (inside : i < l.count)
    {g : σ} {f : Fault} (stopped : l.instanceName i g = .error f) : l.DrawFault f := by
  unfold instanceName at stopped
  cases segment : l.segment with
  | names names =>
    have enough := listed names segment
    simp only [segment,Array.getElem?_eq_getElem (Nat.lt_of_lt_of_le inside enough)] at stopped
    cases stopped
  | format f =>
    simp only [segment,Format.render,if_pos (narrow f segment)] at stopped
    cases stopped
  | random r =>
    simp only [segment] at stopped
    exact .inl ⟨r,σ,_,g,segment,stopped⟩

theorem instanceName_fixed {l : Level} (fixed : l.isRandom = false) (i : Nat) (g : σ) :
    l.instanceName i g = (l.fixedName i).map (·,g) := by
  unfold instanceName fixedName
  cases segment : l.segment with
  | names names => cases place : names[i]? <;> simp [place] <;> rfl
  | format f => rfl
  | random r => simp [isRandom,segment] at fixed

theorem fixed_named {l : Level} (fixed : l.isRandom = false) : Named nameAt l := by
  intro σ _ i g g' n _ run
  rw [instanceName_fixed fixed] at run
  unfold nameAt
  cases name : l.fixedName i with
  | error e => rw [name] at run; cases run
  | ok m => rw [name] at run; cases run; rfl

end Pattern.Level

namespace Cursor

open Pattern (Level)

/-- The texts below `base` at the last of the levels. -/
def texts (name : Level → Nat → String) : List Level → String → List String
  | [], base => [base]
  | l :: rest, base => (List.range l.count).flatMap fun i => texts name rest (base ++ "/" ++ name l i)

/-- There is a leaf, and it is the last of the levels. -/
def LeafLast : List Level → Prop
  | [] => False
  | [l] => l.isLeaf = true
  | l :: rest => l.isLeaf = false ∧ LeafLast rest

theorem texts_append (name : Level → Nat → String) (above below : List Level) (base : String) :
    texts name (above ++ below) base = (texts name above base).flatMap (texts name below) := by
  induction above generalizing base with
  | nil => simp [texts]
  | cons l rest ih => simp [texts,ih,List.flatMap_assoc]

theorem texts_below {name : Level → Nat → String} {levels : List Level} (some_level : levels ≠ []) {base text : String}
    (member : text ∈ texts name levels base) : ∃ more, text = base ++ "/" ++ more := by
  induction levels generalizing base with
  | nil => exact absurd rfl some_level
  | cons l rest ih =>
    obtain ⟨i,-,member⟩ := List.mem_flatMap.mp member
    cases rest with
    | nil => exact ⟨_,List.mem_singleton.mp member⟩
    | cons l' rest =>
      obtain ⟨more,same⟩ := ih (List.cons_ne_nil l' rest) member
      exact ⟨name l i ++ "/" ++ more,by rw [same]; simp only [String.append_assoc]⟩

theorem leafLast_ne_nil {levels : List Level} (leafLast : LeafLast levels) : levels ≠ [] := by
  rintro rfl
  exact leafLast

theorem leafLast_cons {l l' : Level} {rest : List Level} (leafLast : LeafLast (l :: l' :: rest)) :
    l.isLeaf = false ∧ LeafLast (l' :: rest) := leafLast

theorem leafLast_drop {levels : List Level} (leafLast : LeafLast levels) (n : Nat) (inside : n < levels.length) :
    LeafLast (levels.drop n) := by
  induction n generalizing levels with
  | zero => exact leafLast
  | succ n ih =>
    cases levels with
    | nil => exact absurd leafLast id
    | cons l rest =>
      cases rest with
      | nil => simp at inside
      | cons l' rest =>
        rw [List.drop_succ_cons]
        exact ih (leafLast_cons leafLast).2 (by simpa using inside)

theorem leafLast_inner {levels : List Level} (leafLast : LeafLast levels) {n : Nat} (inside : n < levels.length) :
    ∀ l ∈ levels.take n, l.isLeaf = false := by
  induction n generalizing levels with
  | zero => simp
  | succ n ih =>
    cases levels with
    | nil => exact absurd leafLast id
    | cons l rest =>
      cases rest with
      | nil => simp at inside
      | cons l' rest =>
        obtain ⟨inner,deeper⟩ := leafLast_cons leafLast
        intro m member
        rw [List.take_succ_cons] at member
        rcases List.mem_cons.mp member with rfl | later
        · exact inner
        · exact ih deeper (by simpa using inside) m later

/-! ### Loops over the instances of a node -/

section
variable {σ : Type}

theorem each_parts {α : Type} {f : Nat → Draw σ (List α)} {n i : Nat} {g g' : σ} {as : List α}
    (run : each f n i g = .ok (as,g')) :
    ∃ parts : List (List α), as = parts.flatten ∧
      List.Forall₂ (fun j part => ∃ h h', f j h = .ok (part,h')) (List.range' i n) parts := by
  induction n generalizing i g as with
  | zero =>
    cases run
    exact ⟨[],rfl,.nil⟩
  | succ n ih =>
    obtain ⟨part,h,first,run⟩ := Draw.bind_ok run
    obtain ⟨others,h',later,run⟩ := Draw.bind_ok run
    obtain ⟨rfl,rfl⟩ := Draw.pure_ok run
    obtain ⟨parts,rfl,turns⟩ := ih later
    exact ⟨part :: parts,rfl,.cons ⟨g,h,first⟩ turns⟩

theorem each_map {α β : Type} {f : Nat → Draw σ (List α)} {key : α → β} {t : Nat → List β} {n : Nat}
    {g g' : σ} {as : List α}
    (turn : ∀ i, i < n → ∀ g as g', f i g = .ok (as,g') → as.map key = t i)
    (run : each f n 0 g = .ok (as,g')) : as.map key = (List.range n).flatMap t := by
  obtain ⟨parts,rfl,turns⟩ := each_parts run
  rw [← List.range_eq_range'] at turns
  have inside : ∀ i ∈ List.range n, i < n := fun i member => List.mem_range.mp member
  clear run
  generalize List.range n = range at turns inside
  induction turns with
  | nil => rfl
  | cons first _ ih =>
    obtain ⟨h,h',first⟩ := first
    simp only [List.flatten_cons,List.map_append,List.flatMap_cons]
    rw [turn _ (inside _ List.mem_cons_self) _ _ _ first,ih fun i member => inside i (List.mem_cons_of_mem _ member)]

/-- What a turn yields is part of what the loop yields. -/
theorem each_turn {α : Type} {f : Nat → Draw σ (List α)} {n i : Nat} {g g' : σ} {as : List α} (inside : i < n)
    (run : each f n 0 g = .ok (as,g')) : ∃ part h h', f i h = .ok (part,h') ∧ part ⊆ as := by
  obtain ⟨parts,rfl,turns⟩ := each_parts run
  rw [← List.range_eq_range'] at turns
  have member : i ∈ List.range n := List.mem_range.mpr inside
  clear run
  generalize List.range n = range at turns member
  induction turns with
  | nil => cases member
  | cons first _ ih =>
    rcases List.mem_cons.mp member with rfl | member
    · obtain ⟨h,h',first⟩ := first
      exact ⟨_,h,h',first,by simp⟩
    · obtain ⟨part,h,h',turn,sub⟩ := ih member
      exact ⟨part,h,h',turn,fun a inner => by simp [sub inner]⟩

/-- What a loop yields comes from one of its turns. -/
theorem each_from {α : Type} {f : Nat → Draw σ (List α)} {n i : Nat} {g g' : σ} {as : List α}
    (run : each f n i g = .ok (as,g')) {a : α} (member : a ∈ as) :
    ∃ j part h h', i ≤ j ∧ j < i + n ∧ f j h = .ok (part,h') ∧ a ∈ part := by
  induction n generalizing i g as with
  | zero =>
    cases run
    cases member
  | succ n ih =>
    obtain ⟨part,h,first,run⟩ := Draw.bind_ok run
    obtain ⟨others,h',later,run⟩ := Draw.bind_ok run
    obtain ⟨rfl,rfl⟩ := Draw.pure_ok run
    rcases List.mem_append.mp member with here | there
    · exact ⟨i,part,g,h,Nat.le_refl i,by omega,first,here⟩
    · obtain ⟨j,part',k,k',lower,upper,turn,found⟩ := ih later there
      exact ⟨j,part',k,k',by omega,by omega,turn,found⟩

theorem each_length {α : Type} {f : Nat → Draw σ (List α)} {n i m : Nat} {g g' : σ} {as : List α}
    (run : each f n i g = .ok (as,g')) (turn : ∀ j h part h', f j h = .ok (part,h') → part.length = m) :
    as.length = n * m := by
  induction n generalizing i g as with
  | zero =>
    cases run
    exact (Nat.zero_mul m).symm
  | succ n ih =>
    obtain ⟨part,h,first,run⟩ := Draw.bind_ok run
    obtain ⟨others,h',later,run⟩ := Draw.bind_ok run
    obtain ⟨rfl,rfl⟩ := Draw.pure_ok run
    rw [List.length_append,turn _ _ _ _ first,ih later,Nat.succ_mul,Nat.add_comm]

/-- A loop whose turns do again what they did before does again what it did before. -/
theorem each_again {α τ : Type} {f : Nat → Draw σ (List α)} {f' : Nat → Draw τ (List α)} {R : List α → List α → Prop}
    {Stops : Fault → Prop} (empty : R [] [])
    (join : ∀ {as as' bs bs'}, R as as' → R bs bs' → R (as ++ bs) (as' ++ bs'))
    (turn : ∀ i g as g', f i g = .ok (as,g') → ∀ h,
      (∃ bs h', f' i h = .ok (bs,h') ∧ R as bs) ∨ ∃ e, f' i h = .error e ∧ Stops e)
    {n i : Nat} {g g' : σ} {as : List α} (run : each f n i g = .ok (as,g')) (h : τ) :
    (∃ bs h', each f' n i h = .ok (bs,h') ∧ R as bs) ∨ ∃ e, each f' n i h = .error e ∧ Stops e := by
  induction n generalizing i g as h with
  | zero =>
    cases run
    exact .inl ⟨[],h,rfl,empty⟩
  | succ n ih =>
    obtain ⟨part,g₁,first,run⟩ := Draw.bind_ok run
    obtain ⟨others,g₂,later,run⟩ := Draw.bind_ok run
    obtain ⟨rfl,rfl⟩ := Draw.pure_ok run
    rcases turn _ _ _ _ first h with ⟨bs,h₁,again,alike⟩ | ⟨e,stopped,stops⟩
    · rw [each,Draw.bind_run again]
      rcases ih later h₁ with ⟨cs,h₂,again,alike'⟩ | ⟨e,stopped,stops⟩
      · exact .inl ⟨bs ++ cs,h₂,Draw.bind_run again,join alike alike'⟩
      · exact .inr ⟨e,Draw.bind_stopped stopped,stops⟩
    · exact .inr ⟨e,Draw.bind_stopped stopped,stops⟩

end

/-! ### Walks over named levels -/

variable {σ : Type} [RandomSource σ]

/-- An instance above the leaves and above the level that is wanted: its subtree. -/
private theorem visit_inner {stop : Option Nat} {l : Level} {k : Nat} (goes : stop ≠ some k) (inner : l.isLeaf = false)
    {name : Level → Nat → String} (named : Level.Named name l) {deeper : String → Draw σ (List Entry)} {base : String}
    {i : Nat} (inside : i < l.count) {g g' : σ} {es : List Entry}
    (run : visit stop l k deeper base i g = .ok (es,g')) :
    ∃ h, deeper (base ++ "/" ++ name l i) h = .ok (es,g') := by
  obtain ⟨n,h,drawn,run⟩ := Draw.bind_ok run
  obtain rfl := named σ i g h n inside drawn
  rw [if_neg goes,inner] at run
  exact ⟨h,run⟩

/-- A pass over the keys yields the texts of the leaves, in order. -/
theorem walk_keys {name : Level → Nat → String} {levels : List Level} (named : ∀ l ∈ levels, Level.Named name l)
    (leafLast : LeafLast levels) {k : Nat} {base : String} {g g' : σ} {es : List Entry}
    (run : walk none levels k base g = .ok (es,g')) : es.map Entry.key = texts name levels base := by
  induction levels generalizing k base g g' es with
  | nil => exact absurd leafLast id
  | cons l rest ih =>
    refine each_map (fun i inside g es g' run => ?_) run
    cases rest with
    | nil =>
      obtain ⟨n,h,drawn,run⟩ := Draw.bind_ok run
      obtain rfl := named l List.mem_cons_self σ i g h n inside drawn
      have leaf : l.isLeaf = true := leafLast
      rw [if_neg (by simp),if_pos leaf] at run
      obtain ⟨value,h',-,run⟩ := Draw.bind_ok run
      cases run
      rfl
    | cons l' rest =>
      obtain ⟨inner,deeper⟩ := leafLast_cons leafLast
      obtain ⟨h,run⟩ := visit_inner (by simp) inner (named l List.mem_cons_self) inside run
      exact ih (fun m member => named m (List.mem_cons_of_mem l member)) deeper run

/-- A pass over the keys passes through every node of the upper levels, and walks what is below it. -/
theorem walk_node {name : Level → Nat → String} {above below : List Level} (named : ∀ l ∈ above, Level.Named name l)
    (inner : ∀ l ∈ above, l.isLeaf = false) {k : Nat} {base node : String} (member : node ∈ texts name above base)
    {g g' : σ} {es : List Entry} (run : walk none (above ++ below) k base g = .ok (es,g')) :
    ∃ part, ∃ h h' : σ, walk none below (k + above.length) node h = .ok (part,h') ∧ part ⊆ es := by
  induction above generalizing k base g g' es with
  | nil =>
    obtain rfl := List.mem_singleton.mp member
    exact ⟨es,g,g',run,List.Subset.refl es⟩
  | cons l rest ih =>
    obtain ⟨i,inside,member⟩ := List.mem_flatMap.mp member
    have inside := List.mem_range.mp inside
    obtain ⟨part,h,h',turn,sub⟩ := each_turn inside run
    obtain ⟨h₁,turn⟩ := visit_inner (by simp) (inner l List.mem_cons_self) (named l List.mem_cons_self) inside turn
    obtain ⟨part',h₂,h₃,deeper,sub'⟩ := ih (fun m member => named m (List.mem_cons_of_mem l member))
      (fun m member => inner m (List.mem_cons_of_mem l member)) member turn
    refine ⟨part',h₂,h₃,?_,fun e found => sub (sub' found)⟩
    rw [List.length_cons,show k + (rest.length + 1) = k + 1 + rest.length by omega]
    exact deeper

/-- A pass over the prefixes of a level yields the texts of its nodes, in order. -/
theorem walk_prefixes {name : Level → Nat → String} {above below : List Level} {l : Level}
    (named : ∀ m ∈ above ++ [l], Level.Named name m) (inner : ∀ m ∈ above, m.isLeaf = false) {k wanted : Nat}
    (at_l : k + above.length = wanted) {base : String} {g g' : σ} {es : List Entry}
    (run : walk (some wanted) (above ++ l :: below) k base g = .ok (es,g')) :
    es.map (fun e => (e.level,e.key)) = (texts name (above ++ [l]) base).map (wanted,·) := by
  induction above generalizing k base g g' es with
  | nil =>
    obtain rfl : k = wanted := at_l
    refine (each_map (t := fun i => [(k,base ++ "/" ++ name l i)]) (fun i inside g es g' run => ?_) run).trans ?_
    · obtain ⟨n,h,drawn,run⟩ := Draw.bind_ok run
      obtain rfl := named l List.mem_cons_self σ i g h n inside drawn
      rw [if_pos rfl] at run
      cases run
      rfl
    · simp [texts,List.map_flatMap]
  | cons m rest ih =>
    rw [List.length_cons] at at_l
    have whole : (texts name (m :: rest ++ [l]) base).map (wanted,·) =
        (List.range m.count).flatMap fun i =>
          (texts name (rest ++ [l]) (base ++ "/" ++ name m i)).map (wanted,·) := by
      simp only [List.cons_append,texts,List.map_flatMap]
    rw [whole]
    refine each_map (fun i inside g es g' run => ?_) run
    obtain ⟨h,run⟩ := visit_inner (by simp; omega) (inner m List.mem_cons_self) (named m List.mem_cons_self) inside run
    exact ih (fun o member => named o (List.mem_cons_of_mem m member))
      (fun o member => inner o (List.mem_cons_of_mem m member)) (by omega) run

/-- A pass over fixed names that ended once ends again from every source with the same keys, unless a value stops it. -/
theorem walk_again {levels : List Level} (fixed : ∀ l ∈ levels, l.isRandom = false) {k : Nat} {base : String}
    {g g' : σ} {es : List Entry} (run : walk none levels k base g = .ok (es,g')) {τ : Type} [RandomSource τ] (h : τ) :
    (∃ bs h', walk none levels k base h = .ok (bs,h') ∧ es.map Entry.key = bs.map Entry.key) ∨
      ∃ e, walk none levels k base h = .error e ∧ ∃ l ∈ levels, Level.ValueFault l e := by
  induction levels generalizing k base g g' es h with
  | nil =>
    cases run
    exact .inl ⟨[],h,rfl,rfl⟩
  | cons l rest ih =>
    refine each_again (R := fun as bs => as.map Entry.key = bs.map Entry.key) rfl
      (fun alike alike' => by simp [alike,alike']) (fun i g es g' run h => ?_) run h
    obtain ⟨n,g₁,drawn,run⟩ := Draw.bind_ok run
    have again : l.instanceName i h = .ok (n,h) := by
      rw [Level.instanceName_fixed (fixed l List.mem_cons_self)] at drawn ⊢
      cases name : l.fixedName i with
      | error e => rw [name] at drawn; cases drawn
      | ok m => rw [name] at drawn; cases drawn; rfl
    rw [visit,Draw.bind_run again]
    simp only [reduceCtorEq,if_false] at run ⊢
    by_cases leaf : l.isLeaf = true
    · rw [if_pos leaf] at run ⊢
      obtain ⟨value,g₂,-,run⟩ := Draw.bind_ok run
      cases run
      cases drawn : (l.drawValue : Draw τ _) h with
      | error e => exact .inr ⟨e,Draw.bind_stopped drawn,l,List.mem_cons_self,τ,_,h,drawn⟩
      | ok r => exact .inl ⟨_,r.2,Draw.bind_run drawn,rfl⟩
    · rw [if_neg leaf] at run ⊢
      rcases ih (fun m member => fixed m (List.mem_cons_of_mem l member)) run h with again | ⟨e,stopped,m,member,fault⟩
      · exact .inl again
      · exact .inr ⟨e,stopped,m,List.mem_cons_of_mem l member,fault⟩

end Cursor

namespace KeySpace
open Pattern (Level)
open Cursor (texts LeafLast)

theorem patternPrefixes_walk {σ : Type} [RandomSource σ] (p : Pattern) (level : Nat) :
    (patternPrefixes p level : Draw σ (List String)) =
      (fun es => (es.filter fun e => e.level == level).map Entry.key) <$> Cursor.walk (some level) p.levels 0 "" := by
  have all := Cursor.stackWalk_below (σ := σ) p.levels (some level) "" 0
  rw [List.drop_zero] at all
  unfold patternPrefixes
  rw [Cursor.rest_eq,← all,bind_map_left]
  exact bind_pure_comp _ _

/-- What is listed of entries that are all of one level. -/
theorem entries_keys {es : List Entry} {level : Nat} {ts : List String}
    (entries : es.map (fun e => (e.level,e.key)) = ts.map (level,·)) :
    (es.filter fun e => e.level == level).map Entry.key = ts := by
  have wanted : ∀ e ∈ es, e.level = level := by
    intro e member
    have found : (e.level,e.key) ∈ es.map fun e => (e.level,e.key) := List.mem_map.mpr ⟨e,member,rfl⟩
    rw [entries] at found
    obtain ⟨_,-,same⟩ := List.mem_map.mp found
    exact (congrArg Prod.fst same).symm
  have keys := congrArg (List.map Prod.snd) entries
  simp only [List.map_map,Function.comp_def,List.map_id'] at keys
  rw [List.filter_eq_self.mpr fun e member => beq_iff_eq.mpr (wanted e member)]
  exact keys

/-- The levels down to one of them, that one last. -/
theorem levels_split {p : Pattern} {level : Nat} (inside : level < p.levels.length) :
    p.levels = p.levels.take level ++ p.levels[level] :: p.levels.drop (level + 1) ∧
      p.levels.take (level + 1) = p.levels.take level ++ [p.levels[level]] ∧
      0 + (p.levels.take level).length = level := by
  refine ⟨?_,List.take_succ_eq_append_getElem inside,?_⟩
  · rw [List.getElem_cons_drop,List.take_append_drop]
  · rw [List.length_take]
    omega

/-- The entries of a pattern at a level, where they can be drawn at all, are the texts of its nodes. -/
theorem patternPrefixes_texts {σ : Type} [RandomSource σ] {name : Level → Nat → String} {p : Pattern} {level : Nat}
    (leafLast : LeafLast p.levels) (inside : level < p.levels.length)
    (named : ∀ l ∈ p.levels.take (level + 1), Level.Named name l) {g g' : σ} {keys : List String}
    (run : patternPrefixes p level g = .ok (keys,g')) : keys = texts name (p.levels.take (level + 1)) "" := by
  obtain ⟨split,upper,count⟩ := levels_split inside
  rw [patternPrefixes_walk] at run
  obtain ⟨es,drawn,rfl⟩ := Draw.map_ok run
  rw [split] at drawn
  have entries := Cursor.walk_prefixes (upper ▸ named) (Cursor.leafLast_inner leafLast inside) count drawn
  rw [upper]
  exact entries_keys entries

/-- A list that is there was drawn. -/
theorem prefixes_drawn {ks : KeySpace} {level : Nat} {keys : Array String} (listed : ks.prefixes level = .ok keys) :
    ∃ g, drawPrefixes level ks.patterns (ks.levelSource level) = .ok (keys.toList,g) := by
  rw [prefixes] at listed
  cases drawn : drawPrefixes level ks.patterns (ks.levelSource level) with
  | error f =>
    rw [drawn] at listed
    cases listed
  | ok r =>
    rw [drawn] at listed
    cases listed
    exact ⟨r.2,rfl⟩

theorem prefixes_undrawn {ks : KeySpace} {level : Nat} {f : Fault} (stopped : ks.prefixes level = .error f) :
    drawPrefixes level ks.patterns (ks.levelSource level) = .error f := by
  rw [prefixes] at stopped
  cases drawn : drawPrefixes level ks.patterns (ks.levelSource level) with
  | error f' =>
    rw [drawn] at stopped
    cases stopped
    rfl
  | ok r =>
    rw [drawn] at stopped
    cases stopped

theorem prefixes_single {ks : KeySpace} {p : Pattern} (single : ks.patterns = [p]) {level : Nat} {keys : Array String}
    (listed : ks.prefixes level = .ok keys) :
    ∃ g, patternPrefixes p level (ks.levelSource level) = .ok (keys.toList,g) := by
  obtain ⟨h,drawn⟩ := prefixes_drawn listed
  rw [single] at drawn
  obtain ⟨names,g,first,rest⟩ := Draw.bind_ok drawn
  obtain ⟨none_more,h₂,last,rest⟩ := Draw.bind_ok rest
  obtain ⟨rfl,rfl⟩ := Draw.pure_ok last
  obtain ⟨same,rfl⟩ := Draw.pure_ok rest
  rw [List.append_nil] at same
  exact ⟨_,same ▸ first⟩

/-- The list of a level's prefixes, where it can be drawn at all, holds the texts of its nodes. -/
theorem prefixes_texts {ks : KeySpace} {p : Pattern} (single : ks.patterns = [p]) {name : Level → Nat → String}
    {level : Nat} (leafLast : LeafLast p.levels) (inside : level < p.levels.length)
    (named : ∀ l ∈ p.levels.take (level + 1), Level.Named name l) {keys : Array String}
    (listed : ks.prefixes level = .ok keys) : keys.toList = texts name (p.levels.take (level + 1)) "" := by
  obtain ⟨g,drawn⟩ := prefixes_single single listed
  exact patternPrefixes_texts leafLast inside named drawn

end KeySpace
end Keyload
