import Mathlib.Algebra.BigOperators.Group.List.Basic
import Mathlib.Data.List.Lex
import Keyload.Proofs.KeySpace.Names

/-!
Enumeration as nested loops over indices, one loop a level. The nodes below a key are visited in the lexicographic
order of their indices, each before those below it, and each is drawn once, when it is visited; an entry joins what
was drawn for its node and for the nodes above it. However many entries a cursor is asked for, it draws the nodes up
to the last of these entries, in this order, and nothing else.
-/
namespace Keyload

namespace Cursor
open Pattern (Level)

/-! ### Indices -/

/-- Nested loops over as many indices as there are counts. -/
def tuples : List Nat → List (List Nat)
  | [] => [[]]
  | c :: counts => (List.range c).flatMap fun i => (tuples counts).map (i :: ·)

theorem mem_tuples {counts t : List Nat} : t ∈ tuples counts ↔ List.Forall₂ (· < ·) t counts := by
  induction counts generalizing t with
  | nil => simp [tuples]
  | cons c counts ih =>
    simp only [tuples,List.mem_flatMap,List.mem_range,List.mem_map,ih,List.forall₂_cons_right_iff]
    constructor
    · rintro ⟨i,inside,t,deeper,rfl⟩
      exact ⟨i,t,inside,deeper,rfl⟩
    · rintro ⟨i,t,inside,deeper,rfl⟩
      exact ⟨i,inside,t,deeper,rfl⟩

theorem tuples_ordered (counts : List Nat) : (tuples counts).Pairwise (· < ·) := by
  induction counts with
  | nil => simp [tuples]
  | cons c counts ih =>
    rw [tuples,List.pairwise_flatMap]
    constructor
    · intro i _
      rw [List.pairwise_map]
      exact ih.imp fun less => List.cons_lt_cons_iff.mpr (.inr ⟨rfl,less⟩)
    · refine List.pairwise_lt_range.imp fun less t member t' member' => ?_
      obtain ⟨_,-,rfl⟩ := List.mem_map.mp member
      obtain ⟨_,-,rfl⟩ := List.mem_map.mp member'
      exact List.cons_lt_cons_iff.mpr (.inl less)

theorem length_tuples (counts : List Nat) : (tuples counts).length = counts.prod := by
  induction counts with
  | nil => rfl
  | cons c counts ih => simp [tuples,List.length_flatMap,ih]

/-! ### Nodes -/

/-- A node: the indices of the nodes above it, its level, its index there, and whether that level is the lowest. -/
structure Node where
  above : List Nat
  level : Level
  index : Nat
  lowest : Bool

/-- The indices of a node and of those above it. -/
def Node.path (v : Node) : List Nat := v.above ++ [v.index]

/-- The nodes below one, in the order of the loops, each before those below it. -/
def nodesBelow : List Level → List Nat → List Node
  | [], _ => []
  | l :: below, above =>
    (List.range l.count).flatMap fun i => ⟨above,l,i,below.isEmpty⟩ :: nodesBelow below (above ++ [i])

/-- The nodes of a loop from an index on. -/
def nodesFrom (l : Level) (below : List Level) (above : List Nat) (i : Nat) : List Node :=
  (List.range' i (l.count - i)).flatMap fun j => ⟨above,l,j,below.isEmpty⟩ :: nodesBelow below (above ++ [j])

theorem nodesBelow_cons (l : Level) (below : List Level) (above : List Nat) :
    nodesBelow (l :: below) above = nodesFrom l below above 0 := by
  rw [nodesBelow,nodesFrom,List.range_eq_range',Nat.sub_zero]

theorem nodesFrom_spent {l : Level} {i : Nat} (spent : ¬ i < l.count) (below : List Level) (above : List Nat) :
    nodesFrom l below above i = [] := by
  rw [nodesFrom,show l.count - i = 0 by omega,List.range'_zero,List.flatMap_nil]

theorem nodesFrom_next {l : Level} {i : Nat} (more : i < l.count) (below : List Level) (above : List Nat) :
    nodesFrom l below above i =
      ⟨above,l,i,below.isEmpty⟩ :: (nodesBelow below (above ++ [i]) ++ nodesFrom l below above (i + 1)) := by
  rw [nodesFrom,nodesFrom,show l.count - i = (l.count - (i + 1)) + 1 by omega,List.range'_succ,List.flatMap_cons,
    List.cons_append]

theorem mem_nodesBelow {levels : List Level} {above : List Nat} {v : Node} (member : v ∈ nodesBelow levels above) :
    v.level ∈ levels ∧ v.index < v.level.count ∧ ∃ i more, v.path = above ++ i :: more := by
  induction levels generalizing above with
  | nil => cases member
  | cons l below ih =>
    obtain ⟨i,inside,member⟩ := List.mem_flatMap.mp member
    rcases List.mem_cons.mp member with rfl | deeper
    · exact ⟨List.mem_cons_self,List.mem_range.mp inside,i,[],rfl⟩
    · obtain ⟨level,bound,j,more,path⟩ := ih deeper
      exact ⟨List.mem_cons_of_mem l level,bound,i,j :: more,by rw [path,List.append_assoc]; rfl⟩

/-- The nodes are the tuples of indices of the upper levels. -/
theorem mem_paths {levels : List Level} {above t : List Nat} :
    above ++ t ∈ (nodesBelow levels above).map Node.path ↔
      t ≠ [] ∧ List.Forall₂ (· < ·) t ((levels.map Level.count).take t.length) := by
  induction levels generalizing above t with
  | nil => cases t <;> simp [nodesBelow]
  | cons l below ih =>
    cases t with
    | nil =>
      simp only [List.append_nil,ne_eq,not_true_eq_false,false_and,iff_false]
      intro member
      obtain ⟨v,member,same⟩ := List.mem_map.mp member
      obtain ⟨-,-,i,more,path⟩ := mem_nodesBelow member
      simp [path] at same
    | cons i t =>
      have deeper := @ih (above ++ [i]) t
      rw [List.append_assoc,List.singleton_append] at deeper
      simp only [nodesBelow,List.map_flatMap,List.mem_flatMap,List.mem_range,List.map_cons,List.length_cons,
        List.take_succ_cons,List.forall₂_cons,List.mem_cons]
      constructor
      · rintro ⟨j,bound,here | there⟩
        · obtain ⟨rfl,rfl⟩ : i = j ∧ t = [] := by simpa [Node.path] using here
          exact ⟨List.cons_ne_nil _ _,bound,.nil⟩
        · obtain ⟨v,member,same⟩ := List.mem_map.mp there
          obtain ⟨-,-,k,more,path⟩ := mem_nodesBelow member
          rw [path,List.append_assoc] at same
          obtain ⟨rfl,-⟩ := List.cons.inj (List.append_cancel_left same)
          exact ⟨List.cons_ne_nil _ _,bound,(deeper.mp there).2⟩
      · rintro ⟨-,bound,bounds⟩
        refine ⟨i,bound,?_⟩
        by_cases ends : t = []
        · exact .inl (by rw [ends]; rfl)
        · exact .inr (deeper.mpr ⟨ends,bounds⟩)

theorem nodes_ordered (levels : List Level) (above : List Nat) :
    ((nodesBelow levels above).map Node.path).Pairwise (· < ·) := by
  rw [List.pairwise_map]
  induction levels generalizing above with
  | nil => exact .nil
  | cons l below ih =>
    rw [nodesBelow,List.pairwise_flatMap]
    constructor
    · intro i _
      refine List.pairwise_cons.mpr ⟨fun v member => ?_,ih _⟩
      obtain ⟨-,-,j,more,path⟩ := mem_nodesBelow member
      rw [path,List.append_assoc]
      exact List.append_left_lt (List.cons_lt_cons_iff.mpr (.inr ⟨rfl,List.nil_lt_cons _ _⟩))
    · have starts {i : Nat} {v : Node}
          (member : v ∈ (⟨above,l,i,below.isEmpty⟩ : Node) :: nodesBelow below (above ++ [i])) :
          ∃ more, v.path = above ++ i :: more := by
        rcases List.mem_cons.mp member with rfl | deeper
        · exact ⟨[],rfl⟩
        · obtain ⟨-,-,j,more,path⟩ := mem_nodesBelow deeper
          exact ⟨j :: more,by rw [path,List.append_assoc]; rfl⟩
      refine List.pairwise_lt_range.imp fun less v member v' member' => ?_
      obtain ⟨more,path⟩ := starts member
      obtain ⟨more',path'⟩ := starts member'
      rw [path,path']
      exact List.append_left_lt (List.cons_lt_cons_iff.mpr (.inl less))

/-- The lowest nodes are those of the full tuples. -/
theorem lowest_nodes {levels : List Level} (some_level : levels ≠ []) (above : List Nat) :
    ((nodesBelow levels above).filter Node.lowest).map Node.path =
      (tuples (levels.map Level.count)).map (above ++ ·) := by
  induction levels generalizing above with
  | nil => exact absurd rfl some_level
  | cons l below ih =>
    simp only [nodesBelow,List.map_cons,tuples,List.filter_flatMap,List.map_flatMap,List.map_map]
    refine List.flatMap_congr fun i _ => ?_
    cases below with
    | nil => simp [nodesBelow,tuples,Node.path]
    | cons l' below =>
      rw [List.filter_cons_of_neg (by simp),ih (List.cons_ne_nil l' below)]
      exact List.map_congr_left fun t _ => by simp

theorem length_lowest {levels : List Level} (some_level : levels ≠ []) (above : List Nat) :
    ((nodesBelow levels above).filter Node.lowest).length = (levels.map Level.count).prod := by
  have lengths := congrArg List.length (lowest_nodes some_level above)
  rwa [List.length_map,List.length_map,length_tuples] at lengths

/-- The nodes that are visited for a number of entries, of those that are to be visited. -/
def visited : List Node → Nat → List Node
  | _, 0 => []
  | [], _ + 1 => []
  | v :: later, n + 1 => v :: if v.lowest then visited later n else visited later (n + 1)

/-- The nodes after the next lowest one. -/
def afterLowest : List Node → List Node
  | [] => []
  | v :: later => if v.lowest then later else afterLowest later

theorem visited_within (vs : List Node) (n : Nat) : visited vs n <+: vs := by
  induction vs generalizing n with
  | nil => cases n <;> exact List.prefix_rfl
  | cons v later ih =>
    cases n with
    | zero => exact List.nil_prefix
    | succ n =>
      rw [visited]
      split
      · exact (List.prefix_cons_inj v).mpr (ih n)
      · exact (List.prefix_cons_inj v).mpr (ih (n + 1))

/-- The nodes for the first entry, and those for the others. -/
theorem visited_succ (vs : List Node) (n : Nat) :
    visited vs (n + 1) = visited vs 1 ++ visited (afterLowest vs) n := by
  induction vs with
  | nil => cases n <;> rfl
  | cons v later ih =>
    cases lowest : v.lowest with
    | true => simp [visited,afterLowest,lowest]
    | false => simpa [visited,afterLowest,lowest] using ih

theorem filter_lowest (vs : List Node) :
    vs.filter Node.lowest = (vs.find? Node.lowest).toList ++ (afterLowest vs).filter Node.lowest := by
  induction vs with
  | nil => rfl
  | cons v later ih =>
    cases lowest : v.lowest with
    | true => simp [afterLowest,lowest]
    | false => simpa [afterLowest,lowest] using ih

theorem afterLowest_none {vs : List Node} (no_lowest : vs.find? Node.lowest = none) : afterLowest vs = [] := by
  induction vs with
  | nil => rfl
  | cons v later ih =>
    cases lowest : v.lowest with
    | true => simp [lowest] at no_lowest
    | false =>
      rw [List.find?_cons_of_neg (by simp [lowest])] at no_lowest
      simpa [afterLowest,lowest] using ih no_lowest

/-! ### What is drawn -/

/-- What is drawn for a node: its name, and a value where the node is a key. -/
structure Sighting where
  path : List Nat
  name : String
  value : Option String

/-- What was seen of the node with these indices. -/
def seenAt (seen : List Sighting) (path : List Nat) : Sighting :=
  (seen.find? fun s => s.path == path).getD ⟨path,"",none⟩

/-- The text of a node below `base`: the name of each node on the way to it, after a slash. -/
def textOf (base : String) (table : List Nat → Sighting) (path : List Nat) : String :=
  (List.range path.length).foldl (fun text k => text ++ "/" ++ (table (path.take (k + 1))).name) base

/-- The entry of a node: its text, and the value that was drawn for it. -/
def entryOf (base : String) (level : Nat) (table : List Nat → Sighting) (path : List Nat) : Entry :=
  ⟨level,textOf base table path,(table path).value⟩

theorem textOf_child (base : String) (table : List Nat → Sighting) (path : List Nat) (i : Nat) :
    textOf base table (path ++ [i]) = textOf base table path ++ "/" ++ (table (path ++ [i])).name := by
  have whole : (path ++ [i]).take (path.length + 1) = path ++ [i] := List.take_of_length_le (by simp)
  rw [textOf,List.length_append,List.length_singleton,List.range_succ,List.foldl_append,List.foldl_cons,List.foldl_nil,
    whole,textOf]
  have upper : ∀ text, ∀ k ∈ List.range path.length,
      text ++ "/" ++ (table ((path ++ [i]).take (k + 1))).name = text ++ "/" ++ (table (path.take (k + 1))).name := by
    intro text k inside
    rw [List.take_append_of_le_length (List.mem_range.mp inside)]
  rw [List.foldl_ext _ _ _ upper]

/-- Whether a table holds what was seen. -/
def Holds (table : List Nat → Sighting) (seen : List Sighting) : Prop := ∀ s ∈ seen, table s.path = s

theorem holds_seenAt {seen : List Sighting} (distinct : (seen.map Sighting.path).Nodup) : Holds (seenAt seen) seen := by
  induction seen with
  | nil => simp [Holds]
  | cons s later ih =>
    rw [List.map_cons,List.nodup_cons] at distinct
    intro s' member
    rcases List.mem_cons.mp member with rfl | member
    · simp [seenAt]
    · have other : s.path ≠ s'.path := fun same => distinct.1 (same ▸ List.mem_map_of_mem member)
      have found := ih distinct.2 s' member
      rwa [seenAt,List.find?_cons_of_neg (by simpa using other)]

section
variable {σ : Type} [RandomSource σ]

/-- Draw what is seen of a node; only the lowest nodes may have values. -/
def see (valued : Bool) (v : Node) : Draw σ Sighting := do
  let name ← v.level.instanceName v.index
  if v.lowest && valued then do
    let value ← v.level.drawValue
    pure ⟨v.path,name,some value⟩
  else pure ⟨v.path,name,none⟩

/-- What is seen of nodes, one after the other, up to a fault. -/
def sight (valued : Bool) : List Node → σ → List Sighting × Except Fault σ
  | [], g => ([],.ok g)
  | v :: later, g =>
    match see valued v g with
    | .error f => ([],.error f)
    | .ok (s,h) => (s :: (sight valued later h).1,(sight valued later h).2)

theorem sight_append (valued : Bool) (vs vs' : List Node) (g : σ) :
    sight valued (vs ++ vs') g =
      match sight valued vs g with
      | (seen,.error f) => (seen,.error f)
      | (seen,.ok h) => (seen ++ (sight valued vs' h).1,(sight valued vs' h).2) := by
  induction vs generalizing g with
  | nil => rfl
  | cons v later ih =>
    simp only [List.cons_append,sight]
    cases see valued v g with
    | error f => rfl
    | ok r =>
      simp only [ih]
      rcases sight valued later r.2 with ⟨seen,f | h⟩ <;> rfl

theorem mapM_sight (valued : Bool) (vs : List Node) (g : σ) :
    vs.mapM (see valued) g = (sight valued vs g).2.map ((sight valued vs g).1,·) := by
  induction vs generalizing g with
  | nil => rfl
  | cons v later ih =>
    rw [List.mapM_cons,Draw.bind_apply,sight]
    cases see valued v g with
    | error f => rfl
    | ok r =>
      show (later.mapM (see valued) >>= fun more => pure (r.1 :: more) : Draw σ _) r.2 = _
      rw [Draw.bind_apply,ih]
      rcases (sight valued later r.2).2 with f | h <;> rfl

theorem see_path {valued : Bool} {v : Node} {g h : σ} {s : Sighting} (run : see valued v g = .ok (s,h)) :
    s.path = v.path := by
  obtain ⟨name,h',-,run⟩ := Draw.bind_ok run
  split at run
  · obtain ⟨value,h'',-,run⟩ := Draw.bind_ok run
    cases run
    rfl
  · cases run
    rfl

theorem holds_first {valued : Bool} {v : Node} {g h : σ} {s : Sighting} (run : see valued v g = .ok (s,h))
    {table : List Nat → Sighting} {later : List Sighting} (holds : Holds table (s :: later)) : table v.path = s := by
  rw [← see_path run]
  exact holds s List.mem_cons_self

theorem sight_fault {valued : Bool} {vs : List Node} {g : σ} {f : Fault}
    (stopped : (sight valued vs g).2 = .error f) : ∃ v ∈ vs, ∃ h : σ, see valued v h = .error f := by
  induction vs generalizing g with
  | nil => cases stopped
  | cons v later ih =>
    rw [sight] at stopped
    cases run : see valued v g with
    | error f' =>
      rw [run] at stopped
      cases stopped
      exact ⟨v,List.mem_cons_self,g,run⟩
    | ok r =>
      rw [run] at stopped
      obtain ⟨v',member,found⟩ := ih stopped
      exact ⟨v',List.mem_cons_of_mem v member,found⟩

theorem see_fault {valued : Bool} {v : Node} (listed : v.level.Listed) (narrow : v.level.Narrow)
    (inside : v.index < v.level.count) {g : σ} {f : Fault} (stopped : see valued v g = .error f) : v.level.DrawFault f := by
  rcases Draw.bind_error stopped with unnamed | ⟨name,h,-,stopped⟩
  · exact Level.instanceName_fault listed narrow inside unnamed
  · split at stopped
    · rcases Draw.bind_error stopped with unvalued | ⟨value,h',-,stopped⟩
      · exact .inr ⟨σ,_,h,unvalued⟩
      · cases stopped
    · cases stopped

theorem sight_paths (valued : Bool) (vs : List Node) (g : σ) :
    (sight valued vs g).1.map Sighting.path <+: vs.map Node.path := by
  induction vs generalizing g with
  | nil => exact List.prefix_rfl
  | cons v later ih =>
    rw [sight]
    cases run : see valued v g with
    | error f => exact List.nil_prefix
    | ok r =>
      rw [List.map_cons,List.map_cons,see_path run]
      exact (List.prefix_cons_inj _).mpr (ih r.2)

end

/-! ### Open nodes and nodes to come -/

/-- From the level `s` on, `part` are the levels down to that of the entries, which have values or are prefixes. -/
structure Reaches (levels : List Level) (stop : Option Nat) (s : Nat) (part : List Level) (valued : Bool) : Prop where
  level : ∀ {k l below}, part.drop k = l :: below → levels[s + k]? = some l
  inner : ∀ {k l l' below}, part.drop k = l :: l' :: below → stop ≠ some (s + k) ∧ l.isLeaf = false
  lowest : ∀ {k l}, part.drop k = [l] →
    if valued then stop ≠ some (s + k) ∧ l.isLeaf = true else stop = some (s + k)

/-- The open nodes, innermost first, that the nodes to come are those of. Texts are those that the table gives. -/
inductive Stands (part : List Level) (s : Nat) (base : String) (table : List Nat → Sighting) :
    List Frame → List Node → Prop
  | nil : Stands part s base table [] []
  | cons {above : List Nat} {l : Level} {below : List Level} {i : Nat} {stack : List Frame} {later : List Node}
      (at_l : part.drop above.length = l :: below) (rest : Stands part s base table stack later) :
      Stands part s base table (⟨s + above.length,i,textOf base table above⟩ :: stack)
        (nodesFrom l below above i ++ later)

section
variable {σ : Type} [RandomSource σ]
variable {levels part : List Level} {stop : Option Nat} {s : Nat} {valued : Bool} {base : String}
variable {table : List Nat → Sighting}

/-- A node at the lowest level is drawn and makes an entry. -/
private theorem advanceStack_lowest (reaches : Reaches levels stop s part valued) {above : List Nat} {l : Level}
    (at_l : part.drop above.length = [l]) {i : Nat} (more : i < l.count) (text : String) (rest : List Frame) :
    (advanceStack levels stop (⟨s + above.length,i,text⟩ :: rest) : Draw σ _) =
      (fun seen => (some ⟨s + above.length,text ++ "/" ++ seen.name,seen.value⟩,⟨s + above.length,i + 1,text⟩ :: rest)) <$>
        see valued ⟨above,l,i,true⟩ := by
  have lowest := reaches.lowest at_l
  rw [advanceStack_next rest (reaches.level at_l) more,see]
  cases valued with
  | true =>
    obtain ⟨goes,leaf⟩ := lowest
    simp [goes,leaf]
  | false =>
    rw [if_neg (by simp)] at lowest
    simp [lowest]

/-- A node above the lowest level is drawn, and the search goes on below it. -/
private theorem advanceStack_inner (reaches : Reaches levels stop s part valued) {above : List Nat} {l l' : Level}
    {below : List Level} (at_l : part.drop above.length = l :: l' :: below) {i : Nat} (more : i < l.count)
    (text : String) (rest : List Frame) :
    (advanceStack levels stop (⟨s + above.length,i,text⟩ :: rest) : Draw σ _) = (do
      let seen ← see valued ⟨above,l,i,false⟩
      advanceStack levels stop
        (⟨s + above.length + 1,0,text ++ "/" ++ seen.name⟩ :: ⟨s + above.length,i + 1,text⟩ :: rest)) := by
  obtain ⟨goes,inner⟩ := reaches.inner at_l
  rw [advanceStack_next rest (reaches.level at_l) more,see]
  simp [goes,inner]

/-- The next entry is that of the next lowest node, where the table holds what is seen up to it. -/
theorem advanceStack_stands (reaches : Reaches levels stop s part valued) {stack : List Frame} {vs : List Node}
    (stands : Stands part s base table stack vs) (g : σ) (holds : Holds table (sight valued (visited vs 1) g).1) :
    (∀ f, (sight valued (visited vs 1) g).2 = .error f → advanceStack levels stop stack g = .error f) ∧
      ∀ h, (sight valued (visited vs 1) g).2 = .ok h → ∃ stack',
        advanceStack levels stop stack g =
          .ok (((vs.find? Node.lowest).map fun v => entryOf base (s + part.length - 1) table v.path,stack'),h) ∧
        Stands part s base table stack' (afterLowest vs) := by
  induction stack using advanceStack.induct levels generalizing vs g with
  | case1 =>
    cases stands
    refine ⟨fun f stopped => (by cases stopped),fun h ended => ⟨[],?_,.nil⟩⟩
    cases ended
    rw [advanceStack]
    rfl
  | case2 f rest beyond ih =>
    cases stands with
    | cons at_l _ =>
      rw [reaches.level at_l] at beyond
      cases beyond
  | case3 f rest l at_f more ih =>
    cases stands with
    | @cons above l' below i _ later at_l open_rest =>
      cases at_f.symm.trans (reaches.level at_l)
      have open_next : Stands part s base table (⟨s + above.length,i + 1,textOf base table above⟩ :: rest)
          (nodesFrom l below above (i + 1) ++ later) := .cons at_l open_rest
      rw [nodesFrom_next more,List.cons_append,List.append_assoc,visited,sight] at holds ⊢
      cases below with
      | nil =>
        rw [advanceStack_lowest reaches at_l more,Draw.map_apply]
        simp only [List.isEmpty_nil,if_true,visited,sight] at holds ⊢
        cases drawn : see valued ⟨above,l,i,true⟩ g with
        | error f => simp [Except.map]
        | ok r =>
          obtain ⟨seen,g₁⟩ := r
          simp only [drawn] at holds ⊢
          have known : table (above ++ [i]) = seen := holds_first drawn holds
          have depth : above.length + 1 = part.length := by
            have := congrArg List.length at_l
            rw [List.length_drop,List.length_singleton] at this
            omega
          refine ⟨fun f stopped => (by cases stopped),fun h ended => ⟨_,?_,open_next⟩⟩
          cases ended
          rw [List.find?_cons_of_pos rfl,Option.map_some,entryOf,Node.path,textOf_child,known,
            show s + part.length - 1 = s + above.length by omega]
          rfl
      | cons l' below =>
        rw [advanceStack_inner reaches at_l more]
        simp only [List.isEmpty_cons] at holds ⊢
        cases drawn : see valued ⟨above,l,i,false⟩ g with
        | error f =>
          refine ⟨fun f' stopped => ?_,fun h ended => (by cases ended)⟩
          cases stopped
          exact Draw.bind_stopped drawn
        | ok r =>
          obtain ⟨seen,g₁⟩ := r
          rw [Draw.bind_run drawn]
          simp only [drawn] at holds ⊢
          have known : table (above ++ [i]) = seen := holds_first drawn holds
          have at_l' : part.drop (above ++ [i]).length = l' :: below := by
            rw [List.length_append,List.length_singleton,← List.drop_drop,at_l]
            rfl
          have open_child : Stands part s base table
              (⟨s + above.length + 1,0,textOf base table above ++ "/" ++ seen.name⟩ ::
                ⟨s + above.length,i + 1,textOf base table above⟩ :: rest)
              (nodesBelow (l' :: below) (above ++ [i]) ++ (nodesFrom l (l' :: below) above (i + 1) ++ later)) := by
            have child : Stands part s base table (⟨_,0,_⟩ :: _) _ := .cons at_l' open_next
            rw [textOf_child,known,List.length_append,List.length_singleton,← Nat.add_assoc,← nodesBelow_cons] at child
            exact child
          exact ih seen.name open_child g₁ fun s' member => holds s' (List.mem_cons_of_mem seen member)
  | case4 f rest l at_f spent ih =>
    cases stands with
    | @cons above l' below i _ later at_l open_rest =>
      cases at_f.symm.trans (reaches.level at_l)
      rw [nodesFrom_spent spent,List.nil_append] at holds ⊢
      rw [advanceStack_spent rest at_f spent]
      exact ih open_rest g holds

/-- A cursor that takes entries draws the nodes up to the last of them, and joins what it saw. -/
theorem take_stands (reaches : Reaches levels stop s part valued) (n : Nat) {stack : List Frame} {vs : List Node}
    (stands : Stands part s base table stack vs) (es : Array Entry) (g : σ)
    (holds : Holds table (sight valued (visited vs n) g).1) :
    take levels n ⟨stop,stack⟩ es g = (sight valued (visited vs n) g).2.map fun h =>
      ((es ++ (((vs.filter Node.lowest).take n).map fun v => entryOf base (s + part.length - 1) table v.path).toArray,
        decide ((vs.filter Node.lowest).length < n)),h) := by
  induction n generalizing stack vs es g with
  | zero => cases vs <;> simp [take,visited,sight] <;> rfl
  | succ n ih =>
    rw [visited_succ,sight_append] at holds ⊢
    have first := advanceStack_stands reaches stands g
    generalize sight valued (visited vs 1) g = drawn at holds first ⊢
    rcases drawn with ⟨seen,f | h⟩
    · have stopped : advance ⟨stop,stack⟩ levels g = .error f := Draw.bind_stopped ((first holds).1 f rfl)
      exact Draw.bind_stopped stopped
    · have first_holds : Holds table seen := fun s' member => holds s' (List.mem_append_left _ member)
      obtain ⟨stack',run,stands'⟩ := (first first_holds).2 h rfl
      have advanced := Draw.bind_run run (f := fun r => pure (r.1,({ stop, stack := r.2 } : Cursor)))
      change advance ⟨stop,stack⟩ levels g = _ at advanced
      rw [take,Draw.bind_run advanced,filter_lowest]
      cases next : vs.find? Node.lowest with
      | none =>
        rw [afterLowest_none next]
        cases n <;> simp [visited,sight] <;> rfl
      | some v =>
        have later := ih stands' (es.push (entryOf base (s + part.length - 1) table v.path)) h
          fun s' member => holds s' (List.mem_append_right seen member)
        simpa [Nat.succ_lt_succ_iff] using later

/-- What was seen of nodes that are visited is of distinct nodes. -/
theorem sight_distinct (valued : Bool) (part : List Level) (n : Nat) (g : σ) :
    ((sight valued (visited (nodesBelow part []) n) g).1.map Sighting.path).Nodup := by
  have all_paths := (sight_paths valued (visited (nodesBelow part []) n) g).sublist.trans
    ((visited_within _ n).sublist.map Node.path)
  refine ((nodes_ordered part []).sublist all_paths).imp fun less same => ?_
  rw [same] at less
  exact List.lt_irrefl _ less

/-- However many entries a cursor takes from the beginning, they join what is drawn for the nodes up to the last. -/
theorem take_reached (reaches : Reaches levels stop s part valued) (some_level : part ≠ []) (base : String) (n : Nat) :
    (take levels n (below base s stop) #[] : Draw σ _) =
      (fun seen =>
        ((((tuples (part.map Level.count)).take n).map (entryOf base (s + part.length - 1) (seenAt seen))).toArray,
          decide ((part.map Level.count).prod < n))) <$>
        (visited (nodesBelow part []) n).mapM (see valued) := by
  have lowest := lowest_nodes some_level []
  simp only [List.nil_append,List.map_id'] at lowest
  funext g
  have start : Stands part s base (seenAt (sight valued (visited (nodesBelow part []) n) g).1) (below base s stop).stack
      (nodesBelow part []) := by
    obtain ⟨l,deeper,rfl⟩ := List.exists_cons_of_ne_nil some_level
    rw [nodesBelow_cons,← List.append_nil (nodesFrom l deeper [] 0)]
    exact @Stands.cons _ s base _ [] l deeper 0 [] [] rfl .nil
  rw [Draw.map_apply,mapM_sight]
  refine (take_stands reaches n start #[] g (holds_seenAt (sight_distinct valued part n g))).trans ?_
  rw [length_lowest some_level,← lowest,← List.map_take]
  cases (sight valued (visited (nodesBelow part []) n) g).2 with
  | error f => rfl
  | ok h => simp [Except.map,Function.comp_def]

end

/-! ### The cursor below a key -/

/-- The level of the entries: that of the stop where the cursor comes to it, or else the last. -/
def entryLevel (levels : List Level) (s : Nat) : Option Nat → Nat
  | some k => if s ≤ k ∧ k < levels.length then k else levels.length - 1
  | none => levels.length - 1

/-- The levels from the start down to that of the entries. -/
def entered (levels : List Level) (s : Nat) (stop : Option Nat) : List Level :=
  (levels.take (entryLevel levels s stop + 1)).drop s

section
variable {levels : List Level} {s : Nat} {stop : Option Nat}

theorem entryLevel_bounds (inside : s < levels.length) (stop : Option Nat) :
    s ≤ entryLevel levels s stop ∧ entryLevel levels s stop < levels.length := by
  cases stop with
  | none => simp only [entryLevel]; omega
  | some k => simp only [entryLevel]; split <;> omega

theorem length_entered (inside : s < levels.length) (stop : Option Nat) :
    s + (entered levels s stop).length = entryLevel levels s stop + 1 := by
  have bounds := entryLevel_bounds inside stop
  rw [entered,List.length_drop,List.length_take]
  omega

/-- The cursor ends above the leaves only at its stop. -/
theorem entryLevel_last (other : stop ≠ some (entryLevel levels s stop)) :
    entryLevel levels s stop = levels.length - 1 := by
  cases stop with
  | none => rfl
  | some k =>
    simp only [entryLevel] at other ⊢
    split at other
    · exact absurd rfl other
    · rename_i outside
      rw [if_neg outside]

theorem reaches_entered (leafLast : LeafLast levels) (inside : s < levels.length) (stop : Option Nat) :
    Reaches levels stop s (entered levels s stop) (decide (stop ≠ some (entryLevel levels s stop))) := by
  have bounds := entryLevel_bounds inside stop
  have length := length_entered inside stop
  have place {k l below} (at_l : (entered levels s stop).drop k = l :: below) :
      levels[s + k]? = some l ∧ s + k + below.length = entryLevel levels s stop := by
    have first : (entered levels s stop)[k]? = some l := by
      rw [← List.head?_drop,at_l]
      rfl
    have count := congrArg List.length at_l
    rw [List.length_drop,List.length_cons] at count
    rw [entered,List.getElem?_drop] at first
    rw [List.getElem?_take_of_lt (by omega)] at first
    exact ⟨first,by omega⟩
  refine ⟨fun at_l => (place at_l).1,fun {k l l' below} at_l => ?_,fun {k l} at_l => ?_⟩
  · obtain ⟨level,depth⟩ := place at_l
    rw [List.length_cons] at depth
    constructor
    · rintro rfl
      simp only [entryLevel] at depth bounds
      split at depth <;> omega
    · have member : l ∈ levels.take (entryLevel levels s stop) :=
        List.mem_of_getElem? ((List.getElem?_take_of_lt (by omega : s + k < _)).trans level)
      exact leafLast_inner leafLast bounds.2 l member
  · obtain ⟨level,depth⟩ := place at_l
    rw [List.length_nil,Nat.add_zero] at depth
    rw [depth]
    by_cases stops : stop = some (entryLevel levels s stop)
    · rw [if_neg (by simpa using stops)]
      exact stops
    · rw [if_pos (by simpa using stops)]
      refine ⟨stops,?_⟩
      have last := entryLevel_last stops
      obtain ⟨short,rfl⟩ := List.getElem?_eq_some_iff.mp level
      have leaf := leafLast_drop leafLast (s + k) short
      rw [List.drop_eq_getElem_cons short,List.drop_of_length_le (by omega)] at leaf
      exact leaf

variable {σ : Type} [RandomSource σ]

theorem take_beyond (beyond : levels.length ≤ s) (base : String) (n : Nat) :
    (take levels n (below base s stop) #[] : Draw σ _) = pure (#[],decide (0 < n)) := by
  have none_left : (advanceStack levels stop [⟨s,0,base⟩] : Draw σ _) = pure (none,[]) := by
    rw [advanceStack_beyond [] (List.getElem?_eq_none_iff.mpr beyond),advanceStack]
  cases n with
  | zero => rfl
  | succ n => simp [take,advance,below,none_left]

/-- Below a key, a cursor enumerates the index tuples of nested loops over the levels down to that of the entries.
For `n` entries it draws the nodes up to the last of them, once each, in the order of their indices; only names and
values that are drawn at random can stop it, and where there are no `n` entries it comes to the end. -/
theorem enumerates_loops {levels : List Level} (leafLast : LeafLast levels) (listed : ∀ l ∈ levels, l.Listed)
    (narrow : ∀ l ∈ levels, l.Narrow) (base : String) (s : Nat) (stop : Option Nat) (n : Nat) :
    let e := entryLevel levels s stop
    let part := entered levels s stop
    let counts := part.map Level.count
    let paths := (nodesBelow part []).map Node.path
    (s < levels.length → (take levels n (below base s stop) #[] : Draw σ _) =
      (fun seen => ((((tuples counts).take n).map (entryOf base e (seenAt seen))).toArray,decide (counts.prod < n))) <$>
        (visited (nodesBelow part []) n).mapM (see (decide (stop ≠ some e)))) ∧
    (levels.length ≤ s → (take levels n (below base s stop) #[] : Draw σ _) = pure (#[],decide (0 < n))) ∧
    (∀ (g : σ) f, take levels n (below base s stop) #[] g = .error f → ∃ l ∈ levels, l.DrawFault f) ∧
    ((tuples counts).Pairwise (· < ·) ∧ ∀ t, t ∈ tuples counts ↔ List.Forall₂ (· < ·) t counts) ∧
    (tuples counts).length = counts.prod ∧
    (paths.Pairwise (· < ·) ∧ ∀ t, t ∈ paths ↔ t ≠ [] ∧ List.Forall₂ (· < ·) t (counts.take t.length)) := by
  intro e part counts paths
  have below_inside (inside : s < levels.length) :
      (take levels n (below base s stop) #[] : Draw σ _) =
        (fun seen => ((((tuples counts).take n).map (entryOf base e (seenAt seen))).toArray,decide (counts.prod < n))) <$>
          (visited (nodesBelow part []) n).mapM (see (decide (stop ≠ some e))) := by
    have length := length_entered inside stop
    have bounds := entryLevel_bounds inside stop
    have some_level : part ≠ [] := by
      rintro none_level
      rw [show entered levels s stop = [] from none_level,List.length_nil] at length
      omega
    have run := take_reached (σ := σ) (reaches_entered leafLast inside stop) some_level base n
    rwa [length,Nat.add_sub_cancel] at run
  refine ⟨below_inside,fun beyond => take_beyond beyond base n,fun g f stopped => ?_,
    ⟨tuples_ordered counts,fun t => mem_tuples⟩,length_tuples counts,nodes_ordered part [],fun t => mem_paths⟩
  rcases Nat.lt_or_ge s levels.length with inside | beyond
  · rw [below_inside inside,Draw.map_apply,mapM_sight] at stopped
    have unseen : (sight (decide (stop ≠ some e)) (visited (nodesBelow part []) n) g).2 = .error f := by
      revert stopped
      cases (sight (decide (stop ≠ some e)) (visited (nodesBelow part []) n) g).2 <;> simp [Except.map]
    obtain ⟨v,member,h,unseen⟩ := sight_fault unseen
    obtain ⟨level,bound,-⟩ := mem_nodesBelow ((visited_within _ n).subset member)
    have level : v.level ∈ levels := List.mem_of_mem_take (List.mem_of_mem_drop level)
    exact ⟨v.level,level,see_fault (listed v.level level) (narrow v.level level) bound unseen⟩
  · rw [take_beyond beyond base n] at stopped
    cases stopped

/-- Two levels of two names each, down to a stop at the lower one. -/
theorem pair_enumerates :
    let upper : Level := ⟨"r",.names #["a","b"],2,0,none⟩
    let leaf : Level := ⟨"n",.names #["x","y"],2,0,some (.digits ⟨2,2,Nat.le_refl 2⟩)⟩
    LeafLast [upper,leaf] ∧ (∀ l ∈ [upper,leaf], l.Listed) ∧ (∀ l ∈ [upper,leaf], l.Narrow) ∧
      (take [upper,leaf] 3 (below "/t" 0 (some 1)) #[] : Draw Xoshiro _) (Xoshiro.ofSeed 1) =
        .ok ((#[⟨1,"/t/a/x",none⟩,⟨1,"/t/a/y",none⟩,⟨1,"/t/b/x",none⟩],false),Xoshiro.ofSeed 1) := by
  intro upper leaf
  have leafLast : LeafLast [upper,leaf] := ⟨rfl,rfl⟩
  have listed : ∀ l ∈ [upper,leaf], l.Listed := by simp [upper,leaf,Level.Listed]
  have narrow : ∀ l ∈ [upper,leaf], l.Narrow := by simp [upper,leaf,Level.Narrow]
  refine ⟨leafLast,listed,narrow,?_⟩
  rw [(enumerates_loops leafLast listed narrow "/t" 0 (some 1) 3).1 (by decide)]
  rfl

end

end Cursor

end Keyload
