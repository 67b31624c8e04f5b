import Keyload.Proofs.Random.Library
import Keyload.Proofs.Watch.Counts
import Keyload.Watch.Plan

/-!
Watch plans. The levels of a tree are planned from the top down, each with as many keys as it asks for
(`levels_filled`), and there is no plan if a level asks for keys and has none, which is found at the first such level
(`levels_dry`). With what is read from a list and how it fits the tree, this is what a plan comes from
(`plan_of_list`).
-/
namespace Keyload

namespace Watch

variable {σ : Type} [RandomSource σ] {ks : KeySpace} {sequential : Bool} {level : Nat} {count : Count}
  {keys : Array String}

/-! ### Keys of a level -/

/-- Keys of a level that are watched. -/
structure Chosen (keys : Array String) (wanted : Nat) (sequential : Bool) (chosen : List String) : Prop where
  length : chosen.length = wanted
  listed : ∀ key ∈ chosen, key ∈ keys
  all : wanted = keys.size → chosen = keys.toList
  inOrder : sequential = true → ∀ i < wanted, chosen[i]? = keys[i % keys.size]?

/-- The keys of a level are listed, and there is one if any is wanted. -/
def Fills (ks : KeySpace) (level : Nat) (count : Count) : Prop :=
  ∃ keys, ks.prefixes level = .ok keys ∧ (0 < count.number keys.size → 0 < keys.size)

/-- A level wants keys and has none. -/
def Dry (ks : KeySpace) (level : Nat) (count : Count) : Prop :=
  ∃ keys, ks.prefixes level = .ok keys ∧ keys.size = 0 ∧ 0 < count.number keys.size

/-- What can become of a level. -/
theorem fills_or (ks : KeySpace) (level : Nat) (count : Count) :
    Fills ks level count ∨ Dry ks level count ∨ ∃ fault, ks.prefixes level = .error fault := by
  cases listed : ks.prefixes level with
  | error fault => exact .inr (.inr ⟨fault,rfl⟩)
  | ok keys =>
    by_cases filled : 0 < count.number keys.size → 0 < keys.size
    · exact .inl ⟨keys,listed,filled⟩
    · exact .inr (.inl ⟨keys,listed,by omega,by omega⟩)

namespace Plan

theorem positions_run {available : Nat} (some_key : 0 < available) (sequential : Bool) (n : Nat) (g : σ) :
    ∃ places g', positions available sequential n g = .ok (places,g') ∧ places.length = n ∧
      (∀ i ∈ places, i < available) ∧ (sequential = true → places = (List.range n).map (· % available)) := by
  unfold positions
  split
  · refine ⟨_,g,rfl,by simp,?_,fun _ => rfl⟩
    intro i taken
    obtain ⟨j,-,rfl⟩ := List.mem_map.mp taken
    exact Nat.mod_lt j some_key
  · rename_i drawn
    obtain ⟨places,g',run,length,inside⟩ := Draw.times_draws (Uniform.below_draws some_key) n g
    exact ⟨places,g',run,length,inside,fun ordered => (drawn ordered).elim⟩

/-- Every position inside a list has its key. -/
theorem map_some_keys {places : List Nat} (inside : ∀ i ∈ places, i < keys.size) :
    (places.filterMap (keys[·]?)).map some = places.map (keys[·]?) := by
  rw [List.map_filterMap_some_eq_filter_map_isSome,List.filter_eq_self]
  intro key taken
  obtain ⟨i,place,rfl⟩ := List.mem_map.mp taken
  simp [inside i place]

theorem chosen_of_positions {n : Nat} {places : List Nat} (length : places.length = n) (other : n ≠ keys.size)
    (inside : ∀ i ∈ places, i < keys.size) (ordered : sequential = true → places = (List.range n).map (· % keys.size)) :
    Chosen keys n sequential (places.filterMap (keys[·]?)) := by
  have keys_of := map_some_keys inside
  constructor
  case length => simpa [length] using congrArg List.length keys_of
  case listed =>
    intro key taken
    obtain ⟨i,-,at_i⟩ := List.mem_filterMap.mp taken
    exact Array.mem_of_getElem? at_i
  case all =>
    intro all
    exact (other all).elim
  case inOrder =>
    intro sequential i few
    have same : ((places.filterMap (keys[·]?)).map some)[i]? = (places.map (keys[·]?))[i]? := by rw [keys_of]
    rw [List.getElem?_map,List.getElem?_map] at same
    have place : places[i]? = some (i % keys.size) := by simp [ordered sequential,few]
    rw [place] at same
    obtain ⟨key,taken,at_i⟩ := Option.map_eq_some_iff.mp same
    exact taken.trans at_i

theorem levelKeys_filled (filled : 0 < count.number keys.size → 0 < keys.size) (level : Nat) (sequential : Bool)
    (g : σ) : ∃ chosen g', (levelKeys level keys count sequential).run g = .ok (.ok chosen,g') ∧
      Chosen keys (count.number keys.size) sequential chosen := by
  unfold levelKeys
  dsimp only
  generalize count.number keys.size = n at *
  split_ifs with nobody all no_key
  · refine ⟨[],g,rfl,nobody.symm,by simp,?_,fun _ i few => by omega⟩
    intro all
    exact (Array.toList_eq_nil_iff.mpr (Array.size_eq_zero_iff.mp (all.symm.trans nobody))).symm
  · refine ⟨keys.toList,g,rfl,all.symm,by simp,fun _ => rfl,?_⟩
    intro ordered i few
    rw [Nat.mod_eq_of_lt (by omega),Array.getElem?_toList]
  · omega
  · have some_key : 0 < keys.size := Nat.pos_of_ne_zero no_key
    obtain ⟨places,g',run,length,inside,ordered⟩ := positions_run some_key sequential n g
    exact ⟨_,g',Draw.bind_value (Draw.lifted_value run),chosen_of_positions length all inside ordered⟩

theorem levelKeys_dry (dry : keys.size = 0) (wanted : 0 < count.number keys.size) (level : Nat) (sequential : Bool)
    (g : σ) : (levelKeys level keys count sequential).run g = .ok (.error (.emptyLevel level),g) := by
  unfold levelKeys
  dsimp only
  rw [if_neg (by omega),if_neg (by omega),if_pos dry]
  rfl

/-! ### Groups -/

/-- The watched keys of a level. -/
def keysAt (targets : List Target) (level : Nat) : List String :=
  (targets.filter (·.level = level)).map Target.key

/-- The targets of some levels, those of the highest first, and what is watched at each of them. -/
structure Grouped (ks : KeySpace) (sequential : Bool) (level : Nat) (list : List Count) (targets : List Target) :
    Prop where
  inside : ∀ t ∈ targets, level ≤ t.level
  groups : targets = (List.range' level list.length).flatMap fun l => (keysAt targets l).map (Target.mk l)
  chosen : ∀ i count, list[i]? = some count → ∃ keys, ks.prefixes (level + i) = .ok keys ∧
    Chosen keys (count.number keys.size) sequential (keysAt targets (level + i))

variable {list rest : List Count}

theorem keysAt_nil {targets : List Target} (elsewhere : ∀ t ∈ targets, t.level ≠ level) :
    keysAt targets level = [] := by
  rw [keysAt,List.filter_eq_nil_iff.mpr (by simpa using elsewhere),List.map_nil]

theorem keysAt_append (some_targets others : List Target) (level : Nat) :
    keysAt (some_targets ++ others) level = keysAt some_targets level ++ keysAt others level := by
  simp [keysAt]

theorem keysAt_level (chosen : List String) (level : Nat) : keysAt (chosen.map (Target.mk level)) level = chosen := by
  simp [keysAt,List.filter_map,Function.comp_def]

theorem keysAt_first {others : List Target} (below : ∀ t ∈ others, level + 1 ≤ t.level) (chosen : List String) :
    keysAt (chosen.map (Target.mk level) ++ others) level = chosen := by
  rw [keysAt_append,keysAt_level,keysAt_nil fun t deeper => Nat.ne_of_gt (below t deeper),List.append_nil]

theorem keysAt_deeper {l : Nat} (deeper : level < l) (chosen : List String) (others : List Target) :
    keysAt (chosen.map (Target.mk level) ++ others) l = keysAt others l := by
  rw [keysAt_append,keysAt_nil,List.nil_append]
  intro t here
  obtain ⟨key,-,rfl⟩ := List.mem_map.mp here
  exact Nat.ne_of_lt deeper

theorem Grouped.nil : Grouped ks sequential level [] [] :=
  ⟨by simp,rfl,by simp⟩

/-- A level goes before those below it. -/
theorem Grouped.cons {chosen : List String} {others : List Target}
    (below : Grouped ks sequential (level + 1) rest others) (listed : ks.prefixes level = .ok keys)
    (chooses : Chosen keys (count.number keys.size) sequential chosen) :
    Grouped ks sequential level (count :: rest) (chosen.map (Target.mk level) ++ others) := by
  constructor
  case inside =>
    intro t watched
    rcases List.mem_append.mp watched with here | deeper
    · obtain ⟨key,-,rfl⟩ := List.mem_map.mp here
      exact Nat.le_refl _
    · exact Nat.le_of_succ_le (below.inside t deeper)
  case groups =>
    have same : ∀ l ∈ List.range' (level + 1) rest.length,
        keysAt (chosen.map (Target.mk level) ++ others) l = keysAt others l := by
      intro l deeper
      exact keysAt_deeper (List.mem_range'_1.mp deeper).1 chosen others
    rw [List.length_cons,List.range'_succ,List.flatMap_cons,keysAt_first below.inside]
    congr 1
    rw [List.flatMap_congr fun l deeper => by rw [same l deeper]]
    exact below.groups
  case chosen =>
    intro i other here
    cases i with
    | zero =>
      cases here
      refine ⟨keys,listed,?_⟩
      rwa [Nat.add_zero,keysAt_first below.inside]
    | succ i =>
      obtain ⟨others_keys,known,chooses⟩ := below.chosen i other here
      rw [Nat.add_right_comm] at known chooses
      refine ⟨others_keys,known,?_⟩
      rwa [← Nat.add_assoc,keysAt_deeper (by omega)]

/-! ### Levels -/

theorem levels_unlisted {fault : Fault} (unlisted : ks.prefixes level = .error fault) (g : σ) :
    (levels ks sequential level (count :: rest)).run g = .error fault := by
  have stopped : (Draw.lift (ks.prefixes level) : Draw σ _) g = .error fault := by
    rw [unlisted]
    rfl
  exact Draw.bind_halted (Draw.lifted_halted stopped)

theorem levels_listed (listed : ks.prefixes level = .ok keys) (g : σ) :
    (levels ks sequential level (count :: rest)).run g =
      (levelKeys level keys count sequential >>= fun chosen =>
        (chosen.map (Target.mk level) ++ ·) <$> levels ks sequential (level + 1) rest).run g := by
  have drawn : (Draw.lift (ks.prefixes level) : Draw σ _) g = .ok (keys,g) := by
    rw [listed]
    rfl
  exact Draw.bind_value (Draw.lifted_value drawn)

theorem levels_empty (dry : Dry ks level count) (g : σ) :
    (levels ks sequential level (count :: rest)).run g = .ok (.error (.emptyLevel level),g) := by
  obtain ⟨keys,listed,no_key,wanted⟩ := dry
  rw [levels_listed listed]
  exact Draw.bind_refused (levelKeys_dry no_key wanted level sequential g)

/-- A level that has keys goes before those below it. -/
theorem levels_step (filled : Fills ks level count) (sequential : Bool) (rest : List Count) (g : σ) :
    ∃ keys chosen h, ks.prefixes level = .ok keys ∧ Chosen keys (count.number keys.size) sequential chosen ∧
      (levels ks sequential level (count :: rest)).run g =
        ((chosen.map (Target.mk level) ++ ·) <$> levels ks sequential (level + 1) rest).run h := by
  obtain ⟨keys,listed,filled⟩ := filled
  obtain ⟨chosen,h,run,chooses⟩ := levelKeys_filled filled level sequential g
  exact ⟨keys,chosen,h,listed,chooses,(levels_listed listed g).trans (Draw.bind_value run)⟩

theorem levels_filled (filled : ∀ i count, list[i]? = some count → Fills ks (level + i) count) (sequential : Bool)
    (g : σ) : ∃ targets g', (levels ks sequential level list).run g = .ok (.ok targets,g') ∧
      Grouped ks sequential level list targets := by
  induction list generalizing level g with
  | nil => exact ⟨[],g,rfl,.nil⟩
  | cons count rest ih =>
    have deeper : ∀ i count, rest[i]? = some count → Fills ks (level + 1 + i) count := by
      intro i count here
      rw [Nat.add_right_comm]
      exact filled (i + 1) count here
    obtain ⟨keys,chosen,h,listed,chooses,run⟩ := levels_step (filled 0 count rfl) sequential rest g
    obtain ⟨others,g',below,grouped⟩ := ih deeper h
    exact ⟨_,g',run.trans (Draw.map_value below),grouped.cons listed chooses⟩

/-- Levels that have keys are planned before those below them. -/
theorem levels_reach {i : Nat} (above : ∀ j < i, ∀ count, list[j]? = some count → Fills ks (level + j) count)
    (here : list[i]? = some count) (sequential : Bool) (g : σ) : ∃ targets rest h,
      (levels ks sequential level list).run g =
        ((targets ++ ·) <$> levels ks sequential (level + i) (count :: rest)).run h := by
  induction list generalizing level i g with
  | nil => cases here
  | cons first rest ih =>
    cases i with
    | zero =>
      cases here
      exact ⟨[],rest,g,by simp⟩
    | succ i =>
      have deeper : ∀ j < i, ∀ count, rest[j]? = some count → Fills ks (level + 1 + j) count := by
        intro j before count there
        rw [Nat.add_right_comm]
        exact above (j + 1) (by omega) count there
      have top : Fills ks level first := above 0 (by omega) first rfl
      obtain ⟨keys,chosen,h,-,-,run⟩ := levels_step top sequential rest g
      obtain ⟨others,later,h',below⟩ := ih deeper here h
      refine ⟨chosen.map (Target.mk level) ++ others,later,h',?_⟩
      rw [run,Draw.map_same below,Functor.map_map,Nat.add_right_comm]
      simp only [List.append_assoc]
      rfl

theorem levels_dry {i : Nat} (above : ∀ j < i, ∀ count, list[j]? = some count → Fills ks (level + j) count)
    (here : list[i]? = some count) (dry : Dry ks (level + i) count) (sequential : Bool) (g : σ) :
    ∃ g', (levels ks sequential level list).run g = .ok (.error (.emptyLevel (level + i)),g') := by
  obtain ⟨targets,rest,h,run⟩ := levels_reach above here sequential g
  exact ⟨h,run.trans (Draw.map_refused (levels_empty dry h))⟩

theorem levels_halted {i : Nat} {fault : Fault}
    (above : ∀ j < i, ∀ count, list[j]? = some count → Fills ks (level + j) count) (here : list[i]? = some count)
    (unlisted : ks.prefixes (level + i) = .error fault) (sequential : Bool) (g : σ) :
    (levels ks sequential level list).run g = .error fault := by
  obtain ⟨targets,rest,h,run⟩ := levels_reach above here sequential g
  exact run.trans (Draw.map_halted (levels_unlisted unlisted h))

/-! ### Plans -/

variable {c : Counts}

theorem build_misfit {e : DefinitionError} (misfit : c.forDepth ks.maxDepth = .error e) (sequential : Bool) (g : σ) :
    (build ks c sequential).run g = .ok (.error e,g) := by
  rw [build,misfit]
  rfl

theorem build_fits (fits : c.Fits ks.maxDepth) (sequential : Bool) (g : σ) : (build ks c sequential).run g =
    (Plan.mk <$> levels ks sequential 0 ((List.range ks.maxDepth).map c.countAt)).run g := by
  obtain ⟨warnings,fitted⟩ := Counts.forDepth_fits fits
  rw [build,fitted]
  rfl

theorem countAt_fitted {i : Nat} {count : Count} (here : ((List.range ks.maxDepth).map c.countAt)[i]? = some count) :
    i < ks.maxDepth ∧ c.countAt i = count := by
  obtain ⟨inside,rfl⟩ := List.getElem?_eq_some_iff.mp here
  rw [List.length_map,List.length_range] at inside
  exact ⟨inside,by simp⟩

/-- The levels above one have keys. -/
def FillsAbove (ks : KeySpace) (c : Counts) (level : Nat) : Prop := ∀ l < level, Fills ks l (c.countAt l)

theorem FillsAbove.fitted (fills : FillsAbove ks c level) {i : Nat} (inside : i < level) {count : Count}
    (here : ((List.range ks.maxDepth).map c.countAt)[i]? = some count) : Fills ks (0 + i) count := by
  obtain ⟨-,rfl⟩ := countAt_fitted here
  rw [Nat.zero_add]
  exact fills i inside

/-- Either all levels have keys, or there is a first one that has none or whose keys cannot be listed. -/
theorem fillsAbove_or (ks : KeySpace) (c : Counts) (depth : Nat) :
    FillsAbove ks c depth ∨ ∃ level < depth, FillsAbove ks c level ∧
      (Dry ks level (c.countAt level) ∨ ∃ fault, ks.prefixes level = .error fault) := by
  induction depth with
  | zero => exact .inl fun l inside => absurd inside (Nat.not_lt_zero l)
  | succ depth ih =>
    rcases ih with fills | ⟨level,inside,first⟩
    · rcases fills_or ks depth (c.countAt depth) with filled | stops
      · refine .inl fun l inside => ?_
        rcases Nat.lt_succ_iff_lt_or_eq.mp inside with above | rfl
        · exact fills l above
        · exact filled
      · exact .inr ⟨depth,Nat.lt_succ_self depth,fills,stops⟩
    · exact .inr ⟨level,Nat.lt_succ_of_lt inside,first⟩

theorem build_made (fits : c.Fits ks.maxDepth) (fills : FillsAbove ks c ks.maxDepth) (sequential : Bool) (g : σ) :
    ∃ plan g', (build ks c sequential).run g = .ok (.ok plan,g') ∧
      Grouped ks sequential 0 ((List.range ks.maxDepth).map c.countAt) plan.targets := by
  obtain ⟨targets,g',run,grouped⟩ := levels_filled
    (fun i count here => fills.fitted (countAt_fitted here).1 here) sequential g
  exact ⟨⟨targets⟩,g',(build_fits fits sequential g).trans (Draw.map_value run),grouped⟩

theorem build_dry (fits : c.Fits ks.maxDepth) (inside : level < ks.maxDepth) (above : FillsAbove ks c level)
    (dry : Dry ks level (c.countAt level)) (sequential : Bool) (g : σ) :
    ∃ g', (build ks c sequential).run g = .ok (.error (.emptyLevel level),g') := by
  rw [build_fits fits]
  rw [← Nat.zero_add level] at dry
  obtain ⟨g',run⟩ :=
    levels_dry (fun i inside count here => above.fitted inside here) (by simp [inside]) dry sequential g
  rw [Nat.zero_add] at run
  exact ⟨g',Draw.map_refused run⟩

theorem build_halted {fault : Fault} (fits : c.Fits ks.maxDepth) (inside : level < ks.maxDepth)
    (above : FillsAbove ks c level) (unlisted : ks.prefixes level = .error fault) (sequential : Bool) (g : σ) :
    (build ks c sequential).run g = .error fault := by
  have here : ((List.range ks.maxDepth).map c.countAt)[level]? = some (c.countAt level) := by simp [inside]
  rw [build_fits fits]
  rw [← Nat.zero_add level] at unlisted
  exact Draw.map_halted (levels_halted (fun i inside count here => above.fitted inside here) here unlisted sequential g)

/-- How the making of a plan ends, and why. -/
inductive Ends (ks : KeySpace) (c : Counts) (sequential : Bool) (g : σ) :
    Except Fault (Except DefinitionError Plan × σ) → Prop where
  | misfit {e : DefinitionError} (misfit : c.forDepth ks.maxDepth = .error e) :
    Ends ks c sequential g (.ok (.error e,g))
  | dry {level : Nat} {g' : σ} (fits : c.Fits ks.maxDepth) (inside : level < ks.maxDepth)
    (above : FillsAbove ks c level) (dry : Dry ks level (c.countAt level)) :
    Ends ks c sequential g (.ok (.error (.emptyLevel level),g'))
  | halted {level : Nat} {fault : Fault} (fits : c.Fits ks.maxDepth) (inside : level < ks.maxDepth)
    (above : FillsAbove ks c level) (unlisted : ks.prefixes level = .error fault) :
    Ends ks c sequential g (.error fault)
  | made {plan : Plan} {g' : σ} (fits : c.Fits ks.maxDepth) (fills : FillsAbove ks c ks.maxDepth) :
    Ends ks c sequential g (.ok (.ok plan,g'))

theorem build_ends (ks : KeySpace) (c : Counts) (sequential : Bool) (g : σ) :
    Ends ks c sequential g ((build ks c sequential).run g) := by
  rcases c.fits_or ks.maxDepth with fits | ⟨e,misfit⟩
  · rcases fillsAbove_or ks c ks.maxDepth with fills | ⟨level,inside,above,dry | ⟨fault,unlisted⟩⟩
    · obtain ⟨plan,g',run,-⟩ := build_made fits fills sequential g
      exact run ▸ .made fits fills
    · obtain ⟨g',run⟩ := build_dry fits inside above dry sequential g
      exact run ▸ .dry fits inside above dry
    · exact build_halted fits inside above unlisted sequential g ▸ .halted fits inside above unlisted
  · exact build_misfit misfit sequential g ▸ .misfit misfit

/-- What comes of a list of counts. -/
structure Planned (ks : KeySpace) (c : Counts) (sequential : Bool) (g : σ) : Prop where
  refused : ∀ e, (∃ g', (build ks c sequential).run g = .ok (.error e,g')) ↔ c.forDepth ks.maxDepth = .error e ∨
    c.Fits ks.maxDepth ∧ ∃ level < ks.maxDepth, e = .emptyLevel level ∧ Dry ks level (c.countAt level) ∧
      FillsAbove ks c level
  /-- No plan is made either if the keys of a level cannot be listed. -/
  halted : ∀ fault, (build ks c sequential).run g = .error fault ↔
    c.Fits ks.maxDepth ∧ ∃ level < ks.maxDepth, ks.prefixes level = .error fault ∧ FillsAbove ks c level
  made : c.Fits ks.maxDepth → FillsAbove ks c ks.maxDepth → ∃ plan g',
    (build ks c sequential).run g = .ok (.ok plan,g') ∧
    plan.targets = (List.range ks.maxDepth).flatMap (fun l => (keysAt plan.targets l).map (Target.mk l)) ∧
    ∀ level < ks.maxDepth, ∃ keys, ks.prefixes level = .ok keys ∧
      Chosen keys ((c.countAt level).number keys.size) sequential (keysAt plan.targets level)

theorem build_planned (ks : KeySpace) (c : Counts) (sequential : Bool) (g : σ) : Planned ks c sequential g := by
  constructor
  case refused =>
    intro e
    constructor
    · rintro ⟨g',run⟩
      have ends := build_ends ks c sequential g
      rw [run] at ends
      cases ends with
      | misfit misfit => exact .inl misfit
      | dry fits inside above dry => exact .inr ⟨fits,_,inside,rfl,dry,above⟩
    · rintro (misfit | ⟨fits,level,inside,rfl,dry,above⟩)
      · exact ⟨g,build_misfit misfit sequential g⟩
      · exact build_dry fits inside above dry sequential g
  case halted =>
    intro fault
    constructor
    · intro run
      have ends := build_ends ks c sequential g
      rw [run] at ends
      cases ends with
      | halted fits inside above unlisted => exact ⟨fits,_,inside,unlisted,above⟩
    · rintro ⟨fits,level,inside,unlisted,above⟩
      exact build_halted fits inside above unlisted sequential g
  case made =>
    intro fits fills
    obtain ⟨plan,g',run,grouped⟩ := build_made fits fills sequential g
    refine ⟨plan,g',run,?_,fun level inside => ?_⟩
    · have groups := grouped.groups
      rwa [List.length_map,List.length_range,← List.range_eq_range'] at groups
    · have chosen := grouped.chosen level (c.countAt level) (by simp [inside])
      rwa [Nat.zero_add] at chosen

/-- A list of counts that is read and fits the tree comes to a plan, unless a level has no keys. -/
theorem plan_of_list (spec : String) (strict : Bool) (c : Counts) (ks : KeySpace) (sequential : Bool) (g : σ) :
    Counts.Reading spec strict ∧ Counts.Fitting c ks.maxDepth ∧ Planned ks c sequential g :=
  ⟨Counts.reading spec strict,c.fitting ks.maxDepth,build_planned ks c sequential g⟩

end Plan

end Watch

end Keyload
