import Keyload.Proofs.Churn.Carried
import Keyload.Proofs.Churn.Slots
import Keyload.Proofs.Pattern.Compiled

/-!
What subtree churn does to the keys of a store. A delete removes all keys that start with the text of a node, with or
without a slash after it, and a rebuild puts the keys of one node back. So churn keeps the tree of the loaded keys
exactly where no key starts with the text of a node that it does not belong to.
-/
namespace Keyload.Churn
open Pattern (Level)
open Cursor (texts LeafLast)
open Draw (Reads Tape)
open Memory (startsWith Below startsWith_below)

theorem onlyPattern_single {ks : KeySpace} {p q : Pattern} {activity : String} (single : ks.patterns = [p])
    (only : (onlyPattern ks activity).run = .ok (.ok q)) : q = p := by
  simp only [onlyPattern,KeySpace.single,single] at only
  cases only
  rfl

theorem prefixes_of_populated {ks : KeySpace} {level : Nat} {keys : { keys : Array String // 0 < keys.size }}
    (listed : (populated ks level).run = .ok (.ok keys)) : ks.prefixes level = .ok keys.1 := by
  change (ks.prefixes level).map _ = _ at listed
  cases drawn : ks.prefixes level with
  | error f => rw [drawn] at listed; cases listed
  | ok all =>
    rw [drawn] at listed
    simp only [Except.map] at listed
    split at listed
    · cases listed
      rfl
    · cases listed

namespace LevelChurn

/-- The node above a subtree. -/
def node (a : LevelChurn) (i : Nat) : String := a.prefixes[i]?.getD ""

/-- The keys of a subtree. -/
def subtreeKeys (a : LevelChurn) (i : Nat) : List String :=
  texts Level.nameAt (a.pattern.levels.drop (a.level + 1)) (a.node i)

/-- No key starts with the node of another subtree; alone in its slot, a subtree may share keys. -/
def Apart (a : LevelChurn) : Prop :=
  ∀ i j key, i < a.prefixes.size → j < a.prefixes.size → i ≠ j → key ∈ a.subtreeKeys j →
    startsWith (a.node i) key = true → a.slots.size = 1 ∧ key ∈ a.subtreeKeys i

/-- After every step the missing keys are those below a node in a slot, and after whole cycles none is missing. A
step fails only where no value can be drawn. -/
def Preserves (a : LevelChurn) (loaded : List String) : Prop :=
  ∀ (σ : Type) [RandomSource σ] (g : σ) (m : Memory), m.failing = 0 → (∀ key, key ∈ m.data ↔ key ∈ loaded) →
    ∀ n, (∃ s m' g', (Activity.level a).carryAll n m g = .ok ((.level { a with slots := s },m'),g') ∧
        (∀ key, key ∈ m'.data ↔ key ∈ loaded ∧ ∀ i ∈ s.held, ¬ Below (a.node i) key) ∧
        (2 * a.slots.size ∣ n → ∀ key, key ∈ m'.data ↔ key ∈ loaded)) ∨
      ∃ f, (Activity.level a).carryAll n m g = .error f ∧ ∃ l ∈ a.pattern.levels, Level.ValueFault l f

/-- What holds of the churn of a compiled pattern without drawn names. -/
structure Sound (a : LevelChurn) : Prop where
  fixed : ∀ l ∈ a.pattern.levels, l.isRandom = false
  leafLast : LeafLast a.pattern.levels
  above : a.level + 1 < a.pattern.levels.length
  nodes : a.prefixes.toList = texts Level.nameAt (a.pattern.levels.take (a.level + 1)) ""
  slots : a.slots.Sound
  known : a.slots.prefixes = a.prefixes.size
  fits : a.prefixes.size ≤ Word.limit

/-- What the definition of a churn goes through. -/
theorem new_cases {ks : KeySpace} {p : Pattern} {level pct : Nat} {a : LevelChurn} (single : ks.patterns = [p])
    (created : (LevelChurn.new ks level pct).run = .ok (.ok a)) :
    a.pattern = p ∧ a.level = level ∧ level + 1 < p.levels.length ∧ 0 < a.prefixes.size ∧
      ks.prefixes level = .ok a.prefixes ∧ Slots.new a.prefixes.size pct = .ok a.slots := by
  obtain ⟨q,only,created⟩ := Outcome.bind_ok created
  obtain rfl := onlyPattern_single single only
  by_cases deep : q.depth ≤ level + 1
  · simp only [if_pos deep] at created
    cases created
  simp only [if_neg deep] at created
  obtain ⟨keys,listed,created⟩ := Outcome.bind_ok created
  obtain ⟨slots,shared,created⟩ := Outcome.bind_ok created
  cases created
  refine ⟨rfl,rfl,Nat.lt_of_not_le deep,keys.2,prefixes_of_populated listed,?_⟩
  · cases made : Slots.new keys.1.size pct with
    | error f => rw [made] at shared; cases shared
    | ok s => rw [made] at shared; cases shared; rfl

theorem new_sound {ks : KeySpace} {p : Pattern} {level pct : Nat} {a : LevelChurn} (single : ks.patterns = [p])
    (compiled : Pattern.Compiled p) (fixed : ∀ l ∈ p.levels, l.isRandom = false) (some_share : 0 < pct)
    (created : (LevelChurn.new ks level pct).run = .ok (.ok a)) : a.Sound ∧ a.pattern = p ∧ a.slots.place = 0 := by
  obtain ⟨rfl,rfl,above,some_node,listed,shared⟩ := new_cases single created
  obtain ⟨slots,known,start,fits⟩ := Slots.new_sound some_node some_share shared
  have leafLast := Pattern.Compiler.compiled_leafLast compiled
  have nodes := KeySpace.prefixes_texts single leafLast (by omega)
    (fun l member => Level.fixed_named (fixed l (List.mem_of_mem_take member))) listed
  exact ⟨⟨fixed,leafLast,above,nodes,slots,known,by omega⟩,rfl,start⟩

/-! ### The keys of subtrees -/

namespace Sound

variable {a : LevelChurn} (sound : a.Sound)
include sound

theorem below_ne_nil : a.pattern.levels.drop (a.level + 1) ≠ [] := by
  have := sound.above
  intro none_left
  have := List.drop_eq_nil_iff.mp none_left
  omega

theorem below_node {i : Nat} {key : String} (member : key ∈ a.subtreeKeys i) : Below (a.node i) key :=
  Cursor.texts_below sound.below_ne_nil member

theorem node_mem {i : Nat} (known : i < a.prefixes.size) :
    a.node i ∈ texts Level.nameAt (a.pattern.levels.take (a.level + 1)) "" := by
  rw [← sound.nodes,node,Array.getElem?_eq_getElem known]
  exact Array.getElem_mem_toList known

/-- The keys of the pattern are those of the subtrees. -/
theorem mem_loaded (key : String) :
    key ∈ texts Level.nameAt a.pattern.levels "" ↔ ∃ i, i < a.prefixes.size ∧ key ∈ a.subtreeKeys i := by
  have parts := Cursor.texts_append Level.nameAt (a.pattern.levels.take (a.level + 1))
    (a.pattern.levels.drop (a.level + 1)) ""
  rw [List.take_append_drop,← sound.nodes] at parts
  rw [parts,List.mem_flatMap]
  constructor
  · rintro ⟨base,member,inner⟩
    obtain ⟨i,known,rfl⟩ := List.mem_iff_getElem.mp member
    refine ⟨i,known,?_⟩
    rw [subtreeKeys,node,Array.getElem?_eq_getElem known]
    exact inner
  · rintro ⟨i,known,inner⟩
    refine ⟨a.node i,?_,inner⟩
    rw [sound.nodes]
    exact sound.node_mem known

end Sound

/-! ### A step, carried out -/

/-- The walk of a subtree. -/
def subtreeWalk {σ : Type} [RandomSource σ] (a : LevelChurn) (i : Nat) : Draw σ (List Entry) :=
  Cursor.walk none (a.pattern.levels.drop (a.level + 1)) (a.level + 1) (a.node i)

variable {σ : Type} [RandomSource σ] {a : LevelChurn}

private theorem carryOut_delete {m : Memory} {g g' : σ} {i : Nat}
    (step : a.slots.next g = .ok ((some (.delete i),a.slots.fill i),g')) :
    (Activity.level a).carryOut m g =
      .ok ((.level { a with slots := a.slots.fill i },(m.execute (.delete (a.node i) true)).2),g') := by
  have begun : (Activity.level a).next g =
      .ok ((.send (.delete (a.node i) true),.level { a with slots := a.slots.fill i }),g') :=
    Draw.bind_run step
  exact Draw.bind_run begun

/-- A subtree that is built sends the puts of its walk. -/
theorem sends_subtree (a : LevelChurn) (i : Nat) :
    (Activity.sends a.pattern.levels (.build (a.subtree (a.node i))) : Draw σ _) =
      List.map Activity.putOf <$> a.subtreeWalk i := by
  rw [Activity.sends_build]
  exact congrArg _ (Cursor.stackWalk_below ..)

theorem Sound.walk_subtree (sound : a.Sound) {i : Nat} {g g' : σ} {es : List Entry}
    (walked : a.subtreeWalk i g = .ok (es,g')) : es.map Entry.key = a.subtreeKeys i :=
  Cursor.walk_keys (fun l member => Level.fixed_named (sound.fixed l (List.mem_of_mem_drop member)))
    (Cursor.leafLast_drop sound.leafLast _ sound.above) walked

private theorem carryOut_recreate {m : Memory} {g : σ} {i : Nat}
    (step : a.slots.next g = .ok ((some (.recreate i),a.slots.clear i),g)) :
    (Activity.level a).carryOut m g =
      (a.subtreeWalk i g).map fun r =>
        ((.level { a with slots := a.slots.clear i },m.executeAll (r.1.map Activity.putOf)),r.2) := by
  have begun : (Activity.level a).next g =
      .ok ((.build (a.subtree (a.node i)),.level { a with slots := a.slots.clear i }),g) :=
    Draw.bind_run step
  refine (Draw.bind_run begun).trans ?_
  change (Activity.sends a.pattern.levels (.build (a.subtree (a.node i))) >>= fun ops =>
    pure (_,m.executeAll ops) : Draw σ _) g = _
  rw [sends_subtree,Draw.bind_apply,Draw.map_apply]
  cases a.subtreeWalk i g <;> rfl

theorem mem_putBack {m : Memory} (prompt : m.failing = 0) (es : List Entry) (key : String) :
    (m.executeAll (es.map Activity.putOf)).failing = 0 ∧
      (key ∈ (m.executeAll (es.map Activity.putOf)).data ↔ key ∈ es.map Entry.key ∨ key ∈ m.data) := by
  have puts := Memory.mem_puts prompt (es.map fun e => (e.key,e.value.getD "")) key
  rw [List.map_map,List.map_map] at puts
  exact puts

/-! ### Churn of subtrees that are apart -/

/-- The missing keys are those below a node in a slot. -/
def Holds (a : LevelChurn) (m : Memory) : Prop :=
  m.failing = 0 ∧
    ∀ key, key ∈ m.data ↔ key ∈ texts Level.nameAt a.pattern.levels "" ∧ ∀ i ∈ a.slots.held, ¬ Below (a.node i) key

/-- Where subtrees are apart, the loaded keys that start with a node are the keys of its subtree. -/
private theorem mem_of_starts (sound : a.Sound) (apart : a.Apart) {i : Nat} (known : i < a.prefixes.size) {key : String}
    (loaded : key ∈ texts Level.nameAt a.pattern.levels "") (starts : startsWith (a.node i) key = true) :
    key ∈ a.subtreeKeys i := by
  obtain ⟨j,known',member⟩ := (sound.mem_loaded key).mp loaded
  by_cases same : i = j
  · rwa [same]
  · exact (apart i j key known known' same member starts).2

private theorem holds_delete (sound : a.Sound) (apart : a.Apart) {m : Memory} (holds : a.Holds m) {i : Nat}
    (known : i < a.prefixes.size) (held : (a.slots.fill i).held = a.slots.held ++ [i]) :
    Holds { a with slots := a.slots.fill i } (m.execute (.delete (a.node i) true)).2 := by
  refine ⟨(Memory.failing_delete ..).trans holds.1,fun key => ?_⟩
  rw [Memory.mem_delete,holds.2 key,held]
  simp only [List.mem_append,List.mem_singleton,or_imp,forall_and,forall_eq]
  constructor
  · rintro ⟨⟨loaded,outside⟩,other⟩
    refine ⟨loaded,outside,fun below => ?_⟩
    have starts : startsWith (a.node i) key = true := startsWith_below below
    rw [starts] at other
    cases other
  · rintro ⟨loaded,outside,notBelow⟩
    refine ⟨⟨loaded,outside⟩,?_⟩
    rw [← Bool.not_eq_true]
    exact fun starts => notBelow (sound.below_node (mem_of_starts sound apart known loaded starts))

private theorem holds_recreate (sound : a.Sound) (apart : a.Apart) {m : Memory} (holds : a.Holds m) {i : Nat}
    {rest : List Nat} (recreating : a.slots.deleting = false) (first : a.slots.held = i :: rest)
    (held : (a.slots.clear i).held = rest) {es : List Entry} (keys : es.map Entry.key = a.subtreeKeys i) :
    Holds { a with slots := a.slots.clear i } (m.executeAll (es.map Activity.putOf)) := by
  have known (k : Nat) (member : k ∈ i :: rest) : k < a.prefixes.size := by
    rw [← sound.known]
    exact sound.slots.known k (by rwa [first])
  have distinct := sound.slots.distinct
  have count := sound.slots.cursor_of_emptying recreating
  rw [first] at distinct count
  refine ⟨(mem_putBack holds.1 es "").1,fun key => ?_⟩
  rw [(mem_putBack holds.1 es key).2,keys,holds.2 key,first,held]
  constructor
  · rintro (member | ⟨loaded,outside⟩)
    · refine ⟨(sound.mem_loaded key).mpr ⟨i,known i List.mem_cons_self,member⟩,fun k later below => ?_⟩
      have other : k ≠ i := fun same => (List.nodup_cons.mp distinct).1 (same ▸ later)
      have alone := (apart k i key (known k (List.mem_cons_of_mem i later)) (known i List.mem_cons_self) other member
        (startsWith_below below)).1
      have := List.length_pos_of_mem later
      rw [List.length_cons] at count
      omega
    · exact ⟨loaded,fun k later => outside k (List.mem_cons_of_mem i later)⟩
  · rintro ⟨loaded,outside⟩
    by_cases below : Below (a.node i) key
    · exact .inl (mem_of_starts sound apart (known i List.mem_cons_self) loaded (startsWith_below below))
    · refine .inr ⟨loaded,fun k member => ?_⟩
      rcases List.mem_cons.mp member with rfl | later
      · exact below
      · exact outside k later

/-- Every subtree can be built with the keys that it was loaded with, from every source that can draw the values. -/
def Rebuilds (a : LevelChurn) : Prop :=
  ∀ i, i < a.prefixes.size → ∀ (σ : Type) [RandomSource σ] (g : σ),
    (∃ es g', a.subtreeWalk i g = .ok (es,g') ∧ es.map Entry.key = a.subtreeKeys i) ∨
      ∃ f, a.subtreeWalk i g = .error f ∧ ∃ l ∈ a.pattern.levels, Level.ValueFault l f

theorem Sound.withSlots (sound : a.Sound) {s : Slots} (slots : s.Sound) (known : s.prefixes = a.slots.prefixes) :
    Sound { a with slots := s } :=
  ⟨sound.fixed,sound.leafLast,sound.above,sound.nodes,slots,known.trans sound.known,sound.fits⟩

/-- One step keeps what holds, or stops where no value can be drawn. -/
private theorem holds_step (sound : a.Sound) (apart : a.Apart) (rebuilds : a.Rebuilds) {m : Memory} (holds : a.Holds m)
    (g : σ) :
    (∃ s m' g', (Activity.level a).carryOut m g = .ok ((.level { a with slots := s },m'),g') ∧ s.Sound ∧
        s.prefixes = a.slots.prefixes ∧ s.size = a.slots.size ∧ s.place = (a.slots.place + 1) % (2 * a.slots.size) ∧
        Holds { a with slots := s } m') ∨
      ∃ f, (Activity.level a).carryOut m g = .error f ∧ ∃ l ∈ a.pattern.levels, Level.ValueFault l f := by
  cases phase : a.slots.deleting with
  | true =>
    obtain ⟨i,g',step,known,present⟩ := Slots.next_filling sound.slots phase g
    obtain ⟨after,held⟩ := Slots.fill_sound sound.slots phase known present
    rw [sound.known] at known
    exact .inl ⟨_,_,g',carryOut_delete step,after,Slots.fill_prefixes ..,Slots.fill_size ..,
      Slots.fill_place sound.slots phase i,holds_delete sound apart holds known held⟩
  | false =>
    obtain ⟨i,rest,first,step⟩ := Slots.next_emptying sound.slots phase g
    obtain ⟨after,held⟩ := Slots.clear_sound sound.slots phase first
    have known : i < a.prefixes.size := by
      rw [← sound.known]
      exact sound.slots.known i (by rw [first]; exact List.mem_cons_self)
    rw [carryOut_recreate step]
    rcases rebuilds i known σ g with ⟨es,g',built,keys⟩ | ⟨f,stopped,fault⟩
    · rw [built]
      exact .inl ⟨_,_,g',rfl,after,Slots.clear_prefixes ..,Slots.clear_size ..,
        Slots.clear_place sound.slots phase i,holds_recreate sound apart holds phase first held keys⟩
    · rw [stopped]
      exact .inr ⟨f,rfl,fault⟩

private theorem holds_run (sound : a.Sound) (apart : a.Apart) (rebuilds : a.Rebuilds) {m : Memory} (holds : a.Holds m)
    (n : Nat) (g : σ) :
    (∃ s m' g', (Activity.level a).carryAll n m g = .ok ((.level { a with slots := s },m'),g') ∧ s.Sound ∧
        s.place = (a.slots.place + n) % (2 * a.slots.size) ∧ Holds { a with slots := s } m') ∨
      ∃ f, (Activity.level a).carryAll n m g = .error f ∧ ∃ l ∈ a.pattern.levels, Level.ValueFault l f := by
  induction n generalizing a m g with
  | zero =>
    exact .inl ⟨a.slots,m,g,rfl,sound.slots,(Nat.mod_eq_of_lt (Slots.place_lt sound.slots)).symm,holds⟩
  | succ n ih =>
    rcases holds_step sound apart rebuilds holds g with ⟨s,m₁,g₁,step,slots,known,size,place,holds⟩ | ⟨f,stopped,fault⟩
    · have apart : Apart { a with slots := s } := by
        intro i j key known known' other member starts
        rw [show ({ a with slots := s } : LevelChurn).slots.size = a.slots.size from size]
        exact apart i j key known known' other member starts
      rw [Activity.carryAll,Draw.bind_run step]
      rcases ih (sound.withSlots slots known) apart rebuilds holds g₁ with ⟨s',m',g',run,slots',place',holds'⟩ | stops
      · refine .inl ⟨s',m',g',run,slots',?_,holds'⟩
        simp only [size,place] at place'
        rw [place',Nat.mod_add_mod,Nat.add_assoc,Nat.add_comm 1]
      · exact .inr stops
    · exact .inr ⟨f,Draw.bind_stopped stopped,fault⟩

/-- Churn of subtrees that are apart keeps the tree. -/
theorem preserves_of_apart (sound : a.Sound) (start : a.slots.place = 0) (apart : a.Apart) (rebuilds : a.Rebuilds) :
    a.Preserves (texts Level.nameAt a.pattern.levels "") := by
  intro σ _ g m prompt loaded n
  have nothing := Slots.held_of_place sound.slots start
  have holds : a.Holds m := ⟨prompt,fun key => by rw [loaded key,nothing]; simp⟩
  rcases holds_run sound apart rebuilds holds n g with ⟨s,m',g',run,slots,place,holds⟩ | stops
  · refine .inl ⟨s,m',g',run,holds.2,fun whole key => ?_⟩
    have rest : s.held = [] := by
      refine Slots.held_of_place slots ?_
      rw [place,start,Nat.zero_add]
      exact Nat.mod_eq_zero_of_dvd whole
    have present := holds.2 key
    rw [show ({ a with slots := s } : LevelChurn).slots.held = [] from rest] at present
    simpa using present
  · exact .inr stops

/-! ### Churn of subtrees that are not apart -/

/-- Every subtree can be drawn from a tape. -/
def Draws (a : LevelChurn) : Prop :=
  ∀ i, i < a.prefixes.size → ∃ ws es, Reads (a.subtreeWalk i) ws es ∧ es.map Entry.key = a.subtreeKeys i

/-- A tape leads churn from one state to another in a number of steps. -/
def Leads (a : LevelChurn) (m : Memory) (n : Nat) (s : Slots) (m' : Memory) : Prop :=
  ∃ ws, Reads ((Activity.level a).carryAll n m) ws (.level { a with slots := s },m')

theorem Leads.trans {m m₁ m₂ : Memory} {n k : Nat} {s t : Slots} (first : a.Leads m n s m₁)
    (then_ : Leads { a with slots := s } m₁ k t m₂) : a.Leads m (n + k) t m₂ := by
  obtain ⟨us,reads⟩ := first
  obtain ⟨vs,reads'⟩ := then_
  refine ⟨us ++ vs,?_⟩
  rw [Activity.carryAll_add]
  exact Draw.reads_bind reads reads'

private theorem leads_one {m m' : Memory} {s : Slots} (ws : List UInt64)
    (reads : Reads ((Activity.level a).carryOut m) ws (.level { a with slots := s },m')) : a.Leads m 1 s m' := by
  refine ⟨ws ++ [],?_⟩
  exact Draw.reads_bind reads (Draw.reads_pure _)

/-- Every subtree that is there can be the next one that is deleted. -/
private theorem leads_delete (sound : a.Sound) (deleting : a.slots.deleting = true) {i : Nat}
    (known : i < a.prefixes.size) (present : i ∉ a.slots.held) (m : Memory) :
    a.Leads m 1 (a.slots.fill i) (m.execute (.delete (a.node i) true)).2 := by
  have fits := sound.fits
  rw [← sound.known] at known fits
  obtain ⟨w,reads⟩ := Slots.next_reads sound.slots deleting fits known present
  exact leads_one [w] fun rest => carryOut_delete (reads rest)

/-- The deletes of a cycle can be brought to their end. -/
private theorem leads_full (sound : a.Sound) (m : Memory) (prompt : m.failing = 0) :
    ∃ n s m' more, a.Leads m n s m' ∧ s.Sound ∧ s.prefixes = a.slots.prefixes ∧ s.size = a.slots.size ∧
      s.deleting = false ∧ s.held = a.slots.held ++ more ∧ m'.failing = 0 ∧ ∀ key, key ∈ m'.data → key ∈ m.data := by
  generalize left : a.slots.size - a.slots.held.length = todo
  induction todo generalizing a m with
  | zero =>
    cases phase : a.slots.deleting with
    | true =>
      have := sound.slots.cursor_of_filling phase
      have := sound.slots.inside
      omega
    | false =>
      exact ⟨0,a.slots,m,[],⟨[],Draw.reads_pure _⟩,sound.slots,rfl,rfl,phase,by simp,prompt,fun _ present => present⟩
  | succ todo ih =>
    cases phase : a.slots.deleting with
    | false =>
      exact ⟨0,a.slots,m,[],⟨[],Draw.reads_pure _⟩,sound.slots,rfl,rfl,phase,by simp,prompt,fun _ present => present⟩
    | true =>
      obtain ⟨i,known,fresh⟩ := Slots.some_present (sound.slots.missing_short phase)
      have present : i ∉ a.slots.held := fun old => fresh (sound.slots.same.mem_iff.mpr old)
      obtain ⟨after,held⟩ := Slots.fill_sound sound.slots phase known present
      have deleted := leads_delete sound phase (sound.known ▸ known) present m
      obtain ⟨n,s,m',more,leads,slots,prefixes,size,turned,held',prompt',fewer⟩ :=
        ih (sound.withSlots after (Slots.fill_prefixes ..)) (m.execute (.delete (a.node i) true)).2
          ((Memory.failing_delete ..).trans prompt) (by
            rw [Slots.fill_size,held,List.length_append,List.length_singleton]
            omega)
      refine ⟨1 + n,s,m',i :: more,deleted.trans leads,slots,?_,?_,turned,?_,prompt',fun key member => ?_⟩
      · exact prefixes.trans (Slots.fill_prefixes ..)
      · exact size.trans (Slots.fill_size ..)
      · rw [held',held,List.append_assoc,List.singleton_append]
      · exact ((Memory.mem_delete m (a.node i) key).mp (fewer key member)).1

/-- After the deletes of a cycle, the subtree that was deleted first comes back with its keys. -/
private theorem leads_rebuild (sound : a.Sound) (draws : a.Draws) (m : Memory) (prompt : m.failing = 0) {k : Nat}
    {rest : List Nat} (first : a.slots.held = k :: rest) :
    ∃ n s m', a.Leads m n s m' ∧ (∃ more, s.held = rest ++ more) ∧ s.held.length < a.slots.size ∧
      (∀ key, key ∈ a.subtreeKeys k → key ∈ m'.data) ∧ ∀ key, key ∈ m'.data → key ∈ a.subtreeKeys k ∨ key ∈ m.data := by
  obtain ⟨n,s,m₁,more,leads,slots,prefixes,size,turned,held,prompt,fewer⟩ := leads_full sound m prompt
  rw [first,List.cons_append] at held
  have known : k < a.prefixes.size := by
    rw [← sound.known,← prefixes]
    exact slots.known k (by rw [held]; exact List.mem_cons_self)
  obtain ⟨ws,es,reads,keys⟩ := draws k known
  have count := slots.cursor_of_emptying turned
  rw [held,List.length_cons] at count
  have back : Leads { a with slots := s } m₁ 1 (s.clear k) (m₁.executeAll (es.map Activity.putOf)) := by
    refine leads_one ws fun t => ?_
    obtain ⟨i,others,same,step⟩ := Slots.next_emptying slots turned (ws ++ₛ t)
    rw [held] at same
    cases same
    refine (carryOut_recreate (a := { a with slots := s }) step).trans ?_
    change Except.map _ (a.subtreeWalk k (ws ++ₛ t)) = _
    rw [reads t]
    rfl
  have after := (Slots.clear_sound slots turned held).2
  refine ⟨n + 1,s.clear k,_,leads.trans back,⟨more,after⟩,?_,fun key member => ?_,fun key member => ?_⟩
  · rw [after]
    omega
  · rw [(mem_putBack prompt es key).2,keys]
    exact .inl member
  · rw [(mem_putBack prompt es key).2,keys] at member
    exact member.imp id (fewer key)

/-- What churn that keeps the tree says of a state that a tape leads to. -/
private theorem Preserves.leads {loaded : List String} (preserves : a.Preserves loaded) {m m' : Memory}
    (prompt : m.failing = 0) (full : ∀ key, key ∈ m.data ↔ key ∈ loaded) {n : Nat} {s : Slots}
    (leads : a.Leads m n s m')
    (key : String) : key ∈ m'.data ↔ key ∈ loaded ∧ ∀ i ∈ s.held, ¬ Below (a.node i) key := by
  obtain ⟨ws,reads⟩ := leads
  have run := reads (Stream'.const 0)
  rcases preserves Tape (ws ++ₛ Stream'.const 0) m prompt full n with ⟨s',m'',g',run',holds,-⟩ | ⟨f,stopped,-⟩
  · rw [run] at run'
    cases run'
    exact holds key
  · rw [run] at stopped
    cases stopped

private theorem exists_store (keys : List String) :
    ∃ m : Memory, m.failing = 0 ∧ ∀ key, key ∈ m.data ↔ key ∈ keys := by
  have puts := Memory.mem_puts (m := Memory.empty) rfl (keys.map fun key => (key,""))
  refine ⟨_,(puts "").1,fun key => (puts key).2.trans ?_⟩
  simp [List.map_map,Function.comp_def]

/-- Churn that keeps the tree does so because the subtrees are apart. -/
theorem apart_of_preserves (sound : a.Sound) (start : a.slots.place = 0) (draws : a.Draws)
    (preserves : a.Preserves (texts Level.nameAt a.pattern.levels "")) : a.Apart := by
  intro i j key known known' other member starts
  obtain ⟨m,prompt,full⟩ := exists_store (texts Level.nameAt a.pattern.levels "")
  have loaded := (sound.mem_loaded key).mpr ⟨j,known',member⟩
  have nothing := Slots.held_of_place sound.slots start
  have inside := sound.slots.inside
  have deleting : a.slots.deleting = true := by
    cases phase : a.slots.deleting with
    | true => rfl
    | false => simp [Slots.place,phase] at start; omega
  have fresh (k : Nat) : k ∉ a.slots.held := by rw [nothing]; simp
  have deleted := leads_delete sound deleting known (fresh i) m
  obtain ⟨after,held⟩ := Slots.fill_sound sound.slots deleting (sound.known ▸ known) (fresh i)
  rw [nothing,List.nil_append] at held
  have gone : key ∉ (m.execute (.delete (a.node i) true)).2.data := by
    rw [Memory.mem_delete,starts]
    simp
  -- A key that is deleted and not below the node is missing after one step.
  have below : Below (a.node i) key := by
    by_contra notBelow
    refine gone ((preserves.leads prompt full deleted key).mpr ⟨loaded,?_⟩)
    rw [held]
    simpa using notBelow
  by_cases one : a.slots.size = 1
  · refine ⟨one,?_⟩
    by_contra lost
    obtain ⟨n,s,m',back,-,short,-,fewer⟩ := leads_rebuild (sound.withSlots after (Slots.fill_prefixes ..)) draws _
      ((Memory.failing_delete m (a.node i) true).trans prompt) held
    have none_held : s.held = [] := List.length_eq_zero_iff.mp (by rw [Slots.fill_size] at short; omega)
    have present := (preserves.leads prompt full (deleted.trans back) key).mpr ⟨loaded,by simp [none_held]⟩
    exact (fewer key present).elim lost gone
  · -- Deleted after its neighbour, the subtree is still missing when the neighbour brings the key back.
    exfalso
    obtain ⟨after,held⟩ := Slots.fill_sound sound.slots deleting (sound.known ▸ known') (fresh j)
    rw [nothing,List.nil_append] at held
    have deleted := leads_delete sound deleting known' (fresh j) m
    have sound₁ := sound.withSlots after (Slots.fill_prefixes ..)
    have still : (a.slots.fill j).deleting = true := by
      have place := Slots.fill_place sound.slots deleting j
      rw [start,Nat.mod_eq_of_lt (by omega)] at place
      cases phase : (a.slots.fill j).deleting with
      | true => rfl
      | false => simp [Slots.place,phase] at place; omega
    have present : i ∉ (a.slots.fill j).held := by rw [held]; simpa using other
    obtain ⟨after₂,held₂⟩ := Slots.fill_sound after still (sound₁.known ▸ known) present
    rw [held] at held₂
    have deleted₂ := leads_delete sound₁ still known present (m.execute (.delete (a.node j) true)).2
    obtain ⟨n,s,m',back,⟨more,kept⟩,-,rebuilt,-⟩ :=
      leads_rebuild (sound₁.withSlots after₂ (Slots.fill_prefixes ..)) draws _
        ((Memory.failing_delete ..).trans ((Memory.failing_delete m (a.node j) true).trans prompt)) held₂
    have missing := (preserves.leads prompt full ((deleted.trans deleted₂).trans back) key).mp (rebuilt key member)
    exact missing.2 i (by rw [kept]; simp) below

/-! ### Churn after a load -/

private theorem subtree_of_load (sound : a.Sound) {g g' : σ} {es : List Entry}
    (load : Cursor.walk none a.pattern.levels 0 "" g = .ok (es,g')) {i : Nat} (known : i < a.prefixes.size) :
    ∃ part, ∃ h h' : σ, a.subtreeWalk i h = .ok (part,h') ∧ part.map Entry.key = a.subtreeKeys i := by
  have above := sound.above
  rw [← List.take_append_drop (a.level + 1) a.pattern.levels] at load
  have inner := Cursor.leafLast_inner sound.leafLast sound.above
  obtain ⟨part,h,h',run,-⟩ := Cursor.walk_node
    (fun l member => Level.fixed_named (sound.fixed l (List.mem_of_mem_take member))) inner (sound.node_mem known) load
  have count : 0 + (a.pattern.levels.take (a.level + 1)).length = a.level + 1 := by
    rw [List.length_take]
    omega
  rw [count] at run
  exact ⟨part,h,h',run,sound.walk_subtree run⟩

private theorem draws_of_load (sound : a.Sound) {g g' : σ} {es : List Entry}
    (load : Cursor.walk none a.pattern.levels 0 "" g = .ok (es,g')) : a.Draws := by
  intro i known
  obtain ⟨part,h,h',run,keys⟩ := subtree_of_load sound load known
  obtain ⟨ws,reads⟩ := (Cursor.walk_scripted none _ _ _).reads run
  exact ⟨ws,part,reads,keys⟩

theorem rebuilds_of_load (sound : a.Sound) {g g' : σ} {es : List Entry}
    (load : Cursor.walk none a.pattern.levels 0 "" g = .ok (es,g')) : a.Rebuilds := by
  intro i known τ _ h
  obtain ⟨part,h₁,h₂,run,keys⟩ := subtree_of_load sound load known
  rcases Cursor.walk_again (fun l member => sound.fixed l (List.mem_of_mem_drop member)) run h with
    ⟨bs,h',built,same⟩ | ⟨f,stopped,l,member,fault⟩
  · exact .inl ⟨bs,h',built,same.symm.trans keys⟩
  · exact .inr ⟨f,stopped,l,List.mem_of_mem_drop member,fault⟩

theorem load_keys (sound : a.Sound) {g g' : σ} {es : List Entry}
    (load : Cursor.walk none a.pattern.levels 0 "" g = .ok (es,g')) :
    es.map Entry.key = texts Level.nameAt a.pattern.levels "" :=
  Cursor.walk_keys (fun l member => Level.fixed_named (sound.fixed l member)) sound.leafLast load

/-! ### Two neighbours -/

/-- What is checked of a value that there has to be. -/
def yields {ε α : Type} (x : Except ε α) (check : α → Bool) : Bool :=
  match x with
  | .ok a => check a
  | .error _ => false

theorem ok_of_yields {ε α : Type} {x : Except ε α} {check : α → Bool} (checked : yields x check = true) :
    ∃ a, x = .ok a ∧ check a = true := by
  cases x with
  | error e => cases checked
  | ok a => exact ⟨a,rfl,checked⟩

/-- A pattern over two names, loaded, and the churn of one of them at a time. -/
structure Neighbours (x y : String) (ks : KeySpace) (p : Pattern) (a : LevelChurn) (es : Array Entry) : Prop where
  single : ks.patterns = [p]
  compiled : Pattern.Compiled p
  fixed : ∀ l ∈ p.levels, l.isRandom = false
  created : (LevelChurn.new ks 0 50).run = .ok (.ok a)
  loaded : ∃ b g, (ks.keys 0).take 5 #[] (Xoshiro.ofSeed 1) = .ok ((es,true,b),g)
  keys : a.prefixes = #["/" ++ x,"/" ++ y] ∧ a.subtreeKeys 0 = ["/" ++ x ++ "/x"] ∧
    a.subtreeKeys 1 = ["/" ++ y ++ "/x"]

/-- The pattern over two names, compiled. -/
def compileNeighbours (x y : String) : Except Fault ((Except DefinitionError Pattern × Pattern.Compiler) × Xoshiro) :=
  (Pattern.Compiler.compile "/:r/x;z").run ⟨⟨[⟨"r",2,0,none,#[x,y]⟩]⟩,none⟩ (Xoshiro.ofSeed 1)

/-- Everything about two neighbours that a computation can check, and more of their churn and keys. -/
def checkNeighbours (x y : String) (more : LevelChurn → Array Entry → Bool) : Bool :=
  yields (compileNeighbours x y) fun r => yields r.1.1 fun p =>
    p.levels.all (fun l => !l.isRandom) &&
    yields (LevelChurn.new ⟨[p],7,List.cons_ne_nil p []⟩ 0 50).run fun r => yields r fun a =>
      decide (a.prefixes = #["/" ++ x,"/" ++ y] ∧ a.subtreeKeys 0 = ["/" ++ x ++ "/x"] ∧
        a.subtreeKeys 1 = ["/" ++ y ++ "/x"]) &&
      yields ((KeySpace.keys ⟨[p],7,List.cons_ne_nil p []⟩ 0).take 5 #[] (Xoshiro.ofSeed 1)) fun r =>
        r.1.2.1 && more a r.1.1

theorem neighbours_with {x y : String} (more : LevelChurn → Array Entry → Bool)
    (checked : checkNeighbours x y more = true) : ∃ ks p a es, Neighbours x y ks p a es ∧ more a es = true := by
  obtain ⟨⟨⟨r,c⟩,g⟩,run,checked⟩ := ok_of_yields checked
  obtain ⟨p,rfl,checked⟩ := ok_of_yields checked
  obtain ⟨fixed,checked⟩ := Bool.and_eq_true_iff.mp checked
  obtain ⟨r,created,checked⟩ := ok_of_yields checked
  obtain ⟨a,rfl,checked⟩ := ok_of_yields checked
  obtain ⟨keys,checked⟩ := Bool.and_eq_true_iff.mp checked
  obtain ⟨⟨⟨es,ended,b⟩,g'⟩,loaded,checked⟩ := ok_of_yields checked
  obtain ⟨rfl,further⟩ := Bool.and_eq_true_iff.mp checked
  refine ⟨_,p,a,es,⟨rfl,⟨Xoshiro,_,_,_,_,_,_,run⟩,fun l member => ?_,created,⟨b,g',loaded⟩,of_decide_eq_true keys⟩,
    further⟩
  simpa using List.all_eq_true.mp fixed l member

theorem neighbours_of_check {x y : String} (checked : checkNeighbours x y (fun _ _ => true) = true) :
    ∃ ks p a es, Neighbours x y ks p a es := by
  obtain ⟨ks,p,a,es,neighbours,-⟩ := neighbours_with _ checked
  exact ⟨ks,p,a,es,neighbours⟩

/-! ### The condition for churn to keep the tree -/

/-- After a full load of a compiled pattern without drawn names, churn of a level keeps the tree of the loaded keys
if and only if no key starts with the node of another subtree. -/
theorem preserves_iff_apart {ks : KeySpace} {p : Pattern} {level pct n : Nat} {a : LevelChurn} {g g' : σ}
    {es : Array Entry} {b : Bounded} (single : ks.patterns = [p]) (compiled : Pattern.Compiled p)
    (fixed : ∀ l ∈ p.levels, l.isRandom = false) (some_share : 0 < pct)
    (created : (LevelChurn.new ks level pct).run = .ok (.ok a))
    (loaded : (ks.keys 0).take n #[] g = .ok ((es,true,b),g')) :
    a.Preserves (es.toList.map Entry.key) ↔ a.Apart := by
  obtain ⟨sound,rfl,start⟩ := new_sound single compiled fixed some_share created
  have load := Bounded.take_single single loaded
  rw [load_keys sound load]
  constructor
  · exact apart_of_preserves sound start (draws_of_load sound load)
  · exact fun apart => preserves_of_apart sound start apart (rebuilds_of_load sound load)

/-- Of two names neither of which begins with the other, churn keeps the tree if and only if the subtrees are apart. -/
theorem preserves_neighbours :
    ∃ ks p a es, Neighbours "a" "b" ks p a es ∧ (a.Preserves (es.toList.map Entry.key) ↔ a.Apart) := by
  obtain ⟨ks,p,a,es,neighbours⟩ := neighbours_of_check (x := "a") (y := "b") (by decide +kernel)
  obtain ⟨b,g,loaded⟩ := neighbours.loaded
  exact ⟨ks,p,a,es,neighbours,preserves_iff_apart neighbours.single neighbours.compiled neighbours.fixed (by decide)
    neighbours.created loaded⟩

/-- Where one name begins with another one, churn loses keys. -/
theorem loses_neighbour :
    ∃ ks p a es, Neighbours "a" "ab" ks p a es ∧ ¬ a.Preserves (es.toList.map Entry.key) := by
  obtain ⟨ks,p,a,es,neighbours⟩ := neighbours_of_check (x := "a") (y := "ab") (by decide +kernel)
  refine ⟨ks,p,a,es,neighbours,fun preserves => ?_⟩
  obtain ⟨prefixes,first,second⟩ := neighbours.keys
  obtain ⟨sound,rfl,start⟩ :=
    new_sound neighbours.single neighbours.compiled neighbours.fixed (by decide) neighbours.created
  obtain ⟨b,g,loaded⟩ := neighbours.loaded
  have load := Bounded.take_single neighbours.single loaded
  rw [load_keys sound load] at preserves
  have apart := apart_of_preserves sound start (draws_of_load sound load) preserves
  have both : a.prefixes.size = 2 := by rw [prefixes]; rfl
  have node : a.node 0 = "/a" := by rw [node,prefixes]; rfl
  have shared := (apart 0 1 "/ab/x" (by omega) (by omega) (by decide) (by rw [second]; decide)
    (by rw [node]; decide +kernel)).2
  rw [first] at shared
  exact absurd shared (by decide)

end LevelChurn

end Keyload.Churn
