import Keyload.Proofs.Churn.Subtrees

/-!
What subtree churn sends, in whatever order it is carried out later. A step sends the delete of a node or the puts of
a subtree, so nothing but loaded keys is ever put, and a cycle begins with a delete. Carried out in the order in which
they were sent, the operations of whole cycles leave the loaded keys in the store.
-/
namespace Keyload.Churn.LevelChurn
open Pattern (Level)
open Cursor (texts)
open Memory (startsWith lastOn touches)

variable {σ : Type} [RandomSource σ] {a : LevelChurn}

/-! ### Nodes that do not begin with each other -/

/-- No node begins with the text of another one. -/
def Unlike (a : LevelChurn) : Prop :=
  a.prefixes.toList.Pairwise fun x y => startsWith x y = false ∧ startsWith y x = false

theorem apart_of_unlike (sound : a.Sound) (unlike : a.Unlike) : a.Apart := by
  intro i j key known known' other member starts
  exfalso
  have node_at {k : Nat} (inside : k < a.prefixes.size) : a.prefixes.toList[k] = a.node k := by
    rw [node,Array.getElem?_eq_getElem inside]
    rfl
  have differ {i j : Nat} (less : i < j) (inside : j < a.prefixes.size) :
      startsWith (a.node i) (a.node j) = false ∧ startsWith (a.node j) (a.node i) = false := by
    have pair := List.pairwise_iff_getElem.mp unlike i j (Nat.lt_trans less inside) inside less
    rwa [node_at,node_at] at pair
  -- Both nodes begin the key, so one of them begins the other.
  have first : (a.node i).toList <+: key.toList := List.isPrefixOf_iff_prefix.mp starts
  have second : (a.node j).toList <+: key.toList :=
    List.isPrefixOf_iff_prefix.mp (Memory.startsWith_below (sound.below_node member))
  have alike : startsWith (a.node i) (a.node j) = true ∨ startsWith (a.node j) (a.node i) = true :=
    (List.prefix_or_prefix_of_prefix first second).imp List.isPrefixOf_iff_prefix.mpr List.isPrefixOf_iff_prefix.mpr
  rcases Nat.lt_or_gt_of_ne other with less | less
  · simp [differ less known'] at alike
  · simp [differ less known] at alike

/-! ### The steps of a cycle -/

/-- A step of churn and the slots after it. -/
inductive Stepped (a : LevelChurn) : Step → Slots → Prop
  | delete {i : Nat} (deleting : a.slots.deleting = true) (known : i < a.prefixes.size) (present : i ∉ a.slots.held) :
      Stepped a (.send (.delete (a.node i) true)) (a.slots.fill i)
  | rebuild {i : Nat} {rest : List Nat} (recreating : a.slots.deleting = false) (first : a.slots.held = i :: rest) :
      Stepped a (.build (a.subtree (a.node i))) (a.slots.clear i)

theorem Sound.next (sound : a.Sound) (g : σ) :
    ∃ step s g', (Activity.level a).next g = .ok ((step,.level { a with slots := s }),g') ∧ a.Stepped step s := by
  cases phase : a.slots.deleting with
  | true =>
    obtain ⟨i,g',drawn,known,present⟩ := Slots.next_filling sound.slots phase g
    exact ⟨_,_,g',Draw.bind_run drawn,.delete phase (sound.known ▸ known) present⟩
  | false =>
    obtain ⟨i,rest,first,drawn⟩ := Slots.next_emptying sound.slots phase g
    exact ⟨_,_,g,Draw.bind_run drawn,.rebuild phase first⟩

theorem Stepped.after {step : Step} {s : Slots} (stepped : a.Stepped step s) (sound : a.Sound) :
    Sound { a with slots := s } ∧ s.size = a.slots.size ∧ s.place = (a.slots.place + 1) % (2 * a.slots.size) := by
  cases stepped with
  | @delete i deleting known present =>
    have slots := (Slots.fill_sound sound.slots deleting (sound.known ▸ known) present).1
    exact ⟨sound.withSlots slots (Slots.fill_prefixes ..),Slots.fill_size ..,Slots.fill_place sound.slots deleting i⟩
  | @rebuild i rest recreating first =>
    have slots := (Slots.clear_sound sound.slots recreating first).1
    exact ⟨sound.withSlots slots (Slots.clear_prefixes ..),Slots.clear_size ..,
      Slots.clear_place sound.slots recreating i⟩

/-- A step puts loaded keys only. -/
theorem Stepped.puts_loaded {step : Step} {s : Slots} (stepped : a.Stepped step s) (sound : a.Sound) {g g' : σ}
    {ops : List Operation} (sent : Activity.sends a.pattern.levels step g = .ok (ops,g')) {op : Operation}
    (member : op ∈ ops) (puts : op.kind = .put) : op.key ∈ texts Level.nameAt a.pattern.levels "" := by
  cases stepped with
  | delete =>
    cases sent
    rw [List.mem_singleton.mp member] at puts
    cases puts
  | @rebuild i rest recreating first =>
    have known : i < a.prefixes.size := by
      rw [← sound.known]
      exact sound.slots.known i (by rw [first]; exact List.mem_cons_self)
    rw [sends_subtree] at sent
    obtain ⟨es,walked,rfl⟩ := Draw.map_ok sent
    obtain ⟨e,entry,rfl⟩ := List.mem_map.mp member
    refine (sound.mem_loaded _).mpr ⟨i,known,?_⟩
    exact sound.walk_subtree walked ▸ List.mem_map_of_mem entry

/-! ### What is sent -/

/-- After a number of steps, the churn stands in its cycle where their number says, and has put loaded keys only. -/
theorem sent_steps (sound : a.Sound) {n : Nat} {g g' : σ} {ops : List Operation} {b : Activity}
    (sent : (Activity.level a).sendAll n g = .ok ((ops,b),g')) :
    ∃ s, b = .level { a with slots := s } ∧ Sound { a with slots := s } ∧ s.size = a.slots.size ∧
      s.place = (a.slots.place + n) % (2 * a.slots.size) ∧
      ∀ op ∈ ops, op.kind = .put → op.key ∈ texts Level.nameAt a.pattern.levels "" := by
  induction n generalizing b g' ops with
  | zero =>
    cases sent
    exact ⟨a.slots,rfl,sound,rfl,(Nat.mod_eq_of_lt (Slots.place_lt sound.slots)).symm,by simp⟩
  | succ n ih =>
    obtain ⟨⟨before,c⟩,h₁,first,sent⟩ := Draw.bind_ok sent
    obtain ⟨⟨step,d⟩,h₂,begun,sent⟩ := Draw.bind_ok sent
    obtain ⟨more,h₃,sends,sent⟩ := Draw.bind_ok sent
    cases sent
    obtain ⟨s,rfl,sound₁,size,place,own⟩ := ih first
    obtain ⟨step',t,h',begun',stepped⟩ := sound₁.next h₁
    cases begun.symm.trans begun'
    obtain ⟨sound₂,size₂,place₂⟩ := stepped.after sound₁
    refine ⟨t,rfl,sound₂,size₂.trans size,?_,fun op member puts => ?_⟩
    · rw [place₂,size,place,Nat.mod_add_mod,Nat.add_assoc]
    · rcases List.mem_append.mp member with old | new
      · exact own op old puts
      · exact stepped.puts_loaded sound₁ sends new puts

/-- After whole cycles, the churn does not go on by building a subtree. -/
theorem cycles_end (sound : a.Sound) (start : a.slots.place = 0) {n : Nat} (whole : 2 * a.slots.size ∣ n) {g g' : σ}
    {ops : List Operation} {b c : Activity} (sent : (Activity.level a).sendAll n g = .ok ((ops,b),g')) {h : σ}
    {subtree : Cursor} (begun : b.next g' = .ok ((.build subtree,c),h)) : False := by
  obtain ⟨s,rfl,sound₁,size,place,-⟩ := sent_steps sound sent
  obtain ⟨step,t,h',begun',stepped⟩ := sound₁.next g'
  cases begun.symm.trans begun'
  rw [start,Nat.zero_add,Nat.mod_eq_zero_of_dvd whole] at place
  have inside : s.cursor < s.size := sound₁.slots.inside
  generalize same : Step.build subtree = step at stepped
  cases stepped with
  | delete => cases same
  | rebuild recreating =>
    have recreating : s.deleting = false := recreating
    simp only [Slots.place,recreating,Bool.false_eq_true,if_false] at place
    omega

/-- Carried out in the order in which they were sent, the operations of whole cycles leave the loaded keys. -/
theorem sent_cycles (sound : a.Sound) (start : a.slots.place = 0) (apart : a.Apart) (rebuilds : a.Rebuilds) {n : Nat}
    (whole : 2 * a.slots.size ∣ n) {g g' : σ} {ops : List Operation} {b : Activity}
    (sent : (Activity.level a).sendAll n g = .ok ((ops,b),g')) {m : Memory} (prompt : m.failing = 0)
    (full : m.HasKeys (texts Level.nameAt a.pattern.levels "")) :
    (m.executeAll ops).HasKeys (texts Level.nameAt a.pattern.levels "") := by
  have carried := Activity.carryAll_sent sent m
  rcases preserves_of_apart sound start apart rebuilds σ g m prompt full n with ⟨s,m',h,run,-,kept⟩ | ⟨f,stopped,-⟩
  · cases carried.symm.trans run
    exact kept whole
  · cases carried.symm.trans stopped

end Keyload.Churn.LevelChurn
