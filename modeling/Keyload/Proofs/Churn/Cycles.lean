import Keyload.Proofs.Churn.Slots
import Keyload.Random.Xoshiro

/-!
The slots from beginning to end, whatever is drawn. The slots, the missing subtrees, the cursor and the phase tell the
same story in every state, so a step always finds a subtree to delete or to bring back, and the steps are whole cycles
and the beginning of one more (`share_cycles`).
-/
namespace Keyload.Churn.Slots
open Draw (Reads Tape)

/-- The slots get from `first` to a state by these steps, each of them drawn from a source of its own. -/
inductive Traced (first : Slots) : List (Option SlotStep) → Slots → Prop where
  | start : Traced first [] first
  | step {trace : List (Option SlotStep)} {s next : Slots} {step : Option SlotStep} {σ : Type} [RandomSource σ]
      {g g' : σ} : Traced first trace s → s.next g = .ok ((step,next),g') → Traced first (trace ++ [step]) next

/-- The subtrees `is` are deleted, and come back in the same order. -/
def cycle (is : List Nat) : List SlotStep := is.map .delete ++ is.map .recreate

/-- The parts of the state agree on what is missing. -/
structure InStep (s : Slots) : Prop where
  same : s.missing.Perm s.held
  distinct : s.missing.Nodup
  known : ∀ i ∈ s.missing, i < s.prefixes
  filled : ∀ k < s.size, (∃ i, s.slots[k]? = some (some i)) ↔ if s.deleting then k < s.cursor else s.cursor ≤ k
  few : s.outstanding ≤ s.size

/-- A step is always possible, and so is every choice of what it deletes. -/
structure GoesOn (s : Slots) : Prop where
  answers : ∀ (σ : Type) [RandomSource σ] (g : σ),
    ∃ step next g', s.next g = .ok ((step,next),g') ∧ (step = none ↔ s.size = 0)
  free : s.deleting = true → 0 < s.prefixes → ∃ i < s.prefixes, i ∉ s.missing
  /-- The first candidate that is not missing is deleted, and any candidate can come up. -/
  chooses : s.deleting = true → s.size ≠ 0 → ∀ i < s.prefixes, i ∉ s.missing → ∀ rejected : List Nat,
    (∀ j ∈ rejected, j ∈ s.missing) → rejected.length < patience s.prefixes →
      ∃ ws, ws.length = rejected.length + 1 ∧ Reads (s.next : Draw Tape _) ws (some (.delete i),s.fill i)

/-! ### One state -/

section
variable {s : Slots}

theorem Sound.inStep (sound : Sound s) : s.InStep := by
  have inside := sound.inside
  constructor
  case same => exact sound.same
  case distinct => exact sound.same.nodup_iff.mpr sound.distinct
  case known => exact fun i member => sound.known i (sound.same.mem_iff.mp member)
  case filled =>
    intro k known
    cases phase : s.deleting with
    | true =>
      have count := sound.cursor_of_filling phase
      rw [sound.filling phase,if_pos rfl]
      by_cases before : k < s.held.length
      · rw [List.getElem?_append_left (by simpa using before)]
        simp [before,count]
      · rw [List.getElem?_append_right (by simpa using before)]
        simp [before,count,List.getElem?_replicate]
    | false =>
      have count := sound.cursor_of_emptying phase
      rw [sound.emptying phase,if_neg Bool.false_ne_true]
      by_cases before : k < s.cursor
      · rw [List.getElem?_append_left (by simpa using before)]
        simp [before]
      · rw [List.getElem?_append_right (by simpa using before)]
        have after : k - s.cursor < s.held.length := by omega
        simp [after,Nat.not_lt.mp before]
  case few =>
    have count := sound.same.length_eq
    show s.missing.length ≤ s.size
    cases phase : s.deleting with
    | true =>
      have := sound.cursor_of_filling phase
      omega
    | false =>
      have := sound.cursor_of_emptying phase
      omega

/-- Candidates that are missing are drawn again until one is not. -/
private theorem choose_reads {prefixes : Nat} {missing : List Nat} (fits : prefixes ≤ Word.limit) {i : Nat}
    (inside : i < prefixes) (present : i ∉ missing) {rejected : List Nat} (gone : ∀ j ∈ rejected, j ∈ missing)
    (known : ∀ j ∈ missing, j < prefixes) {tries : Nat} (enough : rejected.length < tries) :
    ∃ ws, ws.length = rejected.length + 1 ∧ Reads (choose prefixes missing tries : Draw Tape _) ws i := by
  induction rejected generalizing tries with
  | nil =>
    obtain ⟨tries,rfl⟩ := Nat.exists_eq_add_of_lt enough
    obtain ⟨w,reads⟩ := Uniform.below_reads inside fits
    refine ⟨[w],rfl,fun rest => ?_⟩
    rw [List.length_nil,Nat.zero_add,choose,Draw.bind_run (reads rest),if_neg (by simpa using present)]
    rfl
  | cons j rejected ih =>
    rw [List.length_cons] at enough
    obtain ⟨tries,rfl⟩ := Nat.exists_eq_add_of_lt enough
    have member : j ∈ missing := gone j List.mem_cons_self
    obtain ⟨w,reads⟩ := Uniform.below_reads (known j member) fits
    have enough : rejected.length < rejected.length + 1 + tries := by omega
    obtain ⟨ws,count,later⟩ := ih (fun k at_k => gone k (List.mem_cons_of_mem j at_k)) enough
    refine ⟨w :: ws,by rw [List.length_cons,count,List.length_cons],fun rest => ?_⟩
    have again : (choose prefixes missing (rejected.length + 1 + tries + 1) : Draw Tape _) ([w] ++ₛ (ws ++ₛ rest)) =
        choose prefixes missing (rejected.length + 1 + tries) (ws ++ₛ rest) := by
      rw [choose,Draw.bind_run (reads _),if_pos (by simpa using member)]
    exact again.trans (later rest)

theorem Sound.goesOn (sound : Sound s) (fits : s.prefixes ≤ Word.limit) : s.GoesOn := by
  have some_slot : s.size ≠ 0 := Nat.ne_zero_of_lt sound.inside
  constructor
  case answers =>
    intro σ _ g
    cases phase : s.deleting with
    | true =>
      obtain ⟨i,g',drawn,-⟩ := next_filling sound phase g
      exact ⟨_,_,g',drawn,by simp [some_slot]⟩
    | false =>
      obtain ⟨i,rest,-,drawn⟩ := next_emptying sound phase g
      exact ⟨_,_,g,drawn,by simp [some_slot]⟩
  case free =>
    intro phase _
    exact some_present (sound.missing_short phase)
  case chooses =>
    intro phase _ i inside present rejected gone enough
    obtain ⟨ws,count,reads⟩ := choose_reads fits inside present gone sound.inStep.known enough
    refine ⟨ws,count,fun rest => ?_⟩
    rw [next,if_neg (by simp [sound.slots_ne_nil]),if_pos phase,Draw.bind_run (reads rest)]
    rfl

end

/-! ### The steps since the last whole cycle -/

/-- The steps of the cycle that is under way. -/
inductive Partway (s : Slots) : List SlotStep → Prop where
  | deleting (phase : s.deleting = true) : Partway s (s.held.map .delete)
  /-- The subtrees `back` have come back already. -/
  | recreating {back : List Nat} (phase : s.deleting = false) (count : back.length = s.cursor)
      (distinct : (back ++ s.held).Nodup) (known : ∀ i ∈ back, i < s.prefixes) :
      Partway s ((back ++ s.held).map .delete ++ back.map .recreate)

/-- Whole cycles of `n` subtrees each. -/
def Whole (prefixes n : Nat) (blocks : List (List Nat)) : Prop :=
  ∀ is ∈ blocks, is.length = n ∧ is.Nodup ∧ ∀ i ∈ is, i < prefixes

/-- Subtrees that are not missing, as many as are wanted. -/
private theorem exists_more {prefixes : Nat} {is : List Nat} (distinct : is.Nodup) (known : ∀ i ∈ is, i < prefixes)
    {n : Nat} (room : is.length + n ≤ prefixes) :
    ∃ more : List Nat, more.length = n ∧ (is ++ more).Nodup ∧ ∀ i ∈ is ++ more, i < prefixes := by
  induction n with
  | zero => exact ⟨[],rfl,by simpa using distinct,by simpa using known⟩
  | succ n ih =>
    obtain ⟨more,count,apart,inside⟩ := ih (by omega)
    have short : (is ++ more).length < prefixes := by
      rw [List.length_append]
      omega
    obtain ⟨i,less,fresh⟩ := some_present short
    refine ⟨more ++ [i],by rw [List.length_append,count]; rfl,?_,?_⟩
    · rw [← List.append_assoc,List.nodup_append]
      refine ⟨apart,List.pairwise_singleton _ i,?_⟩
      intro j old k new
      rw [List.mem_singleton.mp new]
      rintro rfl
      exact fresh old
    · intro j member
      rw [← List.append_assoc] at member
      rcases List.mem_append.mp member with old | new
      · exact inside j old
      · rw [List.mem_singleton.mp new]
        exact less

section
variable {s : Slots}

/-- What was done of a cycle is the beginning of one. -/
theorem Partway.begins {part : List SlotStep} (partway : Partway s part) (sound : Sound s) :
    ∃ is, Whole s.prefixes s.size [is] ∧ part <+: cycle is := by
  have room := sound.room
  have inside := sound.inside
  cases partway with
  | deleting phase =>
    have count := sound.cursor_of_filling phase
    obtain ⟨more,length,distinct,known⟩ := exists_more sound.distinct sound.known (n := s.size - s.cursor) (by omega)
    refine ⟨s.held ++ more,?_,?_⟩
    · rintro is (_ | ⟨_,⟨⟩⟩)
      refine ⟨?_,distinct,known⟩
      rw [List.length_append]
      omega
    · rw [cycle,List.map_append,List.append_assoc]
      exact List.prefix_append _ _
  | @recreating back phase count distinct known =>
    have left := sound.cursor_of_emptying phase
    refine ⟨back ++ s.held,?_,?_⟩
    · rintro is (_ | ⟨_,⟨⟩⟩)
      refine ⟨?_,distinct,?_⟩
      · rw [List.length_append]
        omega
      · intro i member
        rcases List.mem_append.mp member with old | new
        · exact known i old
        · exact sound.known i new
    · rw [cycle,List.map_append (f := SlotStep.recreate),← List.append_assoc]
      exact List.prefix_append _ _

private theorem fill_phase (phase : s.deleting = true) (i : Nat) :
    (s.fill i).deleting = true ∨ (s.fill i).deleting = false ∧ (s.fill i).cursor = 0 := by
  unfold fill turn
  split
  · exact .inr ⟨by simp [phase],rfl⟩
  · exact .inl phase

private theorem clear_phase (phase : s.deleting = false) (i : Nat) :
    (s.clear i).deleting = true ∧ (s.clear i).cursor = 0 ∨
      (s.clear i).deleting = false ∧ (s.clear i).cursor = s.cursor + 1 := by
  unfold clear turn
  split
  · exact .inl ⟨by simp [phase],rfl⟩
  · exact .inr ⟨phase,rfl⟩

theorem Partway.fill {part : List SlotStep} (partway : Partway s part) (sound : Sound s) (phase : s.deleting = true)
    {i : Nat} (known : i < s.prefixes) (present : i ∉ s.held) : Partway (s.fill i) (part ++ [.delete i]) := by
  cases partway with
  | recreating emptying =>
    rw [phase] at emptying
    cases emptying
  | deleting =>
    obtain ⟨after,held⟩ := fill_sound sound phase known present
    have steps : s.held.map SlotStep.delete ++ [.delete i] = (s.fill i).held.map .delete := by
      rw [held,List.map_append]
      rfl
    rw [steps]
    rcases fill_phase phase i with still | ⟨turned,first⟩
    · exact .deleting still
    · have begins : Partway (s.fill i) (([] ++ (s.fill i).held).map .delete ++ [].map .recreate) :=
        .recreating turned first.symm after.distinct (by simp)
      simpa using begins

/-- The subtree that comes back either leaves the cycle under way or completes it. -/
theorem Partway.clear {part : List SlotStep} (partway : Partway s part) (sound : Sound s) (phase : s.deleting = false)
    {i : Nat} {rest : List Nat} (first : s.held = i :: rest) :
    Partway (s.clear i) (part ++ [.recreate i]) ∨
      ∃ is, Whole s.prefixes s.size [is] ∧ part ++ [.recreate i] = cycle is ∧ Partway (s.clear i) [] := by
  cases partway with
  | deleting filling =>
    rw [phase] at filling
    cases filling
  | @recreating back _ count distinct known =>
    obtain ⟨after,held⟩ := clear_sound sound phase first
    have left := sound.cursor_of_emptying phase
    have one_more : ∀ j ∈ back ++ [i], j < s.prefixes := by
      intro j member
      rcases List.mem_append.mp member with old | new
      · exact known j old
      · rw [List.mem_singleton.mp new]
        exact sound.known i (by rw [first]; exact List.mem_cons_self)
    have steps : (back ++ s.held).map SlotStep.delete ++ back.map .recreate ++ [.recreate i] =
        (back ++ [i] ++ rest).map .delete ++ (back ++ [i]).map .recreate := by
      rw [first,List.append_cons back i rest]
      simp
    rw [first,List.append_cons back i rest] at distinct
    rw [steps]
    rcases clear_phase phase i with ⟨turned,back_to_start⟩ | ⟨still,next⟩
    · -- the phase has turned, so the subtree that comes back is the last
      have none_left : rest = [] := by
        rw [← held,← List.length_eq_zero_iff,← after.cursor_of_filling turned,back_to_start]
      subst none_left
      rw [List.append_nil] at distinct ⊢
      refine .inr ⟨back ++ [i],?_,rfl,?_⟩
      · rintro is (_ | ⟨_,⟨⟩⟩)
        refine ⟨?_,distinct,one_more⟩
        rw [first] at left
        simp only [List.length_append,List.length_singleton] at left ⊢
        omega
      · have begins := Partway.deleting (s := s.clear i) turned
        rwa [held] at begins
    · rw [← held] at distinct ⊢
      refine .inl (.recreating still ?_ distinct ?_)
      · rw [List.length_append,count,next]
        rfl
      · rw [clear_prefixes]
        exact one_more

end

/-! ### Every run -/

/-- What holds of the steps taken so far and of the slots after them. -/
structure Cyclic (prefixes n : Nat) (steps : List SlotStep) (s : Slots) : Prop where
  sound : Sound s
  prefixes_eq : s.prefixes = prefixes
  size_eq : s.size = n
  steps_eq : ∃ blocks part, Whole prefixes n blocks ∧ Partway s part ∧ steps = blocks.flatMap cycle ++ part

theorem Cyclic.next {prefixes n : Nat} {steps : List SlotStep} {s next : Slots} (cyclic : Cyclic prefixes n steps s)
    {σ : Type} [RandomSource σ] {g g' : σ} {step : Option SlotStep} (run : s.next g = .ok ((step,next),g')) :
    ∃ taken, step = some taken ∧ Cyclic prefixes n (steps ++ [taken]) next := by
  obtain ⟨sound,rfl,rfl,blocks,part,whole,partway,rfl⟩ := cyclic
  cases phase : s.deleting with
  | true =>
    obtain ⟨i,h,drawn,known,present⟩ := next_filling sound phase g
    cases drawn.symm.trans run
    refine ⟨_,rfl,(fill_sound sound phase known present).1,fill_prefixes s i,fill_size s i,blocks,_,whole,
      partway.fill sound phase known present,?_⟩
    rw [List.append_assoc]
  | false =>
    obtain ⟨i,rest,first,drawn⟩ := next_emptying sound phase g
    cases drawn.symm.trans run
    refine ⟨_,rfl,(clear_sound sound phase first).1,clear_prefixes s i,clear_size s i,?_⟩
    rcases partway.clear sound phase first with still | ⟨is,one,complete,fresh⟩
    · exact ⟨blocks,_,whole,still,List.append_assoc _ _ _⟩
    · refine ⟨blocks ++ [is],[],?_,fresh,?_⟩
      · intro js member
        rcases List.mem_append.mp member with old | new
        · exact whole js old
        · exact one js new
      · rw [List.append_assoc,complete,List.flatMap_append]
        simp

theorem Cyclic.traced {prefixes n : Nat} {first s : Slots} {trace : List (Option SlotStep)}
    (begins : Cyclic prefixes n [] first) (traced : Traced first trace s) :
    Cyclic prefixes n (trace.filterMap id) s := by
  induction traced with
  | start => exact begins
  | step _ run ih =>
    obtain ⟨taken,rfl,cyclic⟩ := ih.next run
    rw [List.filterMap_append]
    exact cyclic

/-- What was done are whole cycles and the beginning of another. -/
theorem Cyclic.begins {prefixes n : Nat} {steps : List SlotStep} {s : Slots} (cyclic : Cyclic prefixes n steps s) :
    ∃ blocks, Whole prefixes n blocks ∧ steps <+: blocks.flatMap cycle := by
  obtain ⟨sound,rfl,rfl,blocks,part,whole,partway,rfl⟩ := cyclic
  obtain ⟨is,one,begun⟩ := partway.begins sound
  refine ⟨blocks ++ [is],fun js member => ?_,?_⟩
  · rcases List.mem_append.mp member with old | new
    · exact whole js old
    · exact one js new
  · rw [List.flatMap_append]
    exact List.prefix_append_right_inj _ |>.mpr (by simpa using begun)

/-- Without slots nothing is ever asked for. -/
theorem traced_empty {first s : Slots} {trace : List (Option SlotStep)} (empty : first.slots = [])
    (traced : Traced first trace s) : s = first ∧ trace.filterMap id = [] := by
  induction traced with
  | start => exact ⟨rfl,rfl⟩
  | @step trace s next step σ _ g g' _ run ih =>
    obtain ⟨rfl,nothing⟩ := ih
    rw [Slots.next,if_pos (by simp [empty])] at run
    cases run
    exact ⟨rfl,by rw [List.filterMap_append,nothing]; rfl⟩

/-- The slots for a share of the subtrees: their number, rounded down but for a share that would get none. -/
theorem new_size {prefixes pct : Nat} (fits : prefixes * pct < Word.limit) :
    Slots.new prefixes pct = .ok ⟨prefixes,List.replicate
      (if min (prefixes * pct / 100) prefixes = 0 ∧ 0 < prefixes ∧ 0 < pct then 1 else min (prefixes * pct / 100) prefixes)
      none,[],0,true⟩ := by
  have product : Word.mul prefixes pct = .ok (prefixes * pct) := Word.fit_eq_ok_iff.mpr ⟨fits,rfl⟩
  unfold Slots.new share
  rw [product]
  rfl

theorem new_bounds {prefixes pct : Nat} {first : Slots} (fits : prefixes * pct < Word.limit)
    (made : Slots.new prefixes pct = .ok first) : first.size ≤ (prefixes * pct + 99) / 100 ∧ first.size ≤ prefixes ∧
      (first.size = 0 ↔ prefixes = 0 ∨ pct = 0) := by
  cases (new_size fits).symm.trans made
  simp only [size,List.length_replicate]
  refine ⟨?_,by split <;> omega,?_⟩
  · split
    · rename_i one
      have : prefixes * 1 ≤ prefixes * pct := Nat.mul_le_mul_left _ one.2.2
      omega
    · omega
  · rcases Nat.eq_zero_or_pos prefixes with rfl | stocked
    · simp
    rcases Nat.eq_zero_or_pos pct with rfl | shared
    · simp
    split <;> omega

theorem new_cyclic {prefixes pct : Nat} {first : Slots} (fits : prefixes * pct < Word.limit) (stocked : prefixes ≠ 0)
    (shared : pct ≠ 0) (made : Slots.new prefixes pct = .ok first) : Cyclic prefixes first.size [] first := by
  obtain ⟨sound,known,whole,-⟩ := new_sound (Nat.pos_of_ne_zero stocked) (Nat.pos_of_ne_zero shared) made
  have deleting : first.deleting = true := by
    cases (new_size fits).symm.trans made
    rfl
  have begins := Partway.deleting deleting
  rw [held_of_place sound whole] at begins
  exact ⟨sound,known,rfl,[],[],by simp [Whole],begins,rfl⟩

theorem new_empty {prefixes pct : Nat} (empty : prefixes = 0 ∨ pct = 0) :
    Slots.new prefixes pct = .ok ⟨prefixes,[],[],0,true⟩ := by
  have fits : prefixes * pct < Word.limit := by
    rw [Nat.mul_eq_zero.mpr empty]
    decide
  have none_wanted : min (prefixes * pct / 100) prefixes = 0 := by rw [Nat.mul_eq_zero.mpr empty]; simp
  rw [new_size fits,if_neg (by omega),none_wanted]
  rfl

theorem empty_inStep (prefixes : Nat) : InStep ⟨prefixes,[],[],0,true⟩ :=
  ⟨.refl _,List.nodup_nil,by simp,by simp [size],Nat.le_refl _⟩

theorem empty_goesOn (prefixes : Nat) : GoesOn ⟨prefixes,[],[],0,true⟩ := by
  constructor
  case answers => exact fun σ _ g => ⟨none,_,g,rfl,by simp [size]⟩
  case free => exact fun _ stocked => ⟨0,stocked,by simp⟩
  case chooses => exact fun _ some_slot => absurd rfl some_slot

/-- The slots of every share, through every run: their number; what they, the missing subtrees, the cursor and the phase
say of each other; that a step is always possible; and that the steps are the beginning of a row of cycles. -/
theorem share_cycles {prefixes pct : Nat} (fits : prefixes * pct < Word.limit) :
    ∃ first, Slots.new prefixes pct = .ok first ∧ first.size ≤ (prefixes * pct + 99) / 100 ∧
      first.size ≤ prefixes ∧ (first.size = 0 ↔ prefixes = 0 ∨ pct = 0) ∧
      ∀ trace s, Traced first trace s → s.size = first.size ∧ s.prefixes = prefixes ∧ s.InStep ∧ s.GoesOn ∧
        ∃ blocks, Whole prefixes first.size blocks ∧ trace.filterMap id <+: blocks.flatMap cycle := by
  obtain ⟨first,made⟩ : ∃ first, Slots.new prefixes pct = .ok first := ⟨_,new_size fits⟩
  obtain ⟨share,few,none_iff⟩ := new_bounds fits made
  refine ⟨first,made,share,few,none_iff,fun trace s traced => ?_⟩
  by_cases empty : prefixes = 0 ∨ pct = 0
  · cases (new_empty empty).symm.trans made
    obtain ⟨rfl,nothing⟩ := traced_empty rfl traced
    refine ⟨rfl,rfl,empty_inStep prefixes,empty_goesOn prefixes,[],by simp [Whole],?_⟩
    rw [nothing]
    exact List.prefix_rfl
  · obtain ⟨stocked,shared⟩ := not_or.mp empty
    obtain ⟨sound,known,same,begins⟩ := Cyclic.traced (new_cyclic fits stocked shared made) traced
    have narrow : prefixes ≤ prefixes * pct := Nat.le_mul_of_pos_right _ (Nat.pos_of_ne_zero shared)
    have word : s.prefixes ≤ Word.limit := known ▸ Nat.le_trans narrow (Nat.le_of_lt fits)
    exact ⟨same,known,sound.inStep,sound.goesOn word,Cyclic.begins ⟨sound,known,same,begins⟩⟩

/-- A third of seven subtrees, rounded down, through a cycle and the beginning of another. -/
theorem share_cycles_seven : 7 * 33 < Word.limit ∧ ∃ first, Slots.new 7 33 = .ok first ∧ first.size = 2 ∧
    ∃ trace s, Traced first trace s ∧ trace.length = 5 ∧ s.InStep ∧ s.GoesOn ∧
      ∃ blocks, Whole 7 2 blocks ∧ trace.filterMap id <+: blocks.flatMap cycle := by
  have fits : 7 * 33 < Word.limit := by decide
  obtain ⟨first,made,-,-,-,sound⟩ := share_cycles fits
  cases (show Slots.new 7 33 = .ok ⟨7,[none,none],[],0,true⟩ from rfl).symm.trans made
  let g := Xoshiro.ofSeed 42
  have deletes : next ⟨7,[none,none],[],0,true⟩ g = .ok ((some (.delete 1),⟨7,[some 1,none],[1],1,true⟩),g.next.2) := by
    decide +kernel
  have deletes_another : next ⟨7,[some 1,none],[1],1,true⟩ g =
      .ok ((some (.delete 2),⟨7,[some 1,some 2],[2,1],0,false⟩),g.next.2.next.2) := by
    decide +kernel
  have back : next ⟨7,[some 1,some 2],[2,1],0,false⟩ g =
      .ok ((some (.recreate 1),⟨7,[none,some 2],[2],1,false⟩),g) := rfl
  have all_back : next ⟨7,[none,some 2],[2],1,false⟩ g = .ok ((some (.recreate 2),⟨7,[none,none],[],0,true⟩),g) := rfl
  have traced := Traced.start.step deletes |>.step deletes_another |>.step back |>.step all_back |>.step deletes
  obtain ⟨-,-,inStep,goesOn,cycles⟩ := sound _ _ traced
  exact ⟨fits,_,made,rfl,_,_,traced,rfl,inStep,goesOn,cycles⟩

end Keyload.Churn.Slots
