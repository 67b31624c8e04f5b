import Keyload.KeySpace.Basic
import Keyload.Proofs.Random.Library

/-!
Enumeration as nested loops. A cursor keeps a stack of open nodes; `walk` is the depth-first recursion over the
levels that the stack stands for. Both make the same draws in the same order, from every source and for every list
of levels, so what is shown of the recursion holds of the cursor, and of the bounded enumeration over it.
-/
namespace Keyload
open Pattern (Level)
open Draw (Scripted scripted_pure)

namespace Cursor

variable {σ : Type} [RandomSource σ]

/-- What `f` yields for `n` numbers from `i` on, one after the other. -/
def each {α : Type} (f : Nat → Draw σ (List α)) : Nat → Nat → Draw σ (List α)
  | 0, _ => pure []
  | n + 1, i => do
    let as ← f i
    let bs ← each f n (i + 1)
    pure (as ++ bs)

/-- The entries at and below one instance of a level. -/
def visit (stop : Option Nat) (l : Level) (k : Nat) (deeper : String → Draw σ (List Entry)) (base : String)
    (i : Nat) : Draw σ (List Entry) := do
  let name ← l.instanceName i
  let key := base ++ "/" ++ name
  if stop = some k then pure [⟨k,key,none⟩]
  else if l.isLeaf then do
    let value ← l.drawValue
    pure [⟨k,key,some value⟩]
  else deeper key

/-- The entries below `base`, whose children stand at the first of the levels, which has the number `k`. -/
def walk (stop : Option Nat) : List Level → Nat → String → Draw σ (List Entry)
  | [], _, _ => pure []
  | l :: below, k, base => each (visit stop l k (walk stop below (k + 1)) base) l.count 0

/-- The entries that an open node still has. -/
def frameWalk (levels : List Level) (stop : Option Nat) (f : Frame) : Draw σ (List Entry) :=
  match levels.drop f.level with
  | [] => pure []
  | l :: below => each (visit stop l f.level (walk stop below (f.level + 1)) f.base) (l.count - f.next) f.next

/-- The entries that a stack of open nodes still has. -/
def stackWalk (levels : List Level) (stop : Option Nat) : List Frame → Draw σ (List Entry)
  | [] => pure []
  | f :: rest => do
    let as ← frameWalk levels stop f
    let bs ← stackWalk levels stop rest
    pure (as ++ bs)

/-! ### One entry at a time -/

/-- The next entry that a stack yields, and then the others. -/
def unrolled (levels : List Level) (stop : Option Nat) (stack : List Frame) : Draw σ (List Entry) := do
  let (entry, after) ← advanceStack levels stop stack
  match entry with
  | none => pure []
  | some e => do
    let es ← stackWalk levels stop after
    pure (e :: es)

private theorem frameWalk_beyond {levels : List Level} {stop : Option Nat} {f : Frame}
    (beyond : levels[f.level]? = none) : (frameWalk levels stop f : Draw σ _) = pure [] := by
  have empty : levels.drop f.level = [] := List.drop_eq_nil_iff.mpr (List.getElem?_eq_none_iff.mp beyond)
  simp [frameWalk,empty]

private theorem frameWalk_at {levels : List Level} {stop : Option Nat} {f : Frame} {l : Level}
    (at_f : levels[f.level]? = some l) :
    (frameWalk levels stop f : Draw σ _) =
      each (visit stop l f.level (walk stop (levels.drop (f.level + 1)) (f.level + 1)) f.base)
        (l.count - f.next) f.next := by
  obtain ⟨inside,rfl⟩ := List.getElem?_eq_some_iff.mp at_f
  rw [frameWalk,List.drop_eq_getElem_cons inside]

private theorem frameWalk_spent {levels : List Level} {stop : Option Nat} {f : Frame} {l : Level}
    (at_f : levels[f.level]? = some l) (spent : ¬ f.next < l.count) :
    (frameWalk levels stop f : Draw σ _) = pure [] := by
  rw [frameWalk_at at_f,show l.count - f.next = 0 by omega,each]

private theorem frameWalk_next {levels : List Level} {stop : Option Nat} {f : Frame} {l : Level}
    (at_f : levels[f.level]? = some l) (more : f.next < l.count) :
    (frameWalk levels stop f : Draw σ _) = (do
      let as ← visit stop l f.level (walk stop (levels.drop (f.level + 1)) (f.level + 1)) f.base f.next
      let bs ← frameWalk levels stop { f with next := f.next + 1 }
      pure (as ++ bs)) := by
  have next : levels[({ f with next := f.next + 1 } : Frame).level]? = some l := at_f
  rw [frameWalk_at at_f,frameWalk_at next,show l.count - f.next = (l.count - (f.next + 1)) + 1 by omega,each]

private theorem frameWalk_child (levels : List Level) (stop : Option Nat) (k : Nat) (key : String) :
    (frameWalk levels stop ⟨k,0,key⟩ : Draw σ _) = walk stop (levels.drop k) k key := by
  simp only [frameWalk]
  cases levels.drop k with
  | nil => rfl
  | cons l below => simp [walk]

theorem advanceStack_beyond {levels : List Level} {stop : Option Nat} {f : Frame} (rest : List Frame)
    (beyond : levels[f.level]? = none) :
    (advanceStack levels stop (f :: rest) : Draw σ _) = advanceStack levels stop rest := by
  rw [advanceStack]
  split
  · rfl
  · rename_i at_f
    rw [beyond] at at_f
    cases at_f

theorem advanceStack_spent {levels : List Level} {stop : Option Nat} {f : Frame} {l : Level}
    (rest : List Frame) (at_f : levels[f.level]? = some l) (spent : ¬ f.next < l.count) :
    (advanceStack levels stop (f :: rest) : Draw σ _) = advanceStack levels stop rest := by
  rw [advanceStack]
  split
  · rfl
  · rename_i l' at_f'
    cases at_f.symm.trans at_f'
    rw [dif_neg spent]

theorem advanceStack_next {levels : List Level} {stop : Option Nat} {f : Frame} {l : Level}
    (rest : List Frame) (at_f : levels[f.level]? = some l) (more : f.next < l.count) :
    (advanceStack levels stop (f :: rest) : Draw σ _) = (do
      let name ← l.instanceName f.next
      let key := f.base ++ "/" ++ name
      let after := { f with next := f.next + 1 } :: rest
      if stop = some f.level then pure (some ⟨f.level,key,none⟩,after)
      else if l.isLeaf then do
        let value ← l.drawValue
        pure (some ⟨f.level,key,some value⟩,after)
      else advanceStack levels stop (⟨f.level + 1,0,key⟩ :: after)) := by
  rw [advanceStack]
  split
  · rename_i none_f
    rw [at_f] at none_f
    cases none_f
  · rename_i l' at_f'
    cases at_f.symm.trans at_f'
    rw [dif_pos more]

theorem stackWalk_unrolled (levels : List Level) (stop : Option Nat) (stack : List Frame) :
    (stackWalk levels stop stack : Draw σ _) = unrolled levels stop stack := by
  induction stack using advanceStack.induct levels with
  | case1 => simp [stackWalk,unrolled,advanceStack]
  | case2 f rest beyond ih =>
    rw [stackWalk,frameWalk_beyond beyond,unrolled,advanceStack_beyond rest beyond]
    simpa [unrolled] using ih
  | case3 f rest l at_f more ih =>
    rw [stackWalk,frameWalk_next at_f more,unrolled,advanceStack_next rest at_f more]
    simp only [visit,bind_assoc]
    congr 1
    funext name
    by_cases stops : stop = some f.level
    · simp [stops,stackWalk]
    · by_cases leaf : l.isLeaf
      · simp [stops,leaf,stackWalk]
      · simpa [stops,leaf,unrolled,stackWalk,frameWalk_child,List.append_assoc,- bind_pure_comp] using ih name
  | case4 f rest l at_f spent ih =>
    rw [stackWalk,frameWalk_spent at_f spent,unrolled,advanceStack_spent rest at_f spent]
    simpa [unrolled] using ih

/-! ### All entries -/

theorem advanceStack_work (levels : List Level) (stop : Option Nat) (stack : List Frame) {g g' : σ}
    {e : Entry} {after : List Frame} (run : advanceStack levels stop stack g = .ok ((some e,after),g')) :
    work levels after < work levels stack := by
  induction stack using advanceStack.induct levels generalizing g with
  | case1 =>
    rw [advanceStack] at run
    cases run
  | case2 f rest beyond ih =>
    rw [advanceStack_beyond rest beyond] at run
    have := ih run
    rw [work_cons]
    omega
  | case3 f rest l at_f more ih =>
    rw [advanceStack_next rest at_f more] at run
    obtain ⟨name,h,-,run⟩ := Draw.bind_ok run
    have less := frameWork_child levels f l (f.base ++ "/" ++ name) at_f more
    by_cases stops : stop = some f.level
    · rw [if_pos stops] at run
      cases run
      simp only [work_cons]
      omega
    · rw [if_neg stops] at run
      by_cases leaf : l.isLeaf
      · rw [if_pos leaf] at run
        obtain ⟨value,h',-,run⟩ := Draw.bind_ok run
        cases run
        simp only [work_cons]
        omega
      · rw [if_neg leaf] at run
        have := ih name run
        simp only [work_cons] at this ⊢
        omega
  | case4 f rest l at_f spent ih =>
    rw [advanceStack_spent rest at_f spent] at run
    have := ih run
    rw [work_cons]
    omega

theorem stack_of_work {levels : List Level} {stack : List Frame} (spent : work levels stack = 0) : stack = [] := by
  cases stack with
  | nil => rfl
  | cons f rest =>
    have := frameWork_pos levels f
    rw [work_cons] at spent
    omega

/-- A cursor that may take as many entries as there are steps left takes all that the stack still has. -/
private theorem take_all (levels : List Level) (n : Nat) (c : Cursor) (es : Array Entry)
    (enough : work levels c.stack ≤ n) :
    (Prod.fst <$> take levels n c es : Draw σ _) =
      (fun as => es ++ as.toArray) <$> stackWalk levels c.stop c.stack := by
  induction n generalizing c es with
  | zero =>
    rw [stack_of_work (Nat.le_zero.mp enough)]
    simp [take,stackWalk]
  | succ n ih =>
    funext g
    rw [stackWalk_unrolled,unrolled,take,advance]
    simp only [Draw.map_apply,Draw.bind_apply]
    cases drawn : (advanceStack levels c.stop c.stack : Draw σ _) g with
    | error f => rfl
    | ok r =>
      obtain ⟨⟨entry,after⟩,h⟩ := r
      cases entry with
      | none =>
        show Except.ok (es,h) = .ok (es ++ #[],h)
        simp
      | some e =>
        have less := advanceStack_work levels c.stop c.stack drawn
        have tail := congrFun (ih { c with stack := after } (es.push e) (by simp only; omega)) h
        simp only [Draw.map_apply] at tail
        show (take levels n { c with stack := after } (es.push e) h).map _ = _
        rw [tail]
        show _ = Except.map _ ((stackWalk levels c.stop after h).bind fun r => .ok (e :: r.1,r.2))
        cases (stackWalk levels c.stop after : Draw σ _) h with
        | error f => rfl
        | ok r => simp [Except.map,Except.bind]

theorem rest_eq (levels : List Level) (c : Cursor) :
    (c.rest levels : Draw σ _) = List.toArray <$> stackWalk levels c.stop c.stack := by
  have all := take_all (σ := σ) levels _ c #[] (Nat.le_refl _)
  simp only [Array.empty_append] at all
  rw [← all,rest,← bind_pure_comp]

theorem stackWalk_below (levels : List Level) (stop : Option Nat) (base : String) (k : Nat) :
    (stackWalk levels stop (below base k stop).stack : Draw σ _) = walk stop (levels.drop k) k base := by
  simp [below,stackWalk,frameWalk_child]

/-! ### Scripts -/

theorem each_scripted {α : Type} {f : Nat → ∀ (σ : Type) [RandomSource σ], Draw σ (List α)}
    (scripted : ∀ i, Scripted (f i)) (n i : Nat) :
    Scripted fun σ [RandomSource σ] => each (fun i => f i σ) n i := by
  induction n generalizing i with
  | zero => exact scripted_pure []
  | succ n ih =>
    exact (scripted i).bind fun as => (ih (i + 1)).bind fun bs => scripted_pure (as ++ bs)

theorem walk_scripted (stop : Option Nat) (levels : List Level) (k : Nat) (base : String) :
    Scripted fun σ [RandomSource σ] => (walk stop levels k base : Draw σ (List Entry)) := by
  induction levels generalizing k base with
  | nil => exact scripted_pure []
  | cons l rest ih =>
    refine each_scripted (f := fun i σ _ => visit stop l k (walk stop rest (k + 1)) base i) (fun i => ?_) l.count 0
    refine (Pattern.instanceName_scripted l i).bind fun name => Scripted.ite (scripted_pure _) ?_
    exact Scripted.ite ((Pattern.drawValue_scripted l).bind fun value => scripted_pure _) (ih _ _)

end Cursor

namespace Bounded

variable {σ : Type} [RandomSource σ]

/-- The keys of a pass over patterns, from its beginning. -/
def passWalk : List Pattern → Draw σ (List Entry)
  | [] => pure []
  | p :: ps => do
    let as ← Cursor.walk none p.levels 0 ""
    let bs ← passWalk ps
    pure (as ++ bs)

/-- The keys that a pass still has, at a place. -/
def placeWalk (c : Cursor) : List Pattern → Draw σ (List Entry)
  | [] => pure []
  | p :: ps => do
    let as ← Cursor.stackWalk p.levels c.stop c.stack
    let bs ← passWalk ps
    pure (as ++ bs)

/-- The keys that an enumeration of one pass still has. -/
def remaining (b : Bounded) : Draw σ (List Entry) :=
  match b.place with
  | none => pure []
  | some (c,ps) => placeWalk c ps

theorem placeWalk_start (ps : List Pattern) :
    (placeWalk (Cursor.start none) ps : Draw σ _) = passWalk ps := by
  cases ps with
  | nil => rfl
  | cons p ps =>
    rw [placeWalk,passWalk]
    exact congrArg (· >>= _) (Cursor.stackWalk_below p.levels none "" 0)

theorem remaining_start (patterns : List Pattern) (total : Nat) :
    ((start patterns total).remaining : Draw σ _) = passWalk patterns := by
  cases patterns with
  | nil => rfl
  | cons p ps => exact placeWalk_start (p :: ps)

/-- A pass goes on with the next key that its scan finds. -/
theorem placeWalk_scan (ps : List Pattern) (c : Cursor) :
    (placeWalk c ps : Draw σ _) = (do
      match ← scan c ps with
      | none => pure []
      | some (e,c,ps) => do
        let es ← placeWalk c ps
        pure (e :: es)) := by
  induction ps generalizing c with
  | nil => simp [placeWalk,scan]
  | cons p ps ih =>
    rw [placeWalk,scan,Cursor.stackWalk_unrolled,Cursor.unrolled,Cursor.advance]
    simp only [bind_assoc,pure_bind]
    congr 1
    funext drawn
    obtain ⟨entry,after⟩ := drawn
    cases entry with
    | none =>
      have later := ih (Cursor.start none)
      rw [placeWalk_start] at later
      simpa using later
    | some e => simp [placeWalk]

/-- An enumeration of one pass, unrolled by one key. -/
theorem remaining_next (b : Bounded) (onePass : b.total = 0) :
    (b.remaining : Draw σ _) = (do
      match ← b.next with
      | (none,_) => pure []
      | (some e,b) => do
        let es ← b.remaining
        pure (e :: es)) := by
  rw [next,if_neg (by omega),remaining]
  cases b.place with
  | none => simp
  | some at_ =>
    obtain ⟨c,ps⟩ := at_
    simp only [placeWalk_scan ps c,bind_assoc]
    congr 1
    funext found
    cases found with
    | none => simp [onePass]
    | some r => simp [emit,remaining]

theorem next_total {b b' : Bounded} {g g' : σ} {e : Option Entry} (run : b.next g = .ok ((e,b'),g')) :
    b'.total = b.total := by
  unfold next at run
  by_cases ended : 0 < b.total ∧ b.total ≤ b.emitted
  · rw [if_pos ended] at run
    cases run
    rfl
  · rw [if_neg ended] at run
    cases place : b.place with
    | none =>
      simp only [place] at run
      cases run
      rfl
    | some at_ =>
      simp only [place] at run
      obtain ⟨found,h,-,run⟩ := Draw.bind_ok run
      cases found with
      | some r =>
        cases run
        rfl
      | none =>
        simp only at run
        split at run
        · cases run
          rfl
        · obtain ⟨found,h',-,run⟩ := Draw.bind_ok run
          cases found with
          | some r =>
            cases run
            rfl
          | none =>
            cases run
            rfl

/-- What an enumeration of one pass yields up to its end. -/
theorem take_all {n : Nat} {b b' : Bounded} {es es' : Array Entry} {g g' : σ} (onePass : b.total = 0)
    (run : take n b es g = .ok ((es',true,b'),g')) :
    ∃ as, b.remaining g = .ok (as,g') ∧ es' = es ++ as.toArray := by
  induction n generalizing b es g with
  | zero => cases run
  | succ n ih =>
    obtain ⟨⟨entry,b₁⟩,h,next,run⟩ := Draw.bind_ok run
    rw [remaining_next b onePass,Draw.bind_run next]
    cases entry with
    | none =>
      cases run
      exact ⟨[],rfl,by simp⟩
    | some e =>
      obtain ⟨as,drawn,same⟩ := ih ((next_total next).trans onePass) run
      exact ⟨e :: as,Draw.bind_run drawn,by simp [same]⟩

/-- The keys of one pass over a single pattern are those of its walk. -/
theorem take_single {ks : KeySpace} {p : Pattern} (single : ks.patterns = [p]) {n : Nat} {es : Array Entry}
    {b : Bounded} {g g' : σ} (run : (ks.keys 0).take n #[] g = .ok ((es,true,b),g')) :
    Cursor.walk none p.levels 0 "" g = .ok (es.toList,g') := by
  obtain ⟨as,drawn,rfl⟩ := take_all rfl run
  rw [KeySpace.keys,remaining_start,single] at drawn
  obtain ⟨as',h,walked,last⟩ := Draw.bind_ok drawn
  cases last
  simpa using walked

end Bounded

end Keyload
