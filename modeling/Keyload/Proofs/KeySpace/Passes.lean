import Mathlib.Algebra.BigOperators.Group.List.Basic
import Mathlib.Algebra.Ring.Nat
import Keyload.Proofs.Pattern.Compiled

/-!
Bounded enumeration, pass after pass. At every point the open nodes, and the patterns after the present one, still have
a list of texts, the rest of one pass; a key that is yielded takes the first of them away. So a pass yields as many keys
as its patterns have leaves, another pass begins when more are wanted, and an enumeration ends at its total, or after one
pass where there is none, or at once where a pass is empty. Its end is final.
-/
namespace Keyload
open Pattern (Level)
open Cursor (texts LeafLast)

/-- As many texts, and the same ones where `fixed` holds. -/
structure Agree (fixed : Prop) (as bs : List String) : Prop where
  length : as.length = bs.length
  same : fixed → as = bs

namespace Agree

variable {fixed : Prop} {as bs cs ds : List String}

theorem refl (as : List String) : Agree fixed as as := ⟨rfl,fun _ => rfl⟩

theorem trans (first : Agree fixed as bs) (second : Agree fixed bs cs) : Agree fixed as cs :=
  ⟨first.length.trans second.length,fun h => (first.same h).trans (second.same h)⟩

theorem append (first : Agree fixed as bs) (second : Agree fixed cs ds) : Agree fixed (as ++ cs) (bs ++ ds) := by
  refine ⟨?_,fun h => by rw [first.same h,second.same h]⟩
  rw [List.length_append,List.length_append,first.length,second.length]

theorem mono {stronger : Prop} (implies : stronger → fixed) (agree : Agree fixed as bs) : Agree stronger as bs :=
  ⟨agree.length,fun h => agree.same (implies h)⟩

end Agree

namespace Cursor

theorem length_texts (name : Level → Nat → String) (levels : List Level) (base : String) :
    (texts name levels base).length = (levels.map Level.count).prod := by
  induction levels generalizing base with
  | nil => rfl
  | cons l rest ih =>
    rw [List.map_cons,List.prod_cons,texts,List.length_flatMap]
    simp only [ih,List.map_const',List.length_range,List.sum_replicate_nat]

/-- The texts that an open node still has. -/
def frameTexts (levels : List Level) (f : Frame) : List String :=
  match levels.drop f.level with
  | [] => []
  | l :: below =>
    (List.range' f.next (l.count - f.next)).flatMap fun i => texts Level.nameAt below (f.base ++ "/" ++ l.nameAt i)

/-- The texts that a stack of open nodes still has. -/
def stackTexts (levels : List Level) (stack : List Frame) : List String := stack.flatMap (frameTexts levels)

theorem stackTexts_cons (levels : List Level) (f : Frame) (rest : List Frame) :
    stackTexts levels (f :: rest) = frameTexts levels f ++ stackTexts levels rest := List.flatMap_cons

section
variable {levels : List Level} {f : Frame} {l : Level}

private theorem frameTexts_beyond (beyond : levels[f.level]? = none) : frameTexts levels f = [] := by
  rw [frameTexts,List.drop_of_length_le (List.getElem?_eq_none_iff.mp beyond)]

private theorem drop_at (at_f : levels[f.level]? = some l) :
    levels.drop f.level = l :: levels.drop (f.level + 1) := by
  obtain ⟨inside,rfl⟩ := List.getElem?_eq_some_iff.mp at_f
  exact List.drop_eq_getElem_cons inside

private theorem frameTexts_spent (at_f : levels[f.level]? = some l) (spent : ¬ f.next < l.count) :
    frameTexts levels f = [] := by
  rw [frameTexts,drop_at at_f]
  show (List.range' f.next (l.count - f.next)).flatMap _ = []
  rw [show l.count - f.next = 0 by omega,List.range'_zero,List.flatMap_nil]

private theorem frameTexts_next (at_f : levels[f.level]? = some l) (more : f.next < l.count) :
    frameTexts levels f = texts Level.nameAt (levels.drop (f.level + 1)) (f.base ++ "/" ++ l.nameAt f.next) ++
      frameTexts levels { f with next := f.next + 1 } := by
  rw [frameTexts,frameTexts,drop_at at_f]
  show (List.range' f.next (l.count - f.next)).flatMap _ = _ ++ (List.range' (f.next + 1) (l.count - (f.next + 1))).flatMap _
  rw [show l.count - f.next = (l.count - (f.next + 1)) + 1 by omega,List.range'_succ,List.flatMap_cons]

end

theorem frameTexts_child (levels : List Level) {k : Nat} (inside : k < levels.length) (base : String) :
    frameTexts levels ⟨k,0,base⟩ = texts Level.nameAt (levels.drop k) base := by
  rw [frameTexts,List.drop_eq_getElem_cons inside]
  show (List.range' 0 (levels[k].count - 0)).flatMap _ = _
  rw [texts,Nat.sub_zero,List.range_eq_range']

variable {σ : Type} [RandomSource σ]

/-- The next key is the first text that the open nodes still have; they have none where there is no next key. -/
theorem advanceStack_texts {levels : List Level} (leafLast : LeafLast levels) {stack after : List Frame} {g g' : σ}
    {entry : Option Entry} (run : advanceStack levels none stack g = .ok ((entry,after),g')) :
    Agree (∀ l ∈ levels, l.isRandom = false) (stackTexts levels stack)
      (entry.elim [] fun e => e.key :: stackTexts levels after) := by
  induction stack using advanceStack.induct levels generalizing g with
  | case1 =>
    rw [advanceStack] at run
    cases run
    exact .refl []
  | case2 f rest beyond ih =>
    rw [advanceStack_beyond rest beyond] at run
    rw [stackTexts_cons,frameTexts_beyond beyond]
    exact ih run
  | case3 f rest l at_f more ih =>
    rw [advanceStack_next rest at_f more] at run
    rw [stackTexts_cons,frameTexts_next at_f more]
    obtain ⟨name,h,drawn,run⟩ := Draw.bind_ok run
    have named (fixed : ∀ l ∈ levels, l.isRandom = false) : name = l.nameAt f.next :=
      Level.fixed_named (fixed l (List.mem_of_getElem? at_f)) σ f.next g h name more drawn
    have inside := (List.getElem?_eq_some_iff.mp at_f).1
    have ends := drop_at at_f ▸ leafLast_drop leafLast f.level inside
    rw [if_neg (by simp)] at run
    cases deeper : levels.drop (f.level + 1) with
    | nil =>
      have leaf : l.isLeaf = true := by rwa [deeper] at ends
      rw [if_pos leaf] at run
      obtain ⟨value,h',-,run⟩ := Draw.bind_ok run
      cases run
      refine ⟨rfl,fun fixed => ?_⟩
      rw [named fixed]
      rfl
    | cons l' below =>
      have inner : l.isLeaf = false := by
        rw [deeper] at ends
        exact (leafLast_cons ends).1
      have child : f.level + 1 < levels.length := by
        by_contra beyond
        rw [List.drop_of_length_le (by omega)] at deeper
        cases deeper
      rw [inner] at run
      refine .trans ?_ (ih name run)
      rw [stackTexts_cons,stackTexts_cons,frameTexts_child levels child,deeper,List.append_assoc]
      refine .append ⟨?_,fun fixed => by rw [named fixed]⟩ (.refl _)
      rw [length_texts,length_texts]
  | case4 f rest l at_f spent ih =>
    rw [advanceStack_spent rest at_f spent] at run
    rw [stackTexts_cons,frameTexts_spent at_f spent]
    exact ih run

theorem advanceStack_fault {levels : List Level} (listed : ∀ l ∈ levels, l.Listed) (narrow : ∀ l ∈ levels, l.Narrow)
    {stop : Option Nat} {stack : List Frame} {g : σ} {e : Fault} (stopped : advanceStack levels stop stack g = .error e) :
    ∃ l ∈ levels, l.DrawFault e := by
  induction stack using advanceStack.induct levels generalizing g with
  | case1 =>
    rw [advanceStack] at stopped
    cases stopped
  | case2 f rest beyond ih =>
    rw [advanceStack_beyond rest beyond] at stopped
    exact ih stopped
  | case3 f rest l at_f more ih =>
    rw [advanceStack_next rest at_f more] at stopped
    have member : l ∈ levels := List.mem_of_getElem? at_f
    rcases Draw.bind_error stopped with unnamed | ⟨name,h,-,stopped⟩
    · exact ⟨l,member,Level.instanceName_fault (listed l member) (narrow l member) more unnamed⟩
    · split at stopped
      · cases stopped
      · split at stopped
        · rcases Draw.bind_error stopped with unvalued | ⟨value,h',-,stopped⟩
          · exact ⟨l,member,.inr ⟨σ,_,h,unvalued⟩⟩
          · cases stopped
        · exact ih name stopped
  | case4 f rest l at_f spent ih =>
    rw [advanceStack_spent rest at_f spent] at stopped
    exact ih stopped

end Cursor

namespace Bounded

/-- The texts of the keys of a pass over patterns. -/
def passTexts (patterns : List Pattern) : List String :=
  patterns.flatMap fun p => texts Level.nameAt p.levels ""

/-- The texts that a pass still has at a place. -/
def placeTexts (c : Cursor) : List Pattern → List String
  | [] => []
  | p :: ps => Cursor.stackTexts p.levels c.stack ++ passTexts ps

/-- How many keys an enumeration yields, where a pass has so many. -/
def wanted (total pass : Nat) : Nat := if total = 0 then pass else if pass = 0 then 0 else total

/-- What the enumeration relies on in its patterns: values at the last level, names for every instance. -/
structure Enumerable (patterns : List Pattern) : Prop where
  leafLast : ∀ p ∈ patterns, LeafLast p.levels
  listed : ∀ p ∈ patterns, ∀ l ∈ p.levels, l.Listed
  narrow : ∀ p ∈ patterns, ∀ l ∈ p.levels, l.Narrow

theorem Enumerable.tail {p : Pattern} {ps : List Pattern} (enumerable : Enumerable (p :: ps)) : Enumerable ps where
  leafLast q member := enumerable.leafLast q (List.mem_cons_of_mem p member)
  listed q member := enumerable.listed q (List.mem_cons_of_mem p member)
  narrow q member := enumerable.narrow q (List.mem_cons_of_mem p member)

/-- No level of the patterns draws its names. -/
def Fixed (patterns : List Pattern) : Prop := ∀ p ∈ patterns, ∀ l ∈ p.levels, l.isRandom = false

/-- A draw of a name or of a value in the patterns can stop with this fault. -/
def DrawFault (patterns : List Pattern) (f : Fault) : Prop := ∃ p ∈ patterns, ∃ l ∈ p.levels, l.DrawFault f

theorem length_passTexts (patterns : List Pattern) :
    (passTexts patterns).length = (patterns.map fun p => (p.levels.map Level.count).prod).sum := by
  simp [passTexts,List.length_flatMap,Cursor.length_texts]

theorem placeTexts_start {patterns : List Pattern} (leafLast : ∀ p ∈ patterns, LeafLast p.levels) :
    placeTexts (Cursor.start none) patterns = passTexts patterns := by
  cases patterns with
  | nil => rfl
  | cons p ps =>
    have inside : 0 < p.levels.length :=
      List.length_pos_iff.mpr (Cursor.leafLast_ne_nil (leafLast p List.mem_cons_self))
    show Cursor.stackTexts p.levels [⟨0,0,""⟩] ++ passTexts ps = _
    rw [Cursor.stackTexts_cons,Cursor.frameTexts_child p.levels inside]
    simp [Cursor.stackTexts,passTexts]

variable {σ : Type} [RandomSource σ]

/-- The next key of a pass is the first text it still has; it has none where there is no next key. -/
theorem scan_texts {ps : List Pattern} (leafLast : ∀ p ∈ ps, LeafLast p.levels) {c : Cursor} (no_stop : c.stop = none)
    {g g' : σ} {found : Option (Entry × Cursor × List Pattern)} (run : scan c ps g = .ok (found,g')) :
    Agree (Fixed ps) (placeTexts c ps) (found.elim [] fun r => r.1.key :: placeTexts r.2.1 r.2.2) ∧
      ∀ r, found = some r → r.2.1.stop = none ∧ r.2.2 ⊆ ps := by
  induction ps generalizing c g with
  | nil =>
    cases run
    exact ⟨.refl [],fun r same => (by cases same)⟩
  | cons p ps ih =>
    obtain ⟨⟨entry,c'⟩,h,advanced,run⟩ := Draw.bind_ok run
    obtain ⟨⟨entry',after⟩,h',drawn,last⟩ := Draw.bind_ok advanced
    cases last
    rw [no_stop] at drawn
    have first := (Cursor.advanceStack_texts (leafLast p List.mem_cons_self) drawn).mono
      fun fixed : Fixed (p :: ps) => fixed p List.mem_cons_self
    cases entry with
    | some e =>
      cases run
      refine ⟨.append first (.refl _),fun r same => ?_⟩
      cases same
      exact ⟨no_stop,List.Subset.refl _⟩
    | none =>
      have others : ∀ q ∈ ps, LeafLast q.levels := fun q member => leafLast q (List.mem_cons_of_mem p member)
      obtain ⟨later,sound⟩ := ih others rfl run
      rw [placeTexts_start others] at later
      refine ⟨?_,fun r same => ⟨(sound r same).1,fun q member => List.mem_cons_of_mem p ((sound r same).2 member)⟩⟩
      exact .trans (.append first (.refl _)) (later.mono fun fixed q member => fixed q (List.mem_cons_of_mem p member))

theorem scan_fault {ps : List Pattern} (enumerable : Enumerable ps) {c : Cursor} {g : σ} {f : Fault}
    (stopped : scan c ps g = .error f) : DrawFault ps f := by
  induction ps generalizing c g with
  | nil => cases stopped
  | cons p ps ih =>
    rcases Draw.bind_error stopped with unadvanced | ⟨⟨entry,c'⟩,h,-,stopped⟩
    · rcases Draw.bind_error unadvanced with undrawn | ⟨r,h,-,last⟩
      · obtain ⟨l,level,fault⟩ := Cursor.advanceStack_fault (enumerable.listed p List.mem_cons_self)
          (enumerable.narrow p List.mem_cons_self) undrawn
        exact ⟨p,List.mem_cons_self,l,level,fault⟩
      · cases last
    · cases entry with
      | some e => cases stopped
      | none =>
        obtain ⟨q,member,fault⟩ := ih enumerable.tail stopped
        exact ⟨q,List.mem_cons_of_mem p member,fault⟩

theorem next_ended {b : Bounded} (ended : 0 < b.total ∧ b.total ≤ b.emitted) : (b.next : Draw σ _) = pure (none,b) := by
  rw [next,if_pos ended]

theorem next_closed {b : Bounded} (closed : b.place = none) : (b.next : Draw σ _) = pure (none,b) := by
  rw [next,closed]
  exact ite_self _

/-- The first of the texts that are left of a pass, and those after it. -/
private theorem agree_first {fixed : Prop} {pass later : List String} {j : Nat} {t : String}
    (agree : Agree fixed (pass.drop j) (t :: later)) :
    j < pass.length ∧ (fixed → pass[j]? = some t) ∧ Agree fixed (pass.drop (j + 1)) later := by
  have length := agree.length
  rw [List.length_drop,List.length_cons] at length
  have inside : j < pass.length := by omega
  refine ⟨inside,fun h => ?_,?_,fun h => ?_⟩
  · rw [← List.head?_drop,agree.same h]
    rfl
  · rw [List.length_drop]
    omega
  · have same := agree.same h
    rw [List.drop_eq_getElem_cons inside] at same
    exact (List.cons.inj same).2

/-- An enumeration that has yielded `k` keys and has not come to its end: so many whole passes and a part of one. -/
structure At (patterns : List Pattern) (total k : Nat) (b : Bounded) : Prop where
  same_patterns : b.patterns = patterns
  same_total : b.total = total
  emitted : b.emitted = k
  place : ∃ c ps, b.place = some (c,ps) ∧ c.stop = none ∧ ps ⊆ patterns ∧
    Agree (Fixed patterns) ((passTexts patterns).drop b.emittedInPass) (placeTexts c ps)
  part : b.emittedInPass ≤ (passTexts patterns).length
  passes : ∃ whole, k = whole * (passTexts patterns).length + b.emittedInPass ∧
    (total = 0 ∨ b.emittedInPass = 0 → whole = 0)

section
variable {patterns : List Pattern} {total k : Nat} {b b' : Bounded} {g g' : σ}

theorem start_at (leafLast : ∀ p ∈ patterns, LeafLast p.levels) (some_pattern : patterns ≠ []) (total : Nat) :
    At patterns total 0 (start patterns total) := by
  have opened : (start patterns total).place = some (Cursor.start none,patterns) := by
    obtain ⟨p,ps,rfl⟩ := List.exists_cons_of_ne_nil some_pattern
    rfl
  refine ⟨rfl,rfl,rfl,⟨_,_,opened,rfl,List.Subset.refl _,?_⟩,Nat.zero_le _,0,by simp [start],fun _ => rfl⟩
  rw [placeTexts_start leafLast]
  exact .refl _

/-- A key within a pass. -/
private theorem at_emit (at_k : At patterns total k b) {nth whole : Nat} {c : Cursor} {ps : List Pattern} {t : String}
    (no_stop : c.stop = none) (sub : ps ⊆ patterns)
    (left : Agree (Fixed patterns) ((passTexts patterns).drop nth) (t :: placeTexts c ps))
    (passes : k = whole * (passTexts patterns).length + nth) (single : total = 0 → whole = 0) :
    nth < (passTexts patterns).length ∧ At patterns total (k + 1) (b.emit (nth + 1) c ps) ∧
      (Fixed patterns → (passTexts patterns)[k % (passTexts patterns).length]? = some t) := by
  obtain ⟨inside,key,later⟩ := agree_first left
  refine ⟨inside,⟨at_k.same_patterns,at_k.same_total,?_,⟨c,ps,rfl,no_stop,sub,later⟩,inside,whole,?_,fun h => ?_⟩,
    fun fixed => ?_⟩
  · show b.emitted + 1 = k + 1
    rw [at_k.emitted]
  · show k + 1 = whole * _ + (nth + 1)
    omega
  · rcases h with h | h
    · exact single h
    · cases h
  · rw [passes,Nat.mul_add_mod_of_lt inside]
    exact key fixed

/-- A step of an enumeration yields the next text of a pass, or shows that all keys that are wanted were yielded. -/
theorem next_at (leafLast : ∀ p ∈ patterns, LeafLast p.levels) (at_k : At patterns total k b)
    (bound : k ≤ wanted total (passTexts patterns).length) {entry : Option Entry}
    (run : b.next g = .ok ((entry,b'),g')) :
    (entry = none ∧ k = wanted total (passTexts patterns).length ∧ b'.emitted = k ∧
        ∀ h : σ, b'.next h = .ok ((none,b'),h)) ∨
      ∃ e, entry = some e ∧ k < wanted total (passTexts patterns).length ∧ At patterns total (k + 1) b' ∧
        (Fixed patterns → (passTexts patterns)[k % (passTexts patterns).length]? = some e.key) := by
  obtain ⟨c,ps,place,no_stop,sub,agree⟩ := at_k.place
  obtain ⟨whole,passes,single⟩ := at_k.passes
  have part := at_k.part
  generalize length : (passTexts patterns).length = pass at bound passes part ⊢
  unfold wanted at bound ⊢
  by_cases ended : 0 < b.total ∧ b.total ≤ b.emitted
  · have again : (b.next : Draw σ _) = pure (none,b) := next_ended ended
    rw [again] at run
    cases run
    rw [at_k.same_total,at_k.emitted] at ended
    refine .inl ⟨rfl,?_,at_k.emitted,fun h => by rw [again]; rfl⟩
    split_ifs at bound ⊢ <;> omega
  · have going : total = 0 ∨ k < total := by
      rw [at_k.same_total,at_k.emitted] at ended
      omega
    rw [next,if_neg ended,place] at run
    obtain ⟨found,h,scanned,run⟩ := Draw.bind_ok run
    obtain ⟨texts_left,sound⟩ := scan_texts (fun p member => leafLast p (sub member)) no_stop scanned
    have left := agree.trans (texts_left.mono fun fixed p member => fixed p (sub member))
    cases found with
    | some r =>
      obtain ⟨e,c',ps'⟩ := r
      cases run
      obtain ⟨no_stop',sub'⟩ := sound _ rfl
      obtain ⟨inside,at_next,key⟩ := at_emit at_k no_stop' (fun p member => sub (sub' member)) left (length ▸ passes)
        fun none_wanted => single (.inl none_wanted)
      rw [length] at inside key
      refine .inr ⟨e,rfl,?_,at_next,key⟩
      split_ifs with none_wanted empty
      · rw [single (.inl none_wanted),Nat.zero_mul] at passes
        omega
      · omega
      · omega
    | none =>
      have spent : b.emittedInPass = pass := by
        have := left.length
        rw [List.length_drop,length] at this
        simp only [Option.elim_none,List.length_nil] at this
        omega
      simp only at run
      split at run
      · rename_i last
        cases run
        have whole_pass : k = pass := by
          rw [at_k.same_total] at last
          rw [passes,single last,Nat.zero_mul,Nat.zero_add,spent]
        refine .inl ⟨rfl,?_,at_k.emitted,fun h' => by rw [next_closed rfl]; rfl⟩
        rw [at_k.same_total] at last
        split_ifs <;> omega
      · rename_i further
        rw [at_k.same_total,not_or] at further
        obtain ⟨found,h',scanned,run⟩ := Draw.bind_ok run
        rw [at_k.same_patterns] at scanned
        obtain ⟨texts_left,sound⟩ := scan_texts leafLast rfl scanned
        rw [placeTexts_start leafLast] at texts_left
        cases found with
        | some r =>
          obtain ⟨e,c',ps'⟩ := r
          cases run
          obtain ⟨no_stop',sub'⟩ := sound _ rfl
          have again : k = (whole + 1) * (passTexts patterns).length + 0 := by
            rw [length,Nat.add_mul]
            omega
          have whole_left : Agree (Fixed patterns) ((passTexts patterns).drop 0) (e.key :: placeTexts c' ps') :=
            texts_left
          obtain ⟨inside,at_next,key⟩ := at_emit at_k no_stop' sub' whole_left again
            fun none_wanted => absurd none_wanted further.1
          rw [length] at inside key
          refine .inr ⟨e,rfl,?_,at_next,key⟩
          rw [if_neg further.1,if_neg (by omega)]
          omega
        | none =>
          have empty := texts_left.length
          rw [length] at empty
          simp only [Option.elim_none,List.length_nil] at empty
          omega

theorem next_fault (enumerable : Enumerable patterns) (at_k : At patterns total k b) {f : Fault}
    (stopped : b.next g = .error f) : DrawFault patterns f := by
  obtain ⟨c,ps,place,-,sub,-⟩ := at_k.place
  have present : Enumerable ps := ⟨fun p member => enumerable.leafLast p (sub member),
    fun p member => enumerable.listed p (sub member),fun p member => enumerable.narrow p (sub member)⟩
  unfold next at stopped
  split at stopped
  · cases stopped
  · simp only [place] at stopped
    rcases Draw.bind_error stopped with unfound | ⟨found,h,-,stopped⟩
    · obtain ⟨p,member,fault⟩ := scan_fault present unfound
      exact ⟨p,sub member,fault⟩
    · cases found with
      | some r => cases stopped
      | none =>
        simp only at stopped
        split at stopped
        · cases stopped
        · rcases Draw.bind_error stopped with unfound | ⟨found,h',-,stopped⟩
          · rw [at_k.same_patterns] at unfound
            exact scan_fault enumerable unfound
          · cases found <;> cases stopped

/-- The keys go through the texts of a pass, and through them again. -/
def Cycles (pass : List String) (es : Array Entry) : Prop :=
  ∀ i (inside : i < es.size), pass[i % pass.length]? = some es[i].key

theorem Cycles.push {pass : List String} {es : Array Entry} {e : Entry} (cycles : Cycles pass es)
    (next : pass[es.size % pass.length]? = some e.key) : Cycles pass (es.push e) := by
  intro i inside
  rw [Array.size_push] at inside
  rw [Array.getElem_push]
  split
  · exact cycles i _
  · rw [show i = es.size by omega]
    exact next

/-- What further keys are taken, from where an enumeration has come to. -/
theorem take_at (enumerable : Enumerable patterns) (n : Nat) (at_k : At patterns total k b)
    (bound : k ≤ wanted total (passTexts patterns).length) {es : Array Entry} (size : es.size = k)
    (cycles : Fixed patterns → Cycles (passTexts patterns) es) (g : σ) :
    (∃ f, take n b es g = .error f ∧ DrawFault patterns f) ∨
      ∃ es' b' g', take n b es g = .ok ((es',decide (wanted total (passTexts patterns).length < k + n),b'),g') ∧
        es'.size = min (k + n) (wanted total (passTexts patterns).length) ∧ b'.emitted = es'.size ∧
        (Fixed patterns → Cycles (passTexts patterns) es') ∧
        (wanted total (passTexts patterns).length < k + n → ∀ h : σ, b'.next h = .ok ((none,b'),h)) := by
  induction n generalizing k b es g with
  | zero =>
    refine .inr ⟨es,b,g,?_,by omega,at_k.emitted.trans size.symm,cycles,fun beyond => by omega⟩
    rw [decide_eq_false (by omega)]
    rfl
  | succ n ih =>
    cases run : b.next g with
    | error f => exact .inl ⟨f,Draw.bind_stopped run,next_fault enumerable at_k run⟩
    | ok r =>
      obtain ⟨⟨entry,b₁⟩,h⟩ := r
      rw [take,Draw.bind_run run]
      rcases next_at enumerable.leafLast at_k bound run with ⟨rfl,all,emitted,final⟩ | ⟨e,rfl,more,at_next,key⟩
      · refine .inr ⟨es,b₁,h,?_,by omega,by omega,cycles,fun _ => final⟩
        rw [decide_eq_true (by omega)]
        rfl
      · have grown : (es.push e).size = k + 1 := by rw [Array.size_push,size]
        have later := ih at_next more grown (fun fixed => (cycles fixed).push (size ▸ key fixed)) h
        rwa [show k + 1 + n = k + (n + 1) by omega] at later

end

/-- However many keys are asked for, an enumeration yields them up to the number that is wanted, one pass or the
total; it counts them, repeats the texts of one pass, and is at its end from the first time that it yields none. Only
names and values that are drawn at random can stop it. -/
theorem take_exactly {patterns : List Pattern} (some_pattern : patterns ≠ [])
    (compiled : ∀ p ∈ patterns, Pattern.Compiled p) (narrow : ∀ p ∈ patterns, ∀ l ∈ p.levels, l.Narrow)
    (total n : Nat) (g : σ) :
    let pass := (patterns.map fun p => (p.levels.map Level.count).prod).sum
    let wanted := if total = 0 then pass else if pass = 0 then 0 else total
    (∃ f, take n (start patterns total) #[] g = .error f ∧ DrawFault patterns f) ∨
      ∃ es b g', take n (start patterns total) #[] g = .ok ((es,decide (wanted < n),b),g') ∧
        es.size = min n wanted ∧ b.emitted = es.size ∧ (0 < total → b.emitted ≤ total) ∧
        (Fixed patterns → ∀ k (inside : k < es.size), (passTexts patterns)[k % pass]? = some es[k].key) ∧
        (wanted < n → ∀ h : σ, b.next h = .ok ((none,b),h)) := by
  intro pass wanted
  have enumerable : Enumerable patterns := ⟨fun p member => Pattern.Compiler.compiled_leafLast (compiled p member),
    fun p member => Pattern.Compiler.compiled_listed (compiled p member),narrow⟩
  have none_yet : (#[] : Array Entry).size = 0 := rfl
  have run := take_at enumerable n (start_at enumerable.leafLast some_pattern total) (Nat.zero_le _) none_yet
    (fun _ i inside => absurd inside (Nat.not_lt_zero i)) g
  rw [length_passTexts,Nat.zero_add] at run
  rcases run with stopped | ⟨es,b,g',taken,size,emitted,cycles,final⟩
  · exact .inl stopped
  · refine .inr ⟨es,b,g',taken,size,emitted,fun bounded => ?_,fun fixed k inside => ?_,final⟩
    · rw [emitted,size]
      unfold Bounded.wanted
      split_ifs <;> omega
    · have key := cycles fixed k inside
      rwa [length_passTexts] at key

/-- Three keys of two patterns of one key each: the first one comes again. -/
theorem three_of_two : ∃ p q, Pattern.Compiled p ∧ Pattern.Compiled q ∧ (∀ r ∈ [p,q], ∀ l ∈ r.levels, l.Narrow) ∧
    Fixed [p,q] ∧ ∃ es b g', take 5 (start [p,q] 3) #[] (Xoshiro.ofSeed 1) = .ok ((es,true,b),g') ∧ es.size = 3 ∧
      b.emitted = 3 ∧ ∀ k (inside : k < es.size), ["/a","/b"][k % 2]? = some es[k].key := by
  let digit : Pattern.ValueSpec := ⟨1,1,Nat.le_refl 1⟩
  let c : Pattern.Compiler := ⟨.empty,some digit⟩
  let g : Xoshiro := .ofSeed 1
  let p : Pattern := ⟨"/a;z",[⟨"a",.names #["a"],1,1,some (.digits digit)⟩]⟩
  let q : Pattern := ⟨"/b;z",[⟨"b",.names #["b"],1,1,some (.digits digit)⟩]⟩
  have compiled : Pattern.Compiled p ∧ Pattern.Compiled q :=
    ⟨⟨Xoshiro,inferInstance,"/a;z",c,c,g,g,id rfl⟩,⟨Xoshiro,inferInstance,"/b;z",c,c,g,g,id rfl⟩⟩
  have narrow : ∀ r ∈ [p,q], ∀ l ∈ r.levels, l.Narrow := by simp [p,q,Level.Narrow]
  have fixed : Fixed [p,q] := by simp [Fixed,p,q,Level.isRandom]
  have runs : (take 5 (start [p,q] 3) #[] g).isOk = true := by decide +kernel
  rcases take_exactly (List.cons_ne_nil p [q]) (by simpa using compiled) narrow 3 5 g with
    ⟨f,stopped,-⟩ | ⟨es,b,g',taken,size,emitted,-,cycles,-⟩
  · rw [stopped] at runs
    cases runs
  · exact ⟨p,q,compiled.1,compiled.2,narrow,fixed,es,b,g',taken,size,emitted.trans size,cycles fixed⟩

end Bounded

end Keyload
