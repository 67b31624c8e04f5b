import Keyload.Proofs.KeySpace.Populated
import Keyload.Proofs.Pattern.Compiled
import Keyload.Proofs.Run.Loading
import Keyload.Run.Engine

/-!
What a store holds after an engine has loaded its keys. The load puts the keys of one pass, drawn from a stream of its
own; the lists of prefixes are drawn from other sources. A list names nothing but what the store holds where the names
of the pattern are steady, and only there.
-/
namespace Keyload.Engine
open KeySpace (Agrees Populates agrees_of_steady steady_of_agrees)
open Cursor (walk)
open Run (Traced load_stores keep keep_traced)

private theorem lifted_ok {ε σ α β : Type} {x : Draw σ α} {f : α → ExceptT ε (Draw σ) β} {g g' : σ} {b : β}
    (run : ((x : ExceptT ε (Draw σ) α) >>= f).run g = .ok (.ok b,g')) :
    ∃ a h, x g = .ok (a,h) ∧ (f a).run h = .ok (.ok b,g') := by
  cases drawn : x g with
  | error e =>
    have stops : ((x : ExceptT ε (Draw σ) α) >>= f).run g = .error e := by
      show (((x g).bind fun r => Except.ok (Except.ok r.1,r.2)).bind _) = _
      rw [drawn]
      rfl
    cases stops.symm.trans run
  | ok r =>
    refine ⟨r.1,r.2,rfl,?_⟩
    rw [← run]
    show _ = (((x g).bind fun r => Except.ok (Except.ok r.1,r.2)).bind _)
    rw [drawn]
    rfl

private theorem compile_compiled {σ : Type} [RandomSource σ] {s : Settings} {spec : Option Pattern.ValueSpec} {g g' : σ}
    {ks : KeySpace} (run : (compile s spec).run g = .ok (.ok ks,g')) : ∀ p ∈ ks.patterns, Pattern.Compiled p := by
  obtain ⟨compiler,h,-,run⟩ := Draw.bind_ok run
  cases compiler with
  | error f => cases run
  | ok compiler =>
    obtain ⟨⟨result,after⟩,h₁,compiled,run⟩ := lifted_ok run
    cases result with
    | error f => cases run
    | ok patterns =>
      obtain ⟨word,h₂,-,run⟩ := lifted_ok run
      unfold KeySpace.new at run
      split at run
      · rename_i made
        split at made
        · cases made
        · cases made
          cases run
          exact Pattern.Compiler.compileAll_compiled compiled
      · cases run

theorem new_compiled {s : Settings} {seed : UInt64} {e : Engine} (accepted : new s seed = ExceptT.mk (.ok (.ok e))) :
    ∀ p ∈ e.keySpace.patterns, Pattern.Compiled p := by
  unfold new at accepted
  cases read : valueSpec s with
  | error f =>
    rw [read] at accepted
    cases accepted
  | ok spec =>
    rw [read] at accepted
    dsimp only at accepted
    cases drawn : (compile s spec).run (Xoshiro.ofStream seed 0) with
    | error f =>
      rw [drawn] at accepted
      cases accepted
    | ok r =>
      obtain ⟨ks,g⟩ := r
      rw [drawn] at accepted
      cases ks with
      | error f => cases accepted
      | ok ks =>
        cases accepted
        exact compile_compiled drawn

/-- The run has loaded all keys of the engine once, and has ended well: it has clients, nothing was done to it from
outside, and no operation has failed. -/
def HasLoaded (e : Engine) (r : Run Xoshiro) : Prop :=
  ∃ (site : Site) (pool : Pool) (nowMs : Nat) (events : List Event) (l : Ledger) (sent : List Nat), 0 < pool.size ∧
    Traced 0 (Run.ofEngine e (.loads 1 0) site pool nowMs) events l r ∧ (∀ i, .outside i ∉ events) ∧ l.errors = 0 ∧
    r.ending? = some (ExceptT.mk (.ok (.ok (.loaded sent))))

/-- The store of the run has a key for every entry of the list of a level. -/
def Filled (e : Engine) (p : Pattern) (level : Nat) (r : Run Xoshiro) : Prop :=
  ∀ keys, e.keySpace.prefixes level = .ok keys → ∀ entry ∈ keys, Populates p level r.site.memory.keys entry

/-- What a load of a single pattern puts into the store: the keys of one pass over the pattern. -/
theorem HasLoaded.stored {e : Engine} {p : Pattern} {r : Run Xoshiro} (single : e.keySpace.patterns = [p])
    (loaded : e.HasLoaded r) :
    ∃ es g, walk none p.levels 0 "" (e.stream 1) = .ok (es,g) ∧ es.map Entry.key ⊆ r.site.memory.keys := by
  obtain ⟨site,pool,nowMs,events,l,sent,manned,traced,own,fine,ended⟩ := loaded
  obtain ⟨es,g,drawn,stored⟩ := load_stores traced own manned fine ended
  rw [KeySpace.keys,Bounded.remaining_start,single] at drawn
  obtain ⟨es,h,walked,last⟩ := Draw.bind_ok drawn
  cases last
  refine ⟨es,_,walked,fun key member => ?_⟩
  obtain ⟨entry,at_entry,rfl⟩ := List.mem_map.mp member
  exact Std.TreeMap.mem_keys.mpr (stored entry (by simpa using at_entry))

/-- Where passes over the keys agree with the lists of a level, a load fills the list. -/
theorem HasLoaded.filled {e : Engine} {p : Pattern} {level : Nat} {r : Run Xoshiro} (single : e.keySpace.patterns = [p])
    (agrees : Agrees p level) (loaded : e.HasLoaded r) : e.Filled p level r := by
  intro keys listed entry member
  obtain ⟨es,g,walked,stored⟩ := loaded.stored single
  obtain ⟨h,drawn⟩ := KeySpace.prefixes_single single listed
  exact (agrees Xoshiro _ _ _ _ _ _ walked drawn entry (Array.mem_toList_iff.mpr member)).mono stored

/-! ### The lists of an engine -/

/-- Settings of one pattern. -/
def plainly (pattern : String) : Settings :=
  { Settings.standard with workload := { Settings.standard.workload with patterns := [pattern] } }

theorem new_of_toOption {s : Settings} {seed : UInt64} {e : Engine}
    (accepted : (new s seed).run.toOption.bind Except.toOption = some e) : new s seed = ExceptT.mk (.ok (.ok e)) := by
  obtain ⟨result,ran,found⟩ := Option.bind_eq_some_iff.mp accepted
  cases run : (new s seed).run with
  | error f =>
    rw [run] at ran
    cases ran
  | ok result' =>
    rw [run] at ran
    cases ran
    cases result with
    | error _ => cases found
    | ok _ =>
      cases found
      exact run

/-- A run that loads the keys of an engine over one client of a store that never fails. -/
def loading (e : Engine) : Run Xoshiro :=
  Run.ofEngine e (.loads 1 0) (Site.fresh .prompt .empty) (Pool.deal [0] 1) 0

/-- The load of a single key: it is drawn, sent, put, and that was all. -/
def oneKey : List Event :=
  [.turn .main,.turn (.producer 0),.turn (.producer 0),.turn (.producer 0),.turn (.worker 0 0),.turn (.worker 0 0),
    .turn (.worker 0 0),.turn (.producer 0),.turn (.worker 0 0),.turn .main]

/-- Whether the load of an engine's only key ends well and comes to what is wanted. -/
def afterOneKey (pattern : String) (seed : UInt64) (wanted : Engine → Run Xoshiro → Bool) : Bool :=
  match (new (plainly pattern) seed).run with
  | .ok (.ok e) =>
    (keep 0 oneKey .empty (loading e)).any fun (l,r) =>
      l.errors == 0 && wanted e r &&
        match r.ending?.map ExceptT.run with
        | some (.ok (.ok (.loaded _))) => true
        | _ => false
  | _ => false

private theorem loads_one_key {pattern : String} {seed : UInt64} {wanted : Engine → Run Xoshiro → Bool}
    (loads : afterOneKey pattern seed wanted = true) :
    ∃ e r, new (plainly pattern) seed = ExceptT.mk (.ok (.ok e)) ∧ e.HasLoaded r ∧ wanted e r = true := by
  unfold afterOneKey at loads
  split at loads
  · rename_i e accepted
    obtain ⟨⟨l,r⟩,kept,ends⟩ := (Option.any_eq_true _ _).mp loads
    simp only [Bool.and_eq_true,beq_iff_eq] at ends
    obtain ⟨⟨fine,as_wanted⟩,well⟩ := ends
    split at well
    · rename_i sent ended
      obtain ⟨ending,at_end,same⟩ := Option.map_eq_some_iff.mp ended
      have own : ∀ i, Event.outside i ∉ oneKey := fun i member => by simp [oneKey] at member
      exact ⟨e,r,accepted,⟨_,_,_,_,l,sent,by decide,keep_traced Traced.start kept,own,fine,
        at_end.trans (congrArg some same)⟩,as_wanted⟩
    · cases well
  · cases loads

/-- Whether the engine has one pattern, of this depth and with instances of every level, each of which passes. -/
def hasLevels (e : Engine) (depth : Nat) (check : Pattern.Level → Bool) : Bool :=
  match e.keySpace.patterns with
  | [p] => p.depth == depth && p.levels.all fun l => 0 < l.count && check l
  | _ => false

theorem levels_of_check {e : Engine} {depth : Nat} {check : Pattern.Level → Bool}
    (checked : e.hasLevels depth check = true) :
    ∃ p, e.keySpace.patterns = [p] ∧ p.depth = depth ∧ ∀ l ∈ p.levels, 0 < l.count ∧ check l = true := by
  unfold hasLevels at checked
  split at checked
  · rename_i p single
    obtain ⟨same,levels⟩ := Bool.and_eq_true_iff.mp checked
    exact ⟨p,single,beq_iff_eq.mp same,fun l member => by simpa using List.all_eq_true.mp levels l member⟩
  · cases checked

/-- Whether a list of the engine names a key that the store of a run does not hold. -/
def misses (e : Engine) (level : Nat) (r : Run Xoshiro) : Bool :=
  match e.keySpace.prefixes level with
  | .ok keys => keys.any fun key => !r.site.memory.keys.contains key
  | .error _ => false

private theorem missed {e : Engine} {level : Nat} {r : Run Xoshiro} (misses : e.misses level r = true) :
    ∃ keys, e.keySpace.prefixes level = .ok keys ∧ ∃ key ∈ keys, key ∉ r.site.memory.keys := by
  unfold Engine.misses at misses
  split at misses
  · rename_i keys listed
    obtain ⟨key,member,absent⟩ := Array.any_eq_true'.mp misses
    exact ⟨keys,listed,key,member,by simpa using absent⟩
  · cases misses

/-- A load of a single pattern fills the list of a level where every name down to the level is steady. These are all
patterns whose loads do so whatever their random sources, as far as names hold no slashes and can be drawn. -/
theorem load_fills {s : Settings} {seed : UInt64} {e : Engine} {p : Pattern} {level : Nat}
    (accepted : new s seed = ExceptT.mk (.ok (.ok e))) (single : e.keySpace.patterns = [p])
    (positive : ∀ l ∈ p.levels, 0 < l.count) (inside : level < p.depth) :
    ((∀ l ∈ p.levels.take (level + 1), l.Steady) → ∀ r, e.HasLoaded r → e.Filled p level r) ∧
      ((∀ l ∈ p.levels.take (level + 1), l.Unslashed) → (∀ l ∈ p.levels, l.Drawable) →
        (Agrees p level ↔ ∀ l ∈ p.levels.take (level + 1), l.Steady)) := by
  have compiled : Pattern.Compiled p := new_compiled accepted p (by rw [single]; exact List.mem_cons_self)
  have leafLast := Pattern.Compiler.compiled_leafLast compiled
  refine ⟨fun steady r loaded => ?_,fun unslashed drawable => ⟨?_,?_⟩⟩
  · exact loaded.filled single (agrees_of_steady leafLast positive inside steady)
  · exact steady_of_agrees leafLast positive inside unslashed drawable
  · exact agrees_of_steady leafLast positive inside

/-- An engine of one pattern that draws no names, and what the store holds after its load. -/
theorem literal_fills : ∃ e p r, new (plainly "/a/n;z") 1 = ExceptT.mk (.ok (.ok e)) ∧ e.keySpace.patterns = [p] ∧
    (∀ l ∈ p.levels, 0 < l.count) ∧ 0 < p.depth ∧ (∀ l ∈ p.levels.take 1, l.Steady) ∧ e.HasLoaded r ∧
    e.Filled p 0 r := by
  have loads : afterOneKey "/a/n;z" 1 (fun e _ => e.hasLevels 2 fun l => !l.isRandom) = true := by decide +kernel
  obtain ⟨e,r,accepted,loaded,plain⟩ := loads_one_key loads
  obtain ⟨p,single,depth,levels⟩ := levels_of_check plain
  have inside : 0 < p.depth := by omega
  have positive (l : Pattern.Level) (member : l ∈ p.levels) : 0 < l.count := (levels l member).1
  have steady (l : Pattern.Level) (member : l ∈ p.levels.take 1) : l.Steady := by
    have fixed := (levels l (List.mem_of_mem_take member)).2
    exact Pattern.Level.fixed_steady (by simpa using fixed)
  exact ⟨e,p,r,accepted,single,positive,inside,steady,loaded,
    (load_fills accepted single positive inside).1 steady r loaded⟩

/-- A pattern with a random name: the list of a level names a key that the store does not hold. -/
theorem random_unfilled : ¬∀ (s : Settings) (seed : UInt64) (e : Engine) (p : Pattern) (level : Nat)
    (r : Run Xoshiro), new s seed = ExceptT.mk (.ok (.ok e)) → e.keySpace.patterns = [p] →
      (∀ l ∈ p.levels, 0 < l.count) → level < p.depth → e.HasLoaded r → e.Filled p level r := by
  intro fills
  have loads : afterOneKey "/![a-z]{10}/n;z" 1 (fun e r => e.hasLevels 2 (fun _ => true) && e.misses 1 r) = true := by
    decide +kernel
  obtain ⟨e,r,accepted,loaded,checked⟩ := loads_one_key loads
  obtain ⟨plain,misses⟩ := Bool.and_eq_true_iff.mp checked
  obtain ⟨p,single,depth,levels⟩ := levels_of_check plain
  obtain ⟨keys,listed,key,member,absent⟩ := missed misses
  have positive (l : Pattern.Level) (at_l : l ∈ p.levels) : 0 < l.count := (levels l at_l).1
  have filled := fills _ _ e p 1 r accepted single positive (by omega) loaded keys listed key member
  rw [Populates,if_pos depth.symm] at filled
  exact absent filled

end Keyload.Engine
