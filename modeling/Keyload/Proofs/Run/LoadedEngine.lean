import Keyload.Proofs.Run.Loads

/-!
Loads of an engine that draws no names. Whatever the order of turns, each of them sends as many keys as are wanted, and
after the first one the store has the keys of a full pass as far as they were reached: as many as the engine addresses,
where the total is that of its settings. Further loads of the same total change nothing.
-/
namespace Keyload.Engine
open Bounded (Complete Fixed passTexts)
open Run (Loads Smooth Smoothly)

/-- Whatever is drawn, a full pass over the patterns yields these keys. -/
def Passes (e : Engine) (keys : List String) : Prop :=
  ∀ g : Xoshiro, ∃ (n : Nat) (es : Array Entry) (b : Bounded) (h : Xoshiro),
    (e.keySpace.keys 0).take n #[] g = .ok ((es,true,b),h) ∧ es.toList.map Entry.key = keys

private theorem Passes.walked {e : Engine} {keys : List String} (passes : e.Passes keys) (g : Xoshiro) :
    ∃ es h, Bounded.passWalk e.keySpace.patterns g = .ok (es,h) ∧ es.map Entry.key = keys := by
  obtain ⟨n,es,b,h,taken,same⟩ := passes g
  obtain ⟨as,drawn,rfl⟩ := Bounded.take_all rfl taken
  rw [KeySpace.keys,Bounded.remaining_start] at drawn
  exact ⟨as,h,drawn,by simpa using same⟩

/-- A full pass comes to its end where names are fixed and no value can stop its draw. -/
theorem passes_of_values {s : Settings} {seed : UInt64} {e : Engine} (accepted : new s seed = ExceptT.mk (.ok (.ok e)))
    (fixed : Fixed e.keySpace.patterns) (narrow : ∀ p ∈ e.keySpace.patterns, ∀ l ∈ p.levels, l.Narrow)
    (valued : ∀ p ∈ e.keySpace.patterns, ∀ l ∈ p.levels, ∀ f, ¬l.ValueFault f) :
    e.Passes (passTexts e.keySpace.patterns) := by
  intro g
  have compiled := new_compiled accepted
  let all := (e.keySpace.patterns.map fun p => (p.levels.map Pattern.Level.count).prod).sum
  rcases Bounded.take_exactly e.keySpace.patterns_ne_nil compiled narrow 0 (all + 1) g with
    ⟨f,-,p,member,l,level,fault⟩ | ⟨es,b,h,taken,-⟩
  · rcases fault with ⟨x,σ,_,g,random,-⟩ | fault
    · have named := fixed p member l level
      rw [Pattern.Level.isRandom,random] at named
      cases named
    · exact absurd fault (valued p member l level f)
  · have ended : decide ((if 0 = 0 then all else if all = 0 then 0 else 0) < all + 1) = true :=
      decide_eq_true (Nat.lt_succ_self all)
    rw [ended] at taken
    refine ⟨all + 1,es,b,h,taken,?_⟩
    obtain ⟨as,drawn,rfl⟩ := Bounded.take_all rfl taken
    rw [Bounded.remaining_start] at drawn
    have leafLast (p : Pattern) (member : p ∈ e.keySpace.patterns) : Cursor.LeafLast p.levels :=
      Pattern.Compiler.compiled_leafLast (compiled p member)
    simpa using Bounded.passWalk_keys leafLast fixed drawn

/-- The keys that an engine addresses are those that a load of its total reaches. -/
theorem addressed_eq {e : Engine} (few : (passTexts e.keySpace.patterns).length < Word.limit) :
    e.addressed = (Bounded.reached e.settings.initialTotal (passTexts e.keySpace.patterns)).length := by
  have size : e.keySpace.size = (passTexts e.keySpace.patterns).length := by
    rw [KeySpace.size_eq]
    exact Nat.min_eq_left (Nat.le_sub_one_of_lt few)
  rw [addressed,size,Bounded.length_reached]
  split_ifs <;> omega

/-- A run of loads at its beginning. -/
private theorem loads_begin {e : Engine} {times total nowMs : Nat} {site : Site} {pool : Pool}
    (empty : site.memory.keys = []) (free : ∀ c ∈ pool.clients, c.line = []) :
    let plan : LoadPlan := ⟨e.keySpace.patterns,times,total,pool.size⟩
    Loads plan (Run.ofEngine e (.loads times total) site pool nowMs) (1 + times * plan.turns) := by
  intro plan
  have nothing (key : String) : key ∉ site.memory.data := by
    rw [← Std.TreeMap.mem_keys]
    show key ∉ site.memory.keys
    rw [empty]
    exact List.not_mem_nil
  refine .beginning rfl rfl ⟨⟨rfl,rfl,rfl,rfl⟩,⟨rfl,rfl,rfl⟩,?_,fun w inside => ?_,?_⟩
  · exact ⟨rfl,fun _ member => absurd member List.not_mem_nil,rfl,fun _ member => absurd member List.not_mem_nil⟩
  · obtain ⟨k,at_w⟩ : ∃ k, pool.clients[w]? = some k := ⟨_,List.getElem?_eq_getElem inside⟩
    exact ⟨k,at_w,free k (List.mem_of_getElem? at_w)⟩
  · exact ⟨fun key stored => absurd stored (nothing key),fun started => absurd started (Nat.lt_irrefl 0)⟩

/-- Loads of an engine whose names are fixed and whose full pass has no key twice, into an empty store over clients that
nobody waits for, in any order of turns in which nothing fails. They end, for there is a bound on the turns and somebody
can go on until the end, and then each has sent as many keys as are wanted. Once the first one is done, and during all
that follow, the keys in the store are those of the pass that were reached. -/
theorem loads_fill {s : Settings} {seed : UInt64} {e : Engine} {keys : List String} {site : Site} {pool : Pool}
    (accepted : new s seed = ExceptT.mk (.ok (.ok e))) (fixed : Fixed e.keySpace.patterns) (passes : e.Passes keys)
    (distinct : keys.Nodup) (few : keys.length < Word.limit) (empty : site.memory.keys = []) (manned : 0 < pool.size)
    (free : ∀ c ∈ pool.clients, c.line = []) (times total nowMs : Nat) {turns : Nat} {r : Run Xoshiro}
    (smoothly : Smoothly (Run.ofEngine e (.loads times total) site pool nowMs) turns r) :
    let sent := if total = 0 then keys.length else if keys.length = 0 then 0 else total
    let reached := if total = 0 then keys else keys.take (min total keys.length)
    turns ≤ 1 + times * (8 * sent + pool.size + 2) ∧
      (r.ending? = none → ∃ ms who next, (r.pass ms).move who = some next) ∧
      (∀ x, r.ending? = some x → x = ExceptT.mk (.ok (.ok (.loaded (List.replicate times sent))))) ∧
      ∀ c, r.course = some c → c.loaded ≠ [] →
        (∀ key, key ∈ r.site.memory.keys ↔ key ∈ reached) ∧
          (total = e.settings.initialTotal → r.site.memory.size = e.addressed) := by
  intro sent reached
  have compiled := new_compiled accepted
  have leafLast (p : Pattern) (member : p ∈ e.keySpace.patterns) : Cursor.LeafLast p.levels :=
    Pattern.Compiler.compiled_leafLast (compiled p member)
  have complete : Complete Xoshiro e.keySpace.patterns := fun g => by
    obtain ⟨es,h,walked,-⟩ := passes.walked g
    exact ⟨es,h,walked⟩
  have pass : passTexts e.keySpace.patterns = keys := by
    obtain ⟨es,h,walked,same⟩ := passes.walked (e.stream 0)
    exact (Bounded.passWalk_keys leafLast fixed walked).symm.trans same
  subst pass
  obtain ⟨left,loads,bound⟩ := smoothly.loads e.keySpace.patterns_ne_nil manned leafLast fixed complete
    (loads_begin empty free)
  refine ⟨(Nat.le_add_right turns left).trans bound,loads.goes_on manned,fun x => loads.ends_well,
    fun c course some_done => ?_⟩
  have stored (key : String) : key ∈ r.site.memory.keys ↔ key ∈ reached :=
    Std.TreeMap.mem_keys.trans (loads.stored course some_done key)
  refine ⟨stored,fun settings_total => ?_⟩
  have distinct_reached : reached.Nodup := by
    show (Bounded.reached total _).Nodup
    unfold Bounded.reached
    split_ifs
    · exact distinct
    · exact distinct.sublist (List.take_sublist ..)
  rw [Memory.size_of_keys distinct_reached stored,addressed_eq few,← settings_total]
  rfl

/-! ### An engine of two keys -/

/-- Whether names are fixed and not too wide, and values, if there are any, a fixed text. -/
def isPlain (l : Pattern.Level) : Bool :=
  (match l.segment with
    | .names _ => true
    | .format f => decide (f.verb.width ≤ Pattern.Format.widest)
    | .random _ => false) &&
  match l.value with
  | none => true
  | some (.regex ⟨_,.literal count _⟩) => count == .once
  | some _ => false

private theorem plain_level {l : Pattern.Level} (plain : isPlain l = true) :
    l.isRandom = false ∧ l.Narrow ∧ ∀ f, ¬l.ValueFault f := by
  obtain ⟨named,valued⟩ := Bool.and_eq_true_iff.mp plain
  unfold Pattern.Level.isRandom Pattern.Level.Narrow
  refine ⟨?_,fun f at_f => ?_,?_⟩
  · split at named
    · rename_i segment
      rw [segment]
    · rename_i segment
      rw [segment]
    · cases named
  · simpa [at_f] using named
  · rintro f ⟨σ,_,g,stopped⟩
    unfold Pattern.Level.drawValue at stopped
    split at valued
    · rename_i unvalued
      rw [unvalued] at stopped
      cases stopped
    · rename_i source count text value
      obtain rfl := beq_iff_eq.mp valued
      rw [value] at stopped
      cases stopped
    · cases valued

/-- The turns of load `j` over one client that carries out every put before the next one is drawn. -/
def oneByOne (j puts : Nat) : List Participant :=
  (List.replicate puts [.producer j,.producer j,.producer j,.worker j 0,.worker j 0,.worker j 0]).flatten ++
    [.producer j,.worker j 0,.main]

/-- Two loads of three keys each. -/
def threeTwice (e : Engine) : Option (Run Xoshiro) :=
  Run.takeTurns (.main :: (oneByOne 0 3 ++ oneByOne 1 3))
    (Run.ofEngine e (.loads 2 3) (Site.fresh .prompt .empty) (Pool.deal [0] 1) 0)

/-- Settings for a load of three keys where there are two. -/
def threeKeys : Settings :=
  { plainly "/a/%k%d[2];z" with workload := { (plainly "/a/%k%d[2];z").workload with total := 3 } }

/-- Two loads of three keys of two, over one client: the store has both keys. -/
theorem threeTwice_fill : ∃ e r, new threeKeys 1 = ExceptT.mk (.ok (.ok e)) ∧ Fixed e.keySpace.patterns ∧
    e.Passes ["/a/k0","/a/k1"] ∧ e.settings.initialTotal = 3 ∧
    Smoothly (Run.ofEngine e (.loads 2 3) (Site.fresh .prompt .empty) (Pool.deal [0] 1) 0) 43 r ∧
    r.ending? = some (ExceptT.mk (.ok (.ok (.loaded [3,3])))) ∧
    (∀ key, key ∈ r.site.memory.keys ↔ key ∈ ["/a/k0","/a/k1"]) ∧ r.site.memory.size = e.addressed := by
  have checked : ((new threeKeys 1).run.toOption.bind Except.toOption).any (fun e =>
      (e.keySpace.patterns.all fun p => p.levels.all isPlain) && passTexts e.keySpace.patterns == ["/a/k0","/a/k1"] &&
        e.settings.initialTotal == 3 &&
        e.threeTwice.any fun r => r.ending?.isSome && r.course.any fun c => c.loaded == [3,3]) = true := by
    decide +kernel
  obtain ⟨e,made,checked⟩ := (Option.any_eq_true _ _).mp checked
  simp only [Bool.and_eq_true,beq_iff_eq,List.all_eq_true] at checked
  obtain ⟨⟨⟨plain,keys⟩,total⟩,run⟩ := checked
  obtain ⟨r,turns,run⟩ := (Option.any_eq_true _ _).mp run
  obtain ⟨finished,course⟩ := Bool.and_eq_true_iff.mp run
  obtain ⟨c,at_c,loaded⟩ := (Option.any_eq_true _ _).mp course
  obtain ⟨x,ended⟩ := Option.isSome_iff_exists.mp finished
  have accepted := new_of_toOption made
  have fixed : Fixed e.keySpace.patterns := fun p at_p l at_l => (plain_level (plain p at_p l at_l)).1
  have passes : e.Passes ["/a/k0","/a/k1"] := keys ▸ passes_of_values accepted fixed
    (fun p at_p l at_l => (plain_level (plain p at_p l at_l)).2.1)
    (fun p at_p l at_l => (plain_level (plain p at_p l at_l)).2.2)
  have smoothly := Run.takeTurns_smoothly .start turns
  obtain ⟨-,-,well,stored⟩ := loads_fill accepted fixed passes (by decide) (by decide) rfl (by decide) (by decide)
    2 3 0 smoothly
  have some_done : c.loaded ≠ [] := by
    rw [beq_iff_eq.mp loaded]
    exact List.cons_ne_nil 3 [3]
  obtain ⟨same,size⟩ := stored c at_c some_done
  exact ⟨e,r,accepted,fixed,passes,total,smoothly,ended.trans (congrArg some (well x ended)),same,size total.symm⟩

end Keyload.Engine
