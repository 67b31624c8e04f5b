import Keyload.Proofs.Pattern.VisitOrder
import Keyload.Run.Engine

/-!
Engines of one seed. What an engine makes of its settings does not depend on the order in which the builder rules are
visited exactly where the rules are free to be ordered: the patterns are compiled against the rules by name, and the
seed of the prefix lists is the next word after what the rules have drawn.
-/
namespace Keyload

/-- The same settings with the builder rules in another order. -/
def Settings.visiting (s : Settings) (order : List (String × Pattern.BuilderDefinition)) : Settings :=
  { s with workload := { s.workload with builderRules := order } }

namespace Engine
open Pattern (visit OrderFree Builder BuilderDefinition BuilderTable Compiler Compile ValueSpec)
open Pattern (map_cancel bind_in_sight)
open Draw (Ahead heard later outcome heard_add)

section
variable {σ : Type} [RandomSource σ]

/-- The key space of compiled patterns, with the next word as its seed. -/
def seeded (compiled : Except DefinitionError (List Pattern) × Compiler) :
    ExceptT DefinitionError (Draw σ) (Compiler × KeySpace) :=
  match compiled.1 with
  | .error e => throw e
  | .ok patterns => do
    let seed ← (Draw.word : Draw σ Nat)
    match KeySpace.new patterns (UInt64.ofNat seed) with
    | .ok ks => pure (compiled.2,ks)
    | .error e => throw e

/-- The key space of patterns, with the rules as compiling has left them. -/
def draftFrom (patterns : List String) (compiler : Compiler) :
    ExceptT DefinitionError (Draw σ) (Compiler × KeySpace) :=
  ((Compiler.compileAll patterns).run compiler : Draw σ _) >>= seeded

/-- The key space of declared rules and patterns, with the rules as compiling has left them. -/
def draft (rules : List (String × BuilderDefinition)) (patterns : List String) (spec : Option ValueSpec) :
    ExceptT DefinitionError (Draw σ) (Compiler × KeySpace) :=
  Compiler.new rules spec >>= draftFrom patterns

theorem compile_draft (s : Settings) (spec : Option ValueSpec) :
    (compile s spec : ExceptT DefinitionError (Draw σ) KeySpace) =
      Prod.snd <$> draft s.workload.builderRules s.workload.patterns spec := by
  unfold compile draft
  rw [map_bind]
  refine congrArg _ (funext fun compiler => ?_)
  unfold draftFrom
  rw [map_bind]
  dsimp only
  refine congrArg _ (funext fun compiled => ?_)
  unfold seeded
  cases compiled.1 with
  | error e => rfl
  | ok patterns =>
    dsimp only
    rw [map_bind]
    refine congrArg _ (funext fun seed => ?_)
    cases KeySpace.new patterns (UInt64.ofNat seed) <;> rfl

/-- What comes of the rules, in the names that each of them has, and of the patterns. -/
def shown (rules : List (String × BuilderDefinition)) (patterns : List String) (spec : Option ValueSpec) (g : σ) :
    Outcome DefinitionError ((String → Option Builder) × KeySpace) :=
  (fun r => (r.1.1.builders.look,r.1.2)) <$> outcome (draft rules patterns spec) g

omit [RandomSource σ] in
private theorem outcome_lift {ε α β : Type} (x : Draw σ α) (f : α → ExceptT ε (Draw σ) β) (g : σ) :
    outcome ((x : ExceptT ε (Draw σ) α) >>= f) g = ExceptT.mk ((x g).bind fun r => (outcome (f r.1) r.2).run) := by
  have drawn : outcome (x : ExceptT ε (Draw σ) α) g = ExceptT.mk ((x g).map .ok) := by
    show ExceptT.mk (((x g).bind fun r => Except.ok (Except.ok r.1,r.2)).map _) = _
    cases x g <;> rfl
  rw [Draw.outcome_bind,drawn]
  cases x g <;> rfl

private theorem seeded_ok (patterns : List Pattern) (c : Compiler) (g : σ) :
    outcome (seeded (.ok patterns,c)) g =
      ExceptT.mk (.ok ((KeySpace.new patterns (RandomSource.next g).1).map fun ks =>
        ((c,ks),(RandomSource.next g).2))) := by
  have word : (Draw.word : Draw σ Nat) g = .ok ((RandomSource.next g).1.toNat,(RandomSource.next g).2) := rfl
  have seed : UInt64.ofNat (RandomSource.next g).1.toNat = (RandomSource.next g).1 := UInt64.ofNat_toNat
  unfold seeded
  dsimp only
  rw [outcome_lift,word]
  simp only [Except.bind,seed]
  cases KeySpace.new patterns (RandomSource.next g).1 <;> rfl

private theorem seeded_byName (r : Except DefinitionError (List Pattern)) {c c' : Compiler} (same : c.sight = c'.sight)
    (g : σ) : (fun r => (r.1.1.builders.look,r.1.2)) <$> outcome (seeded (r,c)) g =
      (fun r => (r.1.1.builders.look,r.1.2)) <$> outcome (seeded (r,c')) g := by
  cases r with
  | error e => rfl
  | ok patterns =>
    have tables : c.builders.look = c'.builders.look := congrArg Prod.fst same
    rw [seeded_ok,seeded_ok]
    cases KeySpace.new patterns (RandomSource.next g).1 with
    | error e => rfl
    | ok ks =>
      show (pure (c.builders.look,ks) : Outcome DefinitionError _) = pure (c'.builders.look,ks)
      rw [tables]

theorem draftFrom_byName (patterns : List String) {c c' : Compiler} (same : c.sight = c'.sight) (g : σ) :
    (fun r => (r.1.1.builders.look,r.1.2)) <$> outcome (draftFrom patterns c) g =
      (fun r => (r.1.1.builders.look,r.1.2)) <$> outcome (draftFrom patterns c') g := by
  have byName := Compiler.compileAll_byName patterns c c' g same
  have first (c : Compiler) : outcome (draftFrom patterns c) g =
      ExceptT.mk (((Compiler.compileAll patterns).run c g).bind fun r => (outcome (seeded r.1) r.2).run) :=
    outcome_lift _ _ g
  rw [first,first]
  match run : (Compiler.compileAll patterns).run c g,run' : (Compiler.compileAll patterns).run c' g with
  | .error e,.error e' =>
    rw [run,run'] at byName
    cases byName
    rfl
  | .error e,.ok r' =>
    rw [run,run'] at byName
    cases byName
  | .ok r,.error e' =>
    rw [run,run'] at byName
    cases byName
  | .ok ((r,d),h),.ok ((r',d'),h') =>
    rw [run,run'] at byName
    obtain ⟨both,sources⟩ := Prod.mk.inj (Except.ok.inj byName)
    obtain ⟨results,after⟩ := Prod.mk.inj both
    change h = h' at sources
    change r = r' at results
    subst sources results
    exact seeded_byName r after h

private theorem shown_split (rules : List (String × BuilderDefinition)) (patterns : List String)
    (spec : Option ValueSpec) (g : σ) : shown rules patterns spec g =
      outcome (BuilderTable.empty.add rules) g >>= fun r =>
        (fun r => (r.1.1.builders.look,r.1.2)) <$> outcome (draftFrom patterns ⟨r.1,spec⟩) r.2 := by
  unfold shown draft Compiler.new
  rw [bind_assoc,Draw.outcome_bind,map_bind]
  rfl

/-- Rules that look the same after the visits lead to the same engine. -/
theorem shown_of_visit {rules order : List (String × BuilderDefinition)} {g : σ} (same : visit order g = visit rules g)
    (patterns : List String) (spec : Option ValueSpec) :
    shown order patterns spec g = shown rules patterns spec g := by
  rw [shown_split,shown_split]
  refine bind_in_sight same fun a b equal => ?_
  obtain ⟨tables,sources⟩ := Prod.mk.inj equal
  have same_sight : (⟨a.1,spec⟩ : Compiler).sight = (⟨b.1,spec⟩ : Compiler).sight :=
    congrArg (fun look => (look,spec)) tables
  rw [sources]
  exact draftFrom_byName patterns same_sight b.2

/-! ### A pattern that draws nothing -/

private theorem plain_compiles : ∃ p : Pattern, ∀ (t : BuilderTable) (g : σ),
    (Compiler.compileAll ["k;v"] : Compile σ (List Pattern)).run ⟨t,none⟩ g = .ok ((.ok [p],⟨t,none⟩),g) :=
  ⟨_,fun _ _ => rfl⟩

/-- With a pattern that draws nothing, an engine shows the rules and the word after them. -/
private theorem shown_plain : ∃ show_ : (String → Option Builder) × UInt64 → (String → Option Builder) × KeySpace,
    show_.Injective ∧ ∀ (rules : List (String × BuilderDefinition)) (g : σ),
      shown rules ["k;v"] none g =
        (fun r : (String → Option Builder) × σ => show_ (r.1,(RandomSource.next r.2).1)) <$> visit rules g := by
  obtain ⟨p,compiles⟩ := plain_compiles (σ := σ)
  refine ⟨fun r => (r.1,⟨[p],r.2,by simp⟩),fun r r' equal => ?_,fun rules g => ?_⟩
  · obtain ⟨tables,spaces⟩ := Prod.mk.inj equal
    exact Prod.ext tables (congrArg KeySpace.seed spaces)
  · rw [shown_split,visit,Functor.map_map,← bind_pure_comp]
    refine congrArg _ (funext fun r => ?_)
    have compiled := compiles r.1 r.2
    unfold draftFrom
    rw [outcome_lift,compiled]
    show _ <$> outcome (seeded (.ok [p],⟨r.1,none⟩)) r.2 = _
    rw [seeded_ok]
    rfl

end

/-! ### All orders -/

private theorem next_word (w : UInt64) : w ≠ w + 1 := by
  intro same
  have numbers : w.toNat = (w.toNat + 1) % 2 ^ 64 := (congrArg UInt64.toNat same).trans (UInt64.toNat_add w 1)
  have := w.toNat_lt
  omega

section
variable {σ : Type} [RandomSource σ] {rules order : List (String × BuilderDefinition)}

/-- The word after the rules tells how many words they have drawn. -/
private theorem no_further {g : σ} {f f' : String → Option Builder}
    (agree : ∀ (τ : Type) [RandomSource τ] (k : τ), shown order ["k;v"] none k = shown rules ["k;v"] none k)
    {m n : Nat} (fewer : m < n) (heard_m : ∀ (rest : List UInt64) (k : σ),
      visit order (⟨heard m g ++ rest,k⟩ : Ahead σ) = pure (f,⟨rest,k⟩))
    (heard_n : ∀ (rest : List UInt64) (k : σ), visit rules (⟨heard n g ++ rest,k⟩ : Ahead σ) = pure (f',⟨rest,k⟩)) :
    False := by
  obtain ⟨show_,injective,plain⟩ := shown_plain (σ := Ahead σ)
  obtain ⟨w,ws,more⟩ : ∃ w ws, heard n g = heard m g ++ w :: ws := by
    obtain ⟨i,rfl⟩ := Nat.exists_eq_add_of_lt fewer
    rw [Nat.add_assoc,heard_add]
    exact ⟨_,_,rfl⟩
  have one := heard_m (w :: ws ++ [w + 1]) g
  have other := heard_n [w + 1] g
  rw [more,List.append_assoc] at other
  have same := agree (Ahead σ) ⟨heard m g ++ (w :: ws ++ [w + 1]),g⟩
  rw [plain,plain,one,other,map_pure,map_pure] at same
  have words := injective (Except.ok.inj (Except.ok.inj same))
  exact next_word w (congrArg Prod.snd words)

/-- Orders that show the same engines come to the same, down to the source. -/
theorem visit_of_shown
    (agree : ∀ (τ : Type) [RandomSource τ] (k : τ), shown order ["k;v"] none k = shown rules ["k;v"] none k) (g : σ) :
    visit order g = visit rules g := by
  obtain ⟨show_,injective,plain⟩ := shown_plain (σ := σ)
  have same := agree σ g
  rw [plain,plain] at same
  refine map_cancel same fun r r' run run' equal => ?_
  obtain ⟨f,h⟩ := r
  obtain ⟨f',h'⟩ := r'
  obtain ⟨m,after,heard_m⟩ := Pattern.visit_heard run
  obtain ⟨n,after',heard_n⟩ := Pattern.visit_heard run'
  have tables : f = f' := congrArg Prod.fst (injective equal)
  rcases Nat.lt_trichotomy m n with fewer | rfl | fewer
  · exact (no_further agree fewer heard_m heard_n).elim
  · rw [tables,after,after']
  · exact (no_further (fun τ _ k => (agree τ k).symm) fewer heard_n heard_m).elim

end

theorem new_shown (s : Settings) (seed : UInt64) : keySpace <$> new s seed =
    match valueSpec s with
    | .error e => throw e
    | .ok spec => Prod.snd <$> shown s.workload.builderRules s.workload.patterns spec (Xoshiro.ofStream seed 0) := by
  unfold new
  cases valueSpec s with
  | error e => rfl
  | ok spec =>
    dsimp only
    rw [compile_draft,shown,Functor.map_map,outcome,ExceptT.run_map,Draw.map_apply]
    cases (draft s.workload.builderRules s.workload.patterns spec).run (Xoshiro.ofStream seed 0) with
    | error e => rfl
    | ok r =>
      obtain ⟨r,h⟩ := r
      cases r <;> rfl

/-- Whether the order of the builder rules matters to engines: to their key spaces, whatever the other settings and
the seed, and to the names of the rules, whatever source they are drawn from. -/
theorem orders_agree_iff (rules : List (String × BuilderDefinition)) :
    OrderFree rules ↔ ∀ (s : Settings) (order : List (String × BuilderDefinition)),
      s.workload.builderRules = rules → order.Perm rules →
        (∀ seed, keySpace <$> new (s.visiting order) seed = keySpace <$> new s seed) ∧
        ∀ (spec : Option ValueSpec) (σ : Type) [RandomSource σ] (g : σ),
          shown order s.workload.patterns spec g = shown rules s.workload.patterns spec g := by
  constructor
  · rintro free s order rfl perm
    refine ⟨fun seed => ?_,fun spec σ _ g => shown_of_visit (free.visit perm g) _ spec⟩
    rw [new_shown,new_shown]
    show (match valueSpec s with
      | .error e => throw e
      | .ok spec => Prod.snd <$> shown order s.workload.patterns spec (Xoshiro.ofStream seed 0)) = _
    cases valueSpec s with
    | error e => rfl
    | ok spec =>
      dsimp only
      rw [shown_of_visit (free.visit perm _)]
  · intro agree
    refine Pattern.orderFree_of_visit fun order perm σ _ g => visit_of_shown (fun τ _ k => ?_) g
    let s : Settings := { Settings.standard with
      workload := { Settings.standard.workload with patterns := ["k;v"], builderRules := rules } }
    exact (agree s order rfl perm).2 none τ k

/-! ### Where engines differ -/

/-- The list of a level, if there is an engine. -/
def listed (s : Settings) (seed : UInt64) (level : Nat) : Except Fault (Except DefinitionError (Except Fault String)) :=
  ((fun e => e.keySpace.keyList level) <$> new s seed).run

/-- A pattern that uses one of two rules. -/
def between (one other : String × BuilderDefinition) : Settings :=
  { Settings.standard with
    workload := { Settings.standard.workload with patterns := ["/:r;z"], builderRules := [one,other] } }

/-- Of two rules whose names differ in case alone, the one that is visited last counts. -/
theorem orders_disagree : ¬∀ (s : Settings) (order : List (String × BuilderDefinition)) (seed : UInt64) (level : Nat),
    (s.workload.builderRules.map Prod.fst).Nodup → order.Perm s.workload.builderRules →
      listed (s.visiting order) seed level = listed s seed level := by
  intro agree
  let x : String × BuilderDefinition := ("R",⟨["x"],none,1,0⟩)
  let y : String × BuilderDefinition := ("r",⟨["y"],none,1,0⟩)
  have apart : ((between x y).workload.builderRules.map Prod.fst).Nodup := by decide +kernel
  have same := agree (between x y) [y,x] 7 0 apart (.swap ..)
  have differ : listed ((between x y).visiting [y,x]) 7 0 ≠ listed (between x y) 7 0 := by decide +kernel
  exact differ same

/-- Of two rules that draw from one source, the names of each depend on which is visited first. -/
example : listed (between ("r",⟨[],some "[a-z]{8}",1,0⟩) ("s",⟨[],some "[0-9]{8}",1,0⟩)) 7 0 ≠
    listed (between ("s",⟨[],some "[0-9]{8}",1,0⟩) ("r",⟨[],some "[a-z]{8}",1,0⟩)) 7 0 := by decide +kernel

end Engine

end Keyload
