import Keyload.Proofs.Pattern.ByName
import Keyload.Proofs.Pattern.Grammar

/-!
Builder rules grow. What a pattern asks for is appended to the names a rule has, and nothing else about the rules
changes; so the terms on which patterns may refer to them stay the same.
-/
namespace Keyload.Pattern

/-! ### Rules -/

namespace Builder

/-- A rule later on: more names at most, and none at all if its values are fixed. -/
structure Grows (b b' : Builder) : Prop where
  name : b'.name = b.name
  count : b'.count = b.count
  max : b'.max = b.max
  generator : b'.generator = b.generator
  instances : b.instances.toList <+: b'.instances.toList
  fixed : b.generator = none → b'.instances = b.instances

theorem Grows.refl (b : Builder) : b.Grows b := ⟨rfl,rfl,rfl,rfl,List.prefix_rfl,fun _ => rfl⟩

theorem Grows.trans {b b' b'' : Builder} (grows : b.Grows b') (grows' : b'.Grows b'') : b.Grows b'' where
  name := grows'.name.trans grows.name
  count := grows'.count.trans grows.count
  max := grows'.max.trans grows.max
  generator := grows'.generator.trans grows.generator
  instances := grows.instances.trans grows'.instances
  fixed fixed := (grows'.fixed (grows.generator.trans fixed)).trans (grows.fixed fixed)

theorem Grows.size_le {b b' : Builder} (grows : b.Grows b') : b.instances.size ≤ b'.instances.size := by
  simpa using grows.instances.length_le

theorem extract_toList (names : Array String) (n : Nat) : (names.extract 0 n).toList = names.toList.take n := by
  rw [Array.toList_extract,List.extract_eq_take_drop,List.drop_zero,Nat.sub_zero]

/-- The first names stay the first names. -/
theorem Grows.extract {b b' : Builder} (grows : b.Grows b') {n : Nat} (enough : n ≤ b.instances.size) :
    b'.instances.extract 0 n = b.instances.extract 0 n := by
  obtain ⟨more,split⟩ := grows.instances
  apply Array.toList_inj.mp
  rw [extract_toList,extract_toList,← split,List.take_append_of_le_length (by simpa using enough)]

/-- The terms on which patterns may refer to the rule. -/
def terms (b : Builder) : Terms := ⟨b.count,b.max,if b.generator = none then some b.instances.size else none⟩

theorem Grows.terms {b b' : Builder} (grows : b.Grows b') : b'.terms = b.terms := by
  unfold Builder.terms
  rw [grows.count,grows.max,grows.generator]
  by_cases fixed : b.generator = none
  · rw [if_pos fixed,if_pos fixed,grows.fixed fixed]
  · rw [if_neg fixed,if_neg fixed]

theorem checkCount_allowed {b : Builder} {n : Nat} (allowed : b.checkCount n = .ok ()) : b.terms.Allows n := by
  unfold checkCount at allowed
  split at allowed
  · cases allowed
  · rename_i within
    split at allowed
    · cases allowed
    · rename_i enough
      refine ⟨by simp only [terms]; omega,fun m listed => ?_⟩
      simp only [terms] at listed
      split at listed
      · rename_i fixed
        cases listed
        simp only [fixed,Option.isNone_none,true_and,Nat.not_lt] at enough
        exact enough
      · cases listed

/-- Why a count is refused: it exceeds the bound, or else the fixed values. -/
theorem checkCount_refused {b : Builder} {n : Nat} {e : DefinitionError} (refused : b.checkCount n = .error e) :
    (0 < b.terms.max ∧ b.terms.max < n ∧ e = .countExceedsMax b.name n b.terms.max) ∨
      ∃ m, (b.terms.max = 0 ∨ n ≤ b.terms.max) ∧ b.terms.listed = some m ∧ m < n ∧ e = .countExceedsMax b.name n m := by
  unfold checkCount at refused
  split at refused
  · rename_i beyond
    cases refused
    exact .inl ⟨beyond.1,beyond.2,rfl⟩
  · rename_i within
    split at refused
    · rename_i few
      cases refused
      refine .inr ⟨b.instances.size,by simp only [terms]; omega,?_,few.2,rfl⟩
      exact if_pos (Option.isNone_iff_eq_none.mp few.1)
    · cases refused

variable {σ : Type} [RandomSource σ]

theorem extend_appends {r : Regex} {n : Nat} {names names' : Array String} {g g' : σ}
    (run : extend r n names g = .ok (names',g')) :
    names.toList <+: names'.toList ∧ names'.size = names.size + n := by
  induction n generalizing names g with
  | zero =>
    obtain ⟨rfl,rfl⟩ := Draw.pure_ok run
    exact ⟨List.prefix_rfl,rfl⟩
  | succ n ih =>
    obtain ⟨name,h,-,run⟩ := Draw.bind_ok run
    obtain ⟨appended,size⟩ := ih run
    rw [Array.toList_push] at appended
    rw [Array.size_push] at size
    exact ⟨(List.prefix_append ..).trans appended,by omega⟩

theorem extend_stops {r : Regex} {n : Nat} {names : Array String} {g : σ} {f : Fault}
    (stopped : extend r n names g = .error f) : ∃ h : σ, r.draw h = .error f := by
  induction n generalizing names g with
  | zero => cases stopped
  | succ n ih =>
    rcases Draw.bind_error stopped with drawn | ⟨name,h,-,later⟩
    · exact ⟨g,drawn⟩
    · exact ih later

theorem grow_grows {b b' : Builder} {n : Nat} {g g' : σ} (run : b.grow n g = .ok (b',g')) : b.Grows b' := by
  unfold grow at run
  cases drawn : b.generator with
  | some r =>
    simp only [drawn] at run
    obtain ⟨names,h,extended,run⟩ := Draw.bind_ok run
    obtain ⟨rfl,-⟩ := Draw.pure_ok run
    exact ⟨rfl,rfl,rfl,drawn.symm,(extend_appends extended).1,fun fixed => by rw [drawn] at fixed; cases fixed⟩
  | none =>
    simp only [drawn] at run
    obtain ⟨rfl,-⟩ := Draw.pure_ok run
    exact .refl b

/-- A rule that has grown to a count it allows has that many names. -/
theorem grow_enough {b b' : Builder} {n : Nat} {g g' : σ} (run : b.grow n g = .ok (b',g')) (allowed : b.terms.Allows n) :
    n ≤ b'.instances.size := by
  unfold grow at run
  cases drawn : b.generator with
  | some r =>
    simp only [drawn] at run
    obtain ⟨names,h,extended,run⟩ := Draw.bind_ok run
    obtain ⟨rfl,-⟩ := Draw.pure_ok run
    have := (extend_appends extended).2
    show n ≤ names.size
    omega
  | none =>
    simp only [drawn] at run
    obtain ⟨rfl,-⟩ := Draw.pure_ok run
    exact allowed.2 _ (if_pos drawn)

theorem grow_stops {b : Builder} {n : Nat} {g : σ} {f : Fault} (stopped : b.grow n g = .error f) :
    ∃ r, b.generator = some r ∧ ∃ h : σ, r.draw h = .error f := by
  unfold grow at stopped
  cases drawn : b.generator with
  | some r =>
    simp only [drawn] at stopped
    rcases Draw.bind_error stopped with extended | ⟨names,h,-,done⟩
    · exact ⟨r,rfl,extend_stops extended⟩
    · cases done
  | none =>
    simp only [drawn] at stopped
    cases stopped

/-- Further names are drawn one after another, and appended. -/
theorem extend_eq (r : Regex) (n : ℕ) (names : Array String) :
    (extend r n names : Draw σ _) = (fun texts => names ++ texts.toArray) <$> Draw.times r.draw n := by
  induction n generalizing names with
  | zero => simp [extend,Draw.times]
  | succ n ih => simp [extend,Draw.times,ih]

/-- What comes of a definition. -/
theorem ofDefinition_run (name : String) (d : BuilderDefinition) (g : σ) :
    (ofDefinition name d : ExceptT DefinitionError (Draw σ) Builder).run g =
      if 0 < d.max ∧ d.max < d.count then .ok (.error (.countExceedsMax name d.count d.max),g)
      else if d.values ≠ [] then
        if d.count ≤ d.values.length then .ok (.ok ⟨name,d.count,d.max,none,d.values.toArray⟩,g)
        else .ok (.error (.countExceedsMax name d.count d.values.length),g)
      else
        match d.pattern with
        | none => .ok (.error (.emptyRule name),g)
        | some text =>
          match (Regex.compile text).run with
          | .error f => .error f
          | .ok (.error e) => .ok (.error e,g)
          | .ok (.ok r) =>
            ((fun names => .ok ⟨name,d.count,d.max,some r,names.toArray⟩) <$> Draw.times r.draw d.count :
              Draw σ _) g := by
  unfold ofDefinition
  by_cases many : 0 < d.max ∧ d.max < d.count
  · simp only [if_pos many]
    rfl
  simp only [if_neg many]
  cases given : d.values with
  | cons value values =>
    simp only [List.isEmpty_cons,Bool.not_false,if_true,ne_eq,reduceCtorEq,not_false_eq_true,checked,checkCount,
      if_neg many,Option.isNone_none,true_and,List.size_toArray]
    by_cases few : (value :: values).length < d.count
    · rw [if_pos few,if_neg (by omega)]
      rfl
    · rw [if_neg few,if_pos (by omega)]
      rfl
  | nil =>
    simp only [List.isEmpty_nil,Bool.not_true,Bool.false_eq_true,if_false,ne_eq,not_true_eq_false]
    cases source : d.pattern with
    | none => rfl
    | some text =>
      have accepted (r : Regex) (names : Array String) :
          (⟨name,d.count,d.max,some r,names⟩ : Builder).checkCount d.count = .ok () := by
        simp [checkCount,many]
      simp only [checked,accepted]
      cases compiled : (Regex.compile text).run with
      | error f => rfl
      | ok r =>
        cases r with
        | error e => rfl
        | ok r =>
          have read : (ExceptT.mk (Draw.lift (.ok (.ok r))) : ExceptT DefinitionError (Draw σ) Regex).run g =
              .ok (.ok r,g) := rfl
          rw [Draw.bind_value read,extend_eq]
          show _ = (_ <$> Draw.times r.draw d.count : Draw σ _) g
          rw [Draw.map_apply]
          cases drawn : Draw.times r.draw d.count g with
          | error f => exact Draw.bind_halted (Draw.lifted_halted (by rw [Draw.map_apply,drawn]; rfl))
          | ok names =>
            rw [Draw.bind_value (Draw.lifted_value (by rw [Draw.map_apply,drawn]; rfl)),Array.empty_append]
            rfl

/-- A rule that was accepted may be referred to as it was declared. -/
theorem ofDefinition_ok {name : String} {d : BuilderDefinition} {b : Builder} {g h : σ}
    (run : (ofDefinition name d : ExceptT DefinitionError (Draw σ) Builder).run g = .ok (.ok b,h)) :
    b.name = name ∧ b.terms = d.terms := by
  rw [ofDefinition_run] at run
  split at run
  · cases run
  by_cases given : d.values = []
  · simp only [given,ne_eq,not_true_eq_false,if_false] at run
    split at run
    · cases run
    split at run
    · cases run
    · cases run
    · obtain ⟨names,-,made⟩ := Draw.map_ok run
      cases made
      exact ⟨rfl,by simp [terms,BuilderDefinition.terms,given]⟩
  · simp only [ne_eq,given,not_false_eq_true,if_true] at run
    split at run
    · cases run
      exact ⟨rfl,by simp [terms,BuilderDefinition.terms,given]⟩
    · cases run

end Builder

/-! ### Compilers -/

namespace Compiler

/-- A compiler later on: the same rules, grown. -/
structure Grows (c c' : Compiler) : Prop where
  valueSpec : c'.valueSpec = c.valueSpec
  rules : ∀ name, Option.Rel Builder.Grows (c.builder? name) (c'.builder? name)

theorem Grows.refl (c : Compiler) : c.Grows c := by
  refine ⟨rfl,fun name => ?_⟩
  cases c.builder? name with
  | none => exact .none
  | some b => exact .some (.refl b)

theorem Grows.trans {c c' c'' : Compiler} (grows : c.Grows c') (grows' : c'.Grows c'') : c.Grows c'' := by
  refine ⟨grows'.valueSpec.trans grows.valueSpec,fun name => ?_⟩
  have first := grows.rules name
  have second := grows'.rules name
  generalize c.builder? name = b at first
  generalize c'.builder? name = b' at first second
  generalize c''.builder? name = b'' at second
  cases first with
  | none =>
    cases second
    exact .none
  | some first =>
    cases second with
    | some second => exact .some (first.trans second)

theorem Grows.find {c c' : Compiler} (grows : c.Grows c') {name : String} {b : Builder}
    (found : c.builder? name = some b) : ∃ b', c'.builder? name = some b' ∧ b.Grows b' := by
  have same := grows.rules name
  rw [found] at same
  generalize c'.builder? name = later at same
  cases same with
  | some grown => exact ⟨_,rfl,grown⟩

/-- The terms of the rules, by name. -/
def terms (c : Compiler) (name : String) : Option Terms := (c.builder? name).map Builder.terms

theorem Grows.terms {c c' : Compiler} (grows : c.Grows c') : c'.terms = c.terms := by
  funext name
  unfold Compiler.terms
  have same := grows.rules name
  generalize c.builder? name = b at same
  generalize c'.builder? name = b' at same
  cases same with
  | none => rfl
  | some grown => rw [Option.map_some,Option.map_some,grown.terms]

theorem builder?_name {c : Compiler} {name : String} {b : Builder} (found : c.builder? name = some b) :
    b.name = Text.lower name := by
  have named := List.find?_some found
  simpa [BuilderTable.named] using named

/-- Putting a grown rule back in its place is growth. -/
theorem grows_insert {c : Compiler} {name : String} {b b' : Builder} (found : c.builder? name = some b)
    (grown : b.Grows b') : c.Grows { c with builders := c.builders.insert b' } := by
  refine ⟨rfl,fun other => ?_⟩
  have place : b'.name = Text.lower name := grown.name.trans (builder?_name found)
  show Option.Rel _ (c.builders.look (Text.lower other)) ((c.builders.insert b').look (Text.lower other))
  rw [BuilderTable.look_insert]
  by_cases same : b'.name = Text.lower other
  · have here : c.builders.look (Text.lower other) = some b := by
      rw [← same,place]
      exact found
    rw [if_pos same,here]
    exact .some grown
  · rw [if_neg same]
    exact (Grows.refl c).rules other

end Compiler

end Keyload.Pattern
