import Mathlib.Data.List.Forall2
import Keyload.Proofs.Pattern.Outcomes
import Keyload.Random.Xoshiro

/-!
Compiled patterns are well formed: every level has the names that its count promises, within the bound of its rule, and
the last level alone has values. Neither compiling nor naming an instance looks past the end of a list, since nothing
but a number can stop an expression: a count of repetitions that does not fit its word, or a choice among nothing.
-/
namespace Keyload

/-- A number that does not fit its word, or one from an empty range. -/
def Fault.OfNumbers (f : Fault) : Prop := f = .overflow ∨ f = .emptyRange

theorem Fault.OfNumbers.inside {f : Fault} (numbers : f.OfNumbers) : f ≠ .outOfRange := by
  rcases numbers with rfl | rfl <;> exact nofun

/-! ### Draws -/

namespace Draw

variable {σ α β : Type}

/-- Nothing but a number stops the draw. -/
def Numeric (x : Draw σ α) : Prop := ∀ (g : σ) (f : Fault), x g = .error f → f.OfNumbers

theorem numeric_pure (a : α) : Numeric (pure a : Draw σ α) := fun _ _ stopped => by cases stopped

theorem Numeric.bind {x : Draw σ α} {f : α → Draw σ β} (first : x.Numeric) (then_ : ∀ a, (f a).Numeric) :
    (x >>= f).Numeric := by
  intro g e stopped
  rcases bind_error stopped with stopped | ⟨a,h,-,stopped⟩
  · exact first g e stopped
  · exact then_ a h e stopped

theorem Numeric.ite {x y : Draw σ α} {p : Prop} [Decidable p] (left : x.Numeric) (right : y.Numeric) :
    (if p then x else y).Numeric := by
  split
  · exact left
  · exact right

end Draw

open Draw (Numeric numeric_pure)

variable {σ : Type} [RandomSource σ]

omit [RandomSource σ] in
theorem Uniform.scaled_numeric {word : Draw σ Nat} (numeric : word.Numeric) (size range zone tries : Nat) :
    (scaled word size range zone tries).Numeric := by
  induction tries with
  | zero => exact numeric.bind fun _ => numeric_pure _
  | succ tries ih => exact numeric.bind fun _ => .ite (numeric_pure _) ih

theorem Uniform.index_numeric (count : Nat) : (index count : Draw σ Nat).Numeric := by
  refine .ite (fun g f stopped => ?_) (scaled_numeric (fun g f stopped => ?_) _ _ _ _)
  · cases stopped
    exact .inr rfl
  · cases stopped

theorem Uniform.shortIndex_numeric (count : Nat) : (shortIndex count : Draw σ Nat).Numeric := by
  refine .ite (fun g f stopped => ?_) (scaled_numeric (fun g f stopped => ?_) _ _ _ _)
  · cases stopped
    exact .inr rfl
  · cases stopped

namespace Regex

theorem drawFrom_numeric (ranges : List (Nat × Nat)) (count : Nat) :
    (Repeat.drawFrom count ranges : Draw σ Nat).Numeric := by
  induction ranges generalizing count with
  | nil => exact numeric_pure count
  | cons range rest ih =>
    refine ((Uniform.shortIndex_numeric _).bind fun _ => numeric_pure _).bind fun k => Numeric.bind ?_ fun n => ih n
    intro g f stopped
    unfold Repeat.fit Draw.lift at stopped
    split at stopped
    · cases stopped
    · cases stopped
      exact .inl rfl

namespace Sampler

omit [RandomSource σ] in
theorem repeatDraw_numeric {step : String → Draw σ String} (numeric : ∀ acc, (step acc).Numeric) (n : Nat)
    (acc : String) : (repeatDraw step n acc).Numeric := by
  induction n generalizing acc with
  | zero => exact numeric_pure acc
  | succ n ih => exact (numeric acc).bind fun text => ih text

theorem drawChar_numeric (set : Charset) (acc : String) : (drawChar set acc : Draw σ String).Numeric := by
  refine .ite ((Uniform.index_numeric _).bind fun i => ?_) ((Uniform.shortIndex_numeric _).bind fun i => ?_)
  all_goals
    dsimp only
    cases set.nth? i <;> exact numeric_pure _

mutual

theorem drawOnto_numeric : ∀ (s : Sampler) (acc : String), (drawOnto s acc : Draw σ String).Numeric
  | .literal count text, acc => by
    unfold drawOnto
    exact (drawFrom_numeric _ _).bind fun n => repeatDraw_numeric (fun acc => numeric_pure _) n acc
  | .chars count set, acc => by
    unfold drawOnto
    exact (drawFrom_numeric _ _).bind fun n => repeatDraw_numeric (drawChar_numeric set) n acc
  | .seq count parts, acc => by
    unfold drawOnto
    exact (drawFrom_numeric _ _).bind fun n => repeatDraw_numeric (drawAll_numeric parts) n acc
  | .any count branches, acc => by
    unfold drawOnto
    exact (drawFrom_numeric _ _).bind fun n => repeatDraw_numeric
      (fun acc => (Uniform.index_numeric branches.length).bind fun i => drawNth_numeric branches i acc) n acc

theorem drawAll_numeric : ∀ (ss : List Sampler) (acc : String), (drawAll ss acc : Draw σ String).Numeric
  | [], acc => by
    unfold drawAll
    exact numeric_pure acc
  | s :: ss, acc => by
    unfold drawAll
    exact (drawOnto_numeric s acc).bind fun text => drawAll_numeric ss text

theorem drawNth_numeric : ∀ (ss : List Sampler) (i : Nat) (acc : String), (drawNth ss i acc : Draw σ String).Numeric
  | [], _, acc => by
    unfold drawNth
    exact numeric_pure acc
  | s :: _, 0, acc => by
    unfold drawNth
    exact drawOnto_numeric s acc
  | _ :: ss, i + 1, acc => by
    unfold drawNth
    exact drawNth_numeric ss i acc

end

end Sampler

theorem draw_numeric (r : Regex) : (r.draw : Draw σ String).Numeric := Sampler.drawOnto_numeric r.sampler ""

/-! ### Building -/

namespace Sampler

theorem repeated_stops {s : Sampler} {lo hi : Nat} {f : Fault} (stopped : s.repeated lo hi = .error f) :
    f = .overflow := by
  have again_stops {r : Repeat} {f : Fault} (stopped : r.again lo hi = .error f) : f = .overflow := by
    unfold Repeat.again Repeat.fit at stopped
    split at stopped
    · split at stopped
      · cases stopped
      · cases stopped
        rfl
    · cases stopped
  unfold repeated at stopped
  split at stopped
  all_goals
    rename_i count _
    cases again : count.again lo hi with
    | error f' =>
      rw [again] at stopped
      cases stopped
      exact again_stops again
    | ok r =>
      rw [again] at stopped
      first
        | cases stopped
        | (change (if 1 < r.fixed then _ else _) = _ at stopped
           split at stopped <;> cases stopped)

mutual

theorem ofShape_stops : ∀ (s : Shape) {f : Fault}, (ofShape s).run = .error f → f = .overflow
  | .empty, _, stopped | .look, _, stopped | .literal _, _, stopped | .chars _ _, _, stopped => by
    unfold ofShape at stopped
    cases stopped
  | .capture _ sub, f, stopped => by
    unfold ofShape at stopped
    exact ofShape_stops sub stopped
  | .rep lo hi _ sub, f, stopped => by
    unfold ofShape at stopped
    have body {upper : Nat} (stopped : (if upper = 0 then pure empty else do
        match (← ofShape sub).repeated lo upper with
        | .ok s => pure s
        | .error f => Outcome.stop f : Outcome Unsuitable Sampler).run = .error f) : f = .overflow := by
      split at stopped
      · cases stopped
      · rcases Outcome.bind_stops stopped with stopped | ⟨s,-,stopped⟩
        · exact ofShape_stops sub stopped
        · split at stopped
          · cases stopped
          · rename_i beyond
            cases stopped
            exact repeated_stops beyond
    dsimp only at stopped
    split at stopped
    · exact body stopped
    · split at stopped
      · exact body stopped
      · rename_i beyond
        unfold Repeat.fit at beyond
        split at beyond
        · cases beyond
        · cases beyond
          cases stopped
          rfl
  | .concat parts, f, stopped => by
    unfold ofShape at stopped
    rcases Outcome.bind_stops stopped with stopped | ⟨_,-,stopped⟩
    · exact ofShapes_stops parts stopped
    · cases stopped
  | .alt branches, f, stopped => by
    unfold ofShape at stopped
    rcases Outcome.bind_stops stopped with stopped | ⟨_,-,stopped⟩
    · exact ofShapes_stops branches stopped
    · cases stopped

theorem ofShapes_stops : ∀ (ss : List Shape) {f : Fault}, (ofShapes ss).run = .error f → f = .overflow
  | [], _, stopped => by
    unfold ofShapes at stopped
    cases stopped
  | s :: ss, f, stopped => by
    unfold ofShapes at stopped
    rcases Outcome.bind_stops stopped with stopped | ⟨_,-,stopped⟩
    · exact ofShape_stops s stopped
    · rcases Outcome.bind_stops stopped with stopped | ⟨_,-,stopped⟩
      · exact ofShapes_stops ss stopped
      · cases stopped

end

end Sampler

theorem compile_stops {source : String} {f : Fault} (stopped : (compile source).run = .error f) : f = .overflow := by
  unfold compile at stopped
  split at stopped
  · cases stopped
  · rename_i shape _
    rcases Outcome.bind_stops stopped with stopped | ⟨s,-,stopped⟩
    · cases built : (Sampler.ofShape shape).run with
      | error f' =>
        change (Sampler.ofShape shape).run.map _ = _ at stopped
        rw [built] at stopped
        cases stopped
        exact Sampler.ofShape_stops shape built
      | ok r =>
        change (Sampler.ofShape shape).run.map _ = _ at stopped
        rw [built] at stopped
        cases stopped
    · cases stopped

end Regex

/-! ### Lines -/

namespace Pattern

omit [RandomSource σ] in
theorem PathStops.ofNumbers {c : Compiler} {path : List Char} {f : Fault} (stops : PathStops c path f) :
    f.OfNumbers := by
  cases stops with
  | expression stopped => exact .inl (Regex.compile_stops stopped)
  | width => exact .inl rfl
  | @name _ _ _ _ r _ _ _ _ _ _ g stopped => exact r.draw_numeric g f stopped

omit [RandomSource σ] in
theorem SegmentStops.ofNumbers {c : Compiler} {segment : List Char} {f : Fault} (stops : SegmentStops c segment f) :
    f.OfNumbers := by
  cases stops with
  | value _ stopped => exact .inl (Regex.compile_stops stopped)
  | path stopped => exact stopped.ofNumbers

/-- What holds of the pattern of a line. -/
structure WellFormed (source : String) (p : Pattern) : Prop where
  some_level : 1 ≤ p.depth
  depth : p.depth = (parts source).length
  leaf : ∀ (i : Nat) (inside : i < p.levels.length), p.levels[i].isLeaf = true ↔ i + 1 = p.depth
  listed : ∀ l ∈ p.levels, ∀ names, l.segment = .names names → names.size = l.count
  bounded : ∀ l ∈ p.levels, 0 < l.max → l.count ≤ l.max
  inside : ∀ l ∈ p.levels, ∀ i < l.count, ∀ (σ : Type) [RandomSource σ] (g : σ), l.instanceName i g ≠ .error .outOfRange

theorem Reads.listed {c : Compiler} {path : List Char} {l : Level} (reads : Reads c path l) {names : Array String}
    (segment : l.segment = .names names) : names.size = l.count := by
  cases reads with
  | fixed =>
    cases segment
    rfl
  | rule _ _ _ enough =>
    cases segment
    rw [Array.size_extract]
    dsimp only
    omega
  | drawn | numbered => cases segment

theorem Reads.bounded {c : Compiler} {path : List Char} {l : Level} (reads : Reads c path l) (bounded : 0 < l.max) :
    l.count ≤ l.max := by
  cases reads with
  | fixed | drawn => exact Nat.le_refl 1
  | @rule _ _ _ b _ _ allowed =>
    rcases allowed.1 with free | within
    · exact absurd free (Nat.ne_of_gt bounded)
    · exact within
  | numbered => exact absurd bounded (Nat.lt_irrefl 0)

theorem instanceName_inside {l : Level} (listed : ∀ names, l.segment = .names names → names.size = l.count) {i : Nat}
    (inside : i < l.count) (g : σ) : l.instanceName i g ≠ .error .outOfRange := by
  intro stopped
  unfold Level.instanceName at stopped
  cases segment : l.segment with
  | names names =>
    have within : i < names.size := by rw [listed names segment]; exact inside
    simp only [segment,Array.getElem?_eq_getElem within] at stopped
    cases stopped
  | format f =>
    simp only [segment,Format.render] at stopped
    split at stopped <;> cases stopped
  | random r =>
    simp only [segment] at stopped
    exact (r.draw_numeric g _ stopped).inside rfl

/-- Compiling never slices past the end of a rule's names, and the patterns it gives are well formed. -/
theorem compile_wellFormed (source : String) (c : Compiler) (g : σ) :
    (Compiler.compile source).run c g ≠ .error .outOfRange ∧
      ∀ p c' g', Compile.Yields (Compiler.compile source) c g p c' g' → WellFormed source p := by
  have ends := Compiler.compile_ends source c g
  constructor
  · intro stopped
    cases ends with
    | stops run why =>
      cases run.symm.trans stopped
      obtain ⟨segment,-,stops⟩ := why
      exact stops.ofNumbers.inside rfl
    | refuses run => cases run.symm.trans stopped
    | gives run => cases run.symm.trans stopped
  · intro p c' g' run
    obtain ⟨-,accepted,-,all⟩ := ends.given run
    have depth : p.depth = (parts source).length := all.length_eq.symm
    have reads (i : Nat) (inside : i < p.levels.length) (within : i < (parts source).length) :
        ReadsSegment c' (parts source)[i] p.levels[i] := all.get within inside
    have each : ∀ l ∈ p.levels, ∃ path, Reads c' path { l with value := none } := by
      intro l member
      obtain ⟨i,inside,rfl⟩ := List.getElem_of_mem member
      exact ⟨_,(reads i inside (depth ▸ inside)).path⟩
    have listed : ∀ l ∈ p.levels, ∀ names, l.segment = .names names → names.size = l.count := by
      intro l member names segment
      obtain ⟨path,read⟩ := each l member
      exact read.listed segment
    refine ⟨?_,depth,fun i inside => ?_,listed,fun l member bounded => ?_,fun l member i inside σ _ g =>
      instanceName_inside (listed l member) inside g⟩
    · rw [depth]
      exact List.length_pos_iff.mpr accepted.some_segment
    · have within : i < (parts source).length := depth ▸ inside
      have split : parts source = (parts source).take i ++ (parts source)[i] :: (parts source).drop (i + 1) := by
        rw [List.getElem_cons_drop,List.take_append_drop]
      rw [(reads i inside within).leaf,accepted.last _ _ _ split,List.drop_eq_nil_iff,depth]
      omega
    · obtain ⟨path,read⟩ := each l member
      exact read.bounded bounded

/-- A rule of two values and a format, with an empty segment between them. -/
theorem compile_wellFormed_two : ∃ (c c' : Compiler) (p : Pattern) (g g' : Xoshiro),
    Compile.Yields (Compiler.compile "/:r[2]//%n-%d[3];x") c g p c' g' ∧ p.depth = 2 ∧
      WellFormed "/:r[2]//%n-%d[3];x" p := by
  let c : Compiler := ⟨⟨[⟨"r",1,2,none,#["a","b"]⟩]⟩,none⟩
  have compiles : (((Compiler.compile "/:r[2]//%n-%d[3];x").run c (Xoshiro.ofSeed 1)).toOption.bind
      fun x => x.1.1.toOption.map Pattern.depth) = some 2 := by
    decide +kernel
  cases run : (Compiler.compile "/:r[2]//%n-%d[3];x").run c (Xoshiro.ofSeed 1) with
  | error _ =>
    rw [run] at compiles
    cases compiles
  | ok x =>
    obtain ⟨⟨result,c'⟩,g'⟩ := x
    rw [run] at compiles
    obtain ⟨p,accepted,depth⟩ := Option.map_eq_some_iff.mp compiles
    cases result with
    | error _ => cases accepted
    | ok q =>
      cases accepted
      exact ⟨c,c',p,_,g',run,depth,(compile_wellFormed _ c _).2 p c' g' run⟩

end Pattern

end Keyload
