import Keyload.Pattern.Compiler
import Keyload.Proofs.KeySpace.Names

/-!
What holds of every pattern that was compiled: it has levels, its values are at the last of them, and a level that
lists its names has one for every instance.
-/
namespace Keyload.Pattern
open Cursor (LeafLast)

variable {σ : Type} [RandomSource σ]

/-- A step of compiling that succeeds. -/
def Compile.Yields {α : Type} (x : Compile σ α) (c : Compiler) (g : σ) (a : α) (c' : Compiler) (g' : σ) : Prop :=
  x.run c g = .ok ((.ok a,c'),g')

/-- Some compiler, with some source, makes this pattern of a line. -/
def Compiled (p : Pattern) : Prop :=
  ∃ (σ : Type) (_ : RandomSource σ) (source : String) (c c' : Compiler) (g g' : σ),
    Compile.Yields (Compiler.compile source) c g p c' g'

omit [RandomSource σ] in
theorem Compile.yields_bind {α β : Type} {x : Compile σ α} {f : α → Compile σ β} {c c' : Compiler} {g g' : σ} {b : β}
    (run : Yields (x >>= f) c g b c' g') :
    ∃ a c₁ g₁, Yields x c g a c₁ g₁ ∧ Yields (f a) c₁ g₁ b c' g' := by
  unfold Yields at run ⊢
  change (x.run c >>= fun r => ExceptT.bindCont f r.1 r.2 : Draw σ _) g = _ at run
  obtain ⟨⟨r,c₁⟩,g₁,first,run⟩ := Draw.bind_ok run
  cases r with
  | error e => cases run
  | ok a => exact ⟨a,c₁,g₁,first,run⟩

namespace Compiler

/-- A level with values is the last one. -/
def LeavesEnd : List Level → Prop
  | [] => True
  | l :: rest => (l.isLeaf = true → rest = []) ∧ LeavesEnd rest

theorem leafLast_of_leavesEnd {levels : List Level} (ends : LeavesEnd levels) {l : Level}
    (last : levels.getLast? = some l) (leaf : l.isLeaf = true) : LeafLast levels := by
  induction levels with
  | nil => cases last
  | cons m rest ih =>
    cases rest with
    | nil =>
      cases last
      exact leaf
    | cons m' rest =>
      refine ⟨?_,ih ends.2 (by rwa [List.getLast?_cons_cons] at last)⟩
      cases inner : m.isLeaf with
      | false => rfl
      | true => cases ends.1 inner

/-- The levels of some segments: none that names values came before, and the first segment makes the first level. -/
private theorem levels_cons {pattern : String} {segment : List Char} {rest : List (List Char)} {ended : Bool}
    {c c' : Compiler} {g g' : σ} {ls : List Level}
    (run : Compile.Yields (levels pattern ended (segment :: rest)) c g ls c' g') :
    ended = false ∧ ∃ (value : Option ValueSource) (path : List Char) (l : Level) (later : List Level) (c₁ c₂ : Compiler)
      (g₁ g₂ : σ), Compile.Yields (level pattern path) c₁ g₁ l c₂ g₂ ∧
        Compile.Yields (levels pattern value.isSome rest) c₂ g₂ later c' g' ∧
        ls = { l with value := value } :: later := by
  rw [levels] at run
  have tail {value : Option ValueSource} {path : List Char} {c₁ : Compiler} {g₁ : σ}
      (run : Compile.Yields (do
        let l ← level pattern path
        let ls ← levels pattern value.isSome rest
        pure ({ l with value := value } :: ls)) c₁ g₁ ls c' g') :
      ∃ (value : Option ValueSource) (path : List Char) (l : Level) (later : List Level) (c₁ c₂ : Compiler)
        (g₁ g₂ : σ), Compile.Yields (level pattern path) c₁ g₁ l c₂ g₂ ∧
          Compile.Yields (levels pattern value.isSome rest) c₂ g₂ later c' g' ∧
          ls = { l with value := value } :: later := by
    obtain ⟨l,c₂,g₂,first,run⟩ := Compile.yields_bind run
    obtain ⟨later,c₃,g₃,others,run⟩ := Compile.yields_bind run
    cases run
    exact ⟨value,path,l,later,c₁,c₂,g₁,g₂,first,others,rfl⟩
  cases ended with
  | true =>
    obtain ⟨_,_,_,thrown,-⟩ := Compile.yields_bind run
    cases thrown
  | false =>
    simp only [Bool.false_eq_true,if_false] at run
    split at run
    all_goals
      obtain ⟨value,c₁,g₁,-,run⟩ := Compile.yields_bind run
      exact ⟨rfl,tail run⟩

/-- No segment follows one that names values. -/
private theorem levels_end {pattern : String} {segments : List (List Char)} {ended : Bool} {c c' : Compiler} {g g' : σ}
    {ls : List Level} (run : Compile.Yields (levels pattern ended segments) c g ls c' g') :
    (ended = true → ls = []) ∧ LeavesEnd ls := by
  induction segments generalizing ended c g ls with
  | nil =>
    cases run
    exact ⟨fun _ => rfl,trivial⟩
  | cons segment rest ih =>
    obtain ⟨going,value,path,l,later,c₁,c₂,g₁,g₂,-,others,rfl⟩ := levels_cons run
    refine ⟨fun h => (by rw [going] at h; cases h),fun leaf => (ih others).1 leaf,(ih others).2⟩

/-- Values are at the last level of a compiled pattern. -/
theorem compiled_leafLast {p : Pattern} (compiled : Compiled p) : LeafLast p.levels := by
  obtain ⟨σ,_,source,c,c',g,g',run⟩ := compiled
  obtain ⟨ls,c₁,g₁,first,run⟩ := Compile.yields_bind run
  cases last : ls.getLast? with
  | none =>
    simp only [last] at run
    cases run
  | some l =>
    simp only [last] at run
    cases leaf : l.isLeaf with
    | false =>
      simp only [leaf] at run
      cases run
    | true =>
      simp only [leaf] at run
      cases run
      exact leafLast_of_leavesEnd (levels_end first).2 last leaf

/-! ### Names for every instance -/

private theorem rule_listed {b : Builder} {source : String} {count : Nat} {l : Level}
    (made : b.level source count = .ok l) : l.Listed := by
  unfold Builder.level at made
  split at made
  · rename_i enough
    cases made
    intro names segment
    cases segment
    rw [Array.size_extract]
    show count ≤ min count b.instances.size - 0
    omega
  · cases made

private theorem builderLevel_listed {source : String} {b : Builder} {count : Nat} {c c' : Compiler} {g g' : σ}
    {l : Level} (run : Compile.Yields (builderLevel source b count) c g l c' g') : l.Listed := by
  unfold builderLevel at run
  split at run
  · cases run
  · obtain ⟨b',c₁,g₁,-,run⟩ := Compile.yields_bind run
    split at run
    · rename_i made
      cases run
      exact rule_listed made
    · cases run

private theorem level_listed {pattern : String} {segment : List Char} {c c' : Compiler} {g g' : σ} {l : Level}
    (run : Compile.Yields (level pattern segment) c g l c' g') : l.Listed := by
  unfold level at run
  split at run
  · obtain ⟨⟨name,count⟩,c₁,g₁,-,run⟩ := Compile.yields_bind run
    obtain ⟨table,c₂,g₂,-,run⟩ := Compile.yields_bind run
    split at run
    · cases run
    · exact builderLevel_listed run
  · obtain ⟨r,c₁,g₁,-,run⟩ := Compile.yields_bind run
    cases run
    simp [Level.Listed]
  · obtain ⟨⟨format,count⟩,c₁,g₁,-,run⟩ := Compile.yields_bind run
    obtain ⟨f,c₂,g₂,-,run⟩ := Compile.yields_bind run
    cases run
    simp [Level.Listed]
  · cases run
    simp [Level.Listed]

private theorem levels_listed {pattern : String} {segments : List (List Char)} {ended : Bool} {c c' : Compiler}
    {g g' : σ} {ls : List Level} (run : Compile.Yields (levels pattern ended segments) c g ls c' g') :
    ∀ l ∈ ls, l.Listed := by
  induction segments generalizing ended c g ls with
  | nil =>
    cases run
    simp
  | cons segment rest ih =>
    obtain ⟨-,value,path,l,later,c₁,c₂,g₁,g₂,first,others,rfl⟩ := levels_cons run
    intro m member
    rcases List.mem_cons.mp member with rfl | member
    · have named : l.Listed := level_listed first
      exact named
    · exact ih others m member

/-- A compiled pattern has a name for every instance of a level that lists its names. -/
theorem compiled_listed {p : Pattern} (compiled : Compiled p) : ∀ l ∈ p.levels, l.Listed := by
  obtain ⟨σ,_,source,c,c',g,g',run⟩ := compiled
  obtain ⟨ls,c₁,g₁,first,run⟩ := Compile.yields_bind run
  split at run
  · cases run
  · split at run
    · cases run
      exact levels_listed first
    · cases run

theorem compileAll_compiled {sources : List String} {c c' : Compiler} {g g' : σ} {ps : List Pattern}
    (run : Compile.Yields (compileAll sources) c g ps c' g') : ∀ p ∈ ps, Compiled p := by
  induction sources generalizing c g ps with
  | nil =>
    cases run
    simp
  | cons source rest ih =>
    obtain ⟨p,c₁,g₁,first,run⟩ := Compile.yields_bind run
    obtain ⟨others,c₂,g₂,later,run⟩ := Compile.yields_bind run
    cases run
    intro q member
    rcases List.mem_cons.mp member with rfl | member
    · exact ⟨σ,_,source,c,c₁,g,g₁,first⟩
    · exact ih later q member

/-- Whether a line is compiled, from a fixed seed, to a pattern that passes a check. -/
def makes (c : Compiler) (source : String) (check : Pattern → Bool) : Bool :=
  (((compile source).run c (Xoshiro.ofSeed 1)).toOption.bind fun r => r.1.1.toOption).any check

theorem yields_of_makes {c : Compiler} {source : String} {check : Pattern → Bool} (checked : c.makes source check = true) :
    ∃ p c' g', Compile.Yields (compile source) c (Xoshiro.ofSeed 1) p c' g' ∧ check p = true := by
  obtain ⟨p,made,passed⟩ := Option.any_eq_true _ _ |>.mp checked
  cases run : (compile source).run c (Xoshiro.ofSeed 1) with
  | error f =>
    rw [run] at made
    cases made
  | ok r =>
    rw [run] at made
    obtain ⟨⟨made_of,c'⟩,g'⟩ := r
    cases made_of with
    | error e => cases made
    | ok q =>
      cases made
      exact ⟨p,c',g',run,passed⟩

theorem compiled_of_makes (c : Compiler) (source : String) (check : Pattern → Bool)
    (checked : c.makes source check = true) : ∃ p, Compiled p ∧ check p = true := by
  obtain ⟨p,c',g',run,passed⟩ := yields_of_makes checked
  exact ⟨p,⟨Xoshiro,_,source,c,c',_,g',run⟩,passed⟩

end Compiler

end Keyload.Pattern
