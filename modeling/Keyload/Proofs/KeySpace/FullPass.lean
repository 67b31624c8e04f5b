import Keyload.Proofs.KeySpace.Passes
import Keyload.Proofs.KeySpace.Walk

/-!
Enumerations that nothing stops. Where no name is drawn and every pass over the patterns comes to its end, each step of
an enumeration yields the key that a full pass has at its place, however many passes went before. The size of the key
space counts the keys of such a pass, unless there are more than a word can count.
-/
namespace Keyload
open Cursor (LeafLast)

namespace Bounded

variable {σ : Type} [RandomSource σ] {patterns : List Pattern} {total k : Nat} {b : Bounded} {g : σ}

/-- A pass over the patterns comes to its end, whatever is drawn. -/
def Complete (σ : Type) [RandomSource σ] (patterns : List Pattern) : Prop :=
  ∀ g : σ, ∃ es h, passWalk patterns g = .ok (es,h)

theorem passWalk_keys (leafLast : ∀ p ∈ patterns, LeafLast p.levels) (fixed : Fixed patterns) {g' : σ} {es : List Entry}
    (run : passWalk patterns g = .ok (es,g')) : es.map Entry.key = passTexts patterns := by
  induction patterns generalizing g es with
  | nil =>
    cases run
    rfl
  | cons p ps ih =>
    obtain ⟨as,h,walked,run⟩ := Draw.bind_ok run
    obtain ⟨bs,h',passed,last⟩ := Draw.bind_ok run
    cases last
    have first := Cursor.walk_keys (fun l member => Pattern.Level.fixed_named (fixed p List.mem_cons_self l member))
      (leafLast p List.mem_cons_self) walked
    have later := ih (fun q member => leafLast q (List.mem_cons_of_mem p member))
      (fun q member => fixed q (List.mem_cons_of_mem p member)) passed
    rw [List.map_append,first,later]
    rfl

/-- An enumeration that has yielded `k` keys, and what is left of its pass can be drawn from `g`. -/
structure Ready (patterns : List Pattern) (total k : Nat) (b : Bounded) (g : σ) : Prop where
  at_k : At patterns total k b
  within : k ≤ wanted total (passTexts patterns).length
  rest : ∃ es h, b.remaining g = .ok (es,h)

theorem ready_start (leafLast : ∀ p ∈ patterns, LeafLast p.levels) (some_pattern : patterns ≠ [])
    (complete : Complete σ patterns) (total : Nat) (g : σ) : Ready patterns total 0 (start patterns total) g := by
  refine ⟨start_at leafLast some_pattern total,Nat.zero_le _,?_⟩
  rw [remaining_start]
  exact complete g

/-- What a scan of a pass that can be drawn finds; after a key, the others can be drawn. -/
private theorem scan_goes_on {c : Cursor} {ps : List Pattern} (rest : ∃ es h, placeWalk c ps g = .ok (es,h)) :
    ∃ found g', scan c ps g = .ok (found,g') ∧
      ∀ e c' ps', found = some (e,c',ps') → ∃ es h, placeWalk c' ps' g' = .ok (es,h) := by
  obtain ⟨es,h,drawn⟩ := rest
  rw [placeWalk_scan] at drawn
  obtain ⟨found,g',scanned,drawn⟩ := Draw.bind_ok drawn
  refine ⟨found,g',scanned,?_⟩
  rintro e c' ps' rfl
  obtain ⟨es',h',later,-⟩ := Draw.bind_ok drawn
  exact ⟨es',h',later⟩

private theorem next_goes_on (complete : Complete σ patterns) (at_k : At patterns total k b)
    (rest : ∃ es h, b.remaining g = .ok (es,h)) :
    ∃ entry b' g', b.next g = .ok ((entry,b'),g') ∧ (entry ≠ none → ∃ es h, b'.remaining g' = .ok (es,h)) := by
  obtain ⟨c,ps,place,-⟩ := at_k.place
  unfold next
  by_cases ended : 0 < b.total ∧ b.total ≤ b.emitted
  · rw [if_pos ended]
    exact ⟨none,b,g,rfl,fun goes_on => absurd rfl goes_on⟩
  · rw [if_neg ended]
    rw [remaining,place] at rest
    simp only [place]
    obtain ⟨found,g',scanned,later⟩ := scan_goes_on rest
    rw [Draw.bind_run scanned]
    cases found with
    | some r =>
      obtain ⟨e,c',ps'⟩ := r
      exact ⟨some e,_,g',rfl,fun _ => later e c' ps' rfl⟩
    | none =>
      dsimp only
      by_cases last : b.total = 0 ∨ b.emittedInPass = 0
      · rw [if_pos last]
        exact ⟨none,_,g',rfl,fun goes_on => absurd rfl goes_on⟩
      · rw [if_neg last,at_k.same_patterns]
        have again := complete g'
        rw [← placeWalk_start] at again
        obtain ⟨found,g'',scanned,later⟩ := scan_goes_on again
        rw [Draw.bind_run scanned]
        cases found with
        | some r =>
          obtain ⟨e,c',ps'⟩ := r
          exact ⟨some e,_,g'',rfl,fun _ => later e c' ps' rfl⟩
        | none => exact ⟨none,_,g'',rfl,fun goes_on => absurd rfl goes_on⟩

/-- The next key is the one that a full pass has at its place; or all that are wanted were yielded. -/
theorem Ready.next (leafLast : ∀ p ∈ patterns, LeafLast p.levels) (fixed : Fixed patterns)
    (complete : Complete σ patterns) (ready : Ready patterns total k b g) :
    (∃ b' g', b.next g = .ok ((none,b'),g') ∧ k = wanted total (passTexts patterns).length) ∨
      ∃ e b' g', b.next g = .ok ((some e,b'),g') ∧ Ready patterns total (k + 1) b' g' ∧
        (passTexts patterns)[k % (passTexts patterns).length]? = some e.key := by
  obtain ⟨entry,b',g',run,rest⟩ := next_goes_on complete ready.at_k ready.rest
  rcases next_at leafLast ready.at_k ready.within run with ⟨rfl,all,-,-⟩ | ⟨e,rfl,more,at_next,key⟩
  · exact .inl ⟨b',g',run,all⟩
  · exact .inr ⟨e,b',g',run,⟨at_next,more,rest (Option.some_ne_none e)⟩,key fixed⟩

/-! ### Which keys are wanted -/

/-- The keys of a full pass that an enumeration yields. -/
def reached (total : Nat) (keys : List String) : List String :=
  if total = 0 then keys else keys.take (min total keys.length)

theorem length_reached (total : Nat) (keys : List String) :
    (reached total keys).length = if total = 0 then keys.length else min total keys.length := by
  unfold reached
  split_ifs
  · rfl
  · rw [List.length_take]
    omega

theorem mem_reached {total : Nat} {keys : List String} {key : String} :
    key ∈ reached total keys ↔ ∃ i < wanted total keys.length, keys[i % keys.length]? = some key := by
  have member : key ∈ reached total keys ↔ ∃ i < (reached total keys).length, keys[i]? = some key := by
    rw [List.mem_iff_getElem?]
    unfold reached
    constructor
    · rintro ⟨i,at_i⟩
      refine ⟨i,(List.getElem?_eq_some_iff.mp at_i).1,?_⟩
      split_ifs at at_i with none_wanted
      · exact at_i
      · exact (List.getElem?_take_of_lt (by
          have := (List.getElem?_eq_some_iff.mp at_i).1
          rw [List.length_take] at this
          omega)).symm.trans at_i
    · rintro ⟨i,inside,at_i⟩
      refine ⟨i,?_⟩
      split_ifs at inside ⊢ with none_wanted
      · exact at_i
      · rw [List.length_take] at inside
        rw [List.getElem?_take_of_lt (by omega)]
        exact at_i
  rw [member,length_reached]
  unfold wanted
  constructor
  · rintro ⟨i,inside,at_i⟩
    have within : i < keys.length := (List.getElem?_eq_some_iff.mp at_i).1
    refine ⟨i,?_,by rwa [Nat.mod_eq_of_lt within]⟩
    split_ifs at inside ⊢ <;> omega
  · rintro ⟨i,inside,at_i⟩
    have within : i % keys.length < keys.length := (List.getElem?_eq_some_iff.mp at_i).1
    refine ⟨i % keys.length,?_,at_i⟩
    have small : i % keys.length ≤ i := Nat.mod_le _ _
    split_ifs at inside ⊢ <;> omega

end Bounded

/-! ### The size of a key space -/

private theorem product_held (counts : List Nat) (n : Nat) :
    counts.foldl Word.satMul (min n Word.top) = min (n * counts.prod) Word.top := by
  induction counts generalizing n with
  | nil => simp
  | cons c rest ih =>
    have held : Word.satMul (min n Word.top) c = min (n * c) Word.top := by
      unfold Word.satMul
      rcases Nat.eq_zero_or_pos c with rfl | some_c
      · rfl
      · rcases Nat.le_total n Word.top with small | large
        · rw [Nat.min_eq_left small]
        · have : Word.top ≤ Word.top * c := Nat.le_mul_of_pos_right _ some_c
          have : Word.top * c ≤ n * c := Nat.mul_le_mul_right c large
          rw [Nat.min_eq_right large]
          omega
    rw [List.foldl_cons,held,ih,List.prod_cons,Nat.mul_assoc]

private theorem sum_held (sizes : List Nat) (n : Nat) :
    sizes.foldl (fun n size => Word.satAdd n (min size Word.top)) (min n Word.top) = min (n + sizes.sum) Word.top := by
  induction sizes generalizing n with
  | nil => simp
  | cons size rest ih =>
    have held : Word.satAdd (min n Word.top) (min size Word.top) = min (n + size) Word.top := by
      unfold Word.satAdd
      omega
    rw [List.foldl_cons,held,ih,List.sum_cons,Nat.add_assoc]

theorem Pattern.keySpace_eq (p : Pattern) : p.keySpace = min (p.levels.map Level.count).prod Word.top := by
  have held := product_held (p.levels.map Level.count) 1
  rw [List.foldl_map,Nat.one_mul] at held
  exact held

theorem KeySpace.size_eq (ks : KeySpace) :
    ks.size = min (Bounded.passTexts ks.patterns).length Word.top := by
  have held := sum_held (ks.patterns.map fun p => (p.levels.map Pattern.Level.count).prod) 0
  rw [List.foldl_map,Nat.zero_add] at held
  rw [KeySpace.size,Bounded.length_passTexts,← held]
  congr 1
  funext n p
  rw [Pattern.keySpace_eq]

end Keyload
