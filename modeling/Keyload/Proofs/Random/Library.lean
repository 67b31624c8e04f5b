import Keyload.Pattern.Builder
import Keyload.Proofs.Random.Script

/-!
The draws of the library have scripts: numbers, texts of an expression, digit runs, the names and the values of
a level, the names of a builder rule.
-/
namespace Keyload
open Draw (Scripted Reads Tape scripted_pure scripted_stop scripted_lift scripted_word scripted_halfWord)

/-! ### Numbers -/

namespace Uniform

theorem scaled_scripted {word : ∀ (σ : Type) [RandomSource σ], Draw σ Nat} (scripted : Scripted word)
    (size range zone tries : Nat) :
    Scripted fun σ [RandomSource σ] => scaled (word σ) size range zone tries := by
  induction tries with
  | zero => exact scripted.bind fun w => scripted_pure (w * range / size)
  | succ tries ih =>
    exact scripted.bind fun w => Scripted.ite (scripted_pure (w * range / size)) ih

theorem below_scripted (range : Nat) : Scripted fun σ [RandomSource σ] => (below range : Draw σ Nat) :=
  Scripted.ite (scripted_stop _) (scaled_scripted scripted_word _ _ _ _)

theorem index_scripted (count : Nat) : Scripted fun σ [RandomSource σ] => (index count : Draw σ Nat) :=
  Scripted.ite (scripted_stop _) (scaled_scripted scripted_word _ _ _ _)

theorem shortIndex_scripted (count : Nat) :
    Scripted fun σ [RandomSource σ] => (shortIndex count : Draw σ Nat) :=
  Scripted.ite (scripted_stop _) (scaled_scripted scripted_halfWord _ _ _ _)

theorem between_scripted (lo hi : Nat) :
    Scripted fun σ [RandomSource σ] => (between lo hi : Draw σ Nat) :=
  (shortIndex_scripted _).bind fun n => scripted_pure (lo + n)

/-- The product with the range lies less than one range above the wanted multiple of the word limit. -/
private theorem steering_word {range i : Nat} (inside : i < range) (fits : range ≤ Word.limit) :
    ∃ w r, w * range = r + Word.limit * i ∧ r < range ∧ w < Word.limit := by
  refine ⟨(Word.limit * i + (range - 1)) / range,
    (Word.limit * i + (range - 1)) / range * range - Word.limit * i,?_,?_,?_⟩
  all_goals have whole := Nat.div_add_mod (Word.limit * i + (range - 1)) range
  all_goals have part := Nat.mod_lt (Word.limit * i + (range - 1)) (by omega : 0 < range)
  all_goals rw [Nat.mul_comm range] at whole
  · omega
  · omega
  · have below : Word.limit * i + Word.limit ≤ Word.limit * range := by
      rw [← Nat.mul_succ]
      exact Nat.mul_le_mul_left _ inside
    rw [Nat.div_lt_iff_lt_mul (by omega)]
    omega

/-- Every number below a range can be drawn, with a single word. -/
theorem below_reads {range i : Nat} (inside : i < range) (fits : range ≤ Word.limit) :
    ∃ w, Reads (below range) [w] i := by
  obtain ⟨w,r,product,small,short⟩ := steering_word inside fits
  have wide : w.toUInt64.toNat = w := UInt64.toNat_ofNat_of_lt' short
  refine ⟨w.toUInt64,fun rest => ?_⟩
  have upper : w * range / Word.limit = i := by
    rw [product,Nat.add_mul_div_left _ _ (by decide),Nat.div_eq_of_lt (by omega),Nat.zero_add]
  have lower : w * range % Word.limit ≤ quickZone range := by
    rw [product,Nat.add_mul_mod_self_left,Nat.mod_eq_of_lt (by omega)]
    have : range * 1 ≤ range * Nat.pow 2 (63 - range.log2) := Nat.mul_le_mul_left _ (Nat.pow_pos (by omega))
    unfold quickZone
    omega
  have run : (scaled Draw.word Word.limit range (quickZone range) patience : Draw Tape Nat)
      (w.toUInt64 :: [] ++ₛ rest) =
      (if w.toUInt64.toNat * range % Word.limit ≤ quickZone range
        then pure (w.toUInt64.toNat * range / Word.limit)
        else scaled Draw.word Word.limit range (quickZone range) 255 : Draw Tape Nat) rest := rfl
  rw [below,if_neg (by omega),run,wide,if_pos lower,upper]
  rfl

variable {σ : Type} [RandomSource σ]

omit [RandomSource σ] in
theorem scaled_draws {word : Draw σ Nat} {size range : Nat} (words : ∀ g, ∃ w g', word g = .ok (w,g') ∧ w < size)
    (some_number : 0 < range) (zone tries : Nat) (g : σ) :
    ∃ i g', scaled word size range zone tries g = .ok (i,g') ∧ i < range := by
  have upper {w : Nat} (inside : w < size) : w * range / size < range :=
    Nat.div_lt_of_lt_mul (Nat.mul_lt_mul_of_pos_right inside some_number)
  induction tries generalizing g with
  | zero =>
    obtain ⟨w,g',drawn,inside⟩ := words g
    exact ⟨_,g',Draw.bind_run drawn,upper inside⟩
  | succ tries ih =>
    obtain ⟨w,g',drawn,inside⟩ := words g
    rw [scaled,Draw.bind_run drawn]
    split
    · exact ⟨_,g',rfl,upper inside⟩
    · exact ih g'

theorem word_draws (g : σ) : ∃ w g', (Draw.word : Draw σ Nat) g = .ok (w,g') ∧ w < Word.limit :=
  ⟨_,_,rfl,UInt64.toNat_lt _⟩

theorem halfWord_draws (g : σ) : ∃ w g', (Draw.halfWord : Draw σ Nat) g = .ok (w,g') ∧ w < Word.halfLimit :=
  ⟨_,_,rfl,Nat.div_lt_of_lt_mul (UInt64.toNat_lt _)⟩

/-- A number below a range is drawn whatever the source yields. -/
theorem below_draws {range : Nat} (some_number : 0 < range) (g : σ) :
    ∃ i g', below range g = .ok (i,g') ∧ i < range := by
  rw [below,if_neg (by omega)]
  exact scaled_draws word_draws some_number _ _ g

theorem index_draws {count : Nat} (some_entry : 0 < count) (g : σ) :
    ∃ i g', index count g = .ok (i,g') ∧ i < count := by
  rw [index,if_neg (by omega)]
  exact scaled_draws word_draws some_entry _ _ g

theorem shortIndex_draws {count : Nat} (some_entry : 0 < count) (g : σ) :
    ∃ i g', shortIndex count g = .ok (i,g') ∧ i < count := by
  rw [shortIndex,if_neg (by omega)]
  exact scaled_draws halfWord_draws some_entry _ _ g

end Uniform

/-! ### Texts of an expression -/

namespace Regex

theorem drawFrom_scripted (ranges : List (Nat × Nat)) (count : Nat) :
    Scripted fun σ [RandomSource σ] => (Repeat.drawFrom count ranges : Draw σ Nat) := by
  induction ranges generalizing count with
  | nil => exact scripted_pure count
  | cons range rest ih =>
    exact (Uniform.between_scripted range.1 range.2).bind fun k =>
      (scripted_lift (Repeat.fit (count * k))).bind fun n => ih n

namespace Sampler

theorem repeatDraw_scripted {step : String → ∀ (σ : Type) [RandomSource σ], Draw σ String}
    (scripted : ∀ acc, Scripted (step acc)) (n : Nat) (acc : String) :
    Scripted fun σ [RandomSource σ] => repeatDraw (fun acc => step acc σ) n acc := by
  induction n generalizing acc with
  | zero => exact scripted_pure acc
  | succ n ih => exact (scripted acc).bind fun text => ih text

theorem drawChar_scripted (set : Charset) (acc : String) :
    Scripted fun σ [RandomSource σ] => (drawChar set acc : Draw σ String) := by
  refine Scripted.ite ((Uniform.index_scripted _).bind fun i => ?_) ((Uniform.shortIndex_scripted _).bind fun i => ?_)
  all_goals
    dsimp only
    cases set.nth? i with
    | some c => exact scripted_pure (acc.push c)
    | none => exact scripted_pure acc

mutual

theorem drawOnto_scripted : ∀ (s : Sampler) (acc : String),
    Scripted fun σ [RandomSource σ] => (drawOnto s acc : Draw σ String)
  | .literal count text, acc => by
    unfold drawOnto
    exact (drawFrom_scripted count.ranges count.fixed).bind fun n =>
      repeatDraw_scripted (fun acc => scripted_pure (acc ++ text)) n acc
  | .chars count set, acc => by
    unfold drawOnto
    exact (drawFrom_scripted count.ranges count.fixed).bind fun n =>
      repeatDraw_scripted (drawChar_scripted set) n acc
  | .seq count parts, acc => by
    unfold drawOnto
    exact (drawFrom_scripted count.ranges count.fixed).bind fun n =>
      repeatDraw_scripted (drawAll_scripted parts) n acc
  | .any count branches, acc => by
    unfold drawOnto
    exact (drawFrom_scripted count.ranges count.fixed).bind fun n =>
      repeatDraw_scripted (fun acc => (Uniform.index_scripted branches.length).bind fun i =>
        drawNth_scripted branches i acc) n acc

theorem drawAll_scripted : ∀ (ss : List Sampler) (acc : String),
    Scripted fun σ [RandomSource σ] => (drawAll ss acc : Draw σ String)
  | [], acc => by
    unfold drawAll
    exact scripted_pure acc
  | s :: ss, acc => by
    unfold drawAll
    exact (drawOnto_scripted s acc).bind fun acc => drawAll_scripted ss acc

theorem drawNth_scripted : ∀ (ss : List Sampler) (i : Nat) (acc : String),
    Scripted fun σ [RandomSource σ] => (drawNth ss i acc : Draw σ String)
  | [], _, acc => by
    unfold drawNth
    exact scripted_pure acc
  | s :: _, 0, acc => by
    unfold drawNth
    exact drawOnto_scripted s acc
  | _ :: ss, i + 1, acc => by
    unfold drawNth
    exact drawNth_scripted ss i acc

end

end Sampler

theorem draw_scripted (r : Regex) : Scripted fun σ [RandomSource σ] => (r.draw : Draw σ String) :=
  Sampler.drawOnto_scripted r.sampler ""

end Regex

/-! ### Names and values -/

namespace Pattern

theorem drawDigit_scripted : Scripted fun σ [RandomSource σ] => (ValueSpec.drawDigit : Draw σ Char) :=
  (Uniform.below_scripted 10).bind fun d => scripted_pure (Char.ofNat ('0'.toNat + d))

theorem drawRuns_scripted (len todo i : Nat) (digit : Char) (acc : String) :
    Scripted fun σ [RandomSource σ] => (ValueSpec.drawRuns len todo i digit acc : Draw σ String) := by
  induction todo generalizing i digit acc with
  | zero => exact scripted_pure acc
  | succ todo ih =>
    refine (scripted_lift (ValueSpec.changesAt len i)).bind fun changes => ?_
    exact Scripted.ite (drawDigit_scripted.bind fun d => ih (i + 1) d (acc.push d))
      (ih (i + 1) digit (acc.push digit))

theorem drawLength_scripted (spec : ValueSpec) :
    Scripted fun σ [RandomSource σ] => (spec.drawLength : Draw σ Nat) :=
  Scripted.ite ((Uniform.below_scripted _).bind fun extra => scripted_pure (spec.min + extra))
    (scripted_pure spec.min)

theorem valueSpec_draw_scripted (spec : ValueSpec) :
    Scripted fun σ [RandomSource σ] => (spec.draw : Draw σ String) :=
  (drawLength_scripted spec).bind fun len =>
    Scripted.ite (drawDigit_scripted.bind fun digit => drawRuns_scripted len len 0 digit "")
      (scripted_stop _)

theorem drawValue_scripted (l : Level) : Scripted fun σ [RandomSource σ] => (l.drawValue : Draw σ String) := by
  unfold Level.drawValue
  cases l.value with
  | none => exact scripted_pure ""
  | some v =>
    cases v with
    | regex r => exact Regex.draw_scripted r
    | digits spec => exact valueSpec_draw_scripted spec

theorem instanceName_scripted (l : Level) (i : Nat) :
    Scripted fun σ [RandomSource σ] => (l.instanceName i : Draw σ String) := by
  unfold Level.instanceName
  cases l.segment with
  | names names =>
    cases place : names[i]? with
    | some name => simpa only [place] using scripted_pure name
    | none => simpa only [place] using scripted_stop _
  | format f => exact scripted_lift (f.render i)
  | random r => exact Regex.draw_scripted r

theorem extend_scripted (r : Regex) (n : Nat) (names : Array String) :
    Scripted fun σ [RandomSource σ] => (Builder.extend r n names : Draw σ (Array String)) := by
  induction n generalizing names with
  | zero => exact scripted_pure names
  | succ n ih => exact (Regex.draw_scripted r).bind fun name => ih (names.push name)

end Pattern

end Keyload
