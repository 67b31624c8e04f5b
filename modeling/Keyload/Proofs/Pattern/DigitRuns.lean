import Mathlib.Data.List.DropRight
import Keyload.Proofs.Number.Decimal
import Keyload.Proofs.Pattern.Written
import Keyload.Proofs.Random.Library
import Keyload.Random.Xoshiro

/-!
Lengths of values and the digits drawn for them. A text is read as lengths if it is written as them (`read_iff`), and
whatever is drawn, a value has a length that they allow and is made of digits, those of a long value in runs. Nothing
stops the draw but a length that no text can have (`digit_values`).
-/
namespace Keyload

/-! ### Blanks around a text -/

/-- Only blanks are trimmed. -/
theorem trimBlanks_parts (cs : List Char) : ∃ before after, cs = before ++ trimBlanks cs ++ after ∧
    (∀ c ∈ before, isBlank c = true) ∧ ∀ c ∈ after, isBlank c = true := by
  refine ⟨cs.takeWhile isBlank,(cs.dropWhile isBlank).rtakeWhile isBlank,?_,
    fun c member => List.mem_takeWhile_imp member,fun c member => List.mem_rtakeWhile_imp member⟩
  have inner : trimBlanks cs ++ (cs.dropWhile isBlank).rtakeWhile isBlank = cs.dropWhile isBlank :=
    List.rdropWhile_append_rtakeWhile ..
  rw [List.append_assoc,inner,List.takeWhile_append_dropWhile]

/-- Blanks around a text are trimmed, up to what is not blank. -/
theorem trimBlanks_append {before inner after : List Char} (ahead : ∀ c ∈ before, isBlank c = true)
    (some_char : inner ≠ []) (bare : ∀ c ∈ inner, isBlank c = false) (behind : ∀ c ∈ after, isBlank c = true) :
    trimBlanks (before ++ inner ++ after) = inner := by
  have kept {cs others : List Char} (some_char : cs ≠ []) (bare : ∀ c ∈ cs, isBlank c = false) :
      (cs ++ others).dropWhile isBlank = cs ++ others := by
    obtain ⟨c,rest,rfl⟩ := List.exists_cons_of_ne_nil some_char
    exact List.dropWhile_cons_of_neg (by simp [bare c List.mem_cons_self])
  have back : (inner.reverse ++ []).dropWhile isBlank = inner.reverse ++ [] :=
    kept (by simpa using some_char) fun c member => bare c (List.mem_reverse.mp member)
  rw [trimBlanks,List.append_assoc,List.dropWhile_append_of_pos ahead,kept some_char bare,List.reverse_append,
    List.dropWhile_append_of_pos fun c member => behind c (List.mem_reverse.mp member)]
  rw [List.append_nil] at back
  rw [back,List.reverse_reverse]

/-- A digit is no blank. -/
theorem digit_bare {c : Char} (digit : c.isDigit = true) : isBlank c = false := by
  have bounds : '0'.toNat ≤ c.toNat ∧ c.toNat ≤ '9'.toNat := by
    simp only [Char.isDigit,Bool.and_eq_true,decide_eq_true_eq] at digit
    exact digit
  have zero : '0'.toNat = 48 := rfl
  have nine : '9'.toNat = 57 := rfl
  simp only [isBlank,Bool.or_eq_false_iff,Bool.and_eq_false_iff,decide_eq_false_iff_not,beq_eq_false_iff_ne]
  omega

namespace Pattern.ValueSpec

/-! ### Reading -/

/-- A length as it is written: a number that a machine word holds, and blanks around it. -/
inductive Spelt : List Char → ℕ → Prop where
  | padded {before number after : List Char} {n : ℕ} (ahead : ∀ c ∈ before, isBlank c = true)
    (behind : ∀ c ∈ after, isBlank c = true) (writes : Decimal.Writes number n) (fits : n < Word.limit) :
    Spelt (before ++ number ++ after) n

/-- Lengths as they are written: one for both bounds, or two with a comma between them, the larger not first. No length
holds a comma, so there is no other. -/
inductive Written : List Char → ℕ → ℕ → Prop where
  | one {text : List Char} {n : ℕ} (spelt : Spelt text n) : Written text n n
  | two {first second : List Char} {min max : ℕ} (lower : Spelt first min) (upper : Spelt second max)
    (ordered : min ≤ max) : Written (first ++ ',' :: second) min max

/-- A number is written in digits, behind a sign or not. -/
theorem writes_chars {number : List Char} {n : ℕ} (writes : Decimal.Writes number n) :
    number ≠ [] ∧ ∀ c ∈ number, c = '+' ∨ c.isDigit = true := by
  cases writes with
  | plain some_digit denotes => exact ⟨some_digit,fun c member => .inr (denotes.1 c member)⟩
  | @signed digits _ _ denotes =>
    refine ⟨List.cons_ne_nil '+' digits,fun c member => ?_⟩
    rcases List.mem_cons.mp member with sign | member
    · exact .inl sign
    · exact .inr (denotes.1 c member)

theorem readLength_iff {cs : List Char} {n : ℕ} : readLength? cs = some n ↔ Spelt cs n := by
  unfold readLength?
  rw [Decimal.word_iff]
  constructor
  · rintro ⟨writes,fits⟩
    obtain ⟨before,after,whole,ahead,behind⟩ := trimBlanks_parts cs
    rw [whole]
    exact .padded ahead behind writes fits
  · rintro ⟨ahead,behind,writes,fits⟩
    obtain ⟨some_char,chars⟩ := writes_chars writes
    have bare : ∀ c ∈ _, isBlank c = false := fun c member => by
      rcases chars c member with rfl | digit
      · decide
      · exact digit_bare digit
    rw [trimBlanks_append ahead some_char bare behind]
    exact ⟨writes,fits⟩

theorem Spelt.no_comma {cs : List Char} {n : ℕ} (spelt : Spelt cs n) : ',' ∉ cs := by
  obtain ⟨ahead,behind,writes,-⟩ := spelt
  intro member
  rcases List.mem_append.mp member with member | member
  · rcases List.mem_append.mp member with member | member
    · exact absurd (ahead _ member) (by decide)
    · exact absurd ((writes_chars writes).2 _ member) (by decide)
  · exact absurd (behind _ member) (by decide)

theorem readBounds_iff {cs : List Char} {min max : ℕ} :
    readBounds? cs = some (min,max) ∧ min ≤ max ↔ Written cs min max := by
  unfold readBounds?
  constructor
  · rintro ⟨run,ordered⟩
    split at run
    · rename_i first second cut
      obtain ⟨rfl,-⟩ := Text.cutFirst_eq_some.mp cut
      simp only [Option.bind_eq_bind,Option.bind_eq_some_iff,Option.pure_def,Option.some.injEq,Prod.mk.injEq] at run
      obtain ⟨_,lower,_,upper,rfl,rfl⟩ := run
      exact .two (readLength_iff.mp lower) (readLength_iff.mp upper) ordered
    · obtain ⟨n,spelt,same⟩ := Option.map_eq_some_iff.mp run
      cases same
      exact .one (readLength_iff.mp spelt)
  · rintro (spelt | ⟨lower,upper,ordered⟩)
    · rw [Text.cutFirst_eq,if_neg spelt.no_comma]
      exact ⟨congrArg (Option.map _) (readLength_iff.mpr spelt),le_rfl⟩
    · rw [Text.cutFirst_eq_some.mpr ⟨rfl,lower.no_comma⟩]
      refine ⟨?_,ordered⟩
      simp only [readLength_iff.mpr lower,readLength_iff.mpr upper]
      rfl

theorem readText_iff {cs : List Char} {s : ValueSpec} : read? cs = some s ↔ Written cs s.min s.max := by
  rw [← readBounds_iff,read?]
  simp only [Option.bind_eq_bind,Option.bind_eq_some_iff,Prod.exists]
  constructor
  · rintro ⟨min,max,bounds,found⟩
    split at found
    · rename_i ordered
      cases found
      exact ⟨bounds,ordered⟩
    · cases found
  · rintro ⟨bounds,ordered⟩
    exact ⟨_,_,bounds,by rw [dif_pos ordered]⟩

/-- A text is read as lengths if it is written as them. -/
theorem read_iff {text : String} {s : ValueSpec} : read text = .ok s ↔ Written text.toList s.min s.max := by
  rw [← readText_iff,read]
  split
  · rename_i found
    rw [found]
    simp
  · rename_i absent
    simp [absent]

/-- Any other text is refused, and named. -/
theorem read_refuses {text : String} :
    read text = .error (.invalidValueSpec text) ↔ ∀ min max, ¬Written text.toList min max := by
  constructor
  · intro refused min max written
    have ordered : min ≤ max := (readBounds_iff.mpr written).2
    have accepted : read text = .ok ⟨min,max,ordered⟩ := read_iff.mpr written
    rw [accepted] at refused
    cases refused
  · intro unwritten
    unfold read
    split
    · rename_i s found
      exact absurd (read_iff.mp (by rw [read,found])) (unwritten s.min s.max)
    · rfl

example : read "20,10" = .error (.invalidValueSpec "20,10") := rfl

/-! ### Runs -/

/-- A character differs from the one before it only where a run begins. -/
def Runs (run : ℕ) (cs : List Char) : Prop :=
  ∀ i, i + 1 < cs.length → (i + 1) % run ≠ 0 → cs[i + 1]? = cs[i]?

/-- A character that the last run goes on with, or that begins another. -/
theorem Runs.push {run : ℕ} {cs : List Char} (runs : Runs run cs) {d : Char}
    (goes_on : cs.length % run ≠ 0 → ∀ c ∈ cs.getLast?, c = d) : Runs run (cs ++ [d]) := by
  intro i inside inner
  rw [List.length_append,List.length_singleton] at inside
  rcases Nat.lt_or_ge (i + 1) cs.length with before | last
  · rw [List.getElem?_append_left before,List.getElem?_append_left (by omega)]
    exact runs i before inner
  · have length : cs.length = i + 1 := by omega
    have current : cs.getLast? = some d := by
      have some_char : cs ≠ [] := List.ne_nil_of_length_eq_add_one length
      have there := List.getLast?_eq_some_getLast some_char
      rw [there,goes_on (by rwa [length]) _ there]
    rw [List.getElem?_append_left (by omega : i < cs.length),← length,List.getElem?_concat_length,← current,
      List.getLast?_eq_getElem?,length,Nat.add_sub_cancel]

/-- In one run all characters are the same. -/
theorem Runs.block {run : ℕ} {cs : List Char} (runs : Runs run cs) {k i : ℕ} (from_start : k * run ≤ i)
    (to_end : i < (k + 1) * run) (inside : i < cs.length) : cs[i]? = cs[k * run]? := by
  induction i, from_start using Nat.le_induction with
  | base => rfl
  | succ i from_start ih =>
    -- A run that began here would be the next one, and that begins where the block ends.
    have inner : (i + 1) % run ≠ 0 := by
      intro boundary
      obtain ⟨m,multiple⟩ := Nat.dvd_of_mod_eq_zero boundary
      rw [Nat.mul_comm run m] at multiple
      have later : k < m := Nat.lt_of_mul_lt_mul_right (a := run) (by omega)
      have : (k + 1) * run ≤ m * run := Nat.mul_le_mul_right run later
      omega
    rw [runs i inside inner,ih (by omega) (by omega)]

/-! ### Drawing -/

/-- The lengths that the bounds allow. -/
def Allows (s : ValueSpec) (len : ℕ) : Prop :=
  if s.min = s.max then len = s.min else s.min ≤ len ∧ len < s.max

/-- A value of so many digits, in which a tenth of them at a time are the same if they are more than ten. -/
structure DigitValue (len : ℕ) (value : List Char) : Prop where
  length : value.length = len
  digits : ∀ c ∈ value, c.isDigit = true
  blocks : 10 < len → ∀ k, ∃ c, ∀ i, k * (len / 10) ≤ i → i < (k + 1) * (len / 10) → i < len → value[i]? = some c

/-- What is drawn of a value so far. -/
structure Begun (len : ℕ) (digit : Char) (cs : List Char) : Prop where
  digits : ∀ c ∈ cs, c.isDigit = true
  current : digit.isDigit = true
  last : ∀ c ∈ cs.getLast?, c = digit
  runs : 10 < len → Runs (len / 10) cs

theorem Begun.push {len : ℕ} {digit d : Char} {cs : List Char} (begun : Begun len digit cs)
    (fresh : d.isDigit = true) (goes_on : 10 < len → cs.length % (len / 10) ≠ 0 → d = digit) :
    Begun len d (cs ++ [d]) where
  digits := by
    intro c member
    rcases List.mem_append.mp member with member | member
    · exact begun.digits c member
    · rwa [List.mem_singleton.mp member]
  current := fresh
  last := by
    intro c last
    rw [List.getLast?_concat] at last
    exact (Option.some.inj last).symm
  runs := fun long => (begun.runs long).push fun inner c last => by rw [goes_on long inner,begun.last c last]

theorem Begun.value {len : ℕ} {digit : Char} {cs : List Char} (begun : Begun len digit cs)
    (whole : cs.length = len) : DigitValue len cs where
  length := whole
  digits := begun.digits
  blocks := by
    intro long k
    by_cases within : k * (len / 10) < cs.length
    · refine ⟨cs[k * (len / 10)],fun i from_start to_end inside => ?_⟩
      rw [(begun.runs long).block from_start to_end (by omega),List.getElem?_eq_getElem within]
    · refine ⟨digit,fun i from_start _ inside => ?_⟩
      omega

/-- Whether the digit changes is always known: for a long value a run is not empty. -/
theorem changesAt_eq (len i : ℕ) : changesAt len i = .ok (decide (10 < len → i % (len / 10) = 0)) := by
  unfold changesAt
  split
  · rename_i short
    have vacuous : 10 < len → i % (len / 10) = 0 := fun long => absurd long (by omega)
    rw [decide_eq_true vacuous]
  · rename_i long
    have some_run : len / 10 ≠ 0 := by omega
    rw [Word.rem,if_neg some_run]
    simp [Except.map,Nat.lt_of_not_le long]
    rfl

variable {σ : Type} [RandomSource σ]

theorem drawDigit_draws (g : σ) : ∃ c g', drawDigit g = .ok (c,g') ∧ c.isDigit = true := by
  obtain ⟨d,g',drawn,below⟩ := Uniform.below_draws (by decide : 0 < 10) g
  refine ⟨Char.ofNat ('0'.toNat + d),g',?_,?_⟩
  · rw [drawDigit,Draw.bind_run drawn]
    rfl
  · have digits : ∀ d < 10, (Char.ofNat ('0'.toNat + d)).isDigit = true := by decide
    exact digits d below

theorem drawLength_draws (s : ValueSpec) (g : σ) : ∃ len g', s.drawLength g = .ok (len,g') ∧ s.Allows len := by
  have ordered := s.min_le_max
  unfold drawLength Allows
  by_cases wide : s.min < s.max
  · have apart : s.min ≠ s.max := by omega
    obtain ⟨extra,g',drawn,below⟩ := Uniform.below_draws (by omega : 0 < s.max - s.min) g
    simp only [if_pos wide,if_neg apart]
    refine ⟨s.min + extra,g',?_,by omega⟩
    rw [Draw.bind_run drawn]
    rfl
  · have same : s.min = s.max := by omega
    simp only [if_neg wide,if_pos same]
    exact ⟨s.min,g,rfl,rfl⟩

/-- One position of a value: its digit goes on or is drawn, and the value is as begun. -/
theorem drawRuns_step {len : ℕ} {digit : Char} {acc : String} (begun : Begun len digit acc.toList) (todo : ℕ)
    (g : σ) : ∃ d g', drawRuns len (todo + 1) acc.length digit acc g =
      drawRuns len todo (acc.length + 1) d (acc.push d) g' ∧ Begun len d (acc.push d).toList := by
  have known : (Draw.lift (changesAt len acc.length) : Draw σ Bool) g =
      .ok (decide (10 < len → acc.length % (len / 10) = 0),g) := by
    rw [Draw.lift,changesAt_eq]
    rfl
  rw [drawRuns,Draw.bind_run known]
  by_cases changes : 10 < len → acc.length % (len / 10) = 0
  · obtain ⟨d,g',drawn,fresh⟩ := drawDigit_draws g
    refine ⟨d,g',?_,?_⟩
    · rw [decide_eq_true changes,if_pos rfl,Draw.bind_run drawn]
    · rw [String.toList_push]
      exact begun.push fresh fun long inner => absurd (changes long) inner
  · refine ⟨digit,g,?_,?_⟩
    · rw [decide_eq_false changes,if_neg Bool.false_ne_true]
      rfl
    · rw [String.toList_push]
      exact begun.push begun.current fun _ _ => rfl

/-- The rest of a value is drawn, whatever the source yields. -/
theorem drawRuns_draws {len : ℕ} {digit : Char} {acc : String} (begun : Begun len digit acc.toList) (todo : ℕ)
    (g : σ) : ∃ value g' last, drawRuns len todo acc.length digit acc g = .ok (value,g') ∧
      value.length = acc.length + todo ∧ Begun len last value.toList := by
  induction todo generalizing digit acc g with
  | zero => exact ⟨acc,g,digit,rfl,rfl,begun⟩
  | succ todo ih =>
    obtain ⟨d,h,step,begun⟩ := drawRuns_step begun todo g
    obtain ⟨value,g',last,drawn,length,begun⟩ := ih begun h
    rw [String.length_push] at drawn length
    exact ⟨value,g',last,by rw [step,drawn],by omega,begun⟩

theorem draw_value {s : ValueSpec} {len : ℕ} {g h : σ} (drawn : s.drawLength g = .ok (len,h))
    (short : len ≤ Word.longest) : ∃ value g', s.draw g = .ok (value,g') ∧ DigitValue len value.toList := by
  obtain ⟨digit,h',first,fresh⟩ := drawDigit_draws h
  have nothing : Begun len digit "".toList := ⟨by simp,fresh,by simp,fun _ i inside => by simp at inside⟩
  obtain ⟨value,g',last,run,length,begun⟩ := drawRuns_draws nothing len h'
  refine ⟨value,g',?_,begun.value (by simpa using length : value.length = len)⟩
  rw [draw,Draw.bind_run drawn,if_pos short,Draw.bind_run first]
  exact run

theorem draw_stops {s : ValueSpec} {len : ℕ} {g h : σ} (drawn : s.drawLength g = .ok (len,h))
    (long : Word.longest < len) : s.draw g = .error .tooLong := by
  rw [draw,Draw.bind_run drawn,if_neg (by omega)]
  rfl

/-- Every text of one or two ordered lengths is read, and nothing else. For what is read, whatever the source yields, a
value never ends in a division by zero, and its length is drawn as the bounds say; if a text can be that long, it is so
many digits, with a long value in blocks of equal ones. -/
theorem digit_values (text : String) :
    (∀ s, read text = .ok s ↔ Written text.toList s.min s.max) ∧
    (read text = .error (.invalidValueSpec text) ↔ ∀ min max, ¬Written text.toList min max) ∧
    ∀ s, read text = .ok s → ∀ (σ : Type) [RandomSource σ] (g : σ), s.draw g ≠ .error .zeroDivisor ∧
      ∃ len h, s.drawLength g = .ok (len,h) ∧ s.Allows len ∧
        (len ≤ Word.longest → ∃ value g', s.draw g = .ok (value,g') ∧ DigitValue len value.toList) ∧
        (Word.longest < len → s.draw g = .error .tooLong) := by
  refine ⟨fun s => read_iff,read_refuses,fun s _ σ _ g => ?_⟩
  obtain ⟨len,h,drawn,allowed⟩ := drawLength_draws s g
  refine ⟨?_,len,h,drawn,allowed,draw_value drawn,draw_stops drawn⟩
  rcases Nat.lt_or_ge Word.longest len with long | short
  · rw [draw_stops drawn long]
    simp
  · obtain ⟨value,g',run,-⟩ := draw_value drawn short
    rw [run]
    simp

/-- A length of 20 between the bounds: every digit is there twice. -/
theorem digit_values_twice : ∃ (s : ValueSpec) (value : String) (g : Xoshiro), read " 10,\t25" = .ok s ∧
    s.draw (Xoshiro.ofSeed 1) = .ok (value,g) ∧ value = "33991144776622883399" ∧ DigitValue 20 value.toList := by
  have accepted : read " 10,\t25" = .ok ⟨10,25,by decide⟩ := rfl
  obtain ⟨-,len,h,drawn,-,value,-⟩ := (digit_values " 10,\t25").2.2 _ accepted Xoshiro (Xoshiro.ofSeed 1)
  have length : len = 20 := by
    have run : ((⟨10,25,by decide⟩ : ValueSpec).drawLength (Xoshiro.ofSeed 1)).toOption.map Prod.fst = some 20 := by
      decide +kernel
    rw [drawn] at run
    exact Option.some.inj run
  subst length
  obtain ⟨value,g,run,good⟩ := value (by decide)
  refine ⟨_,value,g,accepted,run,?_,good⟩
  have text : ((⟨10,25,by decide⟩ : ValueSpec).draw (Xoshiro.ofSeed 1)).toOption.map Prod.fst =
      some "33991144776622883399" := by
    decide +kernel
  rw [run] at text
  exact Option.some.inj text

/-- A length is read that no text can have, and no value is drawn for it. -/
theorem unaddressable_length : ∃ s : ValueSpec, read "9223372036854775808" = .ok s ∧
    ¬∃ value g, s.draw (Xoshiro.ofSeed 1) = .ok (value,g) := by
  refine ⟨⟨9223372036854775808,9223372036854775808,le_rfl⟩,rfl,?_⟩
  rintro ⟨value,g,run⟩
  have stopped : ValueSpec.draw ⟨9223372036854775808,9223372036854775808,le_rfl⟩ (Xoshiro.ofSeed 1) =
      .error .tooLong := rfl
  rw [stopped] at run
  cases run

end Pattern.ValueSpec

end Keyload
