import Keyload.Pattern.Compiler

/-!
Pattern lines as they are written: the segments of a line, the path and the values of a segment, a name with a count in
brackets, and the first verb of a format, which stops the reader if no machine word holds its width. Compiling cuts
lines up character by character; here is what it cuts them into.
-/
namespace Keyload

/-- An outcome of two steps that stops does so at one of them. -/
theorem Outcome.bind_stops {ε α β : Type} {x : Outcome ε α} {f : α → Outcome ε β} {e : Fault}
    (stopped : (x >>= f).run = .error e) : x.run = .error e ∨ ∃ a, x.run = .ok (.ok a) ∧ (f a).run = .error e := by
  change x.run.bind (ExceptT.bindCont f) = _ at stopped
  cases first : x.run with
  | error e' =>
    rw [first] at stopped
    cases stopped
    exact .inl rfl
  | ok r =>
    rw [first] at stopped
    cases r with
    | error e' => cases stopped
    | ok a => exact .inr ⟨a,rfl,stopped⟩

/-! ### Cuts -/

namespace Text

theorem splitAll_eq (mark : Char) (cs : List Char) : splitAll mark cs = cs.splitOn mark := by
  induction cs with
  | nil => rfl
  | cons c rest ih =>
    rw [splitAll,ih,List.splitOn,List.splitOn,List.splitOnP_cons_eq_if_modifyHead]
    by_cases here : c = mark
    · simp [here]
    · simp only [if_neg here,beq_iff_eq]
      cases parts : rest.splitOnP (· == mark) with
      | nil => exact absurd parts (List.splitOnP_ne_nil _ rest)
      | cons part parts => rfl

theorem cutFirst_eq (mark : Char) (cs : List Char) : cutFirst mark cs =
    if mark ∈ cs then some (cs.takeWhile (· ≠ mark),(cs.dropWhile (· ≠ mark)).tail) else none := by
  induction cs with
  | nil => rfl
  | cons c rest ih =>
    rw [cutFirst,ih]
    by_cases here : c = mark
    · simp [here]
    · by_cases later : mark ∈ rest
      · simp [here,later]
      · simp [here,later,Ne.symm here]

theorem cutFirst_eq_some {mark : Char} {cs before after : List Char} :
    cutFirst mark cs = some (before,after) ↔ cs = before ++ mark :: after ∧ mark ∉ before := by
  induction cs generalizing before with
  | nil => simp [cutFirst]
  | cons c rest ih =>
    rw [cutFirst]
    by_cases here : c = mark
    · simp only [here,if_true,Option.some.injEq,Prod.mk.injEq]
      constructor
      · rintro ⟨rfl,rfl⟩
        exact ⟨rfl,List.not_mem_nil⟩
      · rintro ⟨split,first⟩
        cases before with
        | nil => simpa using split
        | cons d before =>
          cases split
          simp at first
    · simp only [if_neg here,Option.map_eq_some_iff,Prod.exists,Prod.mk.injEq]
      constructor
      · rintro ⟨a,b,later,rfl,rfl⟩
        obtain ⟨rfl,first⟩ := ih.mp later
        exact ⟨rfl,by simp [first,Ne.symm here]⟩
      · rintro ⟨split,first⟩
        cases before with
        | nil =>
          cases split
          exact absurd rfl here
        | cons d before =>
          cases split
          exact ⟨before,after,ih.mpr ⟨rfl,fun later => first (List.mem_cons_of_mem _ later)⟩,rfl,rfl⟩

theorem dropLast?_eq_some {mark : Char} {cs body : List Char} : dropLast? mark cs = some body ↔ cs = body ++ [mark] := by
  unfold dropLast?
  split
  · rename_i c rest reversed
    rw [List.reverse_eq_cons_iff] at reversed
    subst reversed
    by_cases here : c = mark
    · simp [here]
    · simp [here]
  · rename_i reversed
    simp [List.reverse_eq_nil_iff.mp reversed]

theorem dropLast?_eq_none {mark : Char} {cs : List Char} : dropLast? mark cs = none ↔ cs.getLast? ≠ some mark := by
  rw [Option.eq_none_iff_forall_ne_some]
  simp [dropLast?_eq_some,List.getLast?_eq_some_iff]

theorem cutLast_eq_none {mark : Char} {cs : List Char} : cutLast mark cs = none ↔ mark ∉ cs := by
  induction cs with
  | nil => simp [cutLast]
  | cons c rest ih =>
    rw [cutLast]
    cases later : cutLast mark rest with
    | some cut =>
      have found : ¬mark ∉ rest := fun absent => by
        rw [ih.mpr absent] at later
        cases later
      simp [Classical.not_not.mp found]
    | none =>
      by_cases here : c = mark
      · simp [here]
      · simp [here,Ne.symm here,ih.mp later]

theorem cutLast_eq_some {mark : Char} {cs before after : List Char} :
    cutLast mark cs = some (before,after) ↔ cs = before ++ mark :: after ∧ mark ∉ after := by
  induction cs generalizing before after with
  | nil => simp [cutLast]
  | cons c rest ih =>
    rw [cutLast]
    cases later : cutLast mark rest with
    | some cut =>
      obtain ⟨a,b⟩ := cut
      obtain ⟨whole,last⟩ := ih.mp later
      constructor
      · intro same
        cases same
        exact ⟨by rw [whole]; rfl,last⟩
      · rintro ⟨split,last'⟩
        cases before with
        | nil =>
          cases split
          exact absurd (by simp [whole]) last'
        | cons d before =>
          cases split
          rw [ih.mpr ⟨rfl,last'⟩] at later
          cases later
          rfl
    | none =>
      have absent := cutLast_eq_none.mp later
      by_cases here : c = mark
      · simp only [here,if_true,Option.some.injEq,Prod.mk.injEq]
        constructor
        · rintro ⟨rfl,rfl⟩
          exact ⟨rfl,absent⟩
        · rintro ⟨split,last⟩
          cases before with
          | nil => simpa using split
          | cons d before =>
            cases split
            simp at absent
      · simp only [if_neg here,reduceCtorEq,false_iff,not_and]
        intro split
        cases before with
        | nil =>
          cases split
          exact absurd rfl here
        | cons d before =>
          cases split
          simp at absent

end Text

namespace Pattern

/-! ### Segments -/

/-- The segments of a line: what stands between its slashes, where anything does. -/
def parts (source : String) : List (List Char) := (source.toList.splitOn '/').filter (· ≠ [])

/-- The path of a segment stands before its first `;`. -/
def pathOf (segment : List Char) : List Char := segment.takeWhile (· ≠ ';')

/-- The expression for the values of a segment stands after its first `;`. -/
def valueOf (segment : List Char) : String := String.ofList (segment.dropWhile (· ≠ ';')).tail

theorem segments_eq (source : String) : Compiler.segments source = parts source := by
  unfold Compiler.segments parts
  rw [Text.splitAll_eq]
  refine List.filter_congr fun segment _ => ?_
  cases segment <;> rfl

theorem cut_segment (segment : List Char) : Text.cutFirst ';' segment =
    if ';' ∈ segment then some (pathOf segment,(segment.dropWhile (· ≠ ';')).tail) else none :=
  Text.cutFirst_eq ';' segment

theorem pathOf_eq_self {segment : List Char} (valueless : ';' ∉ segment) : pathOf segment = segment := by
  unfold pathOf
  induction segment with
  | nil => rfl
  | cons c rest ih =>
    simp only [List.mem_cons,not_or] at valueless
    rw [List.takeWhile_cons_of_pos (by simpa using Ne.symm valueless.1),ih valueless.2]

/-! ### Counts -/

/-- A name and the count in brackets after it; a text that does not end in a bracket is a name alone. -/
inductive Counted : List Char → List Char → Option Nat → Prop
  | alone {text : List Char} (bare : text.getLast? ≠ some ']') : Counted text text none
  | bracketed {name digits : List Char} {n : Nat} (innermost : '[' ∉ digits) (word : Decimal.word? digits = some n) :
      Counted (name ++ '[' :: digits ++ [']']) name (some n)

theorem splitCount_ok {text name : List Char} {count : Option Nat} :
    Compiler.splitCount text = .ok (name,count) ↔ Counted text name count := by
  constructor
  · intro run
    unfold Compiler.splitCount at run
    split at run
    · rename_i bare
      cases run
      exact .alone (Text.dropLast?_eq_none.mp bare)
    · rename_i body ended
      split at run
      · cases run
      · rename_i before digits opened
        split at run
        · rename_i n word
          cases run
          obtain ⟨rfl,innermost⟩ := Text.cutLast_eq_some.mp opened
          rw [Text.dropLast?_eq_some.mp ended]
          exact .bracketed innermost word
        · cases run
  · intro counted
    unfold Compiler.splitCount
    cases counted with
    | alone bare => rw [Text.dropLast?_eq_none.mpr bare]
    | bracketed innermost word =>
      rw [Text.dropLast?_eq_some.mpr rfl]
      simp only [Text.cutLast_eq_some.mpr ⟨rfl,innermost⟩,word]

/-- A count is read in one way. -/
theorem counted_unique {text name name' : List Char} {count count' : Option Nat} (counted : Counted text name count)
    (again : Counted text name' count') : name' = name ∧ count' = count := by
  have same := (splitCount_ok.mpr again).symm.trans (splitCount_ok.mpr counted)
  cases same
  exact ⟨rfl,rfl⟩

theorem splitCount_error {text : List Char} {e : DefinitionError} (run : Compiler.splitCount text = .error e) :
    e = .invalidCount (String.ofList text) ∧ ∀ name count, ¬Counted text name count := by
  refine ⟨?_,fun name count counted => ?_⟩
  · unfold Compiler.splitCount at run
    split at run
    · cases run
    · split at run
      · cases run
        rfl
      · split at run
        · cases run
        · cases run
          rfl
  · rw [splitCount_ok.mpr counted] at run
    cases run

/-! ### Formats -/

namespace Format

/-- Text without a verb: percent signs stand in pairs. -/
inductive Plain : List Char → Prop
  | nil : Plain []
  | percent {rest : List Char} (later : Plain rest) : Plain ('%' :: '%' :: rest)
  | other {c : Char} {rest : List Char} (no_percent : c ≠ '%') (later : Plain rest) : Plain (c :: rest)

/-- A format whose first verb has a width that no machine word holds. -/
def Overlong (format : List Char) : Prop :=
  ∃ before flags digits after w, format = before ++ '%' :: (flags ++ digits ++ after) ∧ Plain before ∧
    (∀ c ∈ flags, c = '0' ∨ c = '-') ∧ Decimal.spell? 0 digits = some w ∧ Word.limit ≤ w

/-- What plain text stands for: a pair of percent signs for one. -/
def unescaped : List Char → List Char
  | '%' :: '%' :: rest => '%' :: unescaped rest
  | c :: rest => c :: unescaped rest
  | [] => []

theorem unescaped_other {c : Char} (no_percent : c ≠ '%') (rest : List Char) :
    unescaped (c :: rest) = c :: unescaped rest := by
  rw [unescaped]
  rintro _ rfl
  exact absurd rfl no_percent

theorem readText_other {c : Char} (no_percent : c ≠ '%') (rest : List Char) :
    readText (c :: rest) = (c :: (readText rest).1,(readText rest).2) := by
  rw [readText]
  · simp only [if_neg no_percent]
  · rintro _ rfl
    exact absurd rfl no_percent

theorem readText_single {rest : List Char} (single : rest.head? ≠ some '%') : readText ('%' :: rest) = ([],some rest) := by
  rw [readText]
  · rfl
  · rintro later - rfl
    exact single rfl

theorem readText_plain {cs : List Char} (plain : Plain cs) : readText cs = (unescaped cs,none) := by
  induction plain with
  | nil => rfl
  | percent later ih => rw [readText,ih,unescaped]
  | other no_percent later ih => rw [readText_other no_percent,ih,unescaped_other no_percent]

/-- Text is read up to the first percent sign that stands alone. -/
theorem readText_verb {before rest : List Char} (plain : Plain before) (single : rest.head? ≠ some '%') :
    readText (before ++ '%' :: rest) = (unescaped before,some rest) := by
  induction plain with
  | nil => exact readText_single single
  | percent later ih => rw [List.cons_append,List.cons_append,readText,ih,unescaped]
  | other no_percent later ih =>
    rw [List.cons_append,readText_other no_percent,ih,unescaped_other no_percent]

/-- Text is plain, or it has a first percent sign that stands alone. -/
theorem plain_or_verb (cs : List Char) :
    Plain cs ∨ ∃ before rest, cs = before ++ '%' :: rest ∧ Plain before ∧ rest.head? ≠ some '%' := by
  induction cs using readText.induct with
  | case1 => exact .inl .nil
  | case2 later _ _ _ ih =>
    rcases ih with plain | ⟨before,rest,rfl,plain,single⟩
    · exact .inl plain.percent
    · exact .inr ⟨'%' :: '%' :: before,rest,rfl,plain.percent,single⟩
  | case3 rest single =>
    refine .inr ⟨[],rest,rfl,.nil,fun another => ?_⟩
    cases rest with
    | nil => cases another
    | cons c later =>
      cases another
      exact single later rfl rfl
  | case4 c later _ no_percent _ _ _ ih =>
    rcases ih with plain | ⟨before,rest,rfl,plain,single⟩
    · exact .inl (plain.other no_percent)
    · exact .inr ⟨c :: before,rest,rfl,plain.other no_percent,single⟩

theorem spell_grows {cs : List Char} {acc w : Nat} (spelt : Decimal.spell? acc cs = some w) : acc ≤ w := by
  induction cs generalizing acc with
  | nil =>
    cases spelt
    exact Nat.le_refl _
  | cons c rest ih =>
    obtain ⟨d,-,later⟩ := Option.bind_eq_some_iff.mp spelt
    have := ih later
    omega

theorem spell_digits {cs : List Char} (digits : ∀ c ∈ cs, isWidthDigit c = true) (acc : Nat) :
    ∃ w, Decimal.spell? acc cs = some w := by
  induction cs generalizing acc with
  | nil => exact ⟨acc,rfl⟩
  | cons c rest ih =>
    have digit := digits c List.mem_cons_self
    simp only [isWidthDigit,Bool.and_eq_true,decide_eq_true_eq] at digit
    simp only [Decimal.spell?,Decimal.digit?,if_pos digit]
    exact ih (fun d member => digits d (.tail _ member)) _

/-- A width is read if a machine word holds it. -/
theorem readWidth_eq {cs : List Char} {acc w : Nat} (fits : acc < Word.limit)
    (spelt : Decimal.spell? acc cs = some w) : readWidth acc cs = Word.fit w := by
  induction cs generalizing acc with
  | nil =>
    cases spelt
    exact (if_pos fits).symm
  | cons c rest ih =>
    obtain ⟨d,digit,later⟩ := Option.bind_eq_some_iff.mp spelt
    have value : c.toNat - '0'.toNat = d := by
      unfold Decimal.digit? at digit
      split at digit
      · exact Option.some.inj digit
      · cases digit
    have least := spell_grows later
    have overflows (wide : Word.limit ≤ w) : Word.fit w = .error .overflow := if_neg (Nat.not_lt.mpr wide)
    rw [readWidth,value,Word.mul]
    by_cases shifts : acc * 10 < Word.limit
    · rw [Word.fit,if_pos shifts]
      change (Word.fit (acc * 10 + d)).bind _ = _
      by_cases adds : acc * 10 + d < Word.limit
      · rw [Word.fit,if_pos adds]
        exact ih adds later
      · rw [Word.fit,if_neg adds,overflows (by omega)]
        rfl
    · rw [Word.fit,if_neg shifts,overflows (by omega)]
      rfl

/-- A verb after its percent sign: flags, the digits of a width, and what follows. -/
structure VerbParts (cs flags digits rest : List Char) : Prop where
  whole : cs = flags ++ (digits ++ rest)
  only_flags : ∀ c ∈ flags, isFlag c = true
  only_digits : ∀ c ∈ digits, isWidthDigit c = true
  no_flag : ∀ c, (digits ++ rest).head? = some c → isFlag c = false
  no_digit : ∀ c, rest.head? = some c → isWidthDigit c = false

theorem cut_span (p : Char → Bool) (cs : List Char) : ∃ xs ys, cs = xs ++ ys ∧ (∀ c ∈ xs, p c = true) ∧
    ∀ c, ys.head? = some c → p c = false := by
  refine ⟨cs.takeWhile p,cs.dropWhile p,List.takeWhile_append_dropWhile.symm,?_,fun c first => ?_⟩
  · exact fun c member => List.all_eq_true.mp List.all_takeWhile c member
  · have outside := List.head?_dropWhile_not p cs
    rwa [first] at outside

theorem verb_parts (cs : List Char) : ∃ flags digits rest, VerbParts cs flags digits rest := by
  obtain ⟨flags,cs,rfl,only_flags,no_flag⟩ := cut_span isFlag cs
  obtain ⟨digits,rest,rfl,only_digits,no_digit⟩ := cut_span isWidthDigit cs
  exact ⟨flags,digits,rest,rfl,only_flags,only_digits,no_flag,no_digit⟩

theorem span_eq {p : Char → Bool} {xs ys : List Char} (inside : ∀ c ∈ xs, p c = true)
    (outside : ∀ c, ys.head? = some c → p c = false) : (xs ++ ys).takeWhile p = xs ∧ (xs ++ ys).dropWhile p = ys := by
  rw [List.takeWhile_append_of_pos inside,List.dropWhile_append_of_pos inside]
  cases ys with
  | nil => simp
  | cons c later => simp [outside c rfl]

/-- The verb that flags, a width and a letter ask for. -/
def verbOf (flags : List Char) (width : Nat) (k : Numeral) : Verb :=
  ⟨k,width,flags.contains '0' && !flags.contains '-',flags.contains '-'⟩

variable {cs flags digits rest : List Char} {w : Nat}

/-- A verb is read by its parts, once its width fits a machine word. -/
theorem readVerb_eq (parts : VerbParts cs flags digits rest) (spelt : Decimal.spell? 0 digits = some w) :
    (readVerb cs).run = (Word.fit w).bind fun width =>
      match rest with
      | [] => .ok (.error .danglingPercent)
      | c :: later =>
        match Numeral.ofLetter? c with
        | none => .ok (.error (.unsupportedVerb c))
        | some k => .ok (.ok (verbOf flags width k,later)) := by
  obtain ⟨rfl,only_flags,only_digits,no_flag,no_digit⟩ := parts
  obtain ⟨flags_taken,flags_dropped⟩ := span_eq only_flags no_flag
  obtain ⟨digits_taken,digits_dropped⟩ := span_eq only_digits no_digit
  unfold readVerb
  simp only [flags_taken,flags_dropped,digits_taken,digits_dropped,readWidth_eq (by decide : 0 < Word.limit) spelt]
  cases Word.fit w with
  | error f => rfl
  | ok width =>
    cases rest with
    | nil => rfl
    | cons c later =>
      cases asked : Numeral.ofLetter? c with
      | none =>
        simp only [asked]
        rfl
      | some k =>
        simp only [asked]
        rfl

/-- A percent sign that a flag, a digit or another character follows stands alone. -/
theorem VerbParts.single (parts : VerbParts cs flags digits rest) (other : digits = [] → rest.head? ≠ some '%') :
    cs.head? ≠ some '%' := by
  rw [parts.whole]
  intro percent
  cases flags with
  | cons c later =>
    cases percent
    exact absurd (parts.only_flags _ List.mem_cons_self) (by decide)
  | nil =>
    cases digits with
    | cons c later =>
      cases percent
      exact absurd (parts.only_digits _ List.mem_cons_self) (by decide)
    | nil => exact other rfl percent

/-- A format that has a verb is read by the parts of its first one. -/
theorem read_parts {source : String} {before : List Char} (whole : source.toList = before ++ '%' :: cs)
    (plain : Plain before) (single : cs.head? ≠ some '%') (parts : VerbParts cs flags digits rest)
    (spelt : Decimal.spell? 0 digits = some w) : (read source).run = (Word.fit w).bind fun width =>
      match rest with
      | [] => .ok (.error .danglingPercent)
      | c :: later =>
        match Numeral.ofLetter? c with
        | none => .ok (.error (.unsupportedVerb c))
        | some k =>
          match readText later with
          | (after,none) => .ok (.ok ⟨source,unescaped before,verbOf flags width k,after⟩)
          | (_,some _) => .ok (.error .secondVerb) := by
  unfold read
  rw [whole,readText_verb plain single]
  change (readVerb cs).run.bind (ExceptT.bindCont _) = _
  rw [readVerb_eq parts spelt]
  cases Word.fit w with
  | error f => rfl
  | ok width =>
    cases rest with
    | nil => rfl
    | cons c later =>
      cases asked : Numeral.ofLetter? c with
      | none =>
        simp only [Except.bind,ExceptT.bindCont,asked]
        rfl
      | some k =>
        simp only [Except.bind,ExceptT.bindCont,asked]
        cases readText later with
        | mk after second => cases second <;> rfl

/-- Reading a format stops only at a width that no machine word holds. -/
theorem read_stops {source : String} {f : Fault} (stopped : (read source).run = .error f) :
    f = .overflow ∧ Overlong source.toList := by
  rcases plain_or_verb source.toList with plain | ⟨before,cs,whole,plain,single⟩
  · unfold read at stopped
    rw [readText_plain plain] at stopped
    cases stopped
  · obtain ⟨flags,digits,rest,parts⟩ := verb_parts cs
    obtain ⟨w,spelt⟩ := spell_digits parts.only_digits 0
    rw [read_parts whole plain single parts spelt,Word.fit] at stopped
    split at stopped
    · rename_i fits
      simp only [Except.bind] at stopped
      repeat' split at stopped
      all_goals cases stopped
    · rename_i wide
      cases stopped
      refine ⟨rfl,before,flags,digits,rest,w,?_,plain,?_,spelt,Nat.le_of_not_lt wide⟩
      · rw [whole,parts.whole,List.append_assoc]
      · exact fun c member => by simpa [isFlag] using parts.only_flags c member

end Format

end Pattern

end Keyload
