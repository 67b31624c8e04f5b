import Keyload.Proofs.Number.Decimal
import Keyload.Proofs.Number.Numerals
import Keyload.Proofs.Pattern.Written

/-!
What number formats say. A format is written as text, one verb and text, and nothing else is read as one (`read_iff`).
Reading stops at a width that no machine word holds (`read_stops_iff`), and printing at one that is too wide to print
(`never_stops_iff`); where no width is that wide, every instance is printed as the verb says (`reads_as_written`).
-/
namespace Keyload.Pattern.Format

variable {cs flags digits rest : List Char} {w : ℕ}

/-! ### Spellings -/

/-- The digits that each verb letter asks for, from zero on. -/
def letters : List (Char × List Char) :=
  [('d',"0123456789".toList),('v',"0123456789".toList),('x',"0123456789abcdef".toList),
    ('X',"0123456789ABCDEF".toList),('o',"01234567".toList),('b',"01".toList)]

/-- The parts of a format as it is written. -/
structure Spelling where
  before : List Char
  flags : List Char
  digits : List Char
  letter : Char
  after : List Char

namespace Spelling

/-- The text that the parts make. -/
def written (p : Spelling) : List Char := p.before ++ '%' :: (p.flags ++ (p.digits ++ p.letter :: p.after))

/-- The width that the digits denote. -/
def width (p : Spelling) : ℕ := Nat.ofDigits 10 (p.digits.map Decimal.value).reverse

/-- Text, one verb, and text. -/
structure Grammatical (p : Spelling) : Prop where
  before : Plain p.before
  flags : ∀ c ∈ p.flags, c = '0' ∨ c = '-'
  digits : ∀ c ∈ p.digits, c.isDigit = true
  letter : p.letter ∈ letters.map Prod.fst
  after : Plain p.after

/-- Zeros ahead of the other digits are flags. -/
def FlagsFirst (p : Spelling) : Prop := p.digits.head? ≠ some '0'

end Spelling

theorem letters_cases {c : Char} (listed : c ∈ letters.map Prod.fst) :
    c = 'd' ∨ c = 'v' ∨ c = 'x' ∨ c = 'X' ∨ c = 'o' ∨ c = 'b' := by
  simpa [letters] using listed

theorem letters_iff {c : Char} : c ∈ letters.map Prod.fst ↔ ∃ k, Numeral.ofLetter? c = some k := by
  constructor
  · intro listed
    rcases letters_cases listed with rfl | rfl | rfl | rfl | rfl | rfl <;> exact ⟨_,rfl⟩
  · rintro ⟨k,asked⟩
    unfold Numeral.ofLetter? at asked
    split at asked <;> first | decide | cases asked

/-- A letter is no flag, no digit and no percent sign. -/
theorem letters_apart {c : Char} (listed : c ∈ letters.map Prod.fst) :
    isFlag c = false ∧ isWidthDigit c = false ∧ c ≠ '%' := by
  rcases letters_cases listed with rfl | rfl | rfl | rfl | rfl | rfl <;> decide

/-- A letter's numeral is written in the letter's digits. -/
theorem letters_write {c : Char} {k : Numeral} (asked : Numeral.ofLetter? c = some k) :
    ∃ alphabet, (c,alphabet) ∈ letters ∧ ∀ n, Radix.Spells alphabet n (k.write n) := by
  have spells {base : ℕ} {upper : Bool} {alphabet : List Char} (large : 1 < base)
      (same : Radix.alphabet base upper = alphabet) (distinct : alphabet.Nodup) (n : ℕ) :
      Radix.Spells alphabet n (Radix.numeral base large upper n) := by
    subst same
    exact Radix.numeral_spells distinct n
  obtain ⟨alphabet,listed⟩ : ∃ alphabet, (c,alphabet) ∈ letters := by
    simpa using letters_iff.mpr ⟨k,asked⟩
  refine ⟨alphabet,listed,?_⟩
  simp only [letters,List.mem_cons,Prod.mk.injEq,List.not_mem_nil,or_false] at listed
  rcases listed with ⟨rfl,rfl⟩ | ⟨rfl,rfl⟩ | ⟨rfl,rfl⟩ | ⟨rfl,rfl⟩ | ⟨rfl,rfl⟩ | ⟨rfl,rfl⟩ <;> cases asked <;>
    exact spells _ (by decide) (by decide)

/-! ### Reading -/

/-- Zeros ahead of other digits denote nothing. -/
theorem split_zeros (spelt : Decimal.spell? 0 digits = some w) : ∃ zeros later, digits = zeros ++ later ∧
    (∀ c ∈ zeros, c = '0') ∧ later.head? ≠ some '0' ∧ Decimal.spell? 0 later = some w := by
  induction digits with
  | nil => exact ⟨[],[],rfl,by simp,by simp,spelt⟩
  | cons c rest ih =>
    by_cases zero : c = '0'
    · subst zero
      obtain ⟨zeros,later,rfl,only,first,same⟩ := ih spelt
      exact ⟨'0' :: zeros,later,rfl,List.forall_mem_cons.mpr ⟨rfl,only⟩,first,same⟩
    · exact ⟨[],c :: rest,rfl,by simp,by simpa using zero,spelt⟩

/-- A digit that is not zero is no flag. -/
theorem digit_no_flag {c : Char} (digit : c.isDigit = true) (no_zero : c ≠ '0') : isFlag c = false := by
  have no_minus : c ≠ '-' := by
    rintro rfl
    exact absurd digit (by decide)
  simp [isFlag,no_zero,no_minus]

namespace Spelling

variable {p : Spelling}

theorem Grammatical.spelt (valid : p.Grammatical) : Decimal.spell? 0 p.digits = some p.width :=
  Decimal.spell_denotes.mpr ⟨valid.digits,rfl⟩

theorem Grammatical.parts (valid : p.Grammatical) (first : p.FlagsFirst) :
    VerbParts (p.flags ++ (p.digits ++ p.letter :: p.after)) p.flags p.digits (p.letter :: p.after) := by
  obtain ⟨no_flag,no_digit,-⟩ := letters_apart valid.letter
  constructor
  case whole => rfl
  case only_flags => exact fun c member => by simpa [isFlag] using valid.flags c member
  case only_digits => exact valid.digits
  case no_flag =>
    intro c head
    cases digits : p.digits with
    | nil =>
      rw [digits] at head
      cases head
      exact no_flag
    | cons d later =>
      rw [digits] at head
      cases head
      have digit := valid.digits c (by rw [digits]; exact List.mem_cons_self)
      exact digit_no_flag digit fun zero => first (by rw [digits,zero]; rfl)
  case no_digit =>
    intro c head
    cases head
    exact no_digit

/-- The format that is read, if its letter asks for this numeral. -/
def format (p : Spelling) (k : Numeral) : Format :=
  ⟨String.ofList p.written,unescaped p.before,verbOf p.flags p.width k,unescaped p.after⟩

/-- A spelling is read, once its width fits a machine word. -/
theorem Grammatical.read_eq (valid : p.Grammatical) (first : p.FlagsFirst) {k : Numeral}
    (asked : Numeral.ofLetter? p.letter = some k) {source : String} (written : source.toList = p.written) :
    (read source).run = (Word.fit p.width).map fun _ => .ok (p.format k) := by
  have whole : source = String.ofList p.written := by rw [← written,String.ofList_toList]
  have parts := valid.parts first
  have single := parts.single fun _ percent => (letters_apart valid.letter).2.2 (Option.some.inj percent)
  rw [read_parts written valid.before single parts valid.spelt]
  unfold Word.fit
  split
  · simp only [Except.bind,asked,readText_plain valid.after]
    rw [whole]
    rfl
  · rfl

/-- Zeros ahead of the digits of a width can be taken as flags. -/
theorem Grammatical.flags_first (valid : p.Grammatical) :
    ∃ q : Spelling, q.Grammatical ∧ q.FlagsFirst ∧ q.written = p.written ∧ q.width = p.width := by
  obtain ⟨zeros,later,split,only,first,same⟩ := split_zeros valid.spelt
  have tightened : Grammatical ⟨p.before,p.flags ++ zeros,later,p.letter,p.after⟩ := by
    refine ⟨valid.before,fun c member => ?_,fun c member => ?_,valid.letter,valid.after⟩
    · rcases List.mem_append.mp member with flag | zero
      · exact valid.flags c flag
      · exact .inl (only c zero)
    · exact valid.digits c (by rw [split]; exact List.mem_append_right zeros member)
  refine ⟨_,tightened,first,?_,Option.some.inj (tightened.spelt.symm.trans same)⟩
  simp [written,split]

/-- What a reader takes for the parts of a verb, between texts. -/
theorem grammatical_of_parts {before after : List Char} {letter : Char} {k : Numeral}
    (parts : VerbParts cs flags digits (letter :: after)) (asked : Numeral.ofLetter? letter = some k)
    (plain : Plain before) (later : Plain after) :
    Grammatical ⟨before,flags,digits,letter,after⟩ ∧ FlagsFirst ⟨before,flags,digits,letter,after⟩ := by
  refine ⟨⟨plain,fun c member => ?_,parts.only_digits,letters_iff.mpr ⟨k,asked⟩,later⟩,fun zero => ?_⟩
  · simpa [isFlag] using parts.only_flags c member
  · have flag := parts.no_flag '0' (by rw [List.head?_append,zero]; rfl)
    cases flag

end Spelling

/-- What is read as a format is spelt as one. -/
theorem read_spelt {source : String} {f : Format} (run : (read source).run = .ok (.ok f)) :
    ∃ (p : Spelling) (k : Numeral), p.Grammatical ∧ p.FlagsFirst ∧ source.toList = p.written ∧
      Numeral.ofLetter? p.letter = some k := by
  rcases plain_or_verb source.toList with plain | ⟨before,cs,whole,plain,single⟩
  · unfold read at run
    rw [readText_plain plain] at run
    cases run
  · obtain ⟨flags,digits,rest,parts⟩ := verb_parts cs
    obtain ⟨w,spelt⟩ := spell_digits parts.only_digits 0
    rw [read_parts whole plain single parts spelt,Word.fit] at run
    split at run
    · cases rest with
      | nil => cases run
      | cons letter later =>
        cases asked : Numeral.ofLetter? letter with
        | none =>
          simp only [Except.bind,asked] at run
          cases run
        | some k =>
          simp only [Except.bind,asked] at run
          rcases plain_or_verb later with after | ⟨before',later',rfl,plain',single'⟩
          · obtain ⟨valid,first⟩ := Spelling.grammatical_of_parts parts asked plain after
            exact ⟨_,k,valid,first,by rw [whole,parts.whole]; rfl,asked⟩
          · rw [readText_verb plain' single'] at run
            cases run
    · cases run

/-- A text is read as a format if it is spelt as one and a machine word holds its width. -/
theorem read_iff {source : String} {f : Format} : (read source).run = .ok (.ok f) ↔
    ∃ (p : Spelling) (k : Numeral), p.Grammatical ∧ p.FlagsFirst ∧ source.toList = p.written ∧
      Numeral.ofLetter? p.letter = some k ∧ p.width < Word.limit ∧ f = p.format k := by
  constructor
  · intro run
    obtain ⟨p,k,valid,first,written,asked⟩ := read_spelt run
    refine ⟨p,k,valid,first,written,asked,?_⟩
    rw [valid.read_eq first asked written,Word.fit] at run
    split at run
    · rename_i fits
      cases run
      exact ⟨fits,rfl⟩
    · cases run
  · rintro ⟨p,k,valid,first,written,asked,fits,rfl⟩
    rw [valid.read_eq first asked written,Word.fit,if_pos fits]
    rfl

theorem spell_append {xs ys : List Char} {acc : ℕ} :
    Decimal.spell? acc (xs ++ ys) = (Decimal.spell? acc xs).bind (Decimal.spell? · ys) := by
  induction xs generalizing acc with
  | nil => rfl
  | cons c rest ih => simp only [List.cons_append,Decimal.spell?,ih,Option.bind_assoc]

/-- A reader takes the zeros ahead of a width for flags, and all digits after it for more of it. -/
theorem greedy_parts {zeros later : List Char} (only_flags : ∀ c ∈ flags, c = '0' ∨ c = '-')
    (only_zeros : ∀ c ∈ zeros, c = '0') (something : later ≠ []) (digit : ∀ c ∈ later, c.isDigit = true)
    (first : later.head? ≠ some '0') (after : List Char) : ∃ more rest,
      VerbParts (flags ++ (zeros ++ later) ++ after) (flags ++ zeros) (later ++ more) rest := by
  obtain ⟨more,rest,rfl,only_more,no_digit⟩ := cut_span isWidthDigit after
  refine ⟨more,rest,?_⟩
  constructor
  case whole => simp
  case only_flags =>
    intro c member
    rcases List.mem_append.mp member with flag | zero
    · simpa [isFlag] using only_flags c flag
    · rw [only_zeros c zero]
      rfl
  case only_digits =>
    intro c member
    rcases List.mem_append.mp member with here | there
    · exact digit c here
    · exact only_more c there
  case no_flag =>
    intro c head
    rw [List.append_assoc,List.head?_append_of_ne_nil _ something] at head
    exact digit_no_flag (digit c (List.mem_of_mem_head? head)) fun zero => first (zero ▸ head)
  case no_digit => exact no_digit

/-- Reading stops at a width that no machine word holds. -/
theorem overlong_stops {source : String} (overlong : Overlong source.toList) :
    (read source).run = .error .overflow := by
  obtain ⟨before,flags,digits,after,w,whole,plain,only_flags,spelt,wide⟩ := overlong
  obtain ⟨zeros,later,rfl,only_zeros,first,spelt⟩ := split_zeros spelt
  have something : later ≠ [] := by
    rintro rfl
    cases spelt
    exact absurd wide (by decide)
  obtain ⟨more,rest,parts⟩ :=
    greedy_parts only_flags only_zeros something (Decimal.spell_denotes.mp spelt).1 first after
  obtain ⟨w',spelt'⟩ := spell_digits parts.only_digits 0
  have wider : w ≤ w' := by
    rw [spell_append,spelt] at spelt'
    exact spell_grows spelt'
  have single := parts.single fun none => absurd (List.append_eq_nil_iff.mp none).1 something
  rw [read_parts whole plain single parts spelt',Word.fit,if_neg (by omega)]
  rfl

theorem read_stops_iff {source : String} {f : Fault} :
    (read source).run = .error f ↔ f = .overflow ∧ Overlong source.toList := by
  constructor
  · exact read_stops
  · rintro ⟨rfl,overlong⟩
    exact overlong_stops overlong

/-! ### Widths -/

/-- A format that is read, or refused with its flaw, and that prints every instance once it is read. -/
structure NeverStops (source : String) : Prop where
  reads : ∃ r, (read source).run = .ok r
  prints : ∀ f, (read source).run = .ok (.ok f) → ∀ n, ∃ name, f.render n = .ok name

/-- The name of an instance, unless the verb is too wide. -/
theorem Spelling.format_render (p : Spelling) (k : Numeral) (n : ℕ) : (p.format k).render n =
    if p.width ≤ widest then
      .ok (String.ofList (unescaped p.before ++ (verbOf p.flags p.width k).write n ++ unescaped p.after))
    else .error .tooWide := rfl

/-- Nothing stops if no machine word is exceeded while reading and no verb is too wide to print. -/
theorem never_stops_iff (source : String) : NeverStops source ↔ ¬Overlong source.toList ∧
    ∀ p : Spelling, p.Grammatical → p.written = source.toList → p.width ≤ widest := by
  constructor
  · rintro ⟨⟨r,read_ok⟩,prints⟩
    have short : ¬Overlong source.toList := fun overlong => by
      rw [overlong_stops overlong] at read_ok
      cases read_ok
    refine ⟨short,fun p valid written => ?_⟩
    obtain ⟨q,tightened,first,same,width⟩ := valid.flags_first
    obtain ⟨k,asked⟩ := letters_iff.mp tightened.letter
    have run := tightened.read_eq first asked (same.trans written).symm
    rw [← width]
    by_cases fits : q.width < Word.limit
    · rw [Word.fit,if_pos fits] at run
      obtain ⟨name,rendered⟩ := prints _ run 0
      rw [q.format_render] at rendered
      by_contra wide
      rw [if_neg wide] at rendered
      cases rendered
    · rw [Word.fit,if_neg fits,read_ok] at run
      cases run
  · rintro ⟨short,narrow⟩
    constructor
    case reads =>
      cases run : (read source).run with
      | ok r => exact ⟨r,rfl⟩
      | error f => exact absurd (read_stops_iff.mp run).2 short
    case prints =>
      intro f run n
      obtain ⟨p,k,valid,-,written,-,-,rfl⟩ := read_iff.mp run
      exact ⟨_,(p.format_render k n).trans (if_pos (narrow p valid written.symm))⟩

/-- A width one above the widest is read and never printed. -/
theorem wide_stops : ¬NeverStops "%65536d" := by
  rintro ⟨-,prints⟩
  have read_ok : (read "%65536d").run = .ok (.ok ⟨"%65536d",[],⟨.decimal,65536,false,false⟩,[]⟩) := by decide
  obtain ⟨name,rendered⟩ := prints _ read_ok 7
  cases rendered

/-! ### Meaning -/

/-- No width that follows a percent sign outside the pairs, and its flags, is too wide to print. -/
def Narrow (text : List Char) : Prop :=
  ∀ before flags digits after w, text = before ++ '%' :: (flags ++ (digits ++ after)) → Plain before →
    (∀ c ∈ flags, c = '0' ∨ c = '-') → Decimal.Denotes digits w → w ≤ widest

/-- A numeral in a field of some width: to the left if a flag says so, after zeros if one asks for them, or after
spaces. -/
inductive Padded (flags : List Char) (width : ℕ) (numeral : List Char) : List Char → Prop
  | left (minus : '-' ∈ flags) : Padded flags width numeral
      (numeral ++ List.replicate (width - numeral.length) ' ')
  | zeros (no_minus : '-' ∉ flags) (zero : '0' ∈ flags) : Padded flags width numeral
      (List.replicate (width - numeral.length) '0' ++ numeral)
  | right (no_minus : '-' ∉ flags) (no_zero : '0' ∉ flags) : Padded flags width numeral
      (List.replicate (width - numeral.length) ' ' ++ numeral)

/-- A name that a format gives to an instance: the texts around its number, which stands in the digits of the letter. -/
def Spelling.Prints (p : Spelling) (n : ℕ) (name : List Char) : Prop :=
  ∃ alphabet numeral field, (p.letter,alphabet) ∈ letters ∧ Radix.Spells alphabet n numeral ∧
    Padded p.flags p.width numeral field ∧ name = unescaped p.before ++ field ++ unescaped p.after

/-- A text is a format if it is spelt as one, and prints every instance as its spelling says. -/
structure Means (source : String) : Prop where
  accepted : (∃ f, (read source).run = .ok (.ok f)) ↔ ∃ p : Spelling, p.Grammatical ∧ p.written = source.toList
  refused : (¬∃ p : Spelling, p.Grammatical ∧ p.written = source.toList) →
    ∃ flaw, (read source).run = .ok (.error flaw)
  flags_first : ∀ p : Spelling, p.Grammatical → p.written = source.toList →
    ∃ q : Spelling, q.Grammatical ∧ q.FlagsFirst ∧ q.written = source.toList
  printed : ∀ f, (read source).run = .ok (.ok f) → ∀ p : Spelling, p.Grammatical → p.FlagsFirst →
    p.written = source.toList → ∀ n, ∃ name, f.render n = .ok (String.ofList name) ∧ p.Prints n name

theorem verbOf_pads (flags : List Char) (width : ℕ) (k : Numeral) (n : ℕ) :
    Padded flags width (k.write n) ((verbOf flags width k).write n) := by
  by_cases minus : '-' ∈ flags
  · simpa [Verb.write,verbOf,minus] using Padded.left minus
  · by_cases zero : '0' ∈ flags
    · simpa [Verb.write,verbOf,minus,zero] using Padded.zeros minus zero
    · simpa [Verb.write,verbOf,minus,zero] using Padded.right minus zero

theorem Narrow.width {text : List Char} (narrow : Narrow text) {p : Spelling} (valid : p.Grammatical)
    (written : p.written = text) : p.width ≤ widest :=
  narrow p.before p.flags p.digits (p.letter :: p.after) p.width written.symm valid.before valid.flags
    (Decimal.spell_denotes.mp valid.spelt)

theorem Narrow.short {text : List Char} (narrow : Narrow text) : ¬Overlong text := by
  rintro ⟨before,flags,digits,after,w,whole,plain,only_flags,spelt,wide⟩
  have fits := narrow before flags digits after w (by rw [whole,List.append_assoc]) plain only_flags
    (Decimal.spell_denotes.mp spelt)
  exact absurd (wide.trans fits) (by decide)

/-- A width of four digits can be printed. -/
theorem narrow_of_few_digits {text : List Char} (few : text.countP (·.isDigit) ≤ 4) : Narrow text := by
  rintro before flags digits after w rfl - - denotes
  have all_digits : digits.countP (·.isDigit) = digits.length := List.countP_eq_length.mpr denotes.1
  simp only [List.countP_append,List.countP_cons,all_digits] at few
  calc w ≤ 10 ^ digits.length := (Decimal.denotes_lt denotes).le
    _ ≤ 10 ^ 4 := Nat.pow_le_pow_right (by decide) (by omega)
    _ ≤ widest := by decide

/-- What number formats say, as long as no width is too wide to print. -/
theorem reads_as_written (source : String) (narrow : Narrow source.toList) : Means source := by
  have read_of {p : Spelling} (valid : p.Grammatical) (first : p.FlagsFirst) (written : p.written = source.toList) :
      ∃ k, Numeral.ofLetter? p.letter = some k ∧ (read source).run = .ok (.ok (p.format k)) := by
    obtain ⟨k,asked⟩ := letters_iff.mp valid.letter
    have fits : p.width < Word.limit := Nat.lt_of_le_of_lt (narrow.width valid written) (by decide)
    exact ⟨k,asked,read_iff.mpr ⟨p,k,valid,first,written.symm,asked,fits,rfl⟩⟩
  have tighten (p : Spelling) (valid : p.Grammatical) (written : p.written = source.toList) :
      ∃ q : Spelling, q.Grammatical ∧ q.FlagsFirst ∧ q.written = source.toList := by
    obtain ⟨q,tightened,first,same,-⟩ := valid.flags_first
    exact ⟨q,tightened,first,same.trans written⟩
  have accepted : (∃ f, (read source).run = .ok (.ok f)) ↔
      ∃ p : Spelling, p.Grammatical ∧ p.written = source.toList := by
    constructor
    · rintro ⟨f,run⟩
      obtain ⟨p,-,valid,-,written,-⟩ := read_iff.mp run
      exact ⟨p,valid,written.symm⟩
    · rintro ⟨p,valid,written⟩
      obtain ⟨q,tightened,first,written⟩ := tighten p valid written
      obtain ⟨k,-,run⟩ := read_of tightened first written
      exact ⟨_,run⟩
  constructor
  case accepted => exact accepted
  case refused =>
    intro unspelt
    cases run : (read source).run with
    | error f => exact absurd (read_stops_iff.mp run).2 narrow.short
    | ok r =>
      cases r with
      | error flaw => exact ⟨flaw,rfl⟩
      | ok f => exact absurd (accepted.mp ⟨f,run⟩) unspelt
  case flags_first => exact tighten
  case printed =>
    intro f run p valid first written n
    obtain ⟨k,asked,same⟩ := read_of valid first written
    cases run.symm.trans same
    obtain ⟨alphabet,listed,spells⟩ := letters_write asked
    refine ⟨_,(p.format_render k n).trans (if_pos (narrow.width valid written)),?_⟩
    exact ⟨alphabet,k.write n,_,listed,spells n,verbOf_pads p.flags p.width k n,rfl⟩

/-- Zeros ahead of a width are flags, and a pair of percent signs is one. -/
theorem id_reads_as_written : Narrow "%%id-%04X.".toList ∧ Means "%%id-%04X." ∧
    ∃ f, (read "%%id-%04X.").run = .ok (.ok f) ∧ f.render 255 = .ok "%id-00FF." := by
  have narrow : Narrow "%%id-%04X.".toList := narrow_of_few_digits (by decide)
  have digits : Radix.digits 16 Radix.one_lt_sixteen 255 = [15,15] := by simp [Radix.digits,Radix.significant]
  have numeral : Numeral.upperHex.write 255 = ['F','F'] := by
    rw [Numeral.write,Radix.numeral,digits]
    decide
  refine ⟨narrow,reads_as_written _ narrow,⟨"%%id-%04X.","%id-".toList,⟨.upperHex,4,true,false⟩,['.']⟩,by decide,?_⟩
  simp [render,Verb.write,numeral,widest]

end Keyload.Pattern.Format
