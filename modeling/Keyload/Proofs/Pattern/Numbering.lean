import Keyload.Proofs.Pattern.Outcomes
import Keyload.Proofs.Pattern.Spelling
import Keyload.Random.Xoshiro

/-!
Numbered names are told apart. Whatever fills a field, its number can be read off it: spaces are no digits, and zeros
ahead of a numeral add nothing to it (`shown_padded`). The texts around the field are the same for all instances, so a
format names no two of them alike, and a level that counts in a format has as many names as instances (`names_apart`).
-/
namespace Keyload.Pattern

namespace Format

variable {alphabet flags numeral field : List Char} {n width : ℕ}

/-- The number that a field shows: the one that its digits denote, spaces left out. -/
def shown (alphabet field : List Char) : ℕ :=
  Nat.ofDigits alphabet.length ((field.filter (· ≠ ' ')).map alphabet.idxOf).reverse

/-- Digits begin with zero, and a space is none of them. -/
theorem letters_alphabet {c : Char} (listed : (c,alphabet) ∈ letters) :
    alphabet.idxOf '0' = 0 ∧ ' ' ∉ alphabet := by
  simp only [letters,List.mem_cons,Prod.mk.injEq,List.not_mem_nil,or_false] at listed
  rcases listed with ⟨-,rfl⟩ | ⟨-,rfl⟩ | ⟨-,rfl⟩ | ⟨-,rfl⟩ | ⟨-,rfl⟩ | ⟨-,rfl⟩ <;> decide

/-- What fills a field does not change the number that it shows. -/
theorem shown_padded (zero : alphabet.idxOf '0' = 0) (no_space : ' ' ∉ alphabet)
    (spells : Radix.Spells alphabet n numeral) (padded : Padded flags width numeral field) :
    shown alphabet field = n := by
  have kept : numeral.filter (· ≠ ' ') = numeral := by
    rw [List.filter_eq_self]
    intro c member
    simpa using fun is : c = ' ' => no_space (is ▸ spells.digits c member)
  have value := spells.value
  unfold shown
  cases padded with
  | left | right =>
    rw [List.filter_append,kept,List.filter_replicate_of_neg (by simp)]
    simpa using value
  | zeros =>
    rw [List.filter_append,kept,List.filter_replicate_of_pos (by decide),List.map_append,List.map_replicate,zero,
      List.reverse_append,List.reverse_replicate,Nat.ofDigits_append_replicate_zero]
    exact value

/-- A format that prints every instance, and no two alike. -/
structure TellsApart (f : Format) : Prop where
  prints : ∀ n, ∃ name, f.render n = .ok name
  apart : ∀ n m, f.render n = f.render m → n = m

theorem tellsApart_of_read {source : String} {f : Format} (accepted : (read source).run = .ok (.ok f))
    (narrow : f.verb.width ≤ widest) : f.TellsApart := by
  obtain ⟨p,k,-,-,-,asked,-,rfl⟩ := read_iff.mp accepted
  obtain ⟨alphabet,listed,spells⟩ := letters_write asked
  obtain ⟨zero,no_space⟩ := letters_alphabet listed
  have rendered (n : ℕ) := (p.format_render k n).trans (if_pos narrow)
  refine ⟨fun n => ⟨_,rendered n⟩,fun n m same => ?_⟩
  rw [rendered,rendered] at same
  have fields := List.append_cancel_left (List.append_cancel_right (String.ofList_injective (Except.ok.inj same)))
  have number (n : ℕ) : shown alphabet ((verbOf p.flags p.width k).write n) = n :=
    shown_padded zero no_space (spells n) (verbOf_pads p.flags p.width k n)
  calc n = shown alphabet ((verbOf p.flags p.width k).write n) := (number n).symm
    _ = shown alphabet ((verbOf p.flags p.width k).write m) := by rw [fields]
    _ = m := number m

end Format

/-- Whatever the source, the instances have these names, and no two of them are alike. -/
structure Level.NamedApart (l : Level) (names : List String) : Prop where
  length : names.length = l.count
  distinct : names.Nodup
  named : ∀ (i : ℕ) (inside : i < names.length) (σ : Type) [RandomSource σ] (g : σ), l.instanceName i g = .ok (names[i],g)

theorem Level.namedApart_of_format {l : Level} {f : Format} (segment : l.segment = .format f) (tells : f.TellsApart) :
    ∃ names, l.NamedApart names := by
  choose name rendered using tells.prints
  refine ⟨(List.range l.count).map name,by simp,?_,fun i inside σ _ g => ?_⟩
  · refine List.nodup_range.map fun n m same => tells.apart n m ?_
    rw [rendered,rendered,same]
  · simp [Level.instanceName,segment,rendered,Draw.lift,Except.map]

/-- A path that begins with a percent sign makes a level of numbered names. -/
theorem Reads.format {c : Compiler} {text format : List Char} {count : Option ℕ} {l : Level}
    (reads : Reads c ('%' :: text) l) (counted : Counted text format count) :
    ∃ f, (Format.read (String.ofList format)).run = .ok (.ok f) ∧ l.segment = .format f ∧ l.count = count.getD 1 := by
  cases reads with
  | fixed unmarked => simp at unmarked
  | numbered counted' valid =>
    obtain ⟨rfl,rfl⟩ := counted_unique counted counted'
    exact ⟨_,valid,rfl,rfl⟩

/-- Formats name no two instances alike: neither those that are read from a text, nor those that a line counts in. -/
theorem names_apart :
    (∀ (source : String) (f : Format), (Format.read source).run = .ok (.ok f) → f.verb.width ≤ Format.widest →
      f.TellsApart) ∧
    ∀ (σ : Type) [RandomSource σ] (line : String) (c c' : Compiler) (g g' : σ) (p : Pattern),
      Compile.Yields (Compiler.compile line) c g p c' g' →
      ∀ (i : ℕ) (segment text format : List Char) (count : Option ℕ), (parts line)[i]? = some segment →
        pathOf segment = '%' :: text → Counted text format count →
        ∃ f l, (Format.read (String.ofList format)).run = .ok (.ok f) ∧ p.levels[i]? = some l ∧
          l.count = count.getD 1 ∧ (f.verb.width ≤ Format.widest → ∃ names, l.NamedApart names) := by
  refine ⟨fun source f accepted narrow => Format.tellsApart_of_read accepted narrow,?_⟩
  intro σ _ line c c' g g' p run i segment text format count here path counted
  obtain ⟨-,-,-,all⟩ := (Compiler.compile_ends line c g).given run
  obtain ⟨inside,rfl⟩ := List.getElem?_eq_some_iff.mp here
  have within : i < p.levels.length := all.length_eq ▸ inside
  have reads := (all.get inside within).path
  rw [List.get_eq_getElem,path] at reads
  obtain ⟨f,accepted,numbered,counts⟩ := reads.format counted
  refine ⟨f,p.levels[i],accepted,List.getElem?_eq_getElem within,counts,fun narrow => ?_⟩
  exact Level.namedApart_of_format numbered (Format.tellsApart_of_read accepted narrow)

/-- Zeros fill the field of a format, and three instances of it are counted. -/
theorem ports_apart : (∃ f : Format, (Format.read "tel-%04d").run = .ok (.ok f) ∧ f.verb.width ≤ Format.widest ∧
      f.TellsApart) ∧
    ∃ (c c' : Compiler) (g g' : Xoshiro) (p : Pattern), Compile.Yields (Compiler.compile "/%n-%02d[3];x") c g p c' g' ∧
      ∃ l names, p.levels[0]? = some l ∧ l.count = 3 ∧ l.NamedApart names := by
  obtain ⟨formats,lines⟩ := names_apart
  have read : (Format.read "tel-%04d").run = .ok (.ok ⟨"tel-%04d","tel-".toList,⟨.decimal,4,true,false⟩,[]⟩) := by
    decide
  refine ⟨⟨_,read,by decide,formats _ _ read (by decide)⟩,?_⟩
  have made : Compiler.makes ⟨⟨[]⟩,none⟩ "/%n-%02d[3];x" (fun p => p.depth == 1) = true := by decide +kernel
  obtain ⟨p,c',g',run,-⟩ := Compiler.yields_of_makes made
  refine ⟨_,c',_,g',p,run,?_⟩
  have counted : Counted "n-%02d[3]".toList "n-%02d".toList (some 3) := splitCount_ok.mp (by decide)
  obtain ⟨f,l,accepted,here,count,apart⟩ := lines _ _ _ c' _ g' p run 0 "%n-%02d[3];x".toList "n-%02d[3]".toList
    "n-%02d".toList (some 3) (by decide) (by decide) counted
  have same : (Format.read "n-%02d").run = .ok (.ok ⟨"n-%02d","n-".toList,⟨.decimal,2,true,false⟩,[]⟩) := by decide
  rw [String.ofList_toList,same] at accepted
  cases accepted
  obtain ⟨names,apart⟩ := apart (by decide)
  exact ⟨l,names,here,count,apart⟩

end Keyload.Pattern
