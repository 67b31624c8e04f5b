import Keyload.Proofs.Churn.Reads
import Keyload.Proofs.KeySpace.Addresses
import Keyload.Proofs.KeySpace.FullPass
import Keyload.Proofs.Pattern.Drawn

/-!
Distinct keys. The size of a pattern counts the entries of a pass over it. Their keys are distinct where the names of
every rule are, and nothing makes those distinct: what a rule without values can come to are all lists of texts that its
expression yields (`names_drawn`).
-/
namespace Keyload

namespace Pattern

/-- No rule gives one name twice to a level. -/
def NamesApart (p : Pattern) : Prop := ∀ l ∈ p.levels, (∃ rule, l.Refers rule) → l.names.Nodup

namespace Level

variable {l : Level}

/-- Instances with listed names are distinct when the list has no name twice. -/
theorem distinct_listed {names : Array String} (segment : l.segment = .names names) (whole : names.size = l.count) :
    l.Distinct ↔ l.names.Nodup := by
  have drawn (i : ℕ) (name : String) : l.Drawn i name ↔ names[i]? = some name := by
    rw [drawn_fixed (by simp [isRandom,segment]),fixedName,segment]
    cases listed : names[i]? <;> simp [listed]
  have list : l.names = names.toList := by rw [Level.names,segment]
  rw [list,List.nodup_iff_injective_getElem]
  constructor
  · intro distinct i j same
    have known (i : Fin names.toList.length) : l.Drawn i names.toList[i] := by
      rw [drawn,← Array.getElem?_toList]
      exact List.getElem?_eq_getElem i.isLt
    have inside (i : Fin names.toList.length) : i < l.count := whole ▸ i.isLt
    have equal : names.toList[j] = names.toList[i] := same.symm
    exact Fin.ext (distinct i (inside i) j (inside j) _ (known i) (equal ▸ known j))
  · intro injective i inside j inside' name here there
    rw [drawn,← Array.getElem?_toList] at here there
    obtain ⟨short,at_i⟩ := List.getElem?_eq_some_iff.mp here
    obtain ⟨short',at_j⟩ := List.getElem?_eq_some_iff.mp there
    exact congrArg Fin.val (@injective ⟨i,short⟩ ⟨j,short'⟩ (at_i.trans at_j.symm))

end Level

/-- The levels that a line makes have distinct instances, if its rules give no name twice. -/
theorem Reads.distinct {c : Compiler} {path : List Char} {l : Level} (reads : Reads c path l)
    (apart : (∃ rule, l.Refers rule) → l.names.Nodup) : l.Distinct := by
  cases reads with
  | fixed | drawn =>
    intro i inside j inside' _ _ _
    exact (Nat.lt_one_iff.mp inside).trans (Nat.lt_one_iff.mp inside').symm
  | rule counted known allowed enough =>
    have whole := (Reads.rule counted known allowed enough).listed rfl
    exact (Level.distinct_listed rfl whole).mpr (apart ⟨_,_,_,_,String.toList_ofList,counted,rfl⟩)
  | @numbered text format count f counted valid =>
    rintro i - j - name drawn drawn'
    have ⟨σ,_,g,g',run⟩ := drawn
    have narrow := Level.narrow_of_drawn run f rfl
    have same := ((Level.drawn_fixed rfl).mp drawn).trans ((Level.drawn_fixed rfl).mp drawn').symm
    exact (Format.tellsApart_of_read valid narrow).apart i j same

end Pattern

/-! ### Passes -/

namespace Cursor
open Pattern (Level)
open KeySpace (Cut)

/-- A loop yields no key twice, if no turn does and no two turns yield one key. -/
theorem each_nodup {σ α β : Type} {f : ℕ → Draw σ (List α)} {key : α → β} {n i : ℕ} {g g' : σ} {as : List α}
    (run : each f n i g = .ok (as,g'))
    (turn : ∀ j, i ≤ j → j < i + n → ∀ h part h', f j h = .ok (part,h') → (part.map key).Nodup)
    (apart : ∀ j k, i ≤ j → j < k → k < i + n → ∀ h part h' l part' l', f j h = .ok (part,h') →
      f k l = .ok (part',l') → ∀ a ∈ part, ∀ b ∈ part', key a ≠ key b) : (as.map key).Nodup := by
  induction n generalizing i g as with
  | zero =>
    cases run
    exact List.nodup_nil
  | succ n ih =>
    obtain ⟨part,h,first,run⟩ := Draw.bind_ok run
    obtain ⟨others,h',later,run⟩ := Draw.bind_ok run
    obtain ⟨rfl,rfl⟩ := Draw.pure_ok run
    rw [List.map_append,List.nodup_append]
    refine ⟨turn i (Nat.le_refl i) (by omega) _ _ _ first,ih later ?_ ?_,?_⟩
    · exact fun j lower upper => turn j (by omega) (by omega)
    · exact fun j k lower between upper => apart j k (by omega) between (by omega)
    · intro _ here _ there
      obtain ⟨a,at_a,rfl⟩ := List.mem_map.mp here
      obtain ⟨b,at_b,rfl⟩ := List.mem_map.mp there
      obtain ⟨j,part',l,l',lower,upper,other,at_b⟩ := each_from later at_b
      exact apart i j (Nat.le_refl i) (by omega) (by omega) _ _ _ _ _ _ first other a at_a b at_b

variable {σ : Type} [RandomSource σ] {levels : List Level} {k : ℕ} {base : String} {g g' : σ} {es : List Entry}

/-- The keys of an instance begin with its name, which ends them or is followed by a slash. -/
theorem turn_keys {l : Level} {rest : List Level} {i : ℕ}
    (turn : visit none l k (walk none rest (k + 1)) base i g = .ok (es,g')) :
    ∃ name, l.Drawn i name ∧ ∀ e ∈ es, ∃ more, Cut more ∧ (rest = [] → more = []) ∧
      e.key.toList = base.toList ++ ('/' :: name.toList ++ more) := by
  obtain ⟨name,drawn,⟨-,value,rfl⟩ | ⟨-,h,turn⟩⟩ := visit_turn turn
  · refine ⟨name,drawn,fun e member => ⟨[],.inl rfl,fun _ => rfl,?_⟩⟩
    rw [List.mem_singleton.mp member]
    simp [String.toList_append]
  · refine ⟨name,drawn,fun e member => ?_⟩
    obtain ⟨more,key⟩ := KeySpace.walk_below turn e member
    refine ⟨'/' :: more.toList,.inr ⟨_,rfl⟩,?_,by rw [key]; simp [String.toList_append]⟩
    rintro rfl
    cases turn
    cases member

/-- A pass has no key twice where no two instances of a level have one name. Slashes may be in names of the last level
only, as the text above it is known. -/
theorem walk_nodup (distinct : ∀ l ∈ levels, l.Distinct) (unslashed : ∀ l ∈ levels.dropLast, l.Unslashed)
    (run : walk none levels k base g = .ok (es,g')) : (es.map Entry.key).Nodup := by
  induction levels generalizing k base g g' es with
  | nil =>
    cases run
    exact List.nodup_nil
  | cons l rest ih =>
    have deeper : ∀ m ∈ rest.dropLast, m.Unslashed := by
      intro m member
      cases rest with
      | nil => cases member
      | cons m' rest => exact unslashed m (.tail _ member)
    refine each_nodup run (fun i _ _ h part h' turn => ?_)
      fun i j _ between inside h part h' o part' o' turn turn' => ?_
    · obtain ⟨name,-,⟨-,value,rfl⟩ | ⟨-,h₁,turn⟩⟩ := visit_turn turn
      · exact List.pairwise_singleton _ _
      · exact ih (fun m member => distinct m (.tail _ member)) deeper turn
    · obtain ⟨name,drawn,keys⟩ := turn_keys turn
      obtain ⟨name',drawn',keys'⟩ := turn_keys turn'
      intro e member e' member' same
      obtain ⟨more,cut,last,key⟩ := keys e member
      obtain ⟨more',cut',last',key'⟩ := keys' e' member'
      rw [same,key',List.append_cancel_left_eq] at key
      have inside' : i < l.count := by omega
      have inside : j < l.count := by omega
      have names : name' = name := by
        cases rest with
        | nil =>
          rw [last rfl,last' rfl] at key
          exact String.toList_injective (by simpa using key)
        | cons m rest =>
          have free := unslashed l List.mem_cons_self
          exact name_unique (free j inside name' drawn') (free i inside' name drawn) cut' cut key
      have := distinct l List.mem_cons_self i inside' j inside name drawn (names ▸ drawn')
      omega

/-- Where texts are distinct, so are the names of every level, if there is a leaf below each of them. -/
theorem names_of_texts {name : Level → ℕ → String} (positive : ∀ l ∈ levels, 0 < l.count)
    (nodup : (texts name levels base).Nodup) :
    ∀ l ∈ levels, ∀ i < l.count, ∀ j < l.count, name l i = name l j → i = j := by
  induction levels generalizing base with
  | nil => exact nofun
  | cons l rest ih =>
    rw [texts,List.nodup_flatMap] at nodup
    obtain ⟨turns,apart⟩ := nodup
    have positive_rest : ∀ m ∈ rest, 0 < m.count := fun m member => positive m (.tail _ member)
    intro m member
    rcases List.mem_cons.mp member with rfl | member
    · intro i inside j inside' same
      by_contra other
      obtain ⟨text,member⟩ := KeySpace.texts_some name positive_rest (base ++ "/" ++ name m i)
      have : Std.Symm (Function.onFun List.Disjoint fun i => texts name rest (base ++ "/" ++ name m i)) :=
        ⟨fun _ _ disjoint => disjoint.symm⟩
      have disjoint := apart.forall (List.mem_range.mpr inside) (List.mem_range.mpr inside') other
      have again : text ∈ texts name rest (base ++ "/" ++ name m j) := same ▸ member
      exact disjoint member again
    · exact ih positive_rest (turns 0 (List.mem_range.mpr (positive l List.mem_cons_self))) m member

end Cursor

/-! ### Compiled lines -/

namespace KeySpace
open Cursor (LeafLast)
open Pattern (Builder BuilderDefinition Calls Compile Compiler Level ValueSpec)

/-- How many keys there are among some entries. -/
def distinctKeys (es : Array Entry) : ℕ := (es.toList.map Entry.key).dedup.length

theorem distinctKeys_eq {es : Array Entry} : distinctKeys es = es.size ↔ (es.toList.map Entry.key).Nodup := by
  have size : es.size = (es.toList.map Entry.key).length := by simp
  rw [distinctKeys,size]
  constructor
  · intro same
    rw [← (List.dedup_sublist _).eq_of_length same]
    exact List.nodup_dedup _
  · intro nodup
    rw [nodup.dedup]

section
variable {c c' : Compiler} {log : List (String × Except DefinitionError Pattern)} {line : String} {p : Pattern}

/-- What a full pass over the keys of a compiled line yields. -/
structure FullPass (p : Pattern) (es : Array Entry) : Prop where
  /-- The size of the line is the number of entries. -/
  counted : p.keySpace = min es.size Word.top
  /-- Their keys are distinct where the names of rules are, -/
  apart : p.NamesApart → distinctKeys es = es.size
  /-- and nowhere else, if no name is drawn for a single key. -/
  only_then : (∀ l ∈ p.levels, l.isRandom = false) → es ≠ #[] → distinctKeys es = es.size → p.NamesApart

theorem fullPass_of_calls (calls : Calls c log c') (member : (line,.ok p) ∈ log)
    (unslashed : ∀ l ∈ p.levels.dropLast, (l.isRandom = true ∨ ∃ rule, l.Refers rule) → l.Unslashed)
    {σ : Type} [RandomSource σ] {g g' : σ} {es : Array Entry}
    (run : (Cursor.start none).rest p.levels g = .ok (es,g')) : FullPass p es := by
  have compiled := calls.compiled member
  have leafLast := Compiler.compiled_leafLast compiled
  have reads : ∀ l ∈ p.levels, ∃ path, '/' ∉ path ∧ Pattern.Reads c' path { l with value := none } := by
    intro l at_l
    obtain ⟨segment,part,read⟩ := calls.reads_level member at_l
    exact ⟨_,Pattern.pathOf_no_slash (Pattern.parts_cut part).2,read.path⟩
  have walked : Cursor.walk none p.levels 0 "" g = .ok (es.toList,g') := by
    rw [← List.drop_zero (l := p.levels),← Cursor.entries_below,Cursor.entries,Draw.map_apply]
    exact congrArg (Except.map _) run
  refine ⟨?_,fun apart => distinctKeys_eq.mpr ?_,fun fixed some_key distinct l at_l refers => ?_⟩
  · rw [Pattern.keySpace_eq,← Cursor.walk_length leafLast walked,Array.length_toList]
  · refine Cursor.walk_nodup (fun l at_l => ?_) (fun l at_l => ?_) walked
    · obtain ⟨path,-,read⟩ := reads l at_l
      exact read.distinct (apart l at_l)
    · obtain ⟨path,no_slash,read⟩ := reads l (List.dropLast_subset _ at_l)
      exact read.unslashed no_slash (unslashed l at_l)
  · have keys := Cursor.walk_keys (fun l member => Level.fixed_named (fixed l member)) leafLast walked
    rw [distinctKeys_eq,keys] at distinct
    have positive : ∀ l ∈ p.levels, 0 < l.count := by
      intro l member
      by_contra none_counted
      have count : l.count = 0 := by omega
      have empty := Cursor.walk_length leafLast walked
      rw [List.prod_eq_zero (count ▸ List.mem_map_of_mem member)] at empty
      exact some_key (by simpa using empty)
    have names := Cursor.names_of_texts positive distinct l at_l
    obtain ⟨rule,refers⟩ := refers
    obtain ⟨b,-,segment,enough⟩ := calls.names member at_l refers
    refine (Level.distinct_listed segment ?_).mp (Level.distinct_of_names (fixed l at_l) names)
    rw [Array.size_extract]
    omega

end

/-- Names are drawn one by one. Of a rule without values that a compiler accepts, any `n` texts of its expression can be
the names of `n` instances; so they are sure to be distinct only if there is one of them at most. Whatever lines the
compiler was called with, a further reference keeps the names that are there, and draws any texts for those that are
missing. The references that were compiled have the first names of their rule, and these are not distinct where the
expression has fewer texts. The size of a line is the number of entries, which is that of the distinct keys where the
names are distinct, and else it is larger, unless an expression in the line tells keys apart by chance. -/
theorem names_drawn {rules : List (String × BuilderDefinition)} {spec : Option ValueSpec} {τ : Type} [RandomSource τ]
    {h h' : τ} {first c : Compiler} {log : List (String × Except DefinitionError Pattern)}
    (made : (Compiler.new rules spec : ExceptT DefinitionError (Draw τ) Compiler).run h = .ok (.ok first,h'))
    (calls : Calls first log c) :
    (∀ rule ∈ rules, rule.2.values = [] → ∃ r, rule.2.Draws r ∧ ∀ n, rule.2.max = 0 ∨ n ≤ rule.2.max →
      (∀ names, rule.2.Expands n names ↔ names.length = n ∧ ∀ name ∈ names, r.Yields name) ∧
      ((∀ names, rule.2.Expands n names → names.Nodup) ↔ n ≤ 1 ∨ ∀ text, ¬r.Yields text)) ∧
    (∀ rule b r, c.builders.look rule = some b → b.generator = some r →
      (∃ d ∈ rules, Text.lower d.1 = rule ∧ d.2.Draws r) ∧
      ∀ n, b.max = 0 ∨ n ≤ b.max → b.FreelyDrawn r n) ∧
    ∀ line p, (line,.ok p) ∈ log →
      (∀ l ∈ p.levels, ∀ rule, l.Refers rule → ∃ b, c.builders.look rule = some b ∧
        l.names = b.instances.toList.take l.count ∧ l.names.length = l.count ∧
        ∀ r, b.generator = some r → (∀ name ∈ l.names, r.Yields name) ∧
          ∀ texts : List String, (∀ text, r.Yields text → text ∈ texts) → texts.length < l.count → ¬l.names.Nodup) ∧
      ((∀ l ∈ p.levels.dropLast, (l.isRandom = true ∨ ∃ rule, l.Refers rule) → l.Unslashed) →
        ∀ (σ : Type) [RandomSource σ] (g g' : σ) (es : Array Entry),
          (Cursor.start none).rest p.levels g = .ok (es,g') → FullPass p es) := by
  have sampled {rule : String} {b : Builder} (found : c.builders.look rule = some b) : b.Sampled rules :=
    calls.sampled made b (List.mem_of_find?_eq_some found)
  refine ⟨fun rule declared no_values => ?_,fun rule b r found drawn => ?_,
    fun line p member => ⟨fun l at_l rule refers => ?_,?_⟩⟩
  · obtain ⟨b,k,k',accepted⟩ := Compiler.new_accepts made rule declared
    obtain ⟨r,draws⟩ := Builder.draws_of_accepted no_values accepted
    have some_text : 0 < rule.2.count → ∃ text, r.Yields text := by
      intro counted
      rw [Builder.ofDefinition_drawn draws] at accepted
      obtain ⟨names,drawn,-⟩ := Draw.map_ok accepted
      obtain ⟨length,yields⟩ := Builder.times_yields drawn
      exact ⟨_,yields _ (List.getElem_mem (length ▸ counted : 0 < names.length))⟩
    exact ⟨r,draws,fun n allowed => ⟨fun names => BuilderDefinition.expands_iff draws some_text allowed,
      BuilderDefinition.expands_nodup draws some_text allowed⟩⟩
  · obtain ⟨⟨d,declared,named,draws⟩,yields⟩ := sampled found r drawn
    have is_rule : b.name = rule := by simpa [Pattern.BuilderTable.named] using List.find?_some found
    exact ⟨⟨d,declared,named.trans is_rule,draws⟩,fun n within => Builder.freelyDrawn within drawn yields⟩
  · obtain ⟨b,found,segment,enough⟩ := calls.names member at_l refers
    have names : l.names = b.instances.toList.take l.count := by
      rw [Level.names,segment]
      exact Builder.extract_toList _ _
    have length : l.names.length = l.count := by
      rw [names,List.length_take,Array.length_toList]
      omega
    refine ⟨b,found,names,length,fun r drawn => ?_⟩
    have yields := (sampled found r drawn).2
    have yielded : ∀ name ∈ l.names, r.Yields name := by
      intro name member
      rw [names] at member
      exact yields name (Array.mem_toList_iff.mp (List.mem_of_mem_take member))
    refine ⟨yielded,fun texts all few nodup => ?_⟩
    have := (nodup.subperm fun name member => all name (yielded name member)).length_le
    omega
  · exact fun unslashed σ _ g g' es run => fullPass_of_calls calls member unslashed run

/-- Two draws of one letter out of two come to one letter: the line has one key, and counts two. -/
theorem repeated_names : ∃ (first c : Compiler) (g g' h h' k k' : Xoshiro) (p : Pattern) (es : Array Entry),
    (Compiler.new [("r",⟨[],some "[a-b]",2,0⟩)] none : ExceptT DefinitionError (Draw Xoshiro) Compiler).run g =
        .ok (.ok first,g') ∧
      Compile.Yields (Compiler.compile "/:r;z") first h p c h' ∧
      (Cursor.start none).rest p.levels k = .ok (es,k') ∧
      p.levels.map (fun l => (l.source,l.names)) = [(":r",["b","b"])] ∧ p.keySpace = 2 ∧ distinctKeys es = 1 := by
  let seed : Xoshiro := Xoshiro.ofSeed 1
  have ran : ((Compiler.new [("r",⟨[],some "[a-b]",2,0⟩)] none : ExceptT DefinitionError (Draw Xoshiro) Compiler).run
      (Xoshiro.ofSeed 5)).toOption.any (fun made => made.1.toOption.any fun first =>
        ((Compiler.compile "/:r;z").run first made.2).toOption.any fun compiled => compiled.1.1.toOption.any fun p =>
          ((Cursor.start none).rest p.levels seed : Except Fault (Array Entry × Xoshiro)).toOption.any fun walked =>
            decide (p.levels.map (fun l => (l.source,l.names)) = [(":r",["b","b"])] ∧ p.keySpace = 2 ∧
              distinctKeys walked.1 = 1)) = true := by decide +kernel
  obtain ⟨⟨made,g'⟩,declared,accepted⟩ := Except.ok_of_any ran
  obtain ⟨first,rfl,compiles⟩ := Except.ok_of_any accepted
  obtain ⟨⟨⟨r,c⟩,h'⟩,compiled,yields⟩ := Except.ok_of_any compiles
  obtain ⟨p,rfl,walks⟩ := Except.ok_of_any yields
  obtain ⟨⟨es,k'⟩,walked,counts⟩ := Except.ok_of_any walks
  exact ⟨first,c,_,g',g',h',seed,k',p,es,declared,compiled,walked,of_decide_eq_true counts⟩

/-- Two names that happen to be distinct, above a name that the line writes, and that stay distinct; two that are not
could be drawn too. -/
theorem drawn_pair : ∃ (first c : Compiler) (log : List (String × Except DefinitionError Pattern)) (p : Pattern)
    (es : Array Entry), Calls first log c ∧ ("/:r[2]/k;x",.ok p) ∈ log ∧
      (∃ l ∈ p.levels, l.Refers "r" ∧ l.names.length = 2 ∧ l.names.Nodup) ∧ p.keySpace = 2 ∧ distinctKeys es = 2 ∧
      (∃ b, c.builders.look "r" = some b ∧ ∀ names, b.Offers 2 names → names.Nodup) ∧
      ∃ d ∈ Pattern.pairs, ∃ names, d.2.Expands 2 names ∧ ¬names.Nodup := by
  let seed : Xoshiro := Xoshiro.ofSeed 1
  have made : Pattern.afterCalls ["/:r[2]/k;x"] (fun _ log c =>
      c.builders.rules.all (fun b => b.generator.isSome && b.max == 2) && log.any fun r => r.1 == "/:r[2]/k;x" && r.2.toOption.any fun p => p.levels.all Level.seenProper &&
        decide (p.levels.map (fun l => (l.source,l.count)) = [(":r[2]",2),("k",1)] ∧ ∀ l ∈ p.levels, l.names.Nodup) &&
        ((Cursor.start none).rest p.levels seed : Except Fault (Array Entry × Xoshiro)).toOption.any
          fun walked => walked.1.size == 2) = true := by decide +kernel
  obtain ⟨g,g',first,log,c,run,calls,as_wanted⟩ := Pattern.calls_made made
  obtain ⟨drawn,as_wanted⟩ := Bool.and_eq_true_iff.mp as_wanted
  obtain ⟨⟨line,result⟩,logged,as_wanted⟩ := List.any_eq_true.mp as_wanted
  obtain ⟨written,as_wanted⟩ := Bool.and_eq_true_iff.mp as_wanted
  obtain rfl : line = "/:r[2]/k;x" := beq_iff_eq.mp written
  obtain ⟨p,rfl,as_wanted⟩ := Except.ok_of_any as_wanted
  obtain ⟨as_wanted,walked⟩ := Bool.and_eq_true_iff.mp as_wanted
  obtain ⟨seen,as_wanted⟩ := Bool.and_eq_true_iff.mp as_wanted
  obtain ⟨sources,apart⟩ := of_decide_eq_true as_wanted
  obtain ⟨⟨es,k'⟩,rest,size⟩ := Except.ok_of_any walked
  obtain ⟨declared,states,lines⟩ := names_drawn run calls
  obtain ⟨references,passes⟩ := lines _ p logged
  obtain ⟨l,at_l,written⟩ := List.mem_map.mp (sources ▸ List.mem_cons_self)
  obtain ⟨source,count⟩ := Prod.mk.inj written
  have refers : l.Refers "r" :=
    ⟨"r[2]".toList,"r".toList,some 2,by rw [source]; rfl,Pattern.splitCount_ok.mp (by decide),by decide +kernel⟩
  obtain ⟨b,found,names,length,texts⟩ := references l at_l "r" refers
  obtain ⟨generated,bounded⟩ :=
    Bool.and_eq_true_iff.mp (List.all_eq_true.mp drawn b (List.mem_of_find?_eq_some found))
  obtain ⟨r,generator⟩ := Option.isSome_iff_exists.mp generated
  obtain ⟨⟨d,at_d,-,draws⟩,free⟩ := states "r" b r found generator
  obtain ⟨yields,-⟩ := texts r generator
  have proper := Pattern.properlyNamed_of_seen seen
  have pass := passes (fun m member special i inside name named =>
    (proper m (List.dropLast_subset _ member) special name ⟨i,inside,named⟩).2) Xoshiro _ k' es rest
  have entries : es.size = 2 := beq_iff_eq.mp size
  rw [count] at names length
  have enough : 2 ≤ b.instances.size := by
    rw [names,List.length_take,Array.length_toList] at length
    omega
  refine ⟨first,c,_,p,es,calls,logged,⟨l,at_l,refers,length,apart l at_l⟩,?_,?_,⟨b,found,?_⟩,?_⟩
  · rw [pass.counted,entries]
    rfl
  · rw [pass.apart fun l member _ => apart l member,entries]
  · exact (free 2 (.inr (beq_iff_eq.mp bounded).ge)).apart.mpr ⟨names ▸ apart l at_l,.inl enough⟩
  · obtain ⟨r',draws',expands⟩ := declared d at_d draws.no_values
    cases draws.unique draws'
    have bound : d.2.max = 2 := by rw [List.mem_singleton.mp at_d]
    obtain ⟨-,apart_iff⟩ := expands 2 (.inr bound.ge)
    have two : ¬∀ names, d.2.Expands 2 names → names.Nodup := by
      rw [apart_iff]
      rintro (few | none_yielded)
      · omega
      · have some_name : 0 < l.names.length := by omega
        exact none_yielded _ (yields _ (List.getElem_mem some_name))
    push Not at two
    exact ⟨d,at_d,two⟩

end KeySpace

end Keyload
