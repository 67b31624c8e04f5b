import Mathlib.Data.List.Forall2
import Keyload.Proofs.Pattern.Outcomes
import Keyload.Proofs.Pattern.VisitOrder
import Keyload.Random.Xoshiro

/-!
Compilers with a past. A compiler may have been called before, with any lines and any sources, and some of the calls may
have failed; that leaves its rules with more names, and nothing else. So a line is accepted or refused as the grammar
says of the declared rules, whatever was compiled before it, and a line that is compiled again gives what it gave.
-/
namespace Keyload.Pattern
open Compile (Yields Ends)

/-- Calls of a compiler, one after another, each with a source of its own: the lines and what came of them. -/
inductive Calls : Compiler → List (String × Except DefinitionError Pattern) → Compiler → Prop
  | none {c : Compiler} : Calls c [] c
  | next {c c₁ c₂ : Compiler} {σ : Type} [RandomSource σ] {line : String} {r : Except DefinitionError Pattern} {g g' : σ}
      {log : List (String × Except DefinitionError Pattern)}
      (run : (Compiler.compile line).run c g = .ok ((r,c₁),g')) (later : Calls c₁ log c₂) :
      Calls c ((line,r) :: log) c₂

variable {c c' : Compiler} {log : List (String × Except DefinitionError Pattern)}

theorem Calls.grows (calls : Calls c log c') : c.Grows c' := by
  induction calls with
  | none => exact .refl _
  | @next c _ _ _ _ line _ g _ _ run _ ih =>
    refine Compiler.Grows.trans ?_ ih
    cases Compiler.compile_ends line c g with
    | stops run' => cases run'.symm.trans run
    | refuses run' why =>
      cases run'.symm.trans run
      exact why.1
    | gives run' what =>
      cases run'.symm.trans run
      exact what.1

/-- What was compiled at any time can be read off the rules as they are in the end. -/
theorem Calls.reads (calls : Calls c log c') {line : String} {p : Pattern} (member : (line,.ok p) ∈ log) :
    p.source = line ∧ List.Forall₂ (ReadsSegment c') (parts line) p.levels := by
  induction calls with
  | none => cases member
  | @next c _ _ _ _ line' _ g _ _ run later ih =>
    rcases List.mem_cons.mp member with here | there
    · cases here
      obtain ⟨-,-,source,all⟩ := (Compiler.compile_ends line c g).given run
      exact ⟨source,all.imp fun _ _ read => read.later later.grows⟩
    · exact ih there

section
variable {σ : Type} [RandomSource σ]

/-- Call a compiler with some lines, every time from the same source. -/
def callAll (g : σ) : List String → Compiler → Option (List (String × Except DefinitionError Pattern) × Compiler)
  | [],c => some ([],c)
  | line :: rest,c =>
    match (Compiler.compile line).run c g with
    | .ok ((r,c'),_) => (callAll g rest c').map fun later => ((line,r) :: later.1,later.2)
    | .error _ => none

theorem callAll_calls {g : σ} {lines : List String} (called : callAll g lines c = some (log,c')) : Calls c log c' := by
  induction lines generalizing c log with
  | nil =>
    cases called
    exact .none
  | cons line rest ih =>
    unfold callAll at called
    split at called
    · rename_i run
      obtain ⟨⟨log',_⟩,later,same⟩ := Option.map_eq_some_iff.mp called
      cases same
      exact .next run (ih later)
    · cases called

end

/-- Two drawn names at most. -/
def pairs : List (String × BuilderDefinition) := [("R",⟨[],some "[a-z]{2}",1,2⟩)]

/-- Whether a compiler with these rules comes to what is wanted when it is called with some lines. -/
def afterCalls (lines : List String)
    (wanted : Compiler → List (String × Except DefinitionError Pattern) → Compiler → Bool) : Bool :=
  match (Compiler.new pairs none : ExceptT DefinitionError (Draw Xoshiro) Compiler).run (Xoshiro.ofStream 1 0) with
  | .ok (.ok first,g) => (callAll g lines first).any fun (log,c) => wanted first log c
  | _ => false

theorem calls_made {lines : List String}
    {wanted : Compiler → List (String × Except DefinitionError Pattern) → Compiler → Bool}
    (made : afterCalls lines wanted = true) :
    ∃ g g' first log c,
      (Compiler.new pairs none : ExceptT DefinitionError (Draw Xoshiro) Compiler).run g = .ok (.ok first,g') ∧
        Calls first log c ∧ wanted first log c = true := by
  unfold afterCalls at made
  split at made
  · rename_i first g run
    obtain ⟨⟨log,c⟩,called,as_wanted⟩ := (Option.any_eq_true _ _).mp made
    exact ⟨_,g,first,log,c,run,callAll_calls called,as_wanted⟩
  · cases made

/-! ### Compiling again -/

theorem reads_unique {path : List Char} {l m : Level} (reads : Reads c path l) (reads' : Reads c path m) : l = m := by
  cases reads with
  | fixed unmarked => cases reads' <;> simp_all
  | drawn valid =>
    cases reads' with
    | fixed unmarked => simp at unmarked
    | drawn valid' =>
      cases valid.symm.trans valid'
      rfl
  | rule counted known =>
    cases reads' with
    | fixed unmarked => simp at unmarked
    | rule counted' known' =>
      obtain ⟨rfl,rfl⟩ := counted_unique counted counted'
      cases known.symm.trans known'
      rfl
  | numbered counted valid =>
    cases reads' with
    | fixed unmarked => simp at unmarked
    | numbered counted' valid' =>
      obtain ⟨rfl,rfl⟩ := counted_unique counted counted'
      cases valid.symm.trans valid'
      rfl

theorem readsValue_unique {spec : Option ValueSpec} {segment : List Char} {v v' : Option ValueSource}
    (reads : ReadsValue spec segment v) (reads' : ReadsValue spec segment v') : v = v' := by
  cases reads with
  | unnamed unnamed =>
    cases reads' with
    | unnamed => rfl
    | named named => exact absurd named unnamed
  | named named valid =>
    cases reads' with
    | unnamed unnamed => exact absurd named unnamed
    | named _ valid' =>
      cases valid.symm.trans valid'
      rfl

theorem readsSegment_unique {segment : List Char} {l m : Level} (reads : ReadsSegment c segment l)
    (reads' : ReadsSegment c segment m) : l = m := by
  have bare := reads_unique reads.path reads'.path
  have value := readsValue_unique reads.value reads'.value
  cases l
  cases m
  cases value
  cases bare
  rfl

theorem levels_unique {segments : List (List Char)} {ls ms : List Level}
    (reads : List.Forall₂ (ReadsSegment c) segments ls) (reads' : List.Forall₂ (ReadsSegment c) segments ms) :
    ls = ms := by
  induction reads generalizing ms with
  | nil =>
    cases reads'
    rfl
  | cons first _ ih =>
    cases reads' with
    | cons first' later' => rw [readsSegment_unique first first',ih later']

/-- A level that refers to a builder rule. -/
def Level.Refers (l : Level) (rule : String) : Prop :=
  ∃ text name count, l.source.toList = ':' :: text ∧ Counted text name count ∧ Text.lower (String.ofList name) = rule

/-- A reference lists the first names of its rule. -/
theorem Reads.refers {path : List Char} {l : Level} (reads : Reads c path l) (rule : String) (refers : l.Refers rule) :
    ∃ b, c.builders.look rule = some b ∧ l.segment = .names (b.instances.extract 0 l.count) := by
  obtain ⟨text,name,count,written,counted,rfl⟩ := refers
  cases reads with
  | fixed unmarked =>
    rw [String.toList_ofList] at written
    simp [written] at unmarked
  | drawn | numbered =>
    rw [String.toList_ofList] at written
    simp at written
  | rule counted' known =>
    rw [String.toList_ofList] at written
    cases written
    obtain ⟨rfl,rfl⟩ := counted_unique counted counted'
    exact ⟨_,known,rfl⟩

/-- Compiling again is stable. Rules only grow; two calls with one line give one pattern; and of two references to
a rule, wherever they stand, the one with fewer instances lists the first names of the other. -/
theorem compile_stable (calls : Calls c log c') : c.Grows c' ∧
    (∀ line p q, (line,.ok p) ∈ log → (line,.ok q) ∈ log → p = q) ∧
    ∀ line p line' q, (line,.ok p) ∈ log → (line',.ok q) ∈ log → ∀ l ∈ p.levels, ∀ m ∈ q.levels, ∀ rule,
      l.Refers rule → m.Refers rule → l.count ≤ m.count →
        ∃ ns ms, l.segment = .names ns ∧ m.segment = .names ms ∧ ns.toList <+: ms.toList := by
  refine ⟨calls.grows,fun line p q at_p at_q => ?_,?_⟩
  · obtain ⟨source,levels⟩ := calls.reads at_p
    obtain ⟨source',levels'⟩ := calls.reads at_q
    cases p
    cases q
    cases levels_unique levels levels'
    cases source.trans source'.symm
    rfl
  · intro line p line' q at_p at_q l at_l m at_m rule refers refers' few
    have read {line : String} {p : Pattern} (member : (line,.ok p) ∈ log) {l : Level} (at_l : l ∈ p.levels) :
        ∃ segment, ReadsSegment c' segment l := by
      obtain ⟨-,levels⟩ := calls.reads member
      obtain ⟨i,inside,rfl⟩ := List.getElem_of_mem at_l
      exact ⟨_,levels.get (levels.length_eq ▸ inside) inside⟩
    obtain ⟨segment,reads⟩ := read at_p at_l
    obtain ⟨segment',reads'⟩ := read at_q at_m
    obtain ⟨b,found,names⟩ := reads.path.refers rule refers
    obtain ⟨b',found',names'⟩ := reads'.path.refers rule refers'
    cases found.symm.trans found'
    refine ⟨_,_,names,names',?_⟩
    dsimp only
    rw [Builder.extract_toList,Builder.extract_toList]
    exact List.take_prefix_take_left few

/-- A call that fails at its second segment has drawn a name for its first one; the same line compiled before and after
it still gives one pattern, whose names begin those of a line that asks for more. -/
theorem compile_stable_drawn : ∃ c log c', Calls c log c' ∧
    (log.map fun (line,r) => (line,r.isOk)) =
      [("/:r;x",true),("/:r[2]/:s;x",false),("/:R[2];x",true),("/:r;x",true)] ∧
    (c.builder? "r").map (·.instances.size) = some 1 ∧ (c'.builder? "r").map (·.instances.size) = some 2 ∧
    (∀ p q, ("/:r;x",.ok p) ∈ log → ("/:r;x",.ok q) ∈ log → p = q) ∧
    ∀ p q, ("/:r;x",.ok p) ∈ log → ("/:R[2];x",.ok q) ∈ log → ∀ l ∈ p.levels, ∀ m ∈ q.levels,
      l.Refers "r" → m.Refers "r" → l.count ≤ m.count →
        ∃ ns ms, l.segment = .names ns ∧ m.segment = .names ms ∧ ns.toList <+: ms.toList := by
  have made : afterCalls ["/:r;x","/:r[2]/:s;x","/:R[2];x","/:r;x"] (fun c log c' =>
      (log.map fun (line,r) => (line,r.isOk)) ==
        [("/:r;x",true),("/:r[2]/:s;x",false),("/:R[2];x",true),("/:r;x",true)] &&
      (c.builder? "r").map (·.instances.size) == some 1 && (c'.builder? "r").map (·.instances.size) == some 2) = true := by
    decide +kernel
  obtain ⟨_,_,c,log,c',-,calls,as_wanted⟩ := calls_made made
  simp only [Bool.and_eq_true,beq_iff_eq] at as_wanted
  obtain ⟨⟨lines,before⟩,after⟩ := as_wanted
  obtain ⟨-,same,begins⟩ := compile_stable calls
  exact ⟨c,log,c',calls,lines,before,after,fun p q => same _ p q,fun p q at_p at_q l at_l m at_m =>
    begins _ p _ q at_p at_q l at_l m at_m "r"⟩

/-! ### Lines of the grammar -/

section
variable {σ : Type} [RandomSource σ]

private theorem add_terms {t t' : BuilderTable} {rules : List (String × BuilderDefinition)} {g h : σ}
    (run : (t.add rules : ExceptT DefinitionError (Draw σ) BuilderTable).run g = .ok (.ok t',h)) (name : String) :
    (t'.look name).map Builder.terms =
      ((rules.reverse.find? fun rule => Text.lower rule.1 == name).map fun rule => rule.2.terms).or
        ((t.look name).map Builder.terms) := by
  induction rules generalizing t g with
  | nil =>
    cases run
    rfl
  | cons rule rest ih =>
    obtain ⟨b,g',first,run⟩ := Draw.then_ok (f := fun b => (t.insert b).add rest) run
    obtain ⟨named,terms⟩ := Builder.ofDefinition_ok first
    rw [ih run,BuilderTable.look_insert,named,List.reverse_cons,List.find?_append]
    cases rest.reverse.find? fun rule => Text.lower rule.1 == name with
    | some later => rfl
    | none =>
      by_cases same : Text.lower rule.1 = name
      · simp [same,terms]
      · simp [same]

/-- The rules of a compiler may be referred to as they were declared. -/
theorem new_terms {rules : List (String × BuilderDefinition)} {spec : Option ValueSpec} {c : Compiler} {g h : σ}
    (made : (Compiler.new rules spec : ExceptT DefinitionError (Draw σ) Compiler).run g = .ok (.ok c,h)) :
    c.terms = declaredTerms rules := by
  obtain ⟨t,_,added,last⟩ := Draw.then_ok made
  cases last
  funext name
  unfold declaredTerms declared?
  rw [Option.map_map]
  refine (add_terms added (Text.lower name)).trans ?_
  simp [BuilderTable.empty,BuilderTable.look,Function.comp_def]

end

/-- Why compiling a line may stop: one of its segments stops it, with the rules as they were declared. -/
def Stops (c : Compiler) (line : String) (f : Fault) : Prop := ∃ segment ∈ parts line, SegmentStops c segment f

/-- Compiling accepts the lines of the grammar. Whatever a compiler was called with before, a line of the grammar is
accepted, any other is refused with its own error, and nothing else happens but that an expression stops it. -/
theorem compile_exact {rules : List (String × BuilderDefinition)} {spec : Option ValueSpec} {τ : Type} [RandomSource τ]
    {h h' : τ} {first : Compiler}
    (made : (Compiler.new rules spec : ExceptT DefinitionError (Draw τ) Compiler).run h = .ok (.ok first,h'))
    (calls : Calls first log c) {σ : Type} [RandomSource σ] (line : String) (g : σ) :
    (∃ f, (Compiler.compile line).run c g = .error f ∧ Stops first line f) ∨
      ∃ r c' g', (Compiler.compile line).run c g = .ok ((r,c'),g') ∧
        ((∃ p, r = .ok p) ↔ Accepted (declaredTerms rules) line) ∧
        ∀ e, r = .error e ↔ Rejected (declaredTerms rules) line e := by
  have ends := Compiler.compile_ends line c g
  rw [calls.grows.terms,new_terms made] at ends
  cases ends with
  | stops run why =>
    obtain ⟨segment,member,stops⟩ := why
    exact .inl ⟨_,run,segment,member,stops.earlier calls.grows⟩
  | @refuses e c' g' run why =>
    refine .inr ⟨_,c',g',run,⟨?_,?_⟩,fun e' => ⟨?_,?_⟩⟩
    · rintro ⟨p,no⟩
      cases no
    · exact fun accepted => absurd why.2 (accepted_not_rejected accepted e)
    · rintro ⟨rfl⟩
      exact why.2
    · exact fun rejected => congrArg Except.error (rejected_unique why.2 rejected)
  | @gives p c' g' run what =>
    refine .inr ⟨_,c',g',run,⟨fun _ => what.2.1,fun _ => ⟨p,rfl⟩⟩,fun e => ⟨?_,?_⟩⟩
    · exact nofun
    · exact fun rejected => absurd rejected (accepted_not_rejected what.2.1 e)

/-- After a call that has failed, a line of the grammar is accepted, and one that asks for more than the bound is not. -/
theorem compile_exact_bounded :
    Accepted (declaredTerms pairs) "/:r[2]/%n-%d[3];x" ∧
      Rejected (declaredTerms pairs) "/a//:R[3];x" (.countExceedsMax "r" 3 2) := by
  have made : afterCalls ["/:r[2]/:s;x"] (fun _ _ c =>
      (match (Compiler.compile "/:r[2]/%n-%d[3];x").run c (Xoshiro.ofStream 2 0) with
        | .ok ((.ok _,_),_) => true
        | _ => false) &&
      match (Compiler.compile "/a//:R[3];x").run c (Xoshiro.ofStream 2 0) with
        | .ok ((.error e,_),_) => e == .countExceedsMax "r" 3 2
        | _ => false) = true := by
    decide +kernel
  obtain ⟨_,_,first,log,c,run,calls,as_wanted⟩ := calls_made made
  obtain ⟨accepts,refuses⟩ := Bool.and_eq_true_iff.mp as_wanted
  constructor
  · split at accepts
    · rename_i p _ _ accepted
      rcases compile_exact run calls "/:r[2]/%n-%d[3];x" (Xoshiro.ofStream 2 0) with ⟨_,stopped,-⟩ | ⟨r,_,_,ran,exact,-⟩
      · cases stopped.symm.trans accepted
      · cases ran.symm.trans accepted
        exact exact.mp ⟨p,rfl⟩
    · cases accepts
  · split at refuses
    · rename_i e _ _ refused
      obtain rfl := beq_iff_eq.mp refuses
      rcases compile_exact run calls "/a//:R[3];x" (Xoshiro.ofStream 2 0) with ⟨_,stopped,-⟩ | ⟨r,_,_,ran,-,exact⟩
      · cases stopped.symm.trans refused
      · cases ran.symm.trans refused
        exact (exact _).mp rfl
    · cases refuses

end Keyload.Pattern
