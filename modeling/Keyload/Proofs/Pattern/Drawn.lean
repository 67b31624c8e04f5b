import Keyload.Proofs.Pattern.Recompiled
import Keyload.Proofs.Pattern.WellFormed

/-!
Names that are drawn. Whatever a compiler was called with before, the names of a rule with an expression are texts that
the expression can yield, and no more is known of them (`Calls.sampled`).
-/
namespace Keyload

/-- A text that the expression can yield. -/
def Regex.Yields (r : Regex) (text : String) : Prop :=
  ∃ (σ : Type) (_ : RandomSource σ) (g g' : σ), r.draw g = .ok (text,g')

namespace Pattern

variable {σ : Type} [RandomSource σ]

/-! ### What compiling keeps -/

namespace Compile

variable {α β : Type} {I : Compiler → Prop}

/-- A step of compiling keeps what holds of the compiler, whether it yields or refuses. -/
def Keeps (I : Compiler → Prop) (x : Compile σ α) : Prop :=
  ∀ c g r c' g', I c → x.run c g = .ok ((r,c'),g') → I c'

omit [RandomSource σ]

private theorem keeps_pure (a : α) : Keeps I (pure a : Compile σ α) := by
  intro c g r c' g' holds run
  cases run
  exact holds

private theorem keeps_throw (e : DefinitionError) : Keeps I (throw e : Compile σ α) := by
  intro c g r c' g' holds run
  cases run
  exact holds

private theorem keeps_bind {x : Compile σ α} {f : α → Compile σ β} (first : Keeps I x) (then_ : ∀ a, Keeps I (f a)) :
    Keeps I (x >>= f) := by
  intro c g r c' g' holds run
  change (x.run c >>= fun r => ExceptT.bindCont f r.1 r.2 : Draw σ _) g = _ at run
  obtain ⟨⟨r₁,c₁⟩,g₁,before,run⟩ := Draw.bind_ok run
  have between := first c g r₁ c₁ g₁ holds before
  cases r₁ with
  | error e =>
    cases run
    exact between
  | ok a => exact then_ a c₁ g₁ r c' g' between run

private theorem keeps_get {f : Compiler → Compile σ β} (then_ : ∀ c, I c → Keeps I (f c)) : Keeps I (get >>= f) :=
  fun c g r c' g' holds run => then_ c holds c g r c' g' holds run

private theorem keeps_ofOutcome (x : Outcome DefinitionError α) : Keeps I (Compiler.ofOutcome x : Compile σ α) := by
  intro c g r c' g' holds run
  change x.run.map _ = _ at run
  cases ended : x.run with
  | error e =>
    rw [ended] at run
    cases run
  | ok r =>
    rw [ended] at run
    cases run
    exact holds

end Compile

theorem BuilderTable.insert_all {P : Builder → Prop} {t : BuilderTable} (all : ∀ b ∈ t.rules, P b) {b : Builder}
    (here : P b) : ∀ b' ∈ (t.insert b).rules, P b' := by
  unfold BuilderTable.insert
  intro b' member
  split at member
  · obtain ⟨old,at_old,rfl⟩ := List.mem_map.mp member
    split
    · exact here
    · exact all old at_old
  · rcases List.mem_append.mp member with old | new
    · exact all b' old
    · rwa [List.mem_singleton.mp new]

namespace Compiler
open Compile

/-- All rules are of a kind. -/
def All (P : Builder → Prop) (c : Compiler) : Prop := ∀ b ∈ c.builders.rules, P b

variable {P : Builder → Prop}
  (grows : ∀ (b b' : Builder) (n : ℕ) (g g' : σ), P b → b.grow n g = .ok (b',g') → P b')

include grows

private theorem builderLevel_keeps (source : String) {b : Builder} (here : P b) (count : ℕ) :
    Keeps (All P) (builderLevel source b count : Compile σ _) := by
  unfold builderLevel
  cases b.checkCount count with
  | error e => exact keeps_throw e
  | ok _ =>
    refine keeps_bind ?_ fun b' => ?_
    · intro c g r c' g' all run
      change (b.grow count >>= fun b' => pure (Except.ok b',{ c with builders := c.builders.insert b' }) :
        Draw σ _) g = _ at run
      obtain ⟨b',h,grown,run⟩ := Draw.bind_ok run
      cases run
      exact BuilderTable.insert_all all (grows b b' count g _ here grown)
    · cases b'.level source count with
      | ok l => exact keeps_pure l
      | error f => exact keeps_ofOutcome _

private theorem level_keeps (pattern : String) (segment : List Char) :
    Keeps (All P) (level pattern segment : Compile σ _) := by
  have counted (text : List Char) : Keeps (All P) (takeCount text : Compile σ _) := by
    unfold takeCount
    cases splitCount text with
    | ok r => exact keeps_pure r
    | error e => exact keeps_throw e
  unfold level
  split
  · refine keeps_bind (counted _) fun (name,count) => keeps_get fun c all => ?_
    cases found : c.builder? (String.ofList name) with
    | none => exact keeps_throw _
    | some b => exact builderLevel_keeps grows _ (all b (List.mem_of_find?_eq_some found)) _
  · exact keeps_bind (keeps_ofOutcome _) fun r => keeps_pure _
  · exact keeps_bind (counted _) fun r => keeps_bind (keeps_ofOutcome _) fun f => keeps_pure _
  · exact keeps_pure _

private theorem levels_keeps (pattern : String) (ended : Bool) (segments : List (List Char)) :
    Keeps (All P) (levels pattern ended segments : Compile σ _) := by
  have valued (text : String) : Keeps (All P) (valueSource text : Compile σ _) := by
    refine keeps_bind (keeps_ofOutcome _) fun r => keeps_get fun c _ => ?_
    cases c.valueSpec with
    | some spec => exact keeps_pure _
    | none => exact keeps_pure _
  induction segments generalizing ended with
  | nil => exact keeps_pure []
  | cons segment rest ih =>
    have tail (value : Option ValueSource) (path : List Char) : Keeps (All P) (do
        let l ← level pattern path
        let ls ← levels pattern value.isSome rest
        pure ({ l with value := value } :: ls) : Compile σ (List Level)) :=
      keeps_bind (level_keeps grows pattern path) fun l => keeps_bind (ih _) fun ls => keeps_pure _
    rw [levels]
    cases ended with
    | true =>
      simp only [if_true]
      refine keeps_bind (keeps_throw _) fun _ => ?_
      split
      · exact keeps_bind (keeps_bind (valued _) fun v => keeps_pure _) fun value => tail value _
      · exact keeps_bind (keeps_pure _) fun value => tail value _
    | false =>
      simp only [Bool.false_eq_true,if_false]
      split
      · exact keeps_bind (keeps_bind (valued _) fun v => keeps_pure _) fun value => tail value _
      · exact keeps_bind (keeps_pure _) fun value => tail value _

/-- Compiling keeps what growing keeps. -/
theorem compile_keeps (line : String) : Keeps (All P) (compile line : Compile σ _) := by
  refine keeps_bind (levels_keeps grows line false _) fun ls => ?_
  cases ls.getLast? with
  | none => exact keeps_throw _
  | some l =>
    show Keeps _ (if l.isLeaf = true then _ else _)
    split
    · exact keeps_pure _
    · exact keeps_throw _

end Compiler

/-! ### Names that a rule can have -/

/-- The names that a level lists. -/
def Level.names (l : Level) : List String :=
  match l.segment with
  | .names names => names.toList
  | _ => []

/-- Names are drawn from an expression, and the count is within its bound. -/
structure BuilderDefinition.Draws (d : BuilderDefinition) (r : Regex) : Prop where
  no_values : d.values = []
  valid : ∃ text, d.pattern = some text ∧ (Regex.compile text).run = .ok (.ok r)
  within : ¬(0 < d.max ∧ d.max < d.count)

theorem BuilderDefinition.Draws.unique {d : BuilderDefinition} {r r' : Regex} (draws : d.Draws r)
    (draws' : d.Draws r') : r = r' := by
  obtain ⟨text,source,valid⟩ := draws.valid
  obtain ⟨text',source',valid'⟩ := draws'.valid
  cases source.symm.trans source'
  cases valid.symm.trans valid'
  rfl

namespace Builder

/-- If the rule has an expression, then it was declared with it, and its names are texts of it. -/
def Sampled (rules : List (String × BuilderDefinition)) (b : Builder) : Prop :=
  ∀ r, b.generator = some r →
    (∃ rule ∈ rules, Text.lower rule.1 = b.name ∧ rule.2.Draws r) ∧ ∀ name ∈ b.instances, r.Yields name

/-- What is drawn one by one can be yielded. -/
theorem times_yields {r : Regex} {n : ℕ} {names : List String} {g g' : σ}
    (run : Draw.times r.draw n g = .ok (names,g')) : names.length = n ∧ ∀ name ∈ names, r.Yields name := by
  obtain ⟨length,drawn⟩ := Draw.times_ok run
  exact ⟨length,fun name member => ⟨σ,_,drawn name member⟩⟩

theorem ofDefinition_drawn {d : BuilderDefinition} {r : Regex} (draws : d.Draws r) (name : String) (g : σ) :
    (ofDefinition name d : ExceptT DefinitionError (Draw σ) Builder).run g =
      ((fun names => .ok ⟨name,d.count,d.max,some r,names.toArray⟩) <$> Draw.times r.draw d.count : Draw σ _) g := by
  obtain ⟨text,source,valid⟩ := draws.valid
  rw [ofDefinition_run,if_neg draws.within,if_neg (not_not_intro draws.no_values)]
  simp only [source,valid]

/-- A rule that has no values and was accepted draws its names. -/
theorem draws_of_accepted {name : String} {d : BuilderDefinition} {b : Builder} {g g' : σ} (no_values : d.values = [])
    (run : (ofDefinition name d : ExceptT DefinitionError (Draw σ) Builder).run g = .ok (.ok b,g')) :
    ∃ r, d.Draws r := by
  rw [ofDefinition_run] at run
  split at run
  · cases run
  · rename_i within
    rw [if_neg (not_not_intro no_values)] at run
    split at run
    · cases run
    · rename_i text source
      split at run
      · cases run
      · cases run
      · rename_i r valid
        exact ⟨r,no_values,⟨text,source,valid⟩,within⟩

theorem ofDefinition_sampled {rules : List (String × BuilderDefinition)} {rule : String × BuilderDefinition}
    (declared : rule ∈ rules) {b : Builder} {g g' : σ}
    (run : (ofDefinition (Text.lower rule.1) rule.2 : ExceptT DefinitionError (Draw σ) Builder).run g =
      .ok (.ok b,g')) : b.Sampled rules := by
  by_cases no_values : rule.2.values = []
  · obtain ⟨r,draws⟩ := draws_of_accepted no_values run
    rw [ofDefinition_drawn draws] at run
    obtain ⟨names,drawn,made⟩ := Draw.map_ok run
    cases made
    rintro _ ⟨rfl⟩
    exact ⟨⟨rule,declared,rfl,draws⟩,fun name member => (times_yields drawn).2 name (by simpa using member)⟩
  · rw [ofDefinition_run] at run
    split at run
    · cases run
    · split at run
      · cases run
        exact nofun
      · cases run

theorem grow_drawn {b : Builder} {r : Regex} (drawn : b.generator = some r) (n : ℕ) :
    (b.grow n : Draw σ Builder) =
      (fun names => { b with instances := b.instances ++ names.toArray }) <$>
        Draw.times r.draw (n - b.instances.size) := by
  simp [grow,drawn,extend_eq]

theorem grow_sampled {rules : List (String × BuilderDefinition)} {b b' : Builder} {n : ℕ} {g g' : σ}
    (sampled : b.Sampled rules) (run : b.grow n g = .ok (b',g')) : b'.Sampled rules := by
  intro r drawn
  have grows := grow_grows run
  rw [grows.generator] at drawn
  obtain ⟨declared,yields⟩ := sampled r drawn
  refine ⟨grows.name ▸ declared,fun name member => ?_⟩
  rw [grow_drawn drawn] at run
  obtain ⟨names,times,rfl⟩ := Draw.map_ok run
  rcases Array.mem_append.mp member with old | new
  · exact yields name old
  · exact (times_yields times).2 name (by simpa using new)

end Builder

/-- Declared rules were all accepted, and have the names that they were declared with. -/
theorem BuilderTable.add_accepts {t t' : BuilderTable} {rules declared : List (String × BuilderDefinition)}
    (among : rules ⊆ declared) {g g' : σ}
    (run : (t.add rules : ExceptT DefinitionError (Draw σ) BuilderTable).run g = .ok (.ok t',g')) :
    (∀ rule ∈ rules, ∃ b h h',
      (Builder.ofDefinition (Text.lower rule.1) rule.2 : ExceptT DefinitionError (Draw σ) Builder).run h =
        .ok (.ok b,h')) ∧
    ((∀ b ∈ t.rules, b.Sampled declared) → ∀ b ∈ t'.rules, b.Sampled declared) := by
  induction rules generalizing t g with
  | nil =>
    cases run
    exact ⟨nofun,id⟩
  | cons rule rest ih =>
    obtain ⟨b,h,first,run⟩ := Draw.then_ok (f := fun b => (t.insert b).add rest) run
    obtain ⟨accepts,sampled⟩ := ih (List.subset_of_cons_subset among) run
    refine ⟨List.forall_mem_cons.mpr ⟨⟨b,g,h,first⟩,accepts⟩,fun all => sampled ?_⟩
    exact insert_all all (Builder.ofDefinition_sampled (among List.mem_cons_self) first)

section
variable {rules : List (String × BuilderDefinition)} {spec : Option ValueSpec} {first c : Compiler} {g g' : σ}
  {log : List (String × Except DefinitionError Pattern)}

/-- Rules with which a compiler is made were all accepted. -/
theorem Compiler.new_accepts
    (made : (Compiler.new rules spec : ExceptT DefinitionError (Draw σ) Compiler).run g = .ok (.ok first,g')) :
    ∀ rule ∈ rules, ∃ b h h',
      (Builder.ofDefinition (Text.lower rule.1) rule.2 : ExceptT DefinitionError (Draw σ) Builder).run h =
        .ok (.ok b,h') := by
  obtain ⟨t,_,added,-⟩ := Draw.then_ok made
  exact (BuilderTable.add_accepts (List.Subset.refl rules) added).1

/-- Whatever a compiler was called with, the names of its rules are texts of the expressions they were declared with. -/
theorem Calls.sampled
    (made : (Compiler.new rules spec : ExceptT DefinitionError (Draw σ) Compiler).run g = .ok (.ok first,g'))
    (calls : Calls first log c) : c.All (Builder.Sampled rules) := by
  have before : first.All (Builder.Sampled rules) := by
    obtain ⟨t,_,added,last⟩ := Draw.then_ok made
    cases last
    exact (BuilderTable.add_accepts (List.Subset.refl rules) added).2 nofun
  clear made
  induction calls with
  | none => exact before
  | next run later ih =>
    exact ih (Compiler.compile_keeps (fun _ _ _ _ _ => Builder.grow_sampled) _ _ _ _ _ _ before run)

omit [RandomSource σ] in
theorem Calls.compiled (calls : Calls first log c) {line : String} {p : Pattern} (member : (line,.ok p) ∈ log) :
    Compiled p := by
  induction calls with
  | none => cases member
  | @next c c₁ _ τ _ line' _ g g' _ run _ ih =>
    rcases List.mem_cons.mp member with here | there
    · cases here
      exact ⟨τ,_,line,c,c₁,g,g',run⟩
    · exact ih there

omit [RandomSource σ] in
/-- Every level of a compiled line stands for one of its segments. -/
theorem Calls.reads_level (calls : Calls first log c) {line : String} {p : Pattern} (member : (line,.ok p) ∈ log)
    {l : Level} (at_l : l ∈ p.levels) : ∃ segment ∈ parts line, ReadsSegment c segment l := by
  obtain ⟨-,levels⟩ := calls.reads member
  obtain ⟨i,inside,rfl⟩ := List.getElem_of_mem at_l
  have within : i < (parts line).length := levels.length_eq ▸ inside
  exact ⟨_,List.getElem_mem within,levels.get within inside⟩

omit [RandomSource σ] in
/-- A reference has the first names of its rule, as many as it counts. -/
theorem Calls.names (calls : Calls first log c) {line : String} {p : Pattern} (member : (line,.ok p) ∈ log) {l : Level}
    (at_l : l ∈ p.levels) {rule : String} (refers : l.Refers rule) :
    ∃ b, c.builders.look rule = some b ∧ l.segment = .names (b.instances.extract 0 l.count) ∧
      l.count ≤ b.instances.size := by
  obtain ⟨segment,-,read⟩ := calls.reads_level member at_l
  obtain ⟨b,found,listed⟩ := read.path.refers rule refers
  have size : (b.instances.extract 0 l.count).size = l.count := read.path.listed listed
  rw [Array.size_extract] at size
  exact ⟨b,found,listed,by omega⟩

end

/-! ### What a reference comes to -/

/-- A reference draws the names that are not there yet. -/
theorem Compiler.builderLevel_drawn (source : String) {b : Builder} {r : Regex} (drawn : b.generator = some r) {n : ℕ}
    (allowed : b.checkCount n = .ok ()) (c : Compiler) (g : σ) :
    (builderLevel source b n : Compile σ Level).run c g =
      ((fun more => (.ok ⟨source,.names ((b.instances ++ more.toArray).extract 0 n),n,b.max,none⟩,
        { c with builders := c.builders.insert { b with instances := b.instances ++ more.toArray } })) <$>
          Draw.times r.draw (n - b.instances.size) : Draw σ _) g := by
  unfold builderLevel
  rw [allowed]
  change ((b.grow n g).bind fun s => .ok ((Except.ok s.1,{ c with builders := c.builders.insert s.1 }),s.2)).bind
    (fun s => ExceptT.bindCont (m := StateT Compiler (Draw σ)) _ s.1.1 s.1.2 s.2) = _
  rw [Builder.grow_drawn drawn,Draw.map_apply,Draw.map_apply]
  cases times : Draw.times r.draw (n - b.instances.size) g with
  | error f => rfl
  | ok s =>
    obtain ⟨more,h⟩ := s
    have enough : n ≤ (b.instances ++ more.toArray).size := by
      have length := (Builder.times_yields times).1
      have size : more.toArray.size = more.length := List.size_toArray
      rw [Array.size_append]
      omega
    simp only [Except.map,Except.bind,ExceptT.bindCont,Builder.level,if_pos enough]
    rfl

private theorem nodup_of_few {names : List String} (few : names.length ≤ 1) : names.Nodup := by
  cases names with
  | nil => exact List.nodup_nil
  | cons name rest =>
    obtain rfl : rest = [] := List.length_eq_zero_iff.mp (by rw [List.length_cons] at few; omega)
    exact List.pairwise_singleton _ name

namespace Builder

/-- A segment that refers to `n` instances of the rule, as it is, can come to these names. -/
def Offers (b : Builder) (n : ℕ) (names : List String) : Prop :=
  ∃ (σ : Type) (_ : RandomSource σ) (source : String) (c c' : Compiler) (l : Level) (g g' : σ),
    Compile.Yields (Compiler.builderLevel source b n) c g l c' g' ∧ l.names = names

variable {b : Builder} {r : Regex} {n : ℕ}

theorem checkCount_within (within : b.max = 0 ∨ n ≤ b.max) (drawn : b.generator = some r) :
    b.checkCount n = .ok () := by
  unfold checkCount
  rw [drawn,if_neg (by omega)]
  rfl

/-- The names of a reference are those that are there, as far as they are needed, and those that are drawn. -/
theorem names_extended {source : String} {more : List String} (length : more.length = n - b.instances.size) :
    (⟨source,.names ((b.instances ++ more.toArray).extract 0 n),n,b.max,none⟩ : Level).names =
      b.instances.toList.take n ++ more := by
  show ((b.instances ++ more.toArray).extract 0 n).toList = _
  rw [extract_toList,Array.toList_append,List.take_append,Array.length_toList,
    List.take_of_length_le (Nat.le_of_eq length)]

/-- Any texts of an expression are drawn in a row, if the words of the source are the right ones. -/
theorem reads_times_yields {names : List String} (yields : ∀ name ∈ names, r.Yields name) :
    ∃ ws, Draw.Reads (Draw.times r.draw names.length) ws names :=
  Draw.reads_times fun name member =>
    have ⟨_,_,_,_,run⟩ := yields name member
    (Regex.draw_scripted r).reads run

/-- So a reference can come to any texts of the expression. -/
theorem reads_reference (within : b.max = 0 ∨ n ≤ b.max) (drawn : b.generator = some r) {more : List String}
    (length : more.length = n - b.instances.size) (yields : ∀ name ∈ more, r.Yields name) :
    ∃ ws, ∀ (rest : Draw.Tape) (source : String) (c : Compiler), ∃ l c',
      Compile.Yields (Compiler.builderLevel source b n) c (ws ++ₛ rest) l c' rest ∧
        l.names = b.instances.toList.take n ++ more := by
  obtain ⟨ws,reads⟩ := reads_times_yields yields
  refine ⟨ws,fun rest source c => ?_⟩
  have run := Compiler.builderLevel_drawn source drawn (checkCount_within within drawn) c (ws ++ₛ rest)
  rw [Draw.map_apply,← length,reads rest] at run
  exact ⟨_,_,run,names_extended length⟩

/-- What a reference comes to. -/
structure FreelyDrawn (b : Builder) (r : Regex) (n : ℕ) : Prop where
  /-- The instances that are there come first; those that are missing can be any texts of the expression, -/
  offers : ∀ names, b.Offers n names ↔
    ∃ more, more.length = n - b.instances.size ∧ (∀ name ∈ more, r.Yields name) ∧
      names = b.instances.toList.take n ++ more
  /-- so they are all distinct for sure, only if those that are there are, and there is nothing to collide. -/
  apart : (∀ names, b.Offers n names → names.Nodup) ↔
    (b.instances.toList.take n).Nodup ∧ (n ≤ b.instances.size ∨ n ≤ 1 ∨ ∀ text, ¬r.Yields text)

theorem offers_iff (within : b.max = 0 ∨ n ≤ b.max) (drawn : b.generator = some r) {names : List String} :
    b.Offers n names ↔ ∃ more, more.length = n - b.instances.size ∧ (∀ name ∈ more, r.Yields name) ∧
      names = b.instances.toList.take n ++ more := by
  constructor
  · rintro ⟨σ,_,source,c,c',l,g,g',run,rfl⟩
    rw [Compile.Yields,Compiler.builderLevel_drawn source drawn (checkCount_within within drawn)] at run
    obtain ⟨more,times,made⟩ := Draw.map_ok run
    cases made
    obtain ⟨length,yields⟩ := times_yields times
    exact ⟨more,length,yields,names_extended length⟩
  · rintro ⟨more,length,yields,rfl⟩
    obtain ⟨ws,reads⟩ := reads_reference within drawn length yields
    obtain ⟨l,c',run,names⟩ := reads (Stream'.const 0) "" ⟨⟨[]⟩,none⟩
    exact ⟨Draw.Tape,inferInstance,"",_,c',l,_,_,run,names⟩

theorem offers_nodup (within : b.max = 0 ∨ n ≤ b.max) (drawn : b.generator = some r)
    (yields : ∀ name ∈ b.instances, r.Yields name) :
    (∀ names, b.Offers n names → names.Nodup) ↔
      (b.instances.toList.take n).Nodup ∧ (n ≤ b.instances.size ∨ n ≤ 1 ∨ ∀ text, ¬r.Yields text) := by
  constructor
  · intro apart
    have repeated {text : String} (yielded : r.Yields text) :
        (b.instances.toList.take n ++ List.replicate (n - b.instances.size) text).Nodup :=
      apart _ ((offers_iff within drawn).mpr
        ⟨_,List.length_replicate,fun _ member => List.eq_of_mem_replicate member ▸ yielded,rfl⟩)
    cases first : b.instances.toList.take n with
    | nil =>
      refine ⟨List.nodup_nil,?_⟩
      by_contra! more
      obtain ⟨-,two,text,yielded⟩ := more
      have length := congrArg List.length first
      rw [List.length_take,Array.length_toList,List.length_nil] at length
      have all := repeated yielded
      rw [first,List.nil_append,List.nodup_replicate] at all
      omega
    | cons name rest =>
      have there : name ∈ b.instances.toList.take n := first ▸ List.mem_cons_self
      have all := repeated (yields name (Array.mem_toList_iff.mp (List.mem_of_mem_take there)))
      rw [first] at all
      obtain ⟨known,-,others⟩ := List.nodup_append.mp all
      refine ⟨known,.inl ?_⟩
      by_contra short
      exact others name List.mem_cons_self name (List.mem_replicate.mpr ⟨by omega,rfl⟩) rfl
  · rintro ⟨apart,few⟩ names offer
    obtain ⟨more,length,yields',rfl⟩ := (offers_iff within drawn).mp offer
    rcases few with short | one | none_yielded
    · obtain rfl : more = [] := List.length_eq_zero_iff.mp (by omega)
      rwa [List.append_nil]
    · refine nodup_of_few ?_
      rw [List.length_append,List.length_take,length,Array.length_toList]
      omega
    · obtain rfl := List.eq_nil_iff_forall_not_mem.mpr fun name member => none_yielded name (yields' name member)
      rwa [List.append_nil]

theorem freelyDrawn (within : b.max = 0 ∨ n ≤ b.max) (drawn : b.generator = some r)
    (yields : ∀ name ∈ b.instances, r.Yields name) : b.FreelyDrawn r n :=
  ⟨fun _ => offers_iff within drawn,offers_nodup within drawn yields⟩

end Builder

/-! ### All lists of names -/

/-- A rule can come to these names: it is declared, and then a segment refers to `n` of its instances. -/
def BuilderDefinition.Expands (d : BuilderDefinition) (n : ℕ) (names : List String) : Prop :=
  ∃ (σ : Type) (_ : RandomSource σ) (name source : String) (b : Builder) (c c' : Compiler) (l : Level) (g h h' : σ),
    (Builder.ofDefinition name d : ExceptT DefinitionError (Draw σ) Builder).run g = .ok (.ok b,h) ∧
      Compile.Yields (Compiler.builderLevel source b n) c h l c' h' ∧ l.names = names

/-- What a rule can come to for some instances: all lists of as many texts of its expression. -/
theorem BuilderDefinition.expands_iff {d : BuilderDefinition} {r : Regex} (draws : d.Draws r)
    (some_text : 0 < d.count → ∃ text, r.Yields text) {n : ℕ} (within : d.max = 0 ∨ n ≤ d.max) {names : List String} :
    d.Expands n names ↔ names.length = n ∧ ∀ name ∈ names, r.Yields name := by
  constructor
  · rintro ⟨σ,_,name,source,b,c,c',l,g,h,h',made,run,rfl⟩
    rw [Builder.ofDefinition_drawn draws] at made
    obtain ⟨first,drawn,made⟩ := Draw.map_ok made
    cases made
    obtain ⟨more,length,yields',names⟩ := (Builder.offers_iff within rfl).mp ⟨σ,_,source,c,c',l,h,h',run,rfl⟩
    have yields := (Builder.times_yields drawn).2
    rw [names]
    constructor
    · rw [List.length_append,List.length_take,length,Array.length_toList]
      omega
    · intro name member
      rcases List.mem_append.mp member with here | there
      · exact yields name (List.mem_of_mem_take here)
      · exact yields' name there
  · rintro ⟨length,yields⟩
    -- As many names are drawn as the rule counts, also where fewer are asked for; those beyond may be any text.
    obtain ⟨pad,long,texts⟩ : ∃ pad : List String, pad.length = d.count - n ∧ ∀ text ∈ pad, r.Yields text := by
      rcases Nat.eq_zero_or_pos d.count with none_counted | counted
      · exact ⟨[],by simp [none_counted],nofun⟩
      · obtain ⟨text,yielded⟩ := some_text counted
        exact ⟨List.replicate (d.count - n) text,List.length_replicate,
          fun _ member => List.eq_of_mem_replicate member ▸ yielded⟩
    have inside : ∀ name ∈ (names ++ pad).take d.count, r.Yields name := fun name member =>
      (List.mem_append.mp (List.mem_of_mem_take member)).elim (yields name) (texts name)
    have counted : ((names ++ pad).take d.count).length = d.count := by
      rw [List.length_take,List.length_append]
      omega
    obtain ⟨us,reads⟩ := Builder.reads_times_yields inside
    rw [counted] at reads
    let b : Builder := ⟨"",d.count,d.max,some r,((names ++ pad).take d.count).toArray⟩
    have missing : (names.drop d.count).length = n - b.instances.size := by
      rw [List.length_drop,List.size_toArray,counted,length]
    obtain ⟨vs,later⟩ := Builder.reads_reference (b := b) within rfl missing fun name member =>
      yields name (List.mem_of_mem_drop member)
    have made := Builder.ofDefinition_drawn draws "" (us ++ₛ (vs ++ₛ Stream'.const 0))
    rw [Draw.map_apply,reads] at made
    obtain ⟨l,c',run,listed⟩ := later (Stream'.const 0) "" ⟨⟨[]⟩,none⟩
    refine ⟨Draw.Tape,inferInstance,"","",_,_,c',l,_,_,_,made,run,?_⟩
    have kept : ((names ++ pad).take d.count).take n = names.take d.count := by
      rw [List.take_take,List.take_append_of_le_length (by omega),List.take_eq_take_iff]
      omega
    rw [listed]
    exact (congrArg (· ++ names.drop d.count) kept).trans (List.take_append_drop _ _)

/-- They are distinct whatever is drawn, only if there is at most one of them, or no text to draw. -/
theorem BuilderDefinition.expands_nodup {d : BuilderDefinition} {r : Regex} (draws : d.Draws r)
    (some_text : 0 < d.count → ∃ text, r.Yields text) {n : ℕ} (within : d.max = 0 ∨ n ≤ d.max) :
    (∀ names, d.Expands n names → names.Nodup) ↔ n ≤ 1 ∨ ∀ text, ¬r.Yields text := by
  simp only [expands_iff draws some_text within]
  constructor
  · intro apart
    by_contra! more
    obtain ⟨two,text,yielded⟩ := more
    have same := apart (List.replicate n text)
      ⟨List.length_replicate,fun _ member => List.eq_of_mem_replicate member ▸ yielded⟩
    have := List.nodup_replicate.mp same
    omega
  · rintro (few | none_yielded) names ⟨length,yields⟩
    · exact nodup_of_few (length ▸ few)
    · obtain rfl := List.eq_nil_iff_forall_not_mem.mpr fun name member => none_yielded name (yields name member)
      exact List.nodup_nil

end Pattern

end Keyload
