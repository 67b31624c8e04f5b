import Keyload.Proofs.Pattern.Compiled
import Keyload.Proofs.Pattern.Growth

/-!
How compiling ends. From any compiler, every step stops with a fault, refuses, or yields levels; which of them, the
grammar says, but for the faults of expressions and for names that are drawn. What is yielded is read off the rules as
they are afterwards, and since rules only grow, it can be read off them at any later time.
-/
namespace Keyload.Pattern

variable {σ : Type} {α β : Type}

/-! ### Ends of a step -/

namespace Compile

/-- How a step ends: it stops, it refuses but leaves what was drawn, or it yields. -/
inductive Ends (x : Compile σ α) (c : Compiler) (g : σ) (Stops : Fault → Prop)
    (Refuses : DefinitionError → Compiler → Prop) (Gives : α → Compiler → Prop) : Prop
  | stops {f : Fault} (run : x.run c g = .error f) (why : Stops f)
  | refuses {e : DefinitionError} {c' : Compiler} {g' : σ} (run : x.run c g = .ok ((.error e,c'),g'))
      (why : Refuses e c')
  | gives {a : α} {c' : Compiler} {g' : σ} (run : Yields x c g a c' g') (what : Gives a c')

variable {x : Compile σ α} {f : α → Compile σ β} {c : Compiler} {g : σ} {Stops Stops' : Fault → Prop}
  {Refuses Refuses' : DefinitionError → Compiler → Prop} {Gives Gives' : α → Compiler → Prop}
  {Then : β → Compiler → Prop}

theorem run_bind (x : Compile σ α) (f : α → Compile σ β) (c : Compiler) (g : σ) :
    (x >>= f).run c g = (x.run c g).bind fun r => ExceptT.bindCont f r.1.1 r.1.2 r.2 := rfl

theorem Ends.bind (Gives : α → Compiler → Prop) (first : Ends x c g Stops Refuses Gives)
    (then_ : ∀ a c' g', Gives a c' → Ends (f a) c' g' Stops Refuses Then) : Ends (x >>= f) c g Stops Refuses Then := by
  cases first with
  | stops run why => exact .stops (by rw [run_bind,run]; rfl) why
  | refuses run why => exact .refuses (by rw [run_bind,run]; rfl) why
  | @gives a c' g' run what =>
    have later : (x >>= f).run c g = (f a).run c' g' := by
      rw [run_bind,show x.run c g = _ from run]
      rfl
    cases then_ a c' g' what with
    | stops run why => exact .stops (later.trans run) why
    | refuses run why => exact .refuses (later.trans run) why
    | gives run what => exact .gives (later.trans run) what

theorem Ends.mono (ends : Ends x c g Stops Refuses Gives) (stops : ∀ f, Stops f → Stops' f)
    (refuses : ∀ e c', Refuses e c' → Refuses' e c') (gives : ∀ a c', Gives a c' → Gives' a c') :
    Ends x c g Stops' Refuses' Gives' := by
  cases ends with
  | stops run why => exact .stops run (stops _ why)
  | refuses run why => exact .refuses run (refuses _ _ why)
  | gives run what => exact .gives run (gives _ _ what)

theorem ends_pure {a : α} (what : Gives a c) : Ends (pure a) c g Stops Refuses Gives := .gives rfl what

theorem ends_get {f : Compiler → Compile σ β} (ends : Ends (f c) c g Stops Refuses Then) :
    Ends (get >>= f) c g Stops Refuses Then := by
  cases ends with
  | stops run why => exact .stops run why
  | refuses run why => exact .refuses run why
  | gives run what => exact .gives run what

theorem ends_throw {e : DefinitionError} (why : Refuses e c) : Ends (throw e : Compile σ α) c g Stops Refuses Gives :=
  .refuses rfl why

theorem ends_ofOutcome (x : Outcome DefinitionError α) :
    Ends (Compiler.ofOutcome x) c g (fun f => x.run = .error f) (fun e c' => x.run = .ok (.error e) ∧ c' = c)
      (fun a c' => x.run = .ok (.ok a) ∧ c' = c) := by
  have run : (Compiler.ofOutcome x).run c g = x.run.map fun r => ((r,c),g) := rfl
  cases ended : x.run with
  | error f => exact .stops (by rw [run,ended]; rfl) rfl
  | ok r =>
    cases r with
    | error e => exact .refuses (show _ = Except.ok ((_,c),g) by rw [run,ended]; rfl) ⟨rfl,rfl⟩
    | ok a => exact .gives (show _ = Except.ok ((Except.ok a,c),g) by rw [run,ended]; rfl) ⟨rfl,rfl⟩

/-- What a run that is known yields. -/
theorem Ends.given (ends : Ends x c g Stops Refuses Gives) {a : α} {c' : Compiler} {g' : σ}
    (run : Yields x c g a c' g') : Gives a c' := by
  cases ends with
  | stops run' => cases run'.symm.trans run
  | refuses run' => cases run'.symm.trans run
  | gives run' what =>
    cases run'.symm.trans run
    exact what

end Compile

/-! ### Levels as they are read -/

/-- The level that a path stands for, with the rules as they are. -/
inductive Reads (c : Compiler) : List Char → Level → Prop
  | fixed {path : List Char} (unmarked : path.head? ≠ some ':' ∧ path.head? ≠ some '!' ∧ path.head? ≠ some '%') :
      Reads c path ⟨String.ofList path,.names #[String.ofList path],1,1,none⟩
  | drawn {text : List Char} {r : Regex} (valid : (Regex.compile (String.ofList text)).run = .ok (.ok r)) :
      Reads c ('!' :: text) ⟨String.ofList ('!' :: text),.random r,1,1,none⟩
  | rule {text name : List Char} {count : Option Nat} {b : Builder} (counted : Counted text name count)
      (known : c.builder? (String.ofList name) = some b) (allowed : b.terms.Allows (count.getD b.count))
      (enough : count.getD b.count ≤ b.instances.size) :
      Reads c (':' :: text) ⟨String.ofList (':' :: text),.names (b.instances.extract 0 (count.getD b.count)),
        count.getD b.count,b.max,none⟩
  | numbered {text format : List Char} {count : Option Nat} {f : Format} (counted : Counted text format count)
      (valid : (Format.read (String.ofList format)).run = .ok (.ok f)) :
      Reads c ('%' :: text) ⟨String.ofList ('%' :: text),.format f,count.getD 1,0,none⟩

/-- The values that a segment names, if it does; lengths override its expression. -/
inductive ReadsValue (spec : Option ValueSpec) (segment : List Char) : Option ValueSource → Prop
  | unnamed (unnamed : ';' ∉ segment) : ReadsValue spec segment none
  | named {r : Regex} (named : ';' ∈ segment) (valid : (Regex.compile (valueOf segment)).run = .ok (.ok r)) :
      ReadsValue spec segment (some ((spec.map ValueSource.digits).getD (.regex r)))

/-- The level that a segment stands for. -/
structure ReadsSegment (c : Compiler) (segment : List Char) (l : Level) : Prop where
  path : Reads c (pathOf segment) { l with value := none }
  value : ReadsValue c.valueSpec segment l.value

theorem Reads.later {c c' : Compiler} (grows : c.Grows c') {path : List Char} {l : Level} (reads : Reads c path l) :
    Reads c' path l := by
  cases reads with
  | fixed unmarked => exact .fixed unmarked
  | drawn valid => exact .drawn valid
  | numbered counted valid => exact .numbered counted valid
  | @rule _ _ count b counted known allowed enough =>
    obtain ⟨b',known',grown⟩ := grows.find known
    rw [← grown.extract enough,← grown.count,← grown.max]
    rw [← grown.terms,← grown.count] at allowed
    rw [← grown.count] at enough
    exact .rule counted known' allowed (Nat.le_trans enough grown.size_le)

theorem ReadsSegment.later {c c' : Compiler} (grows : c.Grows c') {segment : List Char} {l : Level}
    (reads : ReadsSegment c segment l) : ReadsSegment c' segment l :=
  ⟨reads.path.later grows,grows.valueSpec ▸ reads.value⟩

theorem Reads.path {c : Compiler} {path : List Char} {l : Level} (reads : Reads c path l) : Path c.terms path := by
  cases reads with
  | fixed unmarked => exact .fixed unmarked
  | drawn valid => exact .drawn ⟨_,valid⟩
  | numbered counted valid => exact .numbered counted valid
  | @rule _ _ _ b counted known allowed =>
    exact .rule counted (t := b.terms) (by unfold Compiler.terms; rw [known]; rfl) allowed

theorem Reads.valueless {c : Compiler} {path : List Char} {l : Level} (reads : Reads c path l) : l.value = none := by
  cases reads <;> rfl

theorem ReadsSegment.leaf {c : Compiler} {segment : List Char} {l : Level} (reads : ReadsSegment c segment l) :
    l.isLeaf = true ↔ ';' ∈ segment := by
  have value := reads.value
  unfold Level.isLeaf
  generalize l.value = v at value
  cases value with
  | unnamed unnamed => simp [unnamed]
  | named named => simp [named]

/-! ### Faults -/

/-- Why compiling a path may stop: an expression cannot be built, a width fits no machine word, or a name that the rule
has to draw cannot be drawn. -/
inductive PathStops (c : Compiler) : List Char → Fault → Prop
  | expression {text : List Char} {f : Fault} (stopped : (Regex.compile (String.ofList text)).run = .error f) :
      PathStops c ('!' :: text) f
  | width {text format : List Char} {count : Option Nat} (counted : Counted text format count)
      (wide : Format.Overlong format) : PathStops c ('%' :: text) .overflow
  | name {text name : List Char} {count : Option Nat} {b : Builder} {r : Regex} {f : Fault}
      (counted : Counted text name count) (known : c.builder? (String.ofList name) = some b)
      (drawn : b.generator = some r) {σ : Type} [RandomSource σ] {g : σ} (stopped : r.draw g = .error f) :
      PathStops c (':' :: text) f

/-- Why compiling a segment may stop: its values or its path. -/
inductive SegmentStops (c : Compiler) (segment : List Char) (f : Fault) : Prop
  | value (named : ';' ∈ segment) (stopped : (Regex.compile (valueOf segment)).run = .error f)
  | path (stopped : PathStops c (pathOf segment) f)

theorem PathStops.earlier {c c' : Compiler} (grows : c.Grows c') {path : List Char} {f : Fault}
    (stops : PathStops c' path f) : PathStops c path f := by
  cases stops with
  | expression stopped => exact .expression stopped
  | width counted wide => exact .width counted wide
  | @name _ name _ b' r _ counted known drawn _ _ _ stopped =>
    have same := grows.rules (String.ofList name)
    rw [known] at same
    cases found : c.builder? (String.ofList name) with
    | none =>
      rw [found] at same
      cases same
    | some b =>
      rw [found] at same
      cases same with
      | some grown => exact .name counted found (grown.generator.symm.trans drawn) stopped

theorem SegmentStops.earlier {c c' : Compiler} (grows : c.Grows c') {segment : List Char} {f : Fault}
    (stops : SegmentStops c' segment f) : SegmentStops c segment f := by
  cases stops with
  | value named stopped => exact .value named stopped
  | path stopped => exact .path (stopped.earlier grows)

/-! ### Ends of compiling -/

namespace Compiler
open Compile

variable [RandomSource σ]

omit [RandomSource σ] in
private theorem takeCount_ends (text : List Char) (c : Compiler) (g : σ) :
    Ends (takeCount text) c g (fun _ => False)
      (fun e c' => ((∀ name count, ¬Counted text name count) ∧ e = .invalidCount (String.ofList text)) ∧ c' = c)
      (fun r c' => Counted text r.1 r.2 ∧ c' = c) := by
  unfold takeCount
  cases split : splitCount text with
  | ok r => exact ends_pure ⟨splitCount_ok.mp split,rfl⟩
  | error e =>
    obtain ⟨rfl,uncounted⟩ := splitCount_error split
    exact ends_throw ⟨⟨uncounted,rfl⟩,rfl⟩

private theorem builderLevel_ends {c : Compiler} {name : String} {b : Builder} (found : c.builder? name = some b)
    (source : String) (n : Nat) (g : σ) :
    Ends (builderLevel source b n) c g (fun f => ∃ r, b.generator = some r ∧ ∃ h : σ, r.draw h = .error f)
      (fun e c' => b.checkCount n = .error e ∧ c' = c)
      (fun l c' => c.Grows c' ∧ ∃ b', c'.builder? name = some b' ∧ b.Grows b' ∧ b.terms.Allows n ∧
        n ≤ b'.instances.size ∧ l = ⟨source,.names (b'.instances.extract 0 n),n,b'.max,none⟩) := by
  unfold builderLevel
  cases checked : b.checkCount n with
  | error e => exact ends_throw ⟨rfl,rfl⟩
  | ok _ =>
    have allowed := Builder.checkCount_allowed checked
    refine Ends.bind (fun b' c' => c' = { c with builders := c.builders.insert b' } ∧ b.Grows b' ∧
      n ≤ b'.instances.size) ?_ fun b' c' g' grown => ?_
    · cases drawn : b.grow n g with
      | error f =>
        exact .stops (show (b.grow n g).bind _ = _ by rw [drawn]; rfl) (Builder.grow_stops drawn)
      | ok r =>
        refine .gives (?_ : _ = Except.ok ((Except.ok r.1,{ c with builders := c.builders.insert r.1 }),r.2))
          ⟨rfl,Builder.grow_grows drawn,Builder.grow_enough drawn allowed⟩
        show (b.grow n g).bind _ = _
        rw [drawn]
        rfl
    · obtain ⟨rfl,grown,enough⟩ := grown
      unfold Builder.level
      rw [if_pos enough]
      refine ends_pure ⟨grows_insert found grown,b',?_,grown,allowed,enough,rfl⟩
      have place : b'.name = Text.lower name := grown.name.trans (builder?_name found)
      show (c.builders.insert b').look (Text.lower name) = some b'
      rw [BuilderTable.look_insert,if_pos place]

omit [RandomSource σ] in
private theorem readFormat_ends (format : String) (c : Compiler) (g : σ) :
    Ends (ofOutcome ((Format.read format).adapt fun flaw => .invalidFormat format flaw.message)) c g
      (fun f => f = .overflow ∧ Format.Overlong format.toList)
      (fun e c' => (∃ flaw, (Format.read format).run = .ok (.error flaw) ∧ e = .invalidFormat format flaw.message) ∧ c' = c)
      (fun f c' => (Format.read format).run = .ok (.ok f) ∧ c' = c) := by
  have run : (ofOutcome ((Format.read format).adapt fun flaw => DefinitionError.invalidFormat format flaw.message)).run c g =
      ((Format.read format).run.map (Except.mapError _)).map fun r => ((r,c),g) := rfl
  cases read : (Format.read format).run with
  | error f => exact .stops (by rw [run,read]; rfl) (Format.read_stops read)
  | ok r =>
    cases r with
    | error flaw => exact .refuses (show _ = Except.ok ((_,c),g) by rw [run,read]; rfl) ⟨⟨flaw,rfl,rfl⟩,rfl⟩
    | ok f => exact .gives (show _ = Except.ok ((Except.ok f,c),g) by rw [run,read]; rfl) ⟨rfl,rfl⟩

/-- A path is read, or its error is the one that the grammar gives. -/
theorem level_ends (pattern : String) (path : List Char) (c : Compiler) (g : σ) :
    Ends (level pattern path) c g (PathStops c path) (fun e c' => PathError c.terms pattern path e ∧ c' = c)
      (fun l c' => c.Grows c' ∧ Reads c' path l) := by
  unfold level
  split
  · rename_i text
    refine Ends.bind _ ((takeCount_ends text c g).mono (fun _ no => no.elim) ?_ fun _ _ what => what) ?_
    · rintro e c' ⟨⟨uncounted,rfl⟩,rfl⟩
      exact ⟨.count (.inl rfl) uncounted,rfl⟩
    · rintro ⟨name,count⟩ c' g' ⟨counted,rfl⟩
      refine ends_get ?_
      cases found : c'.builder? (String.ofList name) with
      | none => exact ends_throw ⟨.unknown counted (by unfold Compiler.terms; rw [found]; rfl),rfl⟩
      | some b =>
        have known : c'.terms (String.ofList name) = some b.terms := by
          unfold Compiler.terms
          rw [found]
          rfl
        refine (builderLevel_ends found _ _ g').mono ?_ ?_ ?_
        · rintro f ⟨r,drawn,h,stopped⟩
          exact .name counted found drawn stopped
        · rintro e c₁ ⟨refused,rfl⟩
          refine ⟨?_,rfl⟩
          rcases Builder.checkCount_refused refused with ⟨bounded,many,rfl⟩ | ⟨m,within,listed,many,rfl⟩
          · rw [builder?_name found]
            exact .bound counted known bounded many
          · rw [builder?_name found]
            exact .values counted known within listed many
        · rintro l c₁ ⟨grows,b',found',grown,allowed,enough,rfl⟩
          refine ⟨grows,?_⟩
          have count_same : count.getD b.count = count.getD b'.count := by rw [grown.count]
          rw [count_same] at enough allowed ⊢
          exact .rule counted found' (grown.terms ▸ allowed) enough
  · rename_i text
    refine Ends.bind _ ((ends_ofOutcome _).mono ?_ ?_ fun _ _ what => what) ?_
    · exact fun f stopped => .expression stopped
    · rintro e c' ⟨refused,rfl⟩
      obtain rfl := compile_error refused
      exact ⟨.expression ⟨_,refused⟩,rfl⟩
    · rintro r c' g' ⟨valid,rfl⟩
      exact ends_pure ⟨.refl c',.drawn valid⟩
  · rename_i text
    refine Ends.bind _ ((takeCount_ends text c g).mono (fun _ no => no.elim) ?_ fun _ _ what => what) ?_
    · rintro e c' ⟨⟨uncounted,rfl⟩,rfl⟩
      exact ⟨.count (.inr rfl) uncounted,rfl⟩
    · rintro ⟨format,count⟩ c' g' ⟨counted,rfl⟩
      refine Ends.bind _ ((readFormat_ends (String.ofList format) c' g').mono ?_ ?_ fun _ _ what => what) ?_
      · rintro f ⟨rfl,wide⟩
        exact .width counted (by simpa using wide)
      · rintro e c₁ ⟨⟨flaw,refused,rfl⟩,rfl⟩
        exact ⟨.format counted refused,rfl⟩
      · rintro f c₁ g₁ ⟨valid,rfl⟩
        exact ends_pure ⟨.refl c₁,.numbered counted valid⟩
  · rename_i colon bang percent
    refine ends_pure ⟨.refl c,.fixed ⟨?_,?_,?_⟩⟩
    all_goals
      intro marked
      obtain ⟨rest,rfl⟩ := List.head?_eq_some_iff.mp marked
    · exact colon rest rfl
    · exact bang rest rfl
    · exact percent rest rfl

omit [RandomSource σ] in
private theorem valueSource_ends (text : String) (c : Compiler) (g : σ) :
    Ends (valueSource text) c g (fun f => (Regex.compile text).run = .error f)
      (fun e c' => (Invalid text ∧ e = .invalidRegex text) ∧ c' = c)
      (fun v c' => (∃ r, (Regex.compile text).run = .ok (.ok r) ∧ v = (c.valueSpec.map .digits).getD (.regex r)) ∧ c' = c) := by
  unfold valueSource
  refine Ends.bind _ ((ends_ofOutcome _).mono (fun _ stopped => stopped) ?_ fun _ _ what => what) ?_
  · rintro e c' ⟨refused,rfl⟩
    obtain rfl := compile_error refused
    exact ⟨⟨⟨_,refused⟩,rfl⟩,rfl⟩
  · rintro r c' g' ⟨valid,rfl⟩
    refine ends_get ?_
    cases spec : c'.valueSpec with
    | some spec => exact ends_pure ⟨⟨r,valid,rfl⟩,rfl⟩
    | none => exact ends_pure ⟨⟨r,valid,rfl⟩,rfl⟩

/-- The path of a segment, once its values are read, and the segments after it. -/
private theorem segment_ends {pattern : String} {before : List (List Char)} {segment : List Char}
    {rest : List (List Char)} {c : Compiler} (first : ∀ s ∈ before, ';' ∉ s) {value : Option ValueSource}
    (valid : ';' ∈ segment → Valid (valueOf segment)) (reads : ReadsValue c.valueSpec segment value)
    (later : ∀ (c' : Compiler) (g' : σ), Ends (levels pattern value.isSome rest) c' g'
      (fun f => ∃ segment ∈ rest, SegmentStops c' segment f)
      (fun e c'' => c'.Grows c'' ∧ ∃ mid s after, rest = mid ++ s :: after ∧
        InOrder c'.terms (before ++ [segment]) mid ∧ Offends c'.terms pattern (before ++ [segment] ++ mid) s e)
      (fun ls c'' => c'.Grows c'' ∧ InOrder c'.terms (before ++ [segment]) rest ∧
        List.Forall₂ (ReadsSegment c'') rest ls)) (g : σ) :
    Ends (do
      let l ← level pattern (pathOf segment)
      let ls ← levels pattern value.isSome rest
      pure ({ l with value := value } :: ls)) c g
      (fun f => ∃ s ∈ segment :: rest, SegmentStops c s f)
      (fun e c' => c.Grows c' ∧ ∃ mid s after, segment :: rest = mid ++ s :: after ∧ InOrder c.terms before mid ∧
        Offends c.terms pattern (before ++ mid) s e)
      (fun ls c' => c.Grows c' ∧ InOrder c.terms before (segment :: rest) ∧
        List.Forall₂ (ReadsSegment c') (segment :: rest) ls) := by
  refine Ends.bind (fun l c' => c.Grows c' ∧ Reads c' (pathOf segment) l)
    ((level_ends pattern (pathOf segment) c g).mono ?_ ?_ fun _ _ what => what) ?_
  · exact fun f stopped => ⟨segment,List.mem_cons_self,.path stopped⟩
  · rintro e c' ⟨wrong,rfl⟩
    refine ⟨.refl c',[],segment,rest,rfl,inOrder_nil before,?_⟩
    rw [List.append_nil]
    exact .path first valid wrong
  · rintro l c₁ g₁ ⟨grows,path⟩
    have inPlace : InPlace c.terms before segment := ⟨first,valid,grows.terms ▸ path.path⟩
    refine Ends.bind (fun ls c' => c₁.Grows c' ∧ InOrder c₁.terms (before ++ [segment]) rest ∧
      List.Forall₂ (ReadsSegment c') rest ls) ((later c₁ g₁).mono ?_ ?_ fun _ _ what => what) ?_
    · rintro f ⟨s,member,stopped⟩
      exact ⟨s,List.mem_cons_of_mem segment member,stopped.earlier grows⟩
    · rintro e c₂ ⟨grows',mid,s,after,rfl,inOrder,offends⟩
      rw [grows.terms] at inOrder offends
      refine ⟨grows.trans grows',segment :: mid,s,after,rfl,inOrder_cons inPlace inOrder,?_⟩
      simpa using offends
    · rintro ls c₂ g₂ ⟨grows',inOrder,all⟩
      rw [grows.terms] at inOrder
      refine ends_pure ⟨grows.trans grows',inOrder_cons inPlace inOrder,.cons ⟨?_,?_⟩ all⟩
      · have bare : ({ l with value := none } : Level) = l := by rw [← path.valueless]
        show Reads c₂ (pathOf segment) { l with value := none }
        rw [bare]
        exact path.later grows'
      · rw [grows'.valueSpec,grows.valueSpec]
        exact reads

/-- Segments after some others are read, or the error is that of the first one out of order. -/
theorem levels_ends (pattern : String) {ended : Bool} {before : List (List Char)} (segments : List (List Char))
    (flag : ended = true ↔ ∃ s ∈ before, ';' ∈ s) (c : Compiler) (g : σ) :
    Ends (levels pattern ended segments) c g (fun f => ∃ segment ∈ segments, SegmentStops c segment f)
      (fun e c' => c.Grows c' ∧ ∃ mid s after, segments = mid ++ s :: after ∧ InOrder c.terms before mid ∧
        Offends c.terms pattern (before ++ mid) s e)
      (fun ls c' => c.Grows c' ∧ InOrder c.terms before segments ∧ List.Forall₂ (ReadsSegment c') segments ls) := by
  induction segments generalizing ended before c g with
  | nil => exact ends_pure ⟨.refl c,inOrder_nil before,.nil⟩
  | cons segment rest ih =>
    rw [levels]
    cases ended with
    | true =>
      obtain ⟨s,earlier,named⟩ := flag.mp rfl
      refine Ends.bind (fun _ _ => False) (ends_throw ⟨.refl c,[],segment,rest,rfl,inOrder_nil before,?_⟩)
        fun _ _ _ no => no.elim
      exact .late (by simpa using earlier) named
    | false =>
      have first : ∀ s ∈ before, ';' ∉ s := fun s earlier named => by
        have := flag.mpr ⟨s,earlier,named⟩
        cases this
      simp only [Bool.false_eq_true,if_false,cut_segment]
      by_cases named : ';' ∈ segment
      · simp only [if_pos named,map_eq_pure_bind,bind_assoc,pure_bind]
        refine Ends.bind _ ((valueSource_ends (valueOf segment) c g).mono ?_ ?_ fun _ _ what => what) ?_
        · exact fun f stopped => ⟨segment,List.mem_cons_self,.value named stopped⟩
        · rintro e c' ⟨⟨invalid,rfl⟩,rfl⟩
          refine ⟨.refl c',[],segment,rest,rfl,inOrder_nil before,?_⟩
          rw [List.append_nil]
          exact .value first named invalid
        · rintro v c' g' ⟨⟨r,valid,rfl⟩,rfl⟩
          refine segment_ends first (fun _ => ⟨r,valid⟩) (.named named valid) (fun c₁ g₁ => ih ?_ c₁ g₁) g'
          simp [named]
      · simp only [if_neg named,pure_bind]
        have reads : ReadsValue c.valueSpec segment none := .unnamed named
        rw [show level pattern segment = level pattern (pathOf segment) by rw [pathOf_eq_self named]]
        exact segment_ends first (fun is => absurd is named) reads
          (fun c₁ g₁ => ih (by simpa [named] using first) c₁ g₁) g

private theorem forall₂_last {as : List α} {a : α} {bs : List β} {R : α → β → Prop}
    (all : List.Forall₂ R (as ++ [a]) bs) : ∃ b, bs.getLast? = some b ∧ R a b := by
  induction as generalizing bs with
  | nil =>
    cases all with
    | cons last none_later =>
      cases none_later
      exact ⟨_,rfl,last⟩
  | cons _ as ih =>
    cases all with
    | cons _ later =>
      obtain ⟨b,final,last⟩ := ih later
      exact ⟨b,by rw [List.getLast?_cons,final]; rfl,last⟩

/-- Compiling a line stops at one of its segments, or ends as the grammar says. -/
theorem compile_ends (source : String) (c : Compiler) (g : σ) :
    Ends (compile source) c g (fun f => ∃ segment ∈ parts source, SegmentStops c segment f)
      (fun e c' => c.Grows c' ∧ Rejected c.terms source e)
      (fun p c' => c.Grows c' ∧ Accepted c.terms source ∧ p.source = source ∧
        List.Forall₂ (ReadsSegment c') (parts source) p.levels) := by
  unfold compile
  rw [segments_eq]
  have ends := levels_ends source (parts source) (by simp : false = true ↔ ∃ s ∈ ([] : List (List Char)), ';' ∈ s) c g
  refine Ends.bind _ (ends.mono (fun _ stopped => stopped) ?_ fun _ _ what => what) ?_
  · rintro e c' ⟨grows,mid,s,after,whole,inOrder,offends⟩
    exact ⟨grows,.segment whole (inOrder.faultless source) offends⟩
  · rintro ls c' g' ⟨grows,inOrder,all⟩
    rcases List.eq_nil_or_concat (parts source) with none_there | ⟨before,segment,whole⟩
    · rw [none_there] at all
      cases all
      exact ends_throw ⟨grows,.empty none_there⟩
    · rw [List.concat_eq_append] at whole
      have last := all
      rw [whole] at last
      obtain ⟨l,final,reads⟩ := forall₂_last last
      simp only [final]
      cases leaf : l.isLeaf with
      | true =>
        have named := reads.leaf.mp leaf
        exact ends_pure ⟨grows,inOrder.accepted whole named,rfl,all⟩
      | false =>
        refine ends_throw ⟨grows,.valueless whole (inOrder.faultless source) fun named => ?_⟩
        rw [reads.leaf.mpr named] at leaf
        cases leaf

end Compiler

end Keyload.Pattern
