import Keyload.Proofs.Pattern.Recompiled

/-!
Lengths that override values. A compiler with lengths draws what one without them draws, accepts and refuses the same
lines, and leaves the same rules; the patterns it makes have other values at their last level, and nothing else differs.
-/
namespace Keyload.Pattern

variable {σ : Type} {spec : ValueSpec}

/-! ### Steps with lengths and without -/

/-- The level with digits for its values, if it has any. -/
def Level.overridden (spec : ValueSpec) (l : Level) : Level := { l with value := l.value.map fun _ => .digits spec }

/-- The pattern with digits for its values. -/
def overridden (spec : ValueSpec) (p : Pattern) : Pattern := { p with levels := p.levels.map (Level.overridden spec) }

namespace Compile

variable {α β γ δ : Type}

/-- From the same rules and the same source, `y` with lengths ends as `x` does without them, but for what it yields. -/
inductive Alike (spec : ValueSpec) (change : α → β) (x : Compile σ α) (y : Compile σ β) (builders : BuilderTable)
    (g : σ) : Prop
  | stops {f : Fault} (plain : x.run ⟨builders,none⟩ g = .error f) (digits : y.run ⟨builders,some spec⟩ g = .error f)
  | ends (r : Except DefinitionError α) (builders' : BuilderTable) (g' : σ)
      (plain : x.run ⟨builders,none⟩ g = .ok ((r,⟨builders',none⟩),g'))
      (digits : y.run ⟨builders,some spec⟩ g = .ok ((r.map change,⟨builders',some spec⟩),g'))

variable {change : α → β} {change' : γ → δ} {x : Compile σ α} {y : Compile σ β} {builders : BuilderTable} {g : σ}

theorem alike_pure {a : α} {b : β} (changed : b = change a) : Alike spec change (pure a) (pure b) builders g := by
  subst changed
  exact .ends _ _ _ rfl rfl

theorem alike_throw (e : DefinitionError) :
    Alike spec change (throw e : Compile σ α) (throw e : Compile σ β) builders g :=
  .ends _ _ _ rfl rfl

theorem Alike.bind {k : α → Compile σ γ} {k' : β → Compile σ δ} (first : Alike spec change x y builders g)
    (then_ : ∀ a builders' g', Alike spec change' (k a) (k' (change a)) builders' g') :
    Alike spec change' (x >>= k) (y >>= k') builders g := by
  cases first with
  | stops plain digits => exact .stops (by rw [run_bind,plain]; rfl) (by rw [run_bind,digits]; rfl)
  | ends r builders' g' plain digits =>
    cases r with
    | error e => exact .ends _ _ _ (by rw [run_bind,plain]; rfl) (by rw [run_bind,digits]; rfl)
    | ok a =>
      have before : (x >>= k).run ⟨builders,none⟩ g = (k a).run ⟨builders',none⟩ g' := by rw [run_bind,plain]; rfl
      have before' : (y >>= k').run ⟨builders,some spec⟩ g = (k' (change a)).run ⟨builders',some spec⟩ g' := by
        rw [run_bind,digits]
        rfl
      cases then_ a builders' g' with
      | stops plain digits => exact .stops (before.trans plain) (before'.trans digits)
      | ends r b h plain digits => exact .ends r b h (before.trans plain) (before'.trans digits)

/-- What is read of a compiler is its rules and its lengths. -/
theorem alike_get {k : Compiler → Compile σ α} {k' : Compiler → Compile σ β}
    (then_ : Alike spec change (k ⟨builders,none⟩) (k' ⟨builders,some spec⟩) builders g) :
    Alike spec change (get >>= k) (get >>= k') builders g := by
  cases then_ with
  | stops plain digits => exact .stops plain digits
  | ends r b h plain digits => exact .ends r b h plain digits

theorem alike_ofOutcome (o : Outcome DefinitionError α) :
    Alike spec id (Compiler.ofOutcome o : Compile σ α) (Compiler.ofOutcome o) builders g := by
  have run (c : Compiler) : (Compiler.ofOutcome o : Compile σ α).run c g = o.run.map fun r => ((r,c),g) := rfl
  cases ended : o.run with
  | error f => exact .stops (by rw [run,ended]; rfl) (by rw [run,ended]; rfl)
  | ok r =>
    refine .ends r builders g (by rw [run,ended]; rfl) ?_
    rw [run,ended]
    cases r <;> rfl

end Compile

/-! ### Compiling -/

namespace Compiler
open Compile

variable {builders : BuilderTable} {g : σ}

private theorem takeCount_alike (text : List Char) :
    Alike spec id (takeCount text : Compile σ _) (takeCount text) builders g := by
  unfold takeCount
  cases splitCount text with
  | ok r => exact alike_pure rfl
  | error e => exact alike_throw e

/-- Values of digits take the place of an expression, which is read all the same. -/
private theorem valueSource_alike (text : String) :
    Alike spec (fun _ => ValueSource.digits spec) (valueSource text : Compile σ _) (valueSource text) builders g :=
  (alike_ofOutcome (Regex.compile text)).bind fun _ _ _ => alike_get (alike_pure rfl)

variable [RandomSource σ]

private theorem builderLevel_alike (source : String) (b : Builder) (count : Nat) :
    Alike spec id (builderLevel source b count : Compile σ _) (builderLevel source b count) builders g := by
  unfold builderLevel
  cases b.checkCount count with
  | error e => exact alike_throw e
  | ok _ =>
    refine Alike.bind (?_ : Alike spec id _ _ builders g) fun b' builders' g' => ?_
    · cases grown : b.grow count g with
      | error f =>
        exact .stops (show (b.grow count g).bind _ = _ by rw [grown]; rfl)
          (show (b.grow count g).bind _ = _ by rw [grown]; rfl)
      | ok r =>
        exact .ends (.ok r.1) (builders.insert r.1) r.2 (show (b.grow count g).bind _ = _ by rw [grown]; rfl)
          (show (b.grow count g).bind _ = _ by rw [grown]; rfl)
    · simp only [id]
      cases b'.level source count with
      | ok l => exact alike_pure rfl
      | error f => exact alike_ofOutcome _

private theorem level_alike (pattern : String) (path : List Char) :
    Alike spec id (level pattern path : Compile σ _) (level pattern path) builders g := by
  unfold level
  split
  · refine (takeCount_alike _).bind fun (name,count) builders' g' => alike_get ?_
    have found (spec : Option ValueSpec) :
        Compiler.builder? ⟨builders',spec⟩ (String.ofList name) = builders'.find? (String.ofList name) := rfl
    simp only [found]
    cases builders'.find? (String.ofList name) with
    | none => exact alike_throw _
    | some b => exact builderLevel_alike _ b _
  · exact (alike_ofOutcome _).bind fun r _ _ => alike_pure rfl
  · exact (takeCount_alike _).bind fun (format,count) _ _ => (alike_ofOutcome _).bind fun f _ _ => alike_pure rfl
  · exact alike_pure rfl

private theorem levels_alike (pattern : String) (ended : Bool) (segments : List (List Char)) :
    Alike spec (List.map (Level.overridden spec)) (levels pattern ended segments : Compile σ _)
      (levels pattern ended segments) builders g := by
  induction segments generalizing ended builders g with
  | nil => exact alike_pure rfl
  | cons segment rest ih =>
    -- Whether there are values decides what may follow, and digits are values where an expression is one.
    have tail (path : List Char) {v v' : Option ValueSource} (changed : v' = v.map fun _ => .digits spec)
        (builders' : BuilderTable) (g' : σ) : Alike spec (List.map (Level.overridden spec))
          (do
            let l ← level pattern path
            let ls ← levels pattern v.isSome rest
            pure ({ l with value := v } :: ls) : Compile σ (List Level))
          (do
            let l ← level pattern path
            let ls ← levels pattern v'.isSome rest
            pure ({ l with value := v' } :: ls)) builders' g' := by
      subst changed
      rw [Option.isSome_map]
      exact (level_alike pattern path).bind fun l _ _ => (ih v.isSome).bind fun ls _ _ => alike_pure rfl
    rw [levels]
    cases ended with
    | true =>
      simp only [if_true]
      exact .ends (.error (.leafNotLast pattern)) _ _ rfl rfl
    | false =>
      simp only [Bool.false_eq_true,if_false,cut_segment]
      by_cases named : ';' ∈ segment
      · simp only [if_pos named,map_eq_pure_bind,bind_assoc,pure_bind]
        exact (valueSource_alike _).bind fun v builders' g' => tail _ rfl builders' g'
      · simp only [if_neg named,pure_bind]
        exact tail _ rfl builders g

/-- The same lines are accepted, with other values. -/
theorem compile_alike (line : String) :
    Alike spec (overridden spec) (compile line : Compile σ _) (compile line) builders g := by
  refine (levels_alike line false (segments line)).bind fun ls builders' g' => ?_
  have leaf (l : Level) : (l.overridden spec).isLeaf = l.isLeaf := Option.isSome_map
  rw [List.getLast?_map]
  cases ls.getLast? with
  | none => exact alike_throw _
  | some l =>
    simp only [Option.map_some,leaf]
    cases l.isLeaf with
    | true => exact alike_pure rfl
    | false => exact alike_throw _

/-- Compile lines one after another, whatever comes of each. -/
def compileEach : List String → Compiler → Draw σ (List (Except DefinitionError Pattern) × Compiler)
  | [],c => pure ([],c)
  | line :: rest,c => do
    let (r,c) ← (compile line).run c
    let (rs,c) ← compileEach rest c
    pure (r :: rs,c)

/-- Compile lines with a compiler that is made for them. -/
def compileFrom (rules : List (String × BuilderDefinition)) (spec : Option ValueSpec) (lines : List String) :
    ExceptT DefinitionError (Draw σ) (List (Except DefinitionError Pattern) × Compiler) := do
  let c ← new rules spec
  (compileEach lines c : Draw σ _)

end Compiler

/-! ### Lines with lengths and without -/

/-- The expression that a line names for its values stands after the first `;` of its last segment. -/
def NamesValues (line : String) (r : Regex) : Prop :=
  ∃ before segment, parts line = before ++ [segment] ∧ ';' ∈ segment ∧ (Regex.compile (valueOf segment)).run = .ok (.ok r)

/-- What comes of a line without lengths, and with them: one error, or patterns that differ in the values of their last
level, texts of the expression in one and digits in the other. -/
inductive Overridden (spec : ValueSpec) (line : String) :
    Except DefinitionError Pattern → Except DefinitionError Pattern → Prop
  | refused (e : DefinitionError) : Overridden spec line (.error e) (.error e)
  | accepted {above : List Level} {leaf : Level} {r : Regex} (bare : ∀ l ∈ above, l.value = none)
      (names : NamesValues line r) :
      Overridden spec line (.ok ⟨line,above ++ [{ leaf with value := some (.regex r) }]⟩)
        (.ok ⟨line,above ++ [{ leaf with value := some (.digits spec) }]⟩)

theorem overridden_of_bare {above : List Level} (bare : ∀ l ∈ above, l.value = none) :
    above.map (Level.overridden spec) = above := by
  have unchanged : ∀ l ∈ above, l.overridden spec = id l := by
    intro l member
    unfold Level.overridden
    rw [bare l member,Option.map_none,← bare l member]
    rfl
  rw [List.map_congr_left unchanged,List.map_id]

private theorem forall₂_concat {α β : Type} {R : α → β → Prop} {as : List α} {bs : List β} {b : β}
    (all : List.Forall₂ R as (bs ++ [b])) : ∃ as' a, as = as' ++ [a] ∧ List.Forall₂ R as' bs ∧ R a b := by
  obtain ⟨a,_,last,none_later,split⟩ := List.forall₂_cons_right_iff.mp (List.forall₂_drop_append _ _ _ all)
  cases none_later
  exact ⟨_,a,by rw [← split,List.take_append_drop],List.forall₂_take_append _ _ _ all,last⟩

private theorem forall₂_mem {α β : Type} {R : α → β → Prop} {as : List α} {bs : List β} (all : List.Forall₂ R as bs)
    {b : β} (member : b ∈ bs) : ∃ a ∈ as, R a b := by
  induction all with
  | nil => cases member
  | cons first _ ih =>
    rcases List.mem_cons.mp member with rfl | later
    · exact ⟨_,List.mem_cons_self,first⟩
    · obtain ⟨a,there,related⟩ := ih later
      exact ⟨a,List.mem_cons_of_mem _ there,related⟩

variable [RandomSource σ] {builders : BuilderTable} {g : σ}

/-- The last level of an accepted line has the values that the line names, and no other has any. -/
theorem accepted_overridden {line : String} {builders' : BuilderTable} {g' : σ} {p : Pattern}
    (run : Compile.Yields (Compiler.compile line) ⟨builders,none⟩ g p ⟨builders',none⟩ g') :
    Overridden spec line (.ok p) (.ok (overridden spec p)) := by
  obtain ⟨-,accepted,source,all⟩ := (Compiler.compile_ends line ⟨builders,none⟩ g).given run
  obtain ⟨source',levels⟩ := p
  obtain rfl : source' = line := source
  rcases List.eq_nil_or_concat levels with rfl | ⟨above,leaf,rfl⟩
  · exact absurd (List.forall₂_nil_right_iff.mp all) accepted.some_segment
  · rw [List.concat_eq_append] at all ⊢
    obtain ⟨before,segment,whole,earlier,reads⟩ := forall₂_concat all
    have bare : ∀ l ∈ above, l.value = none := by
      intro l member
      obtain ⟨s,there,read⟩ := forall₂_mem earlier member
      obtain ⟨left,right,split⟩ := List.append_of_mem there
      have unnamed : ';' ∉ s := fun named => by
        have none_after := (accepted.last left s (right ++ [segment]) (by rw [whole,split]; simp)).mp named
        simp at none_after
      exact Option.not_isSome_iff_eq_none.mp fun valued => unnamed (read.leaf.mp valued)
    have value := reads.value
    generalize valued : leaf.value = v at value
    cases value with
    | unnamed unnamed => exact absurd ((accepted.last _ _ _ whole).mpr rfl) unnamed
    | @named r named valid =>
      have same : leaf = { leaf with value := some (.regex r) } := by
        change leaf.value = some (.regex r) at valued
        rw [← valued]
      have changed : overridden spec ⟨source',above ++ [leaf]⟩ =
          ⟨source',above ++ [{ leaf with value := some (.digits spec) }]⟩ := by
        unfold overridden
        rw [List.map_append,overridden_of_bare bare,List.map_singleton,Level.overridden,valued]
        rfl
      rw [changed,same]
      exact .accepted bare ⟨_,segment,whole,named,valid⟩

/-- What comes of lines, line by line. -/
inductive AllOverridden (spec : ValueSpec) :
    List String → List (Except DefinitionError Pattern) → List (Except DefinitionError Pattern) → Prop
  | nil : AllOverridden spec [] [] []
  | cons {line : String} {r r' : Except DefinitionError Pattern} {lines : List String}
      {rs rs' : List (Except DefinitionError Pattern)} (first : Overridden spec line r r')
      (later : AllOverridden spec lines rs rs') : AllOverridden spec (line :: lines) (r :: rs) (r' :: rs')

/-- How two runs end that differ in the lengths: both stop, both refuse the rules, or both end with the same rules and
the same source, and what comes of each line differs in its values. -/
inductive DiffersInValues (spec : ValueSpec) (lines : List String) :
    Except Fault (Except DefinitionError (List (Except DefinitionError Pattern) × Compiler) × σ) →
      Except Fault (Except DefinitionError (List (Except DefinitionError Pattern) × Compiler) × σ) → Prop
  | stopped (f : Fault) : DiffersInValues spec lines (.error f) (.error f)
  | refused (e : DefinitionError) (g : σ) : DiffersInValues spec lines (.ok (.error e,g)) (.ok (.error e,g))
  | ended {rs rs' : List (Except DefinitionError Pattern)} (each : AllOverridden spec lines rs rs')
      (builders : BuilderTable) (g : σ) :
      DiffersInValues spec lines (.ok (.ok (rs,⟨builders,none⟩),g)) (.ok (.ok (rs',⟨builders,some spec⟩),g))

/-- One line, whatever was compiled before it. -/
theorem compile_overridden (spec : ValueSpec) (line : String) (builders : BuilderTable) (g : σ) :
    (∃ f, (Compiler.compile line).run ⟨builders,none⟩ g = .error f ∧
      (Compiler.compile line).run ⟨builders,some spec⟩ g = .error f) ∨
    ∃ r r' builders' g', (Compiler.compile line).run ⟨builders,none⟩ g = .ok ((r,⟨builders',none⟩),g') ∧
      (Compiler.compile line).run ⟨builders,some spec⟩ g = .ok ((r',⟨builders',some spec⟩),g') ∧
      Overridden spec line r r' := by
  have alike : Compile.Alike spec (overridden spec) _ _ builders g := Compiler.compile_alike line
  cases alike with
  | stops plain digits => exact .inl ⟨_,plain,digits⟩
  | ends r _ _ plain digits =>
    refine .inr ⟨_,_,_,_,plain,digits,?_⟩
    cases r with
    | error e => exact .refused e
    | ok p => exact accepted_overridden plain

/-- Lines one after another: what comes of one is the same, so the next one finds the same rules and the same source. -/
theorem compileEach_overridden (spec : ValueSpec) (lines : List String) (builders : BuilderTable) (g : σ) :
    (∃ f, Compiler.compileEach lines ⟨builders,none⟩ g = .error f ∧
      Compiler.compileEach lines ⟨builders,some spec⟩ g = .error f) ∨
    ∃ rs rs' builders' g', Compiler.compileEach lines ⟨builders,none⟩ g = .ok ((rs,⟨builders',none⟩),g') ∧
      Compiler.compileEach lines ⟨builders,some spec⟩ g = .ok ((rs',⟨builders',some spec⟩),g') ∧
      AllOverridden spec lines rs rs' := by
  induction lines generalizing builders g with
  | nil => exact .inr ⟨[],[],builders,g,rfl,rfl,.nil⟩
  | cons line rest ih =>
    rcases compile_overridden spec line builders g with ⟨f,plain,digits⟩ | ⟨r,r',b,h,plain,digits,first⟩
    · exact .inl ⟨f,Draw.bind_stopped plain,Draw.bind_stopped digits⟩
    · rcases ih b h with ⟨f,plain',digits'⟩ | ⟨rs,rs',b',h',plain',digits',later⟩
      · exact .inl ⟨f,(Draw.bind_run plain).trans (Draw.bind_stopped plain'),
          (Draw.bind_run digits).trans (Draw.bind_stopped digits')⟩
      · exact .inr ⟨_,_,b',h',(Draw.bind_run plain).trans (Draw.bind_run plain'),
          (Draw.bind_run digits).trans (Draw.bind_run digits'),.cons first later⟩

section
variable {rules : List (String × BuilderDefinition)} {lines : List String} {h : σ}

theorem compileFrom_stopped {lengths : Option ValueSpec} {f : Fault}
    (stopped : (BuilderTable.empty.add rules : ExceptT DefinitionError (Draw σ) _).run g = .error f) :
    (Compiler.compileFrom rules lengths lines).run g = .error f := Draw.bind_halted (Draw.bind_halted stopped)

theorem compileFrom_refused {lengths : Option ValueSpec} {e : DefinitionError}
    (refused : (BuilderTable.empty.add rules : ExceptT DefinitionError (Draw σ) _).run g = .ok (.error e,h)) :
    (Compiler.compileFrom rules lengths lines).run g = .ok (.error e,h) := Draw.bind_refused (Draw.bind_refused refused)

theorem compileFrom_made {lengths : Option ValueSpec} {t : BuilderTable}
    (added : (BuilderTable.empty.add rules : ExceptT DefinitionError (Draw σ) _).run g = .ok (.ok t,h)) :
    (Compiler.compileFrom rules lengths lines).run g =
      (Compiler.compileEach lines ⟨t,lengths⟩ h).map fun r => (.ok r.1,r.2) := by
  have made : (Compiler.new rules lengths : ExceptT DefinitionError (Draw σ) _).run g = .ok (.ok ⟨t,lengths⟩,h) :=
    Draw.bind_value added
  exact (Draw.bind_value made).trans (Draw.map_apply _ _ h)

end

/-- Lengths change values and nothing else: whatever rules are declared and whatever lines are compiled, one after
another, what is drawn, the rules, the errors and the patterns are the same but for the values of last levels; and a
line whose values are no expression is refused, whatever the compiler. -/
theorem lengths_change_only_values (rules : List (String × BuilderDefinition)) (spec : ValueSpec) (lines : List String)
    (g : σ) :
    DiffersInValues spec lines ((Compiler.compileFrom rules none lines).run g)
      ((Compiler.compileFrom rules (some spec) lines).run g) ∧
    ∀ line, ∀ segment ∈ parts line, ';' ∈ segment → Invalid (valueOf segment) →
      ∀ c p c' g', ¬Compile.Yields (Compiler.compile line) c g p c' g' := by
  constructor
  · cases added : (BuilderTable.empty.add rules : ExceptT DefinitionError (Draw σ) BuilderTable).run g with
    | error f =>
      rw [compileFrom_stopped added,compileFrom_stopped added]
      exact .stopped f
    | ok ended =>
      obtain ⟨r,h⟩ := ended
      cases r with
      | error e =>
        rw [compileFrom_refused added,compileFrom_refused added]
        exact .refused e h
      | ok t =>
        rw [compileFrom_made added,compileFrom_made added]
        rcases compileEach_overridden spec lines t h with ⟨f,plain,digits⟩ | ⟨rs,rs',b,g',plain,digits,each⟩
        · rw [plain,digits]
          exact .stopped f
        · rw [plain,digits]
          exact .ended each b g'
  · intro line segment member named invalid c p c' g' run
    obtain ⟨-,accepted,-⟩ := (Compiler.compile_ends line c g).given run
    exact valid_not_invalid (accepted.values segment member named) invalid

/-- The first of these lines draws a name that the last one finds there; the second has no expression, the third no
rule. -/
def fourLines : List String := ["/:r[2]/![0-9];[0-9]{4}","/:R/c;[","/:s;x","/:r/%n-%d[2];z;y"]

/-- Four lines, two of them refused, with lengths and without. -/
theorem lengths_change_only_values_drawn : ∃ rs rs' builders g',
    (Compiler.compileFrom pairs none fourLines).run (Xoshiro.ofStream 1 0) = .ok (.ok (rs,⟨builders,none⟩),g') ∧
      (Compiler.compileFrom pairs (some ⟨3,5,by decide⟩) fourLines).run (Xoshiro.ofStream 1 0) =
        .ok (.ok (rs',⟨builders,some ⟨3,5,by decide⟩⟩),g') ∧
      AllOverridden ⟨3,5,by decide⟩ fourLines rs rs' ∧
      rs.map Except.isOk = [true,false,false,true] ∧ (builders.find? "r").map (·.instances.size) = some 2 ∧
      ∀ c p c' g', ¬Compile.Yields (Compiler.compile "/:R/c;[") c (Xoshiro.ofStream 1 0) p c' g' := by
  have ends : ((Compiler.compileFrom pairs none fourLines).run (Xoshiro.ofStream 1 0)).toOption.any (fun r =>
      r.1.toOption.any fun (rs,c) => rs.map Except.isOk == [true,false,false,true] &&
        (c.builders.find? "r").map (·.instances.size) == some 2) = true := by
    decide +kernel
  have invalid : Invalid (valueOf "c;[".toList) := by
    have refused : (Regex.compile (valueOf "c;[".toList)).run.toOption.any (fun r => !r.isOk) = true := by decide +kernel
    obtain ⟨r,run,no⟩ := Except.ok_of_any refused
    cases r with
    | error e => exact ⟨e,run⟩
    | ok r => cases no
  obtain ⟨agree,refuses⟩ := lengths_change_only_values pairs ⟨3,5,by decide⟩ fourLines (Xoshiro.ofStream 1 0)
  generalize (Compiler.compileFrom pairs none fourLines).run (Xoshiro.ofStream 1 0) = x at agree ends
  generalize (Compiler.compileFrom pairs (some ⟨3,5,by decide⟩) fourLines).run (Xoshiro.ofStream 1 0) = y at agree
  cases agree with
  | stopped f => cases ends
  | refused e g => cases ends
  | @ended rs rs' each builders g =>
    obtain ⟨accepted,drawn⟩ := Bool.and_eq_true_iff.mp ends
    exact ⟨rs,rs',builders,g,rfl,rfl,each,beq_iff_eq.mp accepted,beq_iff_eq.mp drawn,
      refuses _ _ (by decide) (by decide) invalid⟩

end Keyload.Pattern
