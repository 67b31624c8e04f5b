import Keyload.Proofs.Pattern.VisitOrder
import Keyload.Random.Xoshiro
import Keyload.Settings.Validation

/-!
Builder rules that pass the check of settings. Where a rule has an expression, the check does not count its values; but
where it has values, the expression is not used. So of the rules that pass, those that have fewer values than they use
are refused when they are declared, and no others as long as texts can be drawn (`declared_iff_enough`). A text can be
drawn wherever repetitions fit a word and there is something to choose from (`Regex.Sampler.Ready`).
-/
namespace Keyload

/-! ### Texts that can always be drawn -/

namespace Regex

variable {σ : Type} [RandomSource σ]

/-- Repetitions that fit a word, however many are drawn. -/
def Repeat.Fits (most : ℕ) : List (ℕ × ℕ) → Prop
  | [] => True
  | (lo,hi) :: rest => most * max lo hi < Word.halfLimit ∧ Fits (most * max lo hi) rest

theorem Repeat.drawFrom_draws {ranges : List (ℕ × ℕ)} {count most : ℕ} (few : count ≤ most) (fits : Fits most ranges)
    (g : σ) : ∃ n g', drawFrom count ranges g = .ok (n,g') := by
  induction ranges generalizing count most g with
  | nil => exact ⟨count,g,rfl⟩
  | cons range rest ih =>
    obtain ⟨i,g',drawn,less⟩ := Uniform.shortIndex_draws (Nat.succ_pos (range.2 - range.1)) g
    have between : (Uniform.between range.1 range.2 : Draw σ ℕ) g = .ok (range.1 + i,g') := Draw.bind_run drawn
    have fewer : count * (range.1 + i) ≤ most * max range.1 range.2 := Nat.mul_le_mul few (by omega)
    have fit : Repeat.fit (count * (range.1 + i)) = .ok (count * (range.1 + i)) := if_pos (by have := fits.1; omega)
    obtain ⟨n,h,rest_drawn⟩ := ih fewer fits.2 g'
    refine ⟨n,h,?_⟩
    rw [drawFrom,Draw.bind_run between,fit]
    exact rest_drawn

namespace Sampler

/-- Whenever texts are drawn, their repetitions fit a word, and there is something to choose from. -/
inductive Ready : Sampler → Prop
  | literal {count : Repeat} {text : String} (fits : Repeat.Fits count.fixed count.ranges) : Ready (.literal count text)
  | chars {count : Repeat} {set : Charset} (fits : Repeat.Fits count.fixed count.ranges) (some_char : 0 < set.size) :
      Ready (.chars count set)
  | seq {count : Repeat} {parts : List Sampler} (fits : Repeat.Fits count.fixed count.ranges)
      (all : ∀ s ∈ parts, Ready s) : Ready (.seq count parts)
  | any {count : Repeat} {branches : List Sampler} (fits : Repeat.Fits count.fixed count.ranges)
      (some_branch : branches ≠ []) (all : ∀ s ∈ branches, Ready s) : Ready (.any count branches)

/-- A step that always comes to a text. -/
def Draws (step : String → Draw σ String) : Prop := ∀ acc g, ∃ text g', step acc g = .ok (text,g')

omit [RandomSource σ] in
theorem repeatDraw_draws {step : String → Draw σ String} (draws : Draws step) (n : ℕ) : Draws (repeatDraw step n) := by
  induction n with
  | zero => exact fun acc g => ⟨acc,g,rfl⟩
  | succ n ih =>
    intro acc g
    obtain ⟨text,g',first⟩ := draws acc g
    obtain ⟨text',h,later⟩ := ih text g'
    exact ⟨text',h,(Draw.bind_run first).trans later⟩

theorem repeated_draws {count : Repeat} (fits : Repeat.Fits count.fixed count.ranges) {step : String → Draw σ String}
    (draws : Draws step) : Draws fun acc => count.draw >>= fun n => repeatDraw step n acc := by
  intro acc g
  obtain ⟨n,g',counted⟩ := Repeat.drawFrom_draws le_rfl fits g
  obtain ⟨text,h,drawn⟩ := repeatDraw_draws draws n acc g'
  exact ⟨text,h,(Draw.bind_run counted).trans drawn⟩

theorem drawChar_draws {set : Charset} (some_char : 0 < set.size) : Draws (σ := σ) (drawChar set) := by
  intro acc g
  unfold drawChar
  split
  · obtain ⟨i,g',drawn,-⟩ := Uniform.index_draws some_char g
    simp only [Draw.bind_run drawn]
    cases set.nth? i <;> exact ⟨_,g',rfl⟩
  · obtain ⟨i,g',drawn,-⟩ := Uniform.shortIndex_draws some_char g
    simp only [Draw.bind_run drawn]
    cases set.nth? i <;> exact ⟨_,g',rfl⟩

theorem drawAll_draws {parts : List Sampler} (all : ∀ s ∈ parts, Draws (σ := σ) (drawOnto s)) :
    Draws (σ := σ) (drawAll parts) := by
  induction parts with
  | nil => exact fun acc g => ⟨acc,g,rfl⟩
  | cons s rest ih =>
    intro acc g
    obtain ⟨text,g',first⟩ := all s List.mem_cons_self acc g
    obtain ⟨text',h,later⟩ := ih (fun s member => all s (.tail _ member)) text g'
    exact ⟨text',h,(Draw.bind_run first).trans later⟩

theorem drawNth_draws {branches : List Sampler} (all : ∀ s ∈ branches, Draws (σ := σ) (drawOnto s)) (i : ℕ) :
    Draws (σ := σ) (drawNth branches i) := by
  induction branches generalizing i with
  | nil => exact fun acc g => ⟨acc,g,rfl⟩
  | cons s rest ih =>
    cases i with
    | zero => exact all s List.mem_cons_self
    | succ i => exact ih (fun s member => all s (.tail _ member)) i

theorem Ready.drawOnto {s : Sampler} (ready : Ready s) : Draws (σ := σ) (Sampler.drawOnto s) := by
  induction ready with
  | @literal count text fits =>
    have appends : Draws (σ := σ) fun acc => pure (acc ++ text) := fun acc g => ⟨_,g,rfl⟩
    exact repeated_draws fits appends
  | chars fits some_char => exact repeated_draws fits (drawChar_draws some_char)
  | seq fits _ ih => exact repeated_draws fits (drawAll_draws ih)
  | @any count branches fits some_branch _ ih =>
    refine repeated_draws fits fun acc g => ?_
    obtain ⟨i,g',chosen,-⟩ := Uniform.index_draws (List.length_pos_iff.mpr some_branch) g
    obtain ⟨text,h,drawn⟩ := drawNth_draws ih i acc g'
    exact ⟨text,h,(Draw.bind_run chosen).trans drawn⟩

end Sampler

end Regex

/-! ### Definitions -/

namespace Pattern

/-- A rule passes the check if names can come from somewhere, and without an expression from enough values. -/
theorem checkBuilder_ok {name : String} {d : BuilderDefinition} : Settings.checkBuilder name d = .ok () ↔
    (d.values ≠ [] ∨ d.pattern.isSome) ∧ (d.pattern.isSome ∨ d.count ≤ d.values.length) := by
  unfold Settings.checkBuilder Settings.require
  by_cases some_source : d.values ≠ [] ∨ d.pattern.isSome
  · by_cases counted : d.pattern.isSome ∨ d.count ≤ d.values.length
    · simp_all [bind,Except.bind]
    · simp_all [bind,Except.bind]
  · simp_all [bind,Except.bind]

namespace BuilderDefinition

/-- A definition that passes the check of settings, whose count is within its bound, and whose expression can be read
where it is used. -/
structure Sound (name : String) (d : BuilderDefinition) : Prop where
  checked : Settings.checkBuilder name d = .ok ()
  bounded : d.max = 0 ∨ d.count ≤ d.max
  valid : d.values = [] → ∀ text, d.pattern = some text → Valid text

/-- There are fixed values, but fewer than are used. -/
def Short (d : BuilderDefinition) : Prop := d.values ≠ [] ∧ d.values.length < d.count

/-- Where there are no values, as many texts as are used can be drawn from the expression, whatever the source. -/
def Drawable (d : BuilderDefinition) : Prop :=
  d.values = [] → ∀ text r, d.pattern = some text → (Regex.compile text).run = .ok (.ok r) →
    ∀ (σ : Type) [RandomSource σ] (g : σ), ∃ texts g', Draw.times r.draw d.count g = .ok (texts,g')

variable {σ : Type} [RandomSource σ] {name : String} {d : BuilderDefinition}

theorem drawable_of_ready {text : String} {r : Regex} (expression : d.pattern = some text)
    (compiled : (Regex.compile text).run = .ok (.ok r)) (ready : r.sampler.Ready) : d.Drawable := by
  intro _ text' r' expression' compiled' σ _ g
  cases expression.symm.trans expression'
  cases compiled.symm.trans compiled'
  have draws (g : σ) : ∃ text g', r.draw g = .ok (text,g') ∧ True := by
    obtain ⟨text,g',drawn⟩ := ready.drawOnto "" g
    exact ⟨text,g',drawn,trivial⟩
  obtain ⟨texts,g',drawn,-⟩ := Draw.times_draws draws d.count g
  exact ⟨texts,g',drawn⟩

theorem Sound.within (sound : d.Sound name) : ¬(0 < d.max ∧ d.max < d.count) := by
  have := sound.bounded
  omega

/-- A sound definition without values is drawn from its expression. -/
theorem Sound.expression (sound : d.Sound name) (none_given : d.values = []) :
    ∃ text r, d.pattern = some text ∧ (Regex.compile text).run = .ok (.ok r) := by
  rcases (checkBuilder_ok.mp sound.checked).1 with given | expression
  · exact absurd none_given given
  · obtain ⟨text,is⟩ := Option.isSome_iff_exists.mp expression
    obtain ⟨r,compiled⟩ := sound.valid none_given text is
    exact ⟨text,r,is,compiled⟩

theorem Sound.run_drawn (sound : d.Sound name) (as_name : String) (none_given : d.values = []) {text : String} {r : Regex}
    (expression : d.pattern = some text) (compiled : (Regex.compile text).run = .ok (.ok r)) (g : σ) :
    (Builder.ofDefinition as_name d : ExceptT DefinitionError (Draw σ) Builder).run g =
      ((fun names => .ok ⟨as_name,d.count,d.max,some r,names.toArray⟩) <$> Draw.times r.draw d.count : Draw σ _) g := by
  rw [Builder.ofDefinition_run,if_neg sound.within,if_neg (not_not.mpr none_given)]
  simp only [expression,compiled]

theorem Sound.run_listed (sound : d.Sound name) (as_name : String) (given : d.values ≠ []) (g : σ) :
    (Builder.ofDefinition as_name d : ExceptT DefinitionError (Draw σ) Builder).run g =
      if d.count ≤ d.values.length then .ok (.ok ⟨as_name,d.count,d.max,none,d.values.toArray⟩,g)
      else .ok (.error (.countExceedsMax as_name d.count d.values.length),g) := by
  rw [Builder.ofDefinition_run,if_neg sound.within,if_pos given]

/-- A sound definition is refused if it is short of values, and for no other reason. -/
theorem Sound.refused_iff (sound : d.Sound name) (as_name : String) (g g' : σ) (e : DefinitionError) :
    (Builder.ofDefinition as_name d : ExceptT DefinitionError (Draw σ) Builder).run g = .ok (.error e,g') ↔
      d.Short ∧ e = .countExceedsMax as_name d.count d.values.length ∧ g' = g := by
  by_cases given : d.values = []
  · obtain ⟨text,r,expression,compiled⟩ := sound.expression given
    rw [sound.run_drawn as_name given expression compiled]
    constructor
    · intro run
      obtain ⟨names,-,made⟩ := Draw.map_ok run
      cases made
    · exact fun ⟨short,_⟩ => absurd given short.1
  · rw [sound.run_listed as_name given]
    by_cases enough : d.count ≤ d.values.length
    · rw [if_pos enough]
      constructor
      · exact nofun
      · exact fun ⟨short,_⟩ => absurd enough (Nat.not_le.mpr short.2)
    · rw [if_neg enough]
      constructor
      · rintro ⟨⟩
        exact ⟨⟨given,Nat.not_le.mp enough⟩,rfl,rfl⟩
      · rintro ⟨-,rfl,rfl⟩
        rfl

/-- A sound definition is accepted unless it is short of values, where texts can be drawn. -/
theorem Sound.accepted (sound : d.Sound name) (as_name : String) (drawable : d.Drawable) (enough : ¬d.Short) (g : σ) :
    ∃ b g', (Builder.ofDefinition as_name d : ExceptT DefinitionError (Draw σ) Builder).run g = .ok (.ok b,g') := by
  by_cases given : d.values = []
  · obtain ⟨text,r,expression,compiled⟩ := sound.expression given
    obtain ⟨names,g',drawn⟩ := drawable given text r expression compiled σ g
    rw [sound.run_drawn as_name given expression compiled,Draw.map_apply,drawn]
    exact ⟨_,g',rfl⟩
  · rw [sound.run_listed as_name given,if_pos (Nat.not_lt.mp fun few => enough ⟨given,few⟩)]
    exact ⟨_,g,rfl⟩

/-- So it is accepted whatever the source if and only if it is not short of values and texts can be drawn. -/
theorem Sound.accepted_iff (sound : d.Sound name) (as_name : String) :
    (∀ (σ : Type) [RandomSource σ] (g : σ), ∃ b g',
      (Builder.ofDefinition as_name d : ExceptT DefinitionError (Draw σ) Builder).run g = .ok (.ok b,g')) ↔
        ¬d.Short ∧ d.Drawable := by
  refine ⟨fun always => ⟨fun short => ?_,fun none_given text r expression compiled σ _ g => ?_⟩,
    fun ⟨enough,drawable⟩ σ _ g => sound.accepted as_name drawable enough g⟩
  · obtain ⟨b,g',run⟩ := always Xoshiro (Xoshiro.ofSeed 0)
    cases run.symm.trans ((sound.refused_iff as_name _ _ _).mpr ⟨short,rfl,rfl⟩)
  · obtain ⟨b,g',run⟩ := always σ g
    rw [sound.run_drawn as_name none_given expression compiled] at run
    obtain ⟨names,drawn,-⟩ := Draw.map_ok run
    exact ⟨names,g',drawn⟩

end BuilderDefinition

/-! ### Tables of definitions -/

section
variable {σ : Type} [RandomSource σ] {rules : List (String × BuilderDefinition)}

/-- Of sound rules, only one that is short of values is refused. -/
theorem add_refused {t : BuilderTable} (sound : ∀ rule ∈ rules, rule.2.Sound rule.1) {g g' : σ} {e : DefinitionError}
    (run : (t.add rules : ExceptT DefinitionError (Draw σ) BuilderTable).run g = .ok (.error e,g')) :
    ∃ rule ∈ rules, rule.2.Short ∧ e = .countExceedsMax (Text.lower rule.1) rule.2.count rule.2.values.length := by
  induction rules generalizing t g with
  | nil => cases run
  | cons rule rest ih =>
    rcases Draw.then_refused (f := fun b => (t.insert b).add rest) run with first | ⟨b,h,-,later⟩
    · obtain ⟨short,is,-⟩ := ((sound rule List.mem_cons_self).refused_iff _ _ _ _).mp first
      exact ⟨rule,List.mem_cons_self,short,is⟩
    · obtain ⟨rule',member,short⟩ := ih (fun rule member => sound rule (.tail _ member)) later
      exact ⟨rule',.tail _ member,short⟩

/-- Rules that are all accepted are not short of values. -/
theorem add_accepted {t t' : BuilderTable} (sound : ∀ rule ∈ rules, rule.2.Sound rule.1) {g g' : σ}
    (run : (t.add rules : ExceptT DefinitionError (Draw σ) BuilderTable).run g = .ok (.ok t',g')) :
    ∀ rule ∈ rules, ¬rule.2.Short := by
  induction rules generalizing t g with
  | nil => nofun
  | cons rule rest ih =>
    obtain ⟨b,h,first,run⟩ := Draw.then_ok (f := fun b => (t.insert b).add rest) run
    refine List.forall_mem_cons.mpr ⟨fun short => ?_,ih (fun rule member => sound rule (.tail _ member)) run⟩
    cases first.symm.trans (((sound rule List.mem_cons_self).refused_iff _ _ _ _).mpr ⟨short,rfl,rfl⟩)

theorem add_sound {t : BuilderTable} (sound : ∀ rule ∈ rules, rule.2.Sound rule.1 ∧ rule.2.Drawable)
    (enough : ∀ rule ∈ rules, ¬rule.2.Short) (g : σ) :
    ∃ t' g', (t.add rules : ExceptT DefinitionError (Draw σ) BuilderTable).run g = .ok (.ok t',g') := by
  induction rules generalizing t g with
  | nil => exact ⟨t,g,rfl⟩
  | cons rule rest ih =>
    obtain ⟨here,drawable⟩ := sound rule List.mem_cons_self
    obtain ⟨b,h,first⟩ := here.accepted (Text.lower rule.1) drawable (enough rule List.mem_cons_self) g
    obtain ⟨t',g',later⟩ := ih (t := t.insert b) (fun rule member => sound rule (.tail _ member))
      (fun rule member => enough rule (.tail _ member)) h
    exact ⟨t',g',(Draw.bind_value first).trans later⟩

end

/-- What the check of settings is worth. Of rules that pass it, keep to their bounds and have expressions that can be
read where these are used, one is refused exactly if it is short of values, and accepted from every source exactly if it
is not and texts can be drawn. A compiler is made of such rules exactly if none of them is short. -/
theorem declared_iff_enough (rules : List (String × BuilderDefinition)) (sound : ∀ rule ∈ rules, rule.2.Sound rule.1) :
    (∀ rule ∈ rules,
      (∀ (σ : Type) [RandomSource σ] (g g' : σ) (e : DefinitionError),
        (Builder.ofDefinition (Text.lower rule.1) rule.2 : ExceptT DefinitionError (Draw σ) Builder).run g =
            .ok (.error e,g') ↔
          rule.2.Short ∧ e = .countExceedsMax (Text.lower rule.1) rule.2.count rule.2.values.length ∧ g' = g) ∧
      ((∀ (σ : Type) [RandomSource σ] (g : σ), ∃ b g',
        (Builder.ofDefinition (Text.lower rule.1) rule.2 : ExceptT DefinitionError (Draw σ) Builder).run g =
            .ok (.ok b,g')) ↔
          ¬rule.2.Short ∧ rule.2.Drawable)) ∧
    ∀ (spec : Option ValueSpec) (σ : Type) [RandomSource σ] (g : σ),
      (∀ e g', (Compiler.new rules spec : ExceptT DefinitionError (Draw σ) Compiler).run g = .ok (.error e,g') →
        ∃ rule ∈ rules, rule.2.Short ∧ e = .countExceedsMax (Text.lower rule.1) rule.2.count rule.2.values.length) ∧
      ((∀ rule ∈ rules, rule.2.Drawable) →
        ((∃ c g', (Compiler.new rules spec : ExceptT DefinitionError (Draw σ) Compiler).run g = .ok (.ok c,g')) ↔
          ∀ rule ∈ rules, ¬rule.2.Short)) := by
  refine ⟨fun rule member => ?_,fun spec σ _ g => ⟨fun e g' run => ?_,fun drawable => ⟨fun ⟨c,g',run⟩ => ?_,?_⟩⟩⟩
  · exact ⟨fun σ _ => (sound rule member).refused_iff _,(sound rule member).accepted_iff _⟩
  · rcases Draw.then_refused run with added | ⟨t,h,-,made⟩
    · exact add_refused sound added
    · cases made
  · obtain ⟨t,h,added,-⟩ := Draw.then_ok run
    exact add_accepted sound added
  · intro enough
    obtain ⟨t,g',added⟩ := add_sound (t := BuilderTable.empty)
      (fun rule member => ⟨sound rule member,drawable rule member⟩) enough g
    exact ⟨⟨t,spec⟩,g',(Draw.bind_value added).trans rfl⟩

/-- Two values that are both used, and an expression that three names are drawn from. -/
def sampleRules : List (String × BuilderDefinition) := [("R",⟨["a","b"],none,2,2⟩),("s",⟨[],some "x",3,0⟩)]

/-- Rules that are not short of values are accepted, one by one and together, whatever the source. -/
theorem sampleRules_accepted :
    (∀ rule ∈ sampleRules, rule.2.Sound rule.1 ∧ rule.2.Drawable ∧
      ∀ (σ : Type) [RandomSource σ] (g : σ), ∃ b g',
        (Builder.ofDefinition (Text.lower rule.1) rule.2 : ExceptT DefinitionError (Draw σ) Builder).run g =
          .ok (.ok b,g')) ∧
    ∀ (σ : Type) [RandomSource σ] (g : σ), ∃ c g',
      (Compiler.new sampleRules none : ExceptT DefinitionError (Draw σ) Compiler).run g = .ok (.ok c,g') := by
  have read : (Regex.compile "x").run = .ok (.ok ⟨"x",.literal .once "x"⟩) := rfl
  have checked (rule) (member : rule ∈ sampleRules) : rule.2.Sound rule.1 ∧ rule.2.Drawable ∧ ¬rule.2.Short := by
    simp only [sampleRules,List.mem_cons,List.not_mem_nil,or_false] at member
    rcases member with rfl | rfl
    · exact ⟨⟨checkBuilder_ok.mpr (by decide),by decide,nofun⟩,nofun,fun short => absurd short.2 (by decide)⟩
    · refine ⟨⟨checkBuilder_ok.mpr (by decide),by decide,fun _ text is => ?_⟩,?_,fun short => short.1 rfl⟩
      · cases is
        exact ⟨_,read⟩
      · exact BuilderDefinition.drawable_of_ready rfl read (.literal trivial)
  obtain ⟨single,together⟩ := declared_iff_enough sampleRules fun rule member => (checked rule member).1
  refine ⟨fun rule member => ?_,fun σ _ g => ?_⟩
  · obtain ⟨sound,drawable,enough⟩ := checked rule member
    exact ⟨sound,drawable,(single rule member).2.mpr ⟨enough,drawable⟩⟩
  · exact ((together none σ g).2 fun rule member => (checked rule member).2.1).mpr fun rule member =>
      (checked rule member).2.2

/-- One value is there and two are used, and an expression that is not used keeps the check from counting them. -/
theorem short_unnoticed : BuilderDefinition.Sound "r" ⟨["a"],some "x",2,0⟩ ∧
    ∀ (σ : Type) [RandomSource σ] (g : σ),
      (Builder.ofDefinition "r" ⟨["a"],some "x",2,0⟩ : ExceptT DefinitionError (Draw σ) Builder).run g =
        .ok (.error (.countExceedsMax "r" 2 1),g) ∧
      (Compiler.new [("r",⟨["a"],some "x",2,0⟩)] none : ExceptT DefinitionError (Draw σ) Compiler).run g =
        .ok (.error (.countExceedsMax "r" 2 1),g) := by
  have sound : BuilderDefinition.Sound "r" ⟨["a"],some "x",2,0⟩ := ⟨checkBuilder_ok.mpr (by decide),by decide,nofun⟩
  have refused (as_name : String) (σ : Type) [RandomSource σ] (g : σ) :=
    (sound.refused_iff as_name g g _).mpr ⟨⟨by decide,by decide⟩,rfl,rfl⟩
  have lower : Text.lower "r" = "r" := by decide +kernel
  refine ⟨sound,fun σ _ g => ⟨refused "r" σ g,?_⟩⟩
  have added := refused (Text.lower "r") σ g
  rw [lower] at added
  refine Draw.bind_refused (Draw.bind_refused ?_)
  rw [lower]
  exact added

end Pattern

end Keyload
