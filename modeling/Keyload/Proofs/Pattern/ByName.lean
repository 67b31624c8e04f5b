import Keyload.Pattern.Compiler
import Keyload.Proofs.Random.Library

/-!
Builder rules by name. A table is what it answers for each name, so the order in which rules were put in shows only
where two of them have one name. Visiting rules is a chain of such tables, each laid over the one before, and compiling
sees no more of a compiler than its rules by name and the lengths of its values.
-/
namespace Keyload

namespace Draw

variable {σ ε α β : Type}

/-- What a draw that may fail comes to. Where it fails, nobody looks at the source again. -/
def outcome (x : ExceptT ε (Draw σ) α) (g : σ) : Outcome ε (α × σ) :=
  ExceptT.mk ((x.run g).map fun r => r.1.map fun a => (a,r.2))

theorem outcome_bind (x : ExceptT ε (Draw σ) α) (f : α → ExceptT ε (Draw σ) β) (g : σ) :
    outcome (x >>= f) g = outcome x g >>= fun r => outcome (f r.1) r.2 := by
  change ExceptT.mk (((x.run g).bind fun r => ExceptT.bindCont f r.1 r.2).map _) =
    ExceptT.mk (((x.run g).map _).bind _)
  cases x.run g with
  | error f => rfl
  | ok r =>
    obtain ⟨r,h⟩ := r
    cases r with
    | error e => rfl
    | ok a => rfl

end Draw

namespace Pattern

/-! ### Tables -/

namespace BuilderTable

/-- The rule of a name in lower case. -/
def look (t : BuilderTable) (name : String) : Option Builder := t.rules.find? (named name)

theorem find?_look (t : BuilderTable) (name : String) : t.find? name = t.look (Text.lower name) := rfl

private theorem find?_replaced (rules : List Builder) (b : Builder) (name : String) :
    (rules.map fun old => if named b.name old then b else old).find? (named name) =
      if b.name = name ∧ rules.any (named b.name) then some b else rules.find? (named name) := by
  induction rules with
  | nil => simp
  | cons old rules ih =>
    rw [List.map_cons,List.find?_cons,ih,List.find?_cons,List.any_cons]
    by_cases same : b.name = name
    · subst same
      cases replaced : named b.name old with
      | true => simp [named]
      | false => simp [replaced]
    · have apart : named name b = false := by simpa [named] using same
      cases replaced : named b.name old with
      | true =>
        have other : named name old = false := by
          have is : old.name = b.name := by simpa [named] using replaced
          simpa [named,is] using same
        simp [apart,other,same]
      | false => simp [same]

/-- A rule that is put in is found by its name, the others as before. -/
theorem look_insert (t : BuilderTable) (b : Builder) (name : String) :
    (t.insert b).look name = if b.name = name then some b else t.look name := by
  unfold insert look
  split
  · rename_i present
    rw [find?_replaced]
    simp only [present,and_true]
  · rename_i absent
    rw [List.find?_append]
    by_cases same : b.name = name
    · subst same
      have none_found : t.rules.find? (named b.name) = none :=
        List.find?_eq_none.mpr fun old member => by
          intro is
          exact absent (List.any_eq_true.mpr ⟨old,member,is⟩)
      simp [none_found,named]
    · simp [same,named]

/-- One table by name over another. -/
def overlay (upper lower : String → Option Builder) (name : String) : Option Builder := upper name <|> lower name

theorem overlay_assoc (f g h : String → Option Builder) : overlay (overlay f g) h = overlay f (overlay g h) := by
  funext name
  unfold overlay
  cases f name <;> rfl

theorem overlay_empty (f : String → Option Builder) : overlay f empty.look = f := by
  funext name
  unfold overlay
  cases f name <;> rfl

theorem empty_overlay (f : String → Option Builder) : overlay empty.look f = f := rfl

theorem look_insert_overlay (t : BuilderTable) (b : Builder) :
    (t.insert b).look = overlay (empty.insert b).look t.look := by
  funext name
  rw [overlay,look_insert,look_insert]
  split <;> rfl

end BuilderTable

/-! ### Visits -/

open BuilderTable (overlay overlay_assoc overlay_empty empty_overlay look_insert_overlay)

variable {σ : Type} [RandomSource σ]

/-- The rules by name that come of visiting the declared rules, and the source after it. -/
def visit (rules : List (String × BuilderDefinition)) (g : σ) :
    Outcome DefinitionError ((String → Option Builder) × σ) :=
  (fun r => (r.1.look,r.2)) <$> Draw.outcome (BuilderTable.empty.add rules) g

/-- Rules are laid over what is there. -/
theorem add_overlay (t : BuilderTable) (rules : List (String × BuilderDefinition)) (g : σ) :
    (fun r => (r.1.look,r.2)) <$> Draw.outcome (t.add rules) g =
      (fun r => (overlay r.1 t.look,r.2)) <$> visit rules g := by
  induction rules generalizing t g with
  | nil => rfl
  | cons rule rest ih =>
    have first (t : BuilderTable) : (fun r => (r.1.look,r.2)) <$> Draw.outcome (t.add (rule :: rest)) g =
        Draw.outcome (Builder.ofDefinition (Text.lower rule.1) rule.2) g >>= fun r =>
          (fun s => (overlay s.1 (t.insert r.1).look,s.2)) <$> visit rest r.2 := by
      show _ <$> Draw.outcome (Builder.ofDefinition (Text.lower rule.1) rule.2 >>= fun b => (t.insert b).add rest) g = _
      rw [Draw.outcome_bind,map_bind]
      exact congrArg _ (funext fun r => ih _ _)
    rw [first,visit,first,map_bind]
    refine congrArg _ (funext fun r => ?_)
    rw [Functor.map_map,look_insert_overlay t]
    refine congrArg (· <$> _) (funext fun s => ?_)
    rw [overlay_assoc]

theorem add_append (t : BuilderTable) (rules later : List (String × BuilderDefinition)) :
    (t.add (rules ++ later) : ExceptT DefinitionError (Draw σ) BuilderTable) =
      t.add rules >>= fun t => t.add later := by
  induction rules generalizing t with
  | nil =>
    show t.add later = (pure t : ExceptT DefinitionError (Draw σ) BuilderTable) >>= fun t => t.add later
    rw [pure_bind]
  | cons rule rest ih =>
    show (Builder.ofDefinition (Text.lower rule.1) rule.2 >>= fun b => (t.insert b).add (rest ++ later)) =
      (Builder.ofDefinition (Text.lower rule.1) rule.2 >>= fun b => (t.insert b).add rest) >>= _
    rw [bind_assoc]
    exact congrArg _ (funext fun b => ih _)

/-- Rules visited later are laid over the earlier ones. -/
theorem visit_append (rules later : List (String × BuilderDefinition)) (g : σ) :
    visit (rules ++ later) g = visit rules g >>= fun r => (fun s => (overlay s.1 r.1,s.2)) <$> visit later r.2 := by
  rw [visit,add_append,Draw.outcome_bind,map_bind,visit,bind_map_left]
  exact congrArg _ (funext fun r => add_overlay r.1 later r.2)

/-! ### Compiling by name -/

/-- What compiling sees of a compiler. -/
def Compiler.sight (c : Compiler) : (String → Option Builder) × Option ValueSpec := (c.builders.look,c.valueSpec)

namespace Compile

variable {α β : Type}

/-- What is seen of a step of compiling. -/
def seen (r : (Except DefinitionError α × Compiler) × σ) :
    (Except DefinitionError α × (String → Option Builder) × Option ValueSpec) × σ := ((r.1.1,r.1.2.sight),r.2)

/-- A step of compiling comes to the same with compilers that look the same, which still look the same after it. -/
def ByName (x : Compile σ α) : Prop :=
  ∀ (c c' : Compiler) (g : σ), c.sight = c'.sight → (x.run c g).map seen = (x.run c' g).map seen

omit [RandomSource σ]

private theorem seen_ok {c c' : Compiler} (same : c.sight = c'.sight) (r : Except DefinitionError α) (g : σ) :
    (Except.ok (seen ((r,c),g)) : Except Fault _) = .ok (seen ((r,c'),g)) :=
  congrArg (fun sight => Except.ok ((r,sight),g)) same

private theorem byName_pure (a : α) : ByName (pure a : Compile σ α) := fun _ _ g same => seen_ok same (.ok a) g

private theorem byName_throw (e : DefinitionError) : ByName (throw e : Compile σ α) :=
  fun _ _ g same => seen_ok same (.error e) g

private theorem byName_bind {x : Compile σ α} {f : α → Compile σ β} (first : ByName x) (then_ : ∀ a, ByName (f a)) :
    ByName (x >>= f) := by
  intro c c' g same
  have before := first c c' g same
  show ((x.run c g).bind fun r => ExceptT.bindCont f r.1.1 r.1.2 r.2).map seen =
    ((x.run c' g).bind fun r => ExceptT.bindCont f r.1.1 r.1.2 r.2).map seen
  match run : x.run c g,run' : x.run c' g with
  | .error e,.error e' =>
    rw [run,run'] at before
    cases before
    rfl
  | .error e,.ok r' =>
    rw [run,run'] at before
    cases before
  | .ok r,.error e' =>
    rw [run,run'] at before
    cases before
  | .ok ((r,d),h),.ok ((r',d'),h') =>
    rw [run,run'] at before
    obtain ⟨both,sources⟩ := Prod.mk.inj (Except.ok.inj before)
    obtain ⟨results,after⟩ := Prod.mk.inj both
    change h = h' at sources
    change r = r' at results
    subst sources results
    cases r with
    | error e => exact seen_ok after (.error e) h
    | ok a => exact then_ a d d' h after

private theorem byName_get {f : Compiler → Compile σ β} (sees : ∀ c c', c.sight = c'.sight → f c = f c')
    (then_ : ∀ c, ByName (f c)) : ByName (get >>= f) := by
  intro c c' g same
  show ((f c).run c g).map seen = ((f c').run c' g).map seen
  rw [sees c c' same]
  exact then_ c' c c' g same

private theorem byName_ofOutcome (x : Outcome DefinitionError α) : ByName (Compiler.ofOutcome x : Compile σ α) := by
  intro c c' g same
  show (x.run.map _).map seen = (x.run.map _).map seen
  cases x.run with
  | error e => rfl
  | ok r => exact seen_ok same r g

end Compile

namespace Compiler
open Compile

omit [RandomSource σ] in
private theorem takeCount_byName (segment : List Char) : ByName (takeCount segment : Compile σ _) := by
  unfold takeCount
  cases splitCount segment with
  | ok r => exact byName_pure r
  | error e => exact byName_throw e

omit [RandomSource σ] in
private theorem valueSource_byName (text : String) : ByName (valueSource text : Compile σ _) := by
  unfold valueSource
  refine byName_bind (byName_ofOutcome _) fun r => byName_get (fun c c' same => ?_) fun c => ?_
  · have spec : c.valueSpec = c'.valueSpec := congrArg Prod.snd same
    rw [spec]
  · cases c.valueSpec with
    | some spec => exact byName_pure _
    | none => exact byName_pure _

private theorem builderLevel_byName (source : String) (b : Builder) (count : Nat) :
    ByName (builderLevel source b count : Compile σ _) := by
  unfold builderLevel
  cases b.checkCount count with
  | error e => exact byName_throw e
  | ok _ =>
    refine byName_bind (fun c c' g same => ?_) fun b => ?_
    · show ((b.grow count g).bind _).map seen = ((b.grow count g).bind _).map seen
      cases b.grow count g with
      | error e => rfl
      | ok r =>
        obtain ⟨tables,spec⟩ := Prod.mk.inj same
        have kept : sight { c with builders := c.builders.insert r.1 } =
            sight { c' with builders := c'.builders.insert r.1 } := by
          unfold sight
          rw [look_insert_overlay,look_insert_overlay c'.builders,tables,spec]
        exact seen_ok kept (.ok r.1) r.2
    · cases b.level source count with
      | ok l => exact byName_pure l
      | error f => exact byName_ofOutcome _

private theorem level_byName (pattern : String) (segment : List Char) :
    ByName (level pattern segment : Compile σ _) := by
  unfold level
  split
  · refine byName_bind (takeCount_byName _) fun r => ?_
    obtain ⟨name,count⟩ := r
    refine byName_get (fun c c' same => ?_) fun c => ?_
    · have tables : c.builders.look = c'.builders.look := congrArg Prod.fst same
      have found : c.builder? (String.ofList name) = c'.builder? (String.ofList name) := by
        rw [builder?,builder?,BuilderTable.find?_look,BuilderTable.find?_look,tables]
      rw [found]
    · cases c.builder? (String.ofList name) with
      | none => exact byName_throw _
      | some b => exact builderLevel_byName _ b _
  · exact byName_bind (byName_ofOutcome _) fun r => byName_pure _
  · refine byName_bind (takeCount_byName _) fun r => ?_
    exact byName_bind (byName_ofOutcome _) fun f => byName_pure _
  · exact byName_pure _

private theorem levels_byName (pattern : String) (ended : Bool) (segments : List (List Char)) :
    ByName (levels pattern ended segments : Compile σ _) := by
  induction segments generalizing ended with
  | nil => exact byName_pure []
  | cons segment rest ih =>
    rw [levels]
    have tail (value : Option ValueSource) (path : List Char) : ByName (do
        let l ← level pattern path
        let ls ← levels pattern value.isSome rest
        pure ({ l with value := value } :: ls) : Compile σ (List Level)) :=
      byName_bind (level_byName pattern path) fun l => byName_bind (ih _) fun ls => byName_pure _
    cases ended with
    | true =>
      simp only [if_true]
      refine byName_bind (byName_throw _) fun _ => ?_
      split
      · exact byName_bind (byName_bind (valueSource_byName _) fun v => byName_pure _) fun value => tail value _
      · exact byName_bind (byName_pure _) fun value => tail value _
    | false =>
      simp only [Bool.false_eq_true,if_false]
      split
      · exact byName_bind (byName_bind (valueSource_byName _) fun v => byName_pure _) fun value => tail value _
      · exact byName_bind (byName_pure _) fun value => tail value _

private theorem compile_byName (source : String) : ByName (compile source : Compile σ _) := by
  refine byName_bind (levels_byName source false _) fun ls => ?_
  cases ls.getLast? with
  | none => exact byName_throw _
  | some l =>
    show ByName (if l.isLeaf = true then _ else _)
    split
    · exact byName_pure _
    · exact byName_throw _

/-- Compiling sees the rules by name. -/
theorem compileAll_byName (sources : List String) : ByName (compileAll sources : Compile σ _) := by
  induction sources with
  | nil => exact byName_pure []
  | cons source rest ih =>
    exact byName_bind (compile_byName source) fun p => byName_bind ih fun ps => byName_pure _

end Compiler

end Pattern

end Keyload
