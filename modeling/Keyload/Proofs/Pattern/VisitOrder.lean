import Keyload.Proofs.Pattern.Growth

/-!
The order in which builder rules are visited. All orders come to the same where every two rules do, or where a rule
that is never accepted decides alone. Nothing less will do: with words put ahead of the source, the other rules can be
made to leave it to any two of them as it was.
-/
namespace Keyload.Pattern
open BuilderTable (overlay)
open Draw (Scripted Script Ahead heard later outcome scripted_pure scripted_lift)

variable {σ : Type} [RandomSource σ]

/-- The order of two rules does not matter. -/
def Commute (a b : String × BuilderDefinition) : Prop :=
  ∀ (σ : Type) [RandomSource σ] (g : σ), visit [a,b] g = visit [b,a] g

/-- A rule is never accepted, whatever is drawn. -/
def Hopeless (a : String × BuilderDefinition) : Prop :=
  ∀ (σ : Type) [RandomSource σ] (g : σ) (f : String → Option Builder) (h : σ), visit [a] g ≠ pure (f,h)

/-- The order of the rules does not matter: that of no two of them does, or one that is never accepted commutes with
every other, so that they all fail as it does. -/
def OrderFree (rules : List (String × BuilderDefinition)) : Prop :=
  (∀ a ∈ rules, ∀ b ∈ rules, Commute a b) ∨ ∃ c ∈ rules, Hopeless c ∧ ∀ a ∈ rules, Commute c a

/-! ### Outcomes with a part out of sight -/

/-- Outcomes are told apart by what tells their values apart. -/
theorem map_cancel {ε α β : Type} {x y : Outcome ε α} {p : α → β} (same : p <$> x = p <$> y)
    (cancel : ∀ a b, x = pure a → y = pure b → p a = p b → a = b) : x = y := by
  match x,y with
  | .error e,.error e' => cases same; rfl
  | .ok (.error e),.ok (.error e') => cases same; rfl
  | .ok (.ok a),.ok (.ok b) =>
    have equal : p a = p b := Except.ok.inj (Except.ok.inj same)
    rw [cancel a b rfl rfl equal]
  | .error e,.ok r => cases r <;> cases same
  | .ok r,.error e => cases r <;> cases same
  | .ok (.error e),.ok (.ok b) => cases same
  | .ok (.ok a),.ok (.error e) => cases same

theorem bind_in_sight {ε α β γ : Type} {x y : Outcome ε α} {p : α → β} (same : p <$> x = p <$> y) {f : α → Outcome ε γ}
    (sees : ∀ a b, p a = p b → f a = f b) : x >>= f = y >>= f := by
  match x,y with
  | .error e,.error e' => cases same; rfl
  | .ok (.error e),.ok (.error e') => cases same; rfl
  | .ok (.ok a),.ok (.ok b) =>
    have equal : p a = p b := Except.ok.inj (Except.ok.inj same)
    exact sees a b equal
  | .error e,.ok r => cases r <;> cases same
  | .ok r,.error e => cases r <;> cases same
  | .ok (.error e),.ok (.ok b) => cases same
  | .ok (.ok a),.ok (.error e) => cases same

theorem map_congr {ε α β : Type} {x : Outcome ε α} {p q : α → β} (same : ∀ a, x = pure a → p a = q a) :
    p <$> x = q <$> x := by
  match x with
  | .error e => rfl
  | .ok (.error e) => rfl
  | .ok (.ok a) =>
    show (pure (p a) : Outcome ε β) = pure (q a)
    rw [same a rfl]

/-! ### Where the order does not matter -/

private theorem visit_cons (a : String × BuilderDefinition) (rules : List (String × BuilderDefinition)) (g : σ) :
    visit (a :: rules) g = visit [a] g >>= fun r => (fun s => (overlay s.1 r.1,s.2)) <$> visit rules r.2 :=
  visit_append [a] rules g

private theorem failed_bind {ε α : Type} {x : Outcome ε α} (fails : ∀ a, x ≠ pure a) (f : α → Outcome ε α) :
    x >>= f = x := by
  change ExceptT.mk (x.run.bind (ExceptT.bindCont f)) = x
  cases ends : x.run with
  | error e => exact ends.symm
  | ok r =>
    cases r with
    | error e => exact ends.symm
    | ok a => exact absurd ends (fails a)

private theorem visit_perm {order rules : List (String × BuilderDefinition)} (perm : order.Perm rules)
    (commute : ∀ a ∈ rules, ∀ b ∈ rules, Commute a b) (g : σ) : visit order g = visit rules g := by
  induction perm generalizing g with
  | nil => rfl
  | @cons a order rules _ ih =>
    rw [visit_cons a order,visit_cons a rules]
    refine congrArg _ (funext fun r => ?_)
    rw [ih fun b at_b c at_c => commute b (.tail _ at_b) c (.tail _ at_c)]
  | swap a b rules =>
    have two (a b : String × BuilderDefinition) : visit (a :: b :: rules) g =
        visit [a,b] g >>= fun r => (fun s => (overlay s.1 r.1,s.2)) <$> visit rules r.2 := visit_append [a,b] rules g
    rw [two,two,commute b (by simp) a (by simp)]
  | trans _ second ih ih' =>
    rw [ih fun a at_a b at_b => commute a (second.mem_iff.mp at_a) b (second.mem_iff.mp at_b)]
    exact ih' commute g

/-- A rule that is never accepted and commutes with the others decides alone. -/
private theorem visit_hopeless {c : String × BuilderDefinition} (hopeless : Hopeless c)
    {rules : List (String × BuilderDefinition)} (member : c ∈ rules) (commute : ∀ a ∈ rules, Commute c a) (g : σ) :
    visit rules g = visit [c] g := by
  have fails (g : σ) : ∀ r, visit [c] g ≠ pure r := fun r => hopeless σ g r.1 r.2
  induction rules generalizing g with
  | nil => cases member
  | cons a rules ih =>
    rw [visit_cons]
    by_cases here : a = c
    · rw [here]
      exact failed_bind (fails g) _
    · have inner : c ∈ rules := (List.mem_cons.mp member).resolve_left (Ne.symm here)
      have rest (h : σ) : visit rules h = visit [c] h := ih inner (fun b at_b => commute b (.tail _ at_b)) h
      calc (visit [a] g >>= fun r => (fun s => (overlay s.1 r.1,s.2)) <$> visit rules r.2)
          = visit [a,c] g := by
            rw [visit_cons a [c]]
            exact congrArg _ (funext fun r => by rw [rest])
        _ = visit [c,a] g := (commute a List.mem_cons_self σ g).symm
        _ = visit [c] g := by
          rw [visit_cons]
          exact failed_bind (fails g) _

/-- Every order of such rules comes to the same. -/
theorem OrderFree.visit {order rules : List (String × BuilderDefinition)} (free : OrderFree rules)
    (perm : order.Perm rules) (g : σ) : visit order g = visit rules g := by
  rcases free with commute | ⟨c,member,hopeless,commute⟩
  · exact visit_perm perm commute g
  · rw [visit_hopeless hopeless member commute,
      visit_hopeless hopeless (perm.mem_iff.mpr member) fun a at_a => commute a (perm.mem_iff.mp at_a)]

/-! ### What visits hear -/

private theorem scripted_then {ε α β : Type} {x : ∀ (σ : Type) [RandomSource σ], ExceptT ε (Draw σ) α}
    {f : α → ∀ (σ : Type) [RandomSource σ], ExceptT ε (Draw σ) β} (first : Scripted fun σ [RandomSource σ] => (x σ).run)
    (then_ : ∀ a, Scripted fun σ [RandomSource σ] => (f a σ).run) :
    Scripted fun σ [RandomSource σ] => (x σ >>= fun a => f a σ).run := by
  refine first.bind (f := fun r σ _ => ExceptT.bindCont (fun a => f a σ) r) fun r => ?_
  cases r with
  | error e => exact scripted_pure (Except.error e)
  | ok a => exact then_ a

private theorem ofDefinition_scripted (name : String) (d : BuilderDefinition) :
    Scripted fun σ [RandomSource σ] =>
      (Builder.ofDefinition name d : ExceptT DefinitionError (Draw σ) Builder).run := by
  have checked (b : Builder) :
      Scripted fun σ [RandomSource σ] => (b.checked : ExceptT DefinitionError (Draw σ) Builder).run := by
    unfold Builder.checked
    cases b.checkCount b.count with
    | ok _ => exact scripted_pure (Except.ok b)
    | error e => exact scripted_pure (Except.error e)
  unfold Builder.ofDefinition
  by_cases many : 0 < d.max ∧ d.max < d.count
  · simp only [many,and_self,if_true]
    exact scripted_pure (Except.error _)
  · simp only [many,if_false]
    cases given : !d.values.isEmpty with
    | true =>
      simp only [if_true]
      exact checked _
    | false =>
      simp only [Bool.false_eq_true,if_false]
      cases d.pattern with
      | none => exact scripted_pure (Except.error _)
      | some source =>
        refine scripted_then (x := fun σ _ => ExceptT.mk (Draw.lift (Regex.compile source).run)) ?_ fun r => ?_
        · exact scripted_lift _
        · refine scripted_then (x := fun σ _ => (Builder.extend r d.count #[] : Draw σ _)) ?_ fun names => checked _
          exact (extend_scripted r d.count #[]).bind fun names => scripted_pure (Except.ok names)

private theorem table_scripted (t : BuilderTable) (rules : List (String × BuilderDefinition)) :
    Scripted fun σ [RandomSource σ] => (t.add rules : ExceptT DefinitionError (Draw σ) BuilderTable).run := by
  induction rules generalizing t with
  | nil => exact scripted_pure (Except.ok t)
  | cons rule rest ih =>
    exact scripted_then (ofDefinition_scripted (Text.lower rule.1) rule.2) fun b => ih (t.insert b)

private theorem add_scripted (rules : List (String × BuilderDefinition)) :
    ∃ s : Script (Except DefinitionError BuilderTable), ∀ (σ : Type) [RandomSource σ],
      (BuilderTable.empty.add rules : ExceptT DefinitionError (Draw σ) BuilderTable).run = s.run :=
  table_scripted BuilderTable.empty rules

private theorem visit_ok {rules : List (String × BuilderDefinition)} {g h : σ} {f : String → Option Builder}
    (run : visit rules g = pure (f,h)) :
    ∃ t : BuilderTable, (BuilderTable.empty.add rules : ExceptT _ (Draw σ) _).run g = .ok (.ok t,h) ∧
      f = t.look := by
  unfold visit outcome at run
  cases ends : (BuilderTable.empty.add rules : ExceptT _ (Draw σ) _).run g with
  | error e =>
    rw [ends] at run
    cases run
  | ok r =>
    rw [ends] at run
    obtain ⟨r,h'⟩ := r
    cases r with
    | error e => cases run
    | ok t =>
      cases run
      exact ⟨t,rfl,rfl⟩

/-- Without words ahead of it, a source leads to what it led to. -/
private theorem visit_none_ahead (rules : List (String × BuilderDefinition)) (g : σ) :
    visit rules (⟨[],g⟩ : Ahead σ) = (fun r => (r.1,⟨[],r.2⟩)) <$> visit rules g := by
  obtain ⟨s,isRun⟩ := add_scripted rules
  unfold visit outcome
  rw [isRun σ,isRun (Ahead σ),s.run_none_ahead g]
  cases s.run g with
  | error e => rfl
  | ok r =>
    obtain ⟨r,h⟩ := r
    cases r <;> rfl

/-- A visit that ended well ends well wherever it hears the same words. -/
theorem visit_heard {rules : List (String × BuilderDefinition)} {g h : σ} {f : String → Option Builder}
    (run : visit rules g = pure (f,h)) :
    ∃ n, h = later n g ∧ ∀ {τ : Type} [RandomSource τ] (rest : List UInt64) (k : τ),
      visit rules (⟨heard n g ++ rest,k⟩ : Ahead τ) = pure (f,⟨rest,k⟩) := by
  obtain ⟨t,drawn,rfl⟩ := visit_ok run
  obtain ⟨s,isRun⟩ := add_scripted rules
  rw [isRun] at drawn
  obtain ⟨n,after,again⟩ := Script.run_heard drawn
  refine ⟨n,after,fun rest k => ?_⟩
  unfold visit outcome
  rw [isRun,again]
  rfl

/-! ### The names that are visited -/

private theorem add_names {t t' : BuilderTable} {rules : List (String × BuilderDefinition)} {g h : σ}
    (run : (t.add rules : ExceptT DefinitionError (Draw σ) BuilderTable).run g = .ok (.ok t',h)) (name : String) :
    (t'.look name).isSome ↔ (t.look name).isSome ∨ ∃ rule ∈ rules, Text.lower rule.1 = name := by
  induction rules generalizing t g with
  | nil =>
    cases run
    simp
  | cons rule rest ih =>
    obtain ⟨b,g',first,run⟩ := Draw.then_ok (f := fun b => (t.insert b).add rest) run
    rw [ih run,BuilderTable.look_insert,(Builder.ofDefinition_ok first).1]
    by_cases same : Text.lower rule.1 = name
    · simp [same]
    · simp [same]

/-- The rules that were visited, and no others, are found by their names in lower case. -/
private theorem visit_names {rules : List (String × BuilderDefinition)} {g h : σ} {f : String → Option Builder}
    (run : visit rules g = pure (f,h)) (name : String) :
    (f name).isSome ↔ ∃ rule ∈ rules, Text.lower rule.1 = name := by
  obtain ⟨t,added,rfl⟩ := visit_ok run
  rw [add_names added name]
  simp [BuilderTable.empty,BuilderTable.look]

/-! ### Rules that draw nothing -/

/-- A rule is accepted as it stands: whatever the source, nothing is drawn from it. -/
def Settled (a : String × BuilderDefinition) : Prop :=
  ∃ b : Builder, ∀ (σ : Type) [RandomSource σ] (g : σ),
    outcome (Builder.ofDefinition (Text.lower a.1) a.2) g = pure (b,g)

theorem settled_of_values {name : String} {d : BuilderDefinition} (given : d.values ≠ [])
    (bound : d.max = 0 ∨ d.count ≤ d.max)
    (long : d.count ≤ d.values.length) : Settled (name,d) := by
  refine ⟨⟨Text.lower name,d.count,d.max,none,d.values.toArray⟩,fun σ _ g => ?_⟩
  have few : ¬(0 < d.max ∧ d.max < d.count) := by omega
  unfold outcome
  rw [Builder.ofDefinition_run,if_neg few,if_pos given,if_pos long]
  rfl

/-- A rule that draws nothing commutes with every rule of another name. -/
theorem Settled.commute {a b : String × BuilderDefinition} (settled : Settled a)
    (apart : Text.lower a.1 ≠ Text.lower b.1) :
    Commute a b := by
  obtain ⟨r,accepted⟩ := settled
  intro σ _ g
  have first (h : σ) : visit [a] h = pure ((BuilderTable.empty.insert r).look,h) := by
    show _ <$> outcome (Builder.ofDefinition (Text.lower a.1) a.2 >>= fun b => pure (BuilderTable.empty.insert b)) h = _
    rw [Draw.outcome_bind,accepted]
    rfl
  have before : visit [a,b] g = (fun s => (overlay s.1 (BuilderTable.empty.insert r).look,s.2)) <$> visit [b] g := by
    rw [visit_cons,first,pure_bind]
  have after : visit [b,a] g = (fun s => (overlay (BuilderTable.empty.insert r).look s.1,s.2)) <$> visit [b] g := by
    rw [visit_cons,← bind_pure_comp]
    exact congrArg _ (funext fun s => by rw [first,map_pure])
  rw [before,after]
  refine map_congr fun s run => Prod.ext (funext fun name => ?_) rfl
  have here := visit_names (first g) name
  have there := visit_names run name
  simp only [List.mem_singleton,exists_eq_left] at here there
  simp only [overlay]
  cases one : (BuilderTable.empty.insert r).look name with
  | none => cases s.1 name <;> rfl
  | some _ =>
    cases other : s.1 name with
    | none => rfl
    | some _ =>
      rw [one] at here
      rw [other] at there
      exact absurd ((here.mp rfl).trans (there.mp rfl).symm) apart

/-- Rules of different names, at most one of which draws, are free to be ordered. -/
theorem orderFree_of_settled {rules : List (String × BuilderDefinition)}
    (apart : ∀ a ∈ rules, ∀ b ∈ rules, Text.lower a.1 = Text.lower b.1 → a = b)
    (settled : ∀ a ∈ rules, ∀ b ∈ rules, a = b ∨ Settled a ∨ Settled b) : OrderFree rules := by
  refine .inl fun a at_a b at_b => ?_
  by_cases same : a = b
  · subst same
    exact fun σ _ g => rfl
  · have names : Text.lower a.1 ≠ Text.lower b.1 := fun equal => same (apart a at_a b at_b equal)
    rcases settled a at_a b at_b with equal | first | second
    · exact absurd equal same
    · exact first.commute names
    · exact fun σ _ g => (second.commute (Ne.symm names) σ g).symm

/-! ### Where the order matters -/

/-- Rules that may be accepted are accepted from some words on, and nothing more is heard. -/
private theorem accepted_ahead {rules : List (String × BuilderDefinition)} (hopeful : ∀ a ∈ rules, ¬Hopeless a) :
    ∃ (f : String → Option Builder) (ws : List UInt64), ∀ {τ : Type} [RandomSource τ] (rest : List UInt64) (k : τ),
      visit rules (⟨ws ++ rest,k⟩ : Ahead τ) = pure (f,⟨rest,k⟩) := by
  induction rules with
  | nil => exact ⟨BuilderTable.empty.look,[],fun rest k => rfl⟩
  | cons a rules ih =>
    obtain ⟨f,ws,accepted⟩ := ih fun b member => hopeful b (.tail _ member)
    have some_source := hopeful a List.mem_cons_self
    simp only [Hopeless,not_forall,Classical.not_not] at some_source
    obtain ⟨σ,_,g,f',h,first⟩ := some_source
    obtain ⟨n,-,again⟩ := visit_heard first
    refine ⟨overlay f f',heard n g ++ ws,fun rest k => ?_⟩
    rw [visit_cons,List.append_assoc,again,pure_bind,accepted]
    rfl

/-- Rules laid over the same ones are told apart, where they have the same names. -/
private theorem overlay_injective {rules order : List (String × BuilderDefinition)} (perm : order.Perm rules) {g : σ}
    (f : String → Option Builder)
    (same : (fun r : (String → Option Builder) × σ => (overlay r.1 f,r.2)) <$> visit order g =
      (fun r => (overlay r.1 f,r.2)) <$> visit rules g) : visit order g = visit rules g := by
  have names (f' : String → Option Builder) (h : σ) (f'' : String → Option Builder) (h' : σ)
      (run : visit order g = pure (f',h)) (run' : visit rules g = pure (f'',h'))
      (equal : overlay f' f = overlay f'' f) : f' = f'' := by
    funext name
    have is := congrFun equal name
    have there := visit_names run name
    have there' := visit_names run' name
    simp only [perm.mem_iff] at there
    rw [← there'] at there
    simp only [overlay] at is
    cases at_name : f' name with
    | some b =>
      rw [at_name] at there is
      cases at_name' : f'' name with
      | some b' =>
        rw [at_name'] at is
        exact is
      | none =>
        rw [at_name'] at there
        simp at there
    | none =>
      rw [at_name] at there
      cases at_name' : f'' name with
      | some b' =>
        rw [at_name'] at there
        simp at there
      | none => rfl
  refine map_cancel same fun r r' run run' equal => ?_
  obtain ⟨tables,sources⟩ := Prod.mk.inj equal
  exact Prod.ext (names r.1 r.2 r'.1 r'.2 run run' tables) sources

/-- If all orders come to the same, from every source, then the rules are free to be ordered. -/
theorem orderFree_of_visit {rules : List (String × BuilderDefinition)}
    (agree : ∀ order : List (String × BuilderDefinition), order.Perm rules → ∀ (σ : Type) [RandomSource σ] (g : σ),
      visit order g = visit rules g) : OrderFree rules := by
  by_cases decided : ∃ c ∈ rules, Hopeless c
  · obtain ⟨c,at_c,hopeless⟩ := decided
    refine .inr ⟨c,at_c,hopeless,fun a at_a σ _ g => ?_⟩
    by_cases same : a = c
    · rw [same]
    · have rest : rules.Perm (c :: a :: (rules.erase c).erase a) := by
        refine (List.perm_cons_erase at_c).trans (.cons _ (List.perm_cons_erase ?_))
        exact (List.mem_erase_of_ne same).mpr at_a
      have fails (g : σ) (r : (String → Option Builder) × σ) : visit [c] g ≠ pure r := hopeless σ g r.1 r.2
      have first : visit [c,a] g = visit [c] g := by
        rw [visit_cons]
        exact failed_bind (fails g) _
      have second (r : (String → Option Builder) × σ) : visit [a,c] g ≠ pure r := by
        intro run
        rw [visit_cons] at run
        obtain ⟨r',-,run⟩ := Outcome.bind_ok run
        rw [← bind_pure_comp] at run
        obtain ⟨s,accepted,-⟩ := Outcome.bind_ok run
        exact fails r'.2 s accepted
      have order : visit ([c,a] ++ (rules.erase c).erase a) g = visit ([a,c] ++ (rules.erase c).erase a) g :=
        (agree _ rest.symm σ g).trans (agree _ (rest.trans (.swap ..)).symm σ g).symm
      rw [visit_append,failed_bind fun r => first ▸ fails g r,visit_append,failed_bind second] at order
      exact order
  · left
    intro a at_a b at_b σ _ g
    by_cases same : a = b
    · rw [same]
    · have hopeful : ∀ c ∈ (rules.erase a).erase b, ¬Hopeless c := fun c member hopeless =>
        decided ⟨c,List.mem_of_mem_erase (List.mem_of_mem_erase member),hopeless⟩
      obtain ⟨f,ws,accepted⟩ := accepted_ahead hopeful
      have rest : rules.Perm ((rules.erase a).erase b ++ [a,b]) := by
        refine ((List.perm_cons_erase at_a).trans (.cons _ (List.perm_cons_erase ?_))).trans
          (List.perm_append_comm : ([a,b] ++ _).Perm _)
        exact (List.mem_erase_of_ne (Ne.symm same)).mpr at_b
      have order : visit ((rules.erase a).erase b ++ [a,b]) (⟨ws ++ [],g⟩ : Ahead σ) =
          visit ((rules.erase a).erase b ++ [b,a]) (⟨ws ++ [],g⟩ : Ahead σ) :=
        (agree _ rest.symm _ _).trans (agree _ (rest.trans (.append_left _ (.swap ..))).symm _ _).symm
      rw [visit_append,visit_append,accepted,pure_bind,pure_bind,visit_none_ahead,visit_none_ahead] at order
      have behind := congrArg (fun x => (fun r => (r.1,r.2.source)) <$> x) order
      simp only [Functor.map_map] at behind
      exact overlay_injective (.swap ..) f behind

end Keyload.Pattern
