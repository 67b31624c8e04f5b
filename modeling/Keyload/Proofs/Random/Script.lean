import Mathlib.Data.Stream.Init
import Keyload.Random.Uniform

/-!
What a draw does, word by word. A draw that is written for every source is the run of one script, which
asks for words one at a time. So a draw that ends has looked at finitely many words, and any tape that
begins with these words makes it end in the same way. This is how a proof chooses what is drawn.
-/
namespace Keyload

/-- What an outcome that is a value went through. -/
theorem Outcome.bind_ok {ε α β : Type} {x : Outcome ε α} {f : α → Outcome ε β} {b : β}
    (run : (x >>= f).run = .ok (.ok b)) : ∃ a, x.run = .ok (.ok a) ∧ (f a).run = .ok (.ok b) := by
  change x.run.bind (ExceptT.bindCont f) = _ at run
  cases first : x.run with
  | error e => rw [first] at run; cases run
  | ok r =>
    rw [first] at run
    cases r with
    | error e => cases run
    | ok a => exact ⟨a,rfl,run⟩

theorem Except.ok_of_any {ε α : Type} {x : Except ε α} {check : α → Bool} (passed : x.toOption.any check = true) :
    ∃ a, x = .ok a ∧ check a = true := by
  cases x with
  | error e => cases passed
  | ok a => exact ⟨a,rfl,passed⟩

namespace Draw

variable {α β : Type}

/-! ### Steps of a draw -/

section
variable {σ : Type}

theorem bind_apply (x : Draw σ α) (f : α → Draw σ β) (g : σ) :
    (x >>= f) g = (x g).bind fun r => f r.1 r.2 := rfl

theorem map_apply (x : Draw σ α) (f : α → β) (g : σ) : (f <$> x) g = (x g).map fun r => (f r.1,r.2) := by
  show (x g).bind (fun r => .ok (f r.1,r.2)) = _
  cases x g <;> rfl

theorem map_ok {x : Draw σ α} {f : α → β} {g g' : σ} {b : β} (run : (f <$> x) g = .ok (b,g')) :
    ∃ a, x g = .ok (a,g') ∧ f a = b := by
  rw [map_apply] at run
  cases drawn : x g with
  | error e =>
    rw [drawn] at run
    cases run
  | ok r =>
    rw [drawn] at run
    cases run
    exact ⟨r.1,rfl,rfl⟩

theorem map_error {x : Draw σ α} {f : α → β} {g : σ} {e : Fault} (run : (f <$> x) g = .error e) : x g = .error e := by
  rw [map_apply] at run
  cases drawn : x g with
  | error e' =>
    rw [drawn] at run
    cases run
    rfl
  | ok r =>
    rw [drawn] at run
    cases run

theorem bind_ok {x : Draw σ α} {f : α → Draw σ β} {g g' : σ} {b : β} (run : (x >>= f) g = .ok (b,g')) :
    ∃ a h, x g = .ok (a,h) ∧ f a h = .ok (b,g') := by
  rw [bind_apply] at run
  cases drawn : x g with
  | error e => rw [drawn] at run; cases run
  | ok r => exact ⟨r.1,r.2,rfl,by rw [drawn] at run; exact run⟩

theorem bind_error {x : Draw σ α} {f : α → Draw σ β} {g : σ} {e : Fault} (run : (x >>= f) g = .error e) :
    x g = .error e ∨ ∃ a h, x g = .ok (a,h) ∧ f a h = .error e := by
  rw [bind_apply] at run
  cases drawn : x g with
  | error e' => rw [drawn] at run; cases run; exact .inl rfl
  | ok r => exact .inr ⟨r.1,r.2,rfl,by rw [drawn] at run; exact run⟩

theorem bind_run {x : Draw σ α} {f : α → Draw σ β} {g h : σ} {a : α} (first : x g = .ok (a,h)) :
    (x >>= f) g = f a h := by
  rw [bind_apply,first]
  rfl

theorem bind_stopped {x : Draw σ α} {f : α → Draw σ β} {g : σ} {e : Fault} (first : x g = .error e) :
    (x >>= f) g = .error e := by
  rw [bind_apply,first]
  rfl

theorem pure_ok {a b : α} {g g' : σ} (run : (pure a : Draw σ α) g = .ok (b,g')) : a = b ∧ g = g' := by
  cases run
  exact ⟨rfl,rfl⟩

end

/-! ### Draws that may fail -/

section
variable {σ ε α β : Type} {x : ExceptT ε (Draw σ) α} {f : α → ExceptT ε (Draw σ) β} {g h : σ}

theorem bind_value {a : α} (first : x.run g = .ok (.ok a,h)) : (x >>= f).run g = (f a).run h := by
  rw [ExceptT.run_bind]
  exact bind_run first

theorem bind_refused {e : ε} (first : x.run g = .ok (.error e,h)) : (x >>= f).run g = .ok (.error e,h) := by
  rw [ExceptT.run_bind]
  exact bind_run first

theorem bind_halted {fault : Fault} (first : x.run g = .error fault) : (x >>= f).run g = .error fault := by
  rw [ExceptT.run_bind]
  exact bind_stopped first

/-- What a value went through. -/
theorem then_ok {b : β} (run : (x >>= f).run g = .ok (.ok b,h)) :
    ∃ a g', x.run g = .ok (.ok a,g') ∧ (f a).run g' = .ok (.ok b,h) := by
  obtain ⟨r,g',first,run⟩ := bind_ok (x := x.run) (f := ExceptT.bindCont f) run
  cases r with
  | error e => cases run
  | ok a => exact ⟨a,g',first,run⟩

/-- What a failure went through. -/
theorem then_refused {e : ε} (run : (x >>= f).run g = .ok (.error e,h)) :
    x.run g = .ok (.error e,h) ∨ ∃ a g', x.run g = .ok (.ok a,g') ∧ (f a).run g' = .ok (.error e,h) := by
  obtain ⟨r,g',first,run⟩ := bind_ok (x := x.run) (f := ExceptT.bindCont f) run
  cases r with
  | error e' =>
    cases run
    exact .inl first
  | ok a => exact .inr ⟨a,g',first,run⟩

theorem lifted_value {x : Draw σ α} {a : α} (drawn : x g = .ok (a,h)) :
    (liftM x : ExceptT ε (Draw σ) α).run g = .ok (.ok a,h) := by
  show (Except.ok <$> x) g = _
  rw [map_apply,drawn]
  rfl

theorem lifted_halted {x : Draw σ α} {fault : Fault} (stopped : x g = .error fault) :
    (liftM x : ExceptT ε (Draw σ) α).run g = .error fault := by
  show (Except.ok <$> x) g = _
  rw [map_apply,stopped]
  rfl

theorem map_value {f : α → β} {a : α} (first : x.run g = .ok (.ok a,h)) : (f <$> x).run g = .ok (.ok (f a),h) := by
  rw [ExceptT.run_map,map_apply,first]
  rfl

theorem map_refused {f : α → β} {e : ε} (first : x.run g = .ok (.error e,h)) :
    (f <$> x).run g = .ok (.error e,h) := by
  rw [ExceptT.run_map,map_apply,first]
  rfl

theorem map_halted {f : α → β} {fault : Fault} (first : x.run g = .error fault) : (f <$> x).run g = .error fault := by
  rw [ExceptT.run_map,map_apply,first]
  rfl

theorem map_same {f : α → β} {y : ExceptT ε (Draw σ) α} (same : x.run g = y.run h) :
    (f <$> x).run g = (f <$> y).run h := by
  rw [ExceptT.run_map,ExceptT.run_map,map_apply,map_apply,same]

theorem times_ok {x : Draw σ α} {n : Nat} {as : List α} {g g' : σ} (run : times x n g = .ok (as,g')) :
    as.length = n ∧ ∀ a ∈ as, ∃ k k', x k = .ok (a,k') := by
  induction n generalizing as g g' with
  | zero =>
    obtain ⟨rfl,-⟩ := pure_ok run
    exact ⟨rfl,nofun⟩
  | succ n ih =>
    obtain ⟨a,k,first,run⟩ := bind_ok run
    obtain ⟨rest,k',later,run⟩ := bind_ok run
    obtain ⟨rfl,-⟩ := pure_ok run
    obtain ⟨length,drawn⟩ := ih later
    exact ⟨by rw [List.length_cons,length],List.forall_mem_cons.mpr ⟨⟨g,k,first⟩,drawn⟩⟩

theorem times_draws {x : Draw σ α} {P : α → Prop} (draws : ∀ g, ∃ a g', x g = .ok (a,g') ∧ P a) (n : Nat) (g : σ) :
    ∃ as g', times x n g = .ok (as,g') ∧ as.length = n ∧ ∀ a ∈ as, P a := by
  induction n generalizing g with
  | zero => exact ⟨[],g,rfl,rfl,by simp⟩
  | succ n ih =>
    obtain ⟨a,h,first,good⟩ := draws g
    obtain ⟨as,g',others,length,allGood⟩ := ih h
    refine ⟨a :: as,g',?_,by rw [List.length_cons,length],List.forall_mem_cons.mpr ⟨good,allGood⟩⟩
    rw [times,bind_run first,bind_run others]
    rfl

end

/-! ### Scripts -/

/-- An ending, or a word asked for and what follows each answer. -/
inductive Script (α : Type) where
  | result (a : α)
  | fault (f : Fault)
  | ask (next : UInt64 → Script α)

namespace Script

variable {σ : Type} [RandomSource σ]

/-- Let a source answer. -/
def run : Script α → Draw σ α
  | .result a => pure a
  | .fault f => Draw.stop f
  | .ask next => fun g => (next (RandomSource.next g).1).run (RandomSource.next g).2

/-- One script after another. -/
def andThen : Script α → (α → Script β) → Script β
  | .result a, f => f a
  | .fault e, _ => .fault e
  | .ask next, f => .ask fun w => (next w).andThen f

theorem run_andThen (s : Script α) (f : α → Script β) :
    (s.andThen f).run = (s.run >>= fun a => (f a).run : Draw σ β) := by
  funext g
  induction s generalizing g with
  | result a => rfl
  | fault e => rfl
  | ask next ih => exact ih (RandomSource.next g).1 (RandomSource.next g).2

end Script

/-- The draw is the run of one script from every source. -/
def Scripted (x : ∀ (σ : Type) [RandomSource σ], Draw σ α) : Prop :=
  ∃ s : Script α, ∀ (σ : Type) [RandomSource σ], x σ = s.run

/-! ### Draws that have a script -/

theorem scripted_pure (a : α) : Scripted fun σ [RandomSource σ] => (pure a : Draw σ α) :=
  ⟨.result a,fun _ _ => rfl⟩

theorem scripted_stop (f : Fault) : Scripted fun σ [RandomSource σ] => (Draw.stop f : Draw σ α) :=
  ⟨.fault f,fun _ _ => rfl⟩

theorem scripted_lift (x : Except Fault α) : Scripted fun σ [RandomSource σ] => (Draw.lift x : Draw σ α) := by
  cases x with
  | ok a => exact ⟨.result a,fun _ _ => rfl⟩
  | error f => exact ⟨.fault f,fun _ _ => rfl⟩

theorem scripted_word : Scripted fun σ [RandomSource σ] => (Draw.word : Draw σ Nat) :=
  ⟨.ask fun w => .result w.toNat,fun _ _ => rfl⟩

theorem scripted_halfWord : Scripted fun σ [RandomSource σ] => (Draw.halfWord : Draw σ Nat) :=
  ⟨.ask fun w => .result (w.toNat / Word.halfLimit),fun _ _ => rfl⟩

theorem Scripted.bind {x : ∀ (σ : Type) [RandomSource σ], Draw σ α}
    {f : α → ∀ (σ : Type) [RandomSource σ], Draw σ β} (first : Scripted x) (then_ : ∀ a, Scripted (f a)) :
    Scripted fun σ [RandomSource σ] => x σ >>= fun a => f a σ := by
  obtain ⟨s,sIs⟩ := first
  choose t tIs using then_
  refine ⟨s.andThen t,fun σ _ => ?_⟩
  show (x σ >>= fun a => f a σ) = _
  rw [Script.run_andThen,sIs]
  exact congrArg (s.run >>= ·) (funext fun a => tIs a σ)

theorem Scripted.ite {c : Prop} [Decidable c] {x y : ∀ (σ : Type) [RandomSource σ], Draw σ α}
    (yes : Scripted x) (no : Scripted y) :
    Scripted fun σ [RandomSource σ] => if c then x σ else y σ := by
  by_cases holds : c
  · simpa [holds] using yes
  · simpa [holds] using no

/-! ### Tapes -/

/-- A source that is written out in advance. -/
abbrev Tape := Stream' UInt64

instance : RandomSource Tape := ⟨fun t => (t.head,t.tail)⟩

/-- The draw looks at exactly these words of a tape, and yields a value. -/
def Reads (x : Draw Tape α) (ws : List UInt64) (a : α) : Prop :=
  ∀ rest : Tape, x (ws ++ₛ rest) = .ok (a,rest)

/-- The draw looks at exactly these words of a tape, and stops. -/
def Halts (x : Draw Tape α) (ws : List UInt64) (f : Fault) : Prop :=
  ∀ rest : Tape, x (ws ++ₛ rest) = .error f

theorem reads_pure (a : α) : Reads (pure a) [] a := fun _ => rfl

theorem reads_bind {x : Draw Tape α} {f : α → Draw Tape β} {us vs : List UInt64} {a : α} {b : β}
    (first : Reads x us a) (then_ : Reads (f a) vs b) : Reads (x >>= f) (us ++ vs) b := by
  intro rest
  show (x (us ++ vs ++ₛ rest)).bind (fun r => f r.1 r.2) = _
  rw [Stream'.append_append_stream,first]
  exact then_ rest

/-- What can be drawn one by one can be drawn in a row. -/
theorem reads_times {x : Draw Tape α} {as : List α} (each : ∀ a ∈ as, ∃ ws, Reads x ws a) :
    ∃ ws, Reads (times x as.length) ws as := by
  induction as with
  | nil => exact ⟨[],reads_pure []⟩
  | cons a as ih =>
    obtain ⟨⟨us,first⟩,others⟩ := List.forall_mem_cons.mp each
    obtain ⟨vs,later⟩ := ih others
    refine ⟨us ++ vs,fun rest => ?_⟩
    rw [Stream'.append_append_stream,List.length_cons,times,bind_run (first (vs ++ₛ rest)),bind_run (later rest)]
    rfl

private theorem reads_ask (next : UInt64 → Script α) (w : UInt64) {ws : List UInt64} {a : α}
    (after : Reads (next w).run ws a) : Reads (Script.ask next).run (w :: ws) a := after

/-- What was drawn from some source can be drawn from a tape. -/
theorem Scripted.reads {x : ∀ (σ : Type) [RandomSource σ], Draw σ α} (scripted : Scripted x)
    {σ : Type} [RandomSource σ] {g g' : σ} {a : α} (drawn : x σ g = .ok (a,g')) :
    ∃ ws, Reads (x Tape) ws a := by
  obtain ⟨s,sIs⟩ := scripted
  rw [sIs] at drawn ⊢
  clear sIs
  induction s generalizing g with
  | result b =>
    have same : b = a := congrArg Prod.fst (Except.ok.inj drawn)
    exact ⟨[],same ▸ reads_pure b⟩
  | fault f => cases drawn
  | ask next ih =>
    obtain ⟨ws,reads⟩ := ih _ drawn
    exact ⟨_ :: ws,reads_ask next _ reads⟩

/-- A draw from a tape ends after finitely many words. -/
theorem Scripted.ends {x : ∀ (σ : Type) [RandomSource σ], Draw σ α} (scripted : Scripted x) (t : Tape) :
    ∃ ws rest, t = ws ++ₛ rest ∧ ((∃ a, Reads (x Tape) ws a) ∨ ∃ f, Halts (x Tape) ws f) := by
  obtain ⟨s,sIs⟩ := scripted
  rw [sIs]
  clear sIs
  induction s generalizing t with
  | result a => exact ⟨[],t,rfl,.inl ⟨a,reads_pure a⟩⟩
  | fault f => exact ⟨[],t,rfl,.inr ⟨f,fun _ => rfl⟩⟩
  | ask next ih =>
    obtain ⟨ws,rest,split,ending⟩ := ih t.head t.tail
    refine ⟨t.head :: ws,rest,?_,?_⟩
    · rw [Stream'.cons_append_stream,← split,Stream'.eta]
    · rcases ending with ⟨a,reads⟩ | ⟨f,halts⟩
      · exact .inl ⟨a,reads_ask next _ reads⟩
      · exact .inr ⟨f,halts⟩

/-! ### Words ahead of a source -/

/-- Words that are drawn first, and a source for what is drawn after them. -/
structure Ahead (σ : Type) where
  words : List UInt64
  source : σ

section
variable {σ : Type} [RandomSource σ]

/-- The next word, and where it was the first of the words, the others. -/
def Ahead.next : Ahead σ → UInt64 × Ahead σ
  | ⟨w :: words,g⟩ => (w,⟨words,g⟩)
  | ⟨[],g⟩ => ((RandomSource.next g).1,⟨[],(RandomSource.next g).2⟩)

instance : RandomSource (Ahead σ) := ⟨Ahead.next⟩

/-- The first `n` words of a source. -/
def heard : Nat → σ → List UInt64
  | 0,_ => []
  | n + 1,g => (RandomSource.next g).1 :: heard n (RandomSource.next g).2

/-- The source after `n` words. -/
def later : Nat → σ → σ
  | 0,g => g
  | n + 1,g => later n (RandomSource.next g).2

theorem heard_add (m n : Nat) (g : σ) : heard (m + n) g = heard m g ++ heard n (later m g) := by
  induction m generalizing g with
  | zero => rw [Nat.zero_add]; rfl
  | succ m ih =>
    rw [Nat.succ_add]
    exact congrArg _ (ih _)

/-- Without words ahead of it, a source answers as before. -/
theorem Script.run_none_ahead (s : Script α) (g : σ) :
    s.run (⟨[],g⟩ : Ahead σ) = (s.run g).map fun r => (r.1,⟨[],r.2⟩) := by
  induction s generalizing g with
  | result a => rfl
  | fault f => rfl
  | ask next ih => exact ih _ _

/-- A draw that ended depends on the words that it has heard. -/
theorem Script.run_heard {s : Script α} {g h : σ} {a : α} (drawn : s.run g = .ok (a,h)) :
    ∃ n, h = later n g ∧ ∀ {τ : Type} [RandomSource τ] (rest : List UInt64) (k : τ),
      s.run (⟨heard n g ++ rest,k⟩ : Ahead τ) = .ok (a,⟨rest,k⟩) := by
  induction s generalizing g with
  | result b =>
    cases drawn
    exact ⟨0,rfl,fun rest k => rfl⟩
  | fault f => cases drawn
  | ask next ih =>
    obtain ⟨n,after,again⟩ := ih _ drawn
    exact ⟨n + 1,after,fun rest k => again rest k⟩

end

end Draw

end Keyload
