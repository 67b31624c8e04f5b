import Keyload.Proofs.Run.Reports

/-!
The moves of producers, each with the state that it leads to. A producer that is told to end never begins a step, and
none ever changes its dispatcher or the signal that it listens to.
-/
namespace Keyload

variable {σ : Type} [RandomSource σ]

/-- How a producer goes on by itself at some time, in a run that is told to end or not. -/
inductive Producer.Goes (told : Bool) (nowMs : Nat) (p q : Producer σ) : Prop where
  | ends (active : p.hasEnded = false) (after : q = p.inStage .ended)
  | wakes {untilMs : Nat} (stage : p.stage = .delayed untilMs) (heard : told = false) (after : q = p.wake nowMs)
  | chooses (stage : p.stage = .choosing) (after : p.choose = some q)
  | begins {held : Option Operation} (stage : p.stage = .pacing held) (heard : told = false)
      (after : q = (p.tick nowMs).beginStep held)

/-- Whether the work is that of an initial load. -/
def Work.isLoad : Work → Bool
  | .load _ => true
  | _ => false

/-- The same dispatcher and signal, and work of the same kind, still of its own if it was. -/
structure Producer.Alike (p q : Producer σ) : Prop where
  dispatcher : q.dispatcher = p.dispatcher
  signal : q.signal = p.signal
  loads : q.work.isLoad = p.work.isLoad
  own : (∀ ops, p.work ≠ .given ops) → ∀ ops, q.work ≠ .given ops

namespace Producer.Alike

variable {p q q' : Producer σ}

omit [RandomSource σ] in
theorem of_same (dispatcher : q.dispatcher = p.dispatcher) (signal : q.signal = p.signal) (work : q.work = p.work) :
    Alike p q := ⟨dispatcher,signal,by rw [work],fun own => work ▸ own⟩

omit [RandomSource σ] in
theorem of_work (dispatcher : q.dispatcher = p.dispatcher) (signal : q.signal = p.signal)
    (loads : q.work.isLoad = p.work.isLoad) (own : ∀ ops, q.work ≠ .given ops) : Alike p q :=
  ⟨dispatcher,signal,loads,fun _ => own⟩

omit [RandomSource σ] in
theorem trans (first : Alike p q) (then_ : Alike q q') : Alike p q' :=
  ⟨then_.dispatcher.trans first.dispatcher,then_.signal.trans first.signal,then_.loads.trans first.loads,
    fun own => then_.own (first.own own)⟩

omit [RandomSource σ] in
theorem drawing {α : Type} (p : Producer σ) (x : Draw σ α) {next : α → Producer σ → Producer σ}
    (after : ∀ a source, Alike p (next a { p with source })) : Alike p (p.drawing x next) := by
  unfold Producer.drawing
  split
  · exact after _ _
  · exact .of_same rfl rfl rfl

theorem build (p : Producer σ) (levels : List Pattern.Level) (c : Cursor) : Alike p (p.build levels c) := by
  refine drawing p _ fun drawn source => ?_
  obtain ⟨op,subtree⟩ := drawn
  cases op <;> exact .of_same rfl rfl rfl

theorem choose (chosen : p.choose = some q) : Alike p q := by
  unfold Producer.choose at chosen
  split at chosen
  · rename_i keys work
    cases chosen
    refine drawing p _ fun drawn source => ?_
    obtain ⟨entry,keys'⟩ := drawn
    cases entry <;> exact .of_work rfl rfl (by rw [work]; rfl) (by simp)
  · cases chosen
    exact .of_same rfl rfl rfl
  · cases chosen
    exact .of_same rfl rfl rfl
  · cases chosen
  · rename_i op ops given
    cases chosen
    exact ⟨rfl,rfl,by rw [given]; rfl,fun own => absurd given (own _)⟩

theorem beginStep (p : Producer σ) (held : Option Operation) : Alike p (p.beginStep held) := by
  cases held with
  | some op => exact .of_same rfl rfl rfl
  | none =>
    unfold Producer.beginStep
    dsimp only
    split
    · rename_i a work
      refine drawing p _ fun drawn source => ?_
      obtain ⟨step,a'⟩ := drawn
      have noted : Alike p { p with source, work := .activity a' } := .of_work rfl rfl (by rw [work]; rfl) (by simp)
      cases step with
      | send op => exact noted.trans (.of_same rfl rfl rfl)
      | build subtree => exact noted.trans (build _ _ _)
      | nothing => exact noted.trans (.of_same rfl rfl rfl)
    · exact .of_same rfl rfl rfl
    · exact .of_same rfl rfl rfl

theorem proceed (p : Producer σ) (subtree : Option Cursor) : Alike p (p.proceed subtree) := by
  unfold Producer.proceed
  dsimp only
  have counted : Alike p { p with sent := p.sent + 1 } := .of_same rfl rfl rfl
  split
  · exact counted.trans (build _ _ _)
  · exact .of_same rfl rfl rfl

omit [RandomSource σ] in
theorem wake (p : Producer σ) (nowMs : Nat) : Alike p (p.wake nowMs) := by
  unfold Producer.wake
  split <;> exact .of_same rfl rfl rfl

theorem goes {told : Bool} {nowMs : Nat} (goes : p.Goes told nowMs q) : Alike p q := by
  cases goes with
  | ends active after =>
    subst after
    exact .of_same rfl rfl rfl
  | wakes stage heard after =>
    subst after
    exact wake p nowMs
  | chooses stage after => exact choose after
  | begins stage heard after =>
    subst after
    have ticked : Alike p (p.tick nowMs) := .of_same rfl rfl rfl
    exact ticked.trans (beginStep _ _)

end Producer.Alike

namespace Run

variable {r next : Run σ} {i : Nat}

/-- What producer `i` can do when it has its turn, the producer being `p` and its dispatcher `x`. -/
inductive ProducerMove (r next : Run σ) (i : Nat) (p : Producer σ) (x : Dispatcher) : Prop where
  | goes {q : Producer σ} (goes : p.Goes r.stopped r.nowMs q) (after : next = r.placeProducer i q)
  | sends {op : Operation} {subtree : Option Cursor} (stage : p.stage = .sending op subtree) (told : r.stopped = false)
      (after : next = (r.onDispatcher p.dispatcher (·.accept i op)).placeProducer i (p.proceed subtree))
  | enlists (told : r.stopped = false) (after : next = r.onDispatcher p.dispatcher (·.enlist i))

/-- The turn of a producer is one of its moves. -/
theorem moveProducer_move (run : r.moveProducer i = some next) :
    ∃ p x, r.producers[i]? = some p ∧ r.dispatchers[p.dispatcher]? = some x ∧ ProducerMove r next i p x := by
  obtain ⟨p,at_i,run⟩ := Option.bind_eq_some_iff.mp run
  obtain ⟨x,at_d,run⟩ := Option.bind_eq_some_iff.mp run
  refine ⟨p,x,at_i,at_d,?_⟩
  have heard (calm : ¬ r.isInterrupted p = true) : r.stopped = false := by
    cases told : r.stopped with
    | false => rfl
    | true => exact absurd (by simp [isInterrupted,told]) calm
  cases stage : p.stage with
  | delayed untilMs =>
    have active : p.hasEnded = false := by simp [Producer.hasEnded,stage]
    simp only [stage] at run
    split at run
    · cases run
      exact .goes (.ends active rfl) rfl
    · rename_i calm
      split at run
      · cases run
        exact .goes (.wakes stage (heard calm) rfl) rfl
      · cases run
  | choosing =>
    simp only [stage] at run
    obtain ⟨q,chosen,rfl⟩ := Option.map_eq_some_iff.mp run
    exact .goes (.chooses stage chosen) rfl
  | pacing held =>
    have active : p.hasEnded = false := by simp [Producer.hasEnded,stage]
    simp only [stage] at run
    split at run
    · cases run
      exact .goes (.ends active rfl) rfl
    · rename_i calm
      split at run
      · cases run
        exact .goes (.begins stage (heard calm) rfl) rfl
      · cases run
  | sending op subtree =>
    have active : p.hasEnded = false := by simp [Producer.hasEnded,stage]
    simp only [stage] at run
    unfold send at run
    split at run
    · cases run
      exact .goes (.ends active rfl) rfl
    · rename_i goes
      simp only [Bool.or_eq_true,not_or,Bool.not_eq_true] at goes
      split at run
      · cases run
        exact .sends stage goes.1 rfl
      · split at run
        · cases run
        · cases run
          exact .enlists goes.1 rfl
  | ended =>
    simp only [stage] at run
    cases run
  | broken f =>
    simp only [stage] at run
    cases run

end Run

end Keyload
