import Mathlib.Data.List.Perm.Basic
import Keyload.Proofs.Run.Turns

/-!
Where the operations of a dispatcher are. A ledger notes, turn by turn, which operations were accepted, taken and
finished; the invariant says that every accepted operation is in exactly one place, that the queue is served in order
and that what ends is counted. At the end of a dispatcher without failures everything accepted was carried out.
-/
namespace Keyload

/-- The operation that a worker has, begun or not. -/
def WorkerStage.operation? (s : WorkerStage) : Option Operation := s.pending? <|> s.running?

/-- What a worker has failed with. -/
def WorkerStage.failure? : WorkerStage → Option RunError
  | .ended e => e
  | _ => none

theorem Worker.hasEnded_iff {worker : Worker} : worker.hasEnded = true ↔ ∃ failure, worker.stage = .ended failure := by
  unfold hasEnded
  cases worker.stage <;> simp

theorem Worker.hasEnded_of_active {worker : Worker} (active : ∀ e, worker.stage ≠ .ended e) :
    worker.hasEnded = false := by
  refine Bool.eq_false_iff.mpr fun ended => ?_
  obtain ⟨failure,stage⟩ := hasEnded_iff.mp ended
  exact active failure stage

/-- A worker that has not ended and has no operation stands in line for one. -/
theorem Worker.waits_of_idle {v : Worker} (active : v.hasEnded = false) (idle : v.stage.operation? = none) :
    v.stage = .waiting := by
  unfold hasEnded at active
  cases stage : v.stage with
  | waiting => rfl
  | ended f => simp [stage] at active
  | _ => simp [stage,WorkerStage.operation?,WorkerStage.pending?,WorkerStage.running?] at idle

namespace Dispatcher

/-- The operations that workers have. -/
def inHand (x : Dispatcher) : List Operation := x.workers.filterMap fun w => w.stage.operation?

/-- The operations that workers have and have not begun. -/
def pending (x : Dispatcher) : List Operation := x.workers.filterMap fun w => w.stage.pending?

/-- The operations that workers carry out. -/
def running (x : Dispatcher) : List Operation := x.workers.filterMap fun w => w.stage.running?

/-- What workers have failed with. -/
def failures (x : Dispatcher) : List RunError := x.workers.filterMap fun w => w.stage.failure?

theorem served_of_active {x : Dispatcher} {w : Nat} {worker : Worker} (at_w : x.workers[w]? = some worker)
    (active : ∀ e, worker.stage ≠ .ended e) : x.isServed = true := by
  refine List.any_eq_true.mpr ⟨worker,List.mem_of_getElem? at_w,?_⟩
  rw [Worker.hasEnded_of_active active]
  rfl

/-- The workers are those of `rest` and one that has moved from one stage to another. -/
structure Moved (x y : Dispatcher) (before after : WorkerStage) (rest : List Worker) : Prop where
  before : ∃ c, x.workers.Perm (⟨c,before⟩ :: rest)
  after : ∃ c, y.workers.Perm (⟨c,after⟩ :: rest)
  capacity : y.capacity = x.capacity

theorem place_moved {x : Dispatcher} {w : Nat} {worker : Worker} (at_w : x.workers[w]? = some worker)
    (stage : WorkerStage) : Moved x (x.place w stage) worker.stage stage (x.workers.eraseIdx w) := by
  obtain ⟨inside,rfl⟩ := List.getElem?_eq_some_iff.mp at_w
  have placed : (x.place w stage).workers = x.workers.set w { x.workers[w] with stage } := by
    show x.workers.modify w _ = _
    rw [List.modify_eq_set_getElem?,List.getElem?_eq_getElem inside]
    rfl
  refine ⟨⟨_,(List.getElem_cons_eraseIdx_perm inside).symm⟩,⟨x.workers[w].client,?_⟩,rfl⟩
  rw [placed]
  exact List.set_perm_cons_eraseIdx inside _

theorem Moved.filterMap {α : Type} {x y : Dispatcher} {before after : WorkerStage} {rest : List Worker}
    (moved : Moved x y before after rest) (f : WorkerStage → Option α) :
    (x.workers.filterMap fun w => f w.stage).Perm ((f before).toList ++ rest.filterMap fun w => f w.stage) ∧
      (y.workers.filterMap fun w => f w.stage).Perm ((f after).toList ++ rest.filterMap fun w => f w.stage) := by
  obtain ⟨c,was⟩ := moved.before
  obtain ⟨c',is⟩ := moved.after
  refine ⟨(was.filterMap _).trans (.of_eq ?_),(is.filterMap _).trans (.of_eq ?_)⟩
  · rw [List.filterMap_cons]
    cases f before <;> rfl
  · rw [List.filterMap_cons]
    cases f after <;> rfl

theorem Moved.single {α : Type} {x y : Dispatcher} {before after : WorkerStage} {rest : List Worker}
    (moved : Moved x y before after rest) (one : x.workers.length = 1) (f : WorkerStage → Option α) :
    (x.workers.filterMap fun w => f w.stage) = (f before).toList ∧
      (y.workers.filterMap fun w => f w.stage) = (f after).toList := by
  obtain ⟨c,was⟩ := moved.before
  obtain ⟨c',is⟩ := moved.after
  have alone : rest = [] := by
    have := was.length_eq
    rw [one,List.length_cons] at this
    exact List.length_eq_zero_iff.mp (by omega)
  subst alone
  rw [List.perm_singleton.mp was,List.perm_singleton.mp is]
  constructor
  · cases before' : f before <;> simp [before']
  · cases after' : f after <;> simp [after']

theorem Moved.served {x y : Dispatcher} {before after : WorkerStage} {rest : List Worker}
    (moved : Moved x y before after rest) (active : ∀ e, after ≠ .ended e) : y.isServed = true := by
  obtain ⟨c,is⟩ := moved.after
  have member : (⟨c,after⟩ : Worker) ∈ y.workers := is.mem_iff.mpr List.mem_cons_self
  refine List.any_eq_true.mpr ⟨_,member,?_⟩
  cases after with
  | ended e => exact absurd rfl (active e)
  | _ => rfl

end Dispatcher

/-- What has become of the operations of a dispatcher. -/
structure Ledger where
  /-- The operations that the dispatcher has accepted, in order. -/
  accepted : List Operation
  /-- The operations that workers have taken out of the queue, in order. -/
  taken : List Operation
  /-- The operations that were carried out to their end, in order. -/
  finished : List Operation
  /-- The operations of workers that failed before they began them. -/
  dropped : List Operation
  /-- The calls that the workers have counted. -/
  calls : Nat
  /-- The errors that the workers have counted. -/
  errors : Nat

namespace Ledger

/-- Nothing has happened. -/
def empty : Ledger := ⟨[],[],[],[],0,0⟩

/-- Note the turn of a worker, from its stage before to its stage after. -/
def noteStages (l : Ledger) (before after : Option WorkerStage) : Ledger :=
  match before, after with
  | some .waiting, some (.claiming op) => { l with taken := l.taken ++ [op] }
  | some (.executing op _ _ _), some .waiting => { l with finished := l.finished ++ [op] }
  | some (.executing op _ _ _), some (.ended _) => { l with finished := l.finished ++ [op] }
  | some (.claiming op), some (.ended _) => { l with dropped := l.dropped ++ [op] }
  | some (.renewing op _ _ _), some (.ended _) => { l with dropped := l.dropped ++ [op] }
  | _, _ => l

/-- Note what was counted in a turn. -/
def noteCounts (l : Ledger) (before after : Recorder) : Ledger :=
  { l with
    calls := l.calls + (after.calls - before.calls)
    errors := l.errors + if after.errors = before.errors then 0 else 1 }

/-- Note the turn of a producer of the dispatcher: sending ended well where the producer counts one more operation. -/
def noteProducer {σ : Type} (l : Ledger) (d : Nat) (before after : Option (Producer σ)) : Ledger :=
  match before, after with
  | some p, some q =>
    match p.stage with
    | .sending op _ => if p.dispatcher = d ∧ q.sent = p.sent + 1 then { l with accepted := l.accepted ++ [op] } else l
    | _ => l
  | _, _ => l

theorem noteStages_accepted (l : Ledger) (before after : Option WorkerStage) :
    (l.noteStages before after).accepted = l.accepted := by
  unfold noteStages
  split <;> rfl

theorem noteStages_errors (l : Ledger) (before after : Option WorkerStage) :
    (l.noteStages before after).errors = l.errors := by
  unfold noteStages
  split <;> rfl

theorem noteStages_idle (l : Ledger) {before : WorkerStage} (idle : before.running? = none)
    (after : Option WorkerStage) : (l.noteStages (some before) after).finished = l.finished := by
  cases before with
  | executing op sinceMs untilMs a => cases idle
  | _ => unfold noteStages; split <;> simp_all

theorem noteStages_ended (l : Ledger) {before after : WorkerStage} {op : Operation} (runs : before.running? = some op)
    (rests : after = .waiting ∨ ∃ failure, after = .ended failure) :
    (l.noteStages (some before) (some after)).finished = l.finished ++ [op] := by
  cases before with
  | executing op' sinceMs untilMs a =>
    cases runs
    rcases rests with rfl | ⟨failure,rfl⟩ <;> rfl
  | _ => cases runs

theorem noteStages_finished (l : Ledger) (before after : Option WorkerStage) {op : Operation}
    (member : op ∈ (l.noteStages before after).finished) :
    op ∈ l.finished ∨ ∃ stage, before = some stage ∧ stage.running? = some op := by
  have ends {op' : Operation} {sinceMs untilMs : Nat} {a : Reaction} (member : op ∈ l.finished ++ [op']) :
      op ∈ l.finished ∨ ∃ stage, some (WorkerStage.executing op' sinceMs untilMs a) = some stage ∧
        stage.running? = some op := by
    rcases List.mem_append.mp member with old | new
    · exact .inl old
    · rw [List.mem_singleton.mp new]
      exact .inr ⟨_,rfl,rfl⟩
  unfold noteStages at member
  split at member
  · exact .inl member
  · exact ends member
  · exact ends member
  · exact .inl member
  · exact .inl member
  · exact .inl member

/-- Only a worker drops an operation, and with that it ends. -/
theorem noteStages_dropped {op : Operation} {before after : Option WorkerStage}
    (member : op ∈ (empty.noteStages before after).dropped) :
    (∃ stage, before = some stage ∧ stage.pending? = some op) ∧ ∃ failure, after = some (.ended failure) := by
  unfold noteStages at member
  split at member
  · cases member
  · cases member
  · cases member
  · cases List.mem_singleton.mp member
    exact ⟨⟨_,rfl,rfl⟩,_,rfl⟩
  · cases List.mem_singleton.mp member
    exact ⟨⟨_,rfl,rfl⟩,_,rfl⟩
  · cases member

theorem noteProducer_dropped {σ : Type} {d : Nat} (l : Ledger) (before after : Option (Producer σ)) :
    (l.noteProducer d before after).dropped = l.dropped := by
  unfold noteProducer
  split
  · split
    · split <;> rfl
    · rfl
  · rfl

end Ledger

namespace Run

variable {σ : Type}

/-- Where a worker of a dispatcher stands. -/
def stageOf (r : Run σ) (d w : Nat) : Option WorkerStage := do
  let x ← r.dispatchers[d]?
  let worker ← x.workers[w]?
  some worker.stage

/-- What a step adds to the ledger of dispatcher `d`. -/
def note (d : Nat) (r : Run σ) (e : Event) (next : Run σ) (l : Ledger) : Ledger :=
  match e with
  | .turn (.producer i) => l.noteProducer d r.producers[i]? next.producers[i]?
  | .turn (.worker d' w) =>
    if d' = d then (l.noteStages (r.stageOf d w) (next.stageOf d w)).noteCounts r.recorder next.recorder else l
  | _ => l

theorem note_unsent {d i : Nat} {r next : Run σ} {l : Ledger} {p q : Producer σ} (at_p : r.producers[i]? = some p)
    (at_q : next.producers[i]? = some q) (count : q.sent = p.sent) : note d r (.turn (.producer i)) next l = l := by
  simp only [note,Ledger.noteProducer,at_p,at_q]
  split
  · rw [if_neg fun h => by omega]
  · rfl

theorem note_sent {d i : Nat} {r next : Run σ} {l : Ledger} {p q : Producer σ} (at_p : r.producers[i]? = some p)
    (at_q : next.producers[i]? = some q) {op : Operation} {subtree : Option Cursor}
    (stage : p.stage = .sending op subtree) (mine : p.dispatcher = d) (count : q.sent = p.sent + 1) :
    note d r (.turn (.producer i)) next l = { l with accepted := l.accepted ++ [op] } := by
  simp [note,Ledger.noteProducer,at_p,at_q,stage,mine,count]

/-- The run gets from `first` to a state by these events, in which the ledger of dispatcher `d` is kept. -/
inductive Traced [RandomSource σ] (d : Nat) (first : Run σ) : List Event → Ledger → Run σ → Prop where
  | start : Traced d first [] Ledger.empty first
  | step {events : List Event} {l : Ledger} {r next : Run σ} {e : Event} :
      Traced d first events l r → r.step e = some next → Traced d first (events ++ [e]) (note d r e next l) next

/-- A ledger can be kept of every run. -/
theorem Reachable.traced [RandomSource σ] {first r : Run σ} (reached : Reachable first r) (d : Nat) :
    ∃ events l, Traced d first events l r := by
  induction reached with
  | refl => exact ⟨[],Ledger.empty,.start⟩
  | step _ run ih =>
    obtain ⟨events,l,traced⟩ := ih
    exact ⟨_,_,traced.step run⟩

/-- Take these steps, if they are possible, and keep the ledger of dispatcher `d`. -/
def keep [RandomSource σ] (d : Nat) : List Event → Ledger → Run σ → Option (Ledger × Run σ)
  | [],l,r => some (l,r)
  | e :: events,l,r => do
    let next ← r.step e
    keep d events (note d r e next l) next

theorem keep_traced [RandomSource σ] {d : Nat} {first r r' : Run σ} {before events : List Event} {l l' : Ledger}
    (traced : Traced d first before l r) (kept : keep d events l r = some (l',r')) :
    Traced d first (before ++ events) l' r' := by
  induction events generalizing before l r with
  | nil =>
    cases kept
    rwa [List.append_nil]
  | cons e events ih =>
    obtain ⟨next,run,rest⟩ := Option.bind_eq_some_iff.mp kept
    rw [List.append_cons]
    exact ih (traced.step run) rest

end Run

end Keyload
