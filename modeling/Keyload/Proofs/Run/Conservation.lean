import Keyload.Proofs.Run.Ledger

/-!
Conservation of the operations of a dispatcher, through every order of steps. A step accepts an operation, is the turn
of one of the workers, or leaves the dispatcher alone; each keeps the invariant that ties the ledger to the queue, the
workers and the record of the store.
-/
namespace Keyload

open Dispatcher (Moved Alike place_moved)

/-- The ledger of a dispatcher agrees with its queue and its workers, which are as many as at first, and with what
they have begun. -/
structure Ledger.Balanced (first : Dispatcher) (l : Ledger) (x : Dispatcher) (begun : List Operation) : Prop where
  workers : x.workers.length = first.workers.length
  capacity : x.capacity = first.capacity
  /-- What has left the queue has left it in order. -/
  order : l.accepted = l.taken ++ x.queue
  room : x.queue.length ≤ x.capacity
  hands : l.taken.Perm (l.finished ++ x.inHand ++ l.dropped)
  carried : begun.Perm (l.finished ++ x.running)
  counted : l.calls + l.errors + x.failures.length = l.finished.length + l.dropped.length
  dropped : l.dropped.length ≤ x.failures.length
  /-- Workers that have not failed leave nothing behind. -/
  drained : x.isServed = false → x.failures = [] → x.queue = []
  single : first.workers.length = 1 → l.taken = begun ++ x.pending ++ l.dropped
  inTurn : first.workers.length = 1 → begun = l.finished ++ x.running

namespace Ledger.Balanced

variable {first : Dispatcher} {l : Ledger} {x y : Dispatcher} {begun : List Operation} {op : Operation}

theorem alike (balanced : Balanced first l x begun) (same : y.Alike x) : Balanced first l y begun := by
  obtain ⟨queue,workers,capacity⟩ := same
  have inHand : y.inHand = x.inHand := by rw [Dispatcher.inHand,workers]; rfl
  have running : y.running = x.running := by rw [Dispatcher.running,workers]; rfl
  have pending : y.pending = x.pending := by rw [Dispatcher.pending,workers]; rfl
  have failures : y.failures = x.failures := by rw [Dispatcher.failures,workers]; rfl
  have served : y.isServed = x.isServed := by rw [Dispatcher.isServed,workers]; rfl
  exact ⟨by rw [workers]; exact balanced.workers,capacity.trans balanced.capacity,
    by rw [queue]; exact balanced.order,by rw [queue,capacity]; exact balanced.room,
    by rw [inHand]; exact balanced.hands,by rw [running]; exact balanced.carried,
    by rw [failures]; exact balanced.counted,by rw [failures]; exact balanced.dropped,
    by rw [served,failures,queue]; exact balanced.drained,by rw [pending]; exact balanced.single,
    by rw [running]; exact balanced.inTurn⟩

theorem accept (balanced : Balanced first l x begun) (served : x.isServed = true)
    (room : x.queue.length < x.capacity) (i : Nat)
    (op : Operation) : Balanced first { l with accepted := l.accepted ++ [op] } (x.accept i op) begun := by
  refine ⟨balanced.workers,balanced.capacity,?_,?_,balanced.hands,balanced.carried,balanced.counted,balanced.dropped,
    fun unserved => ?_,balanced.single,balanced.inTurn⟩
  · simp only [balanced.order,Dispatcher.accept,List.append_assoc]
  · simp only [Dispatcher.accept,List.length_append,List.length_singleton]
    omega
  · have : x.isServed = false := unserved
    rw [served] at this
    cases this

/-- What the turn of a worker adds: operations taken, finished, dropped and begun, and what is counted. -/
structure Adds (l l' : Ledger) (taken finished dropped begun : List Operation) (before after : WorkerStage) : Prop where
  accepted : l'.accepted = l.accepted
  moreTaken : l'.taken = l.taken ++ taken
  moreFinished : l'.finished = l.finished ++ finished
  moreDropped : l'.dropped = l.dropped ++ dropped
  counted : l'.calls + l'.errors + after.failure?.toList.length =
    l.calls + l.errors + finished.length + dropped.length
  hands : (taken ++ before.operation?.toList).Perm (finished ++ after.operation?.toList ++ dropped)
  carried : before.running?.toList ++ begun = finished ++ after.running?.toList
  line : before.pending?.toList ++ taken = begun ++ after.pending?.toList ++ dropped
  well : before.failure? = none
  lost : dropped.length ≤ after.failure?.toList.length

/-- The turn of a worker keeps the balance. -/
theorem move {l' : Ledger} {before after : WorkerStage} {rest : List Worker}
    {taken finished dropped new : List Operation}
    (balanced : Balanced first l x begun) (moved : Moved x y before after rest)
    (adds : Adds l l' taken finished dropped new before after) (queue : x.queue = taken ++ y.queue)
    (left : (∀ e, after ≠ .ended e) ∨ after.failure? ≠ none ∨ y.queue = []) : Balanced first l' y (begun ++ new) := by
  have hands := moved.filterMap WorkerStage.operation?
  have running := moved.filterMap WorkerStage.running?
  have failures := moved.filterMap WorkerStage.failure?
  have failed : x.failures.length + after.failure?.toList.length = y.failures.length := by
    have before' := failures.1.length_eq
    have after' := failures.2.length_eq
    rw [List.length_append,adds.well] at before'
    rw [List.length_append] at after'
    simp only [Dispatcher.failures] at *
    simp at before'
    omega
  have count : y.workers.length = x.workers.length := by
    obtain ⟨c,was⟩ := moved.before
    obtain ⟨c',is⟩ := moved.after
    rw [was.length_eq,is.length_eq,List.length_cons,List.length_cons]
  refine ⟨count.trans balanced.workers,moved.capacity.trans balanced.capacity,?_,?_,?_,?_,?_,?_,?_,?_,?_⟩
  · rw [adds.accepted,adds.moreTaken,balanced.order,queue,List.append_assoc]
  · have := balanced.room
    rw [queue,List.length_append] at this
    rw [moved.capacity]
    omega
  · refine List.perm_iff_count.mpr fun a => ?_
    have was := List.perm_iff_count.mp balanced.hands a
    have has := List.perm_iff_count.mp adds.hands a
    have before' := List.perm_iff_count.mp hands.1 a
    have after' := List.perm_iff_count.mp hands.2 a
    simp only [adds.moreTaken,adds.moreFinished,adds.moreDropped,Dispatcher.inHand,List.count_append] at *
    omega
  · refine List.perm_iff_count.mpr fun a => ?_
    have was := List.perm_iff_count.mp balanced.carried a
    have has := congrArg (List.count a) adds.carried
    have before' := List.perm_iff_count.mp running.1 a
    have after' := List.perm_iff_count.mp running.2 a
    simp only [adds.moreFinished,Dispatcher.running,List.count_append] at *
    omega
  · have was := balanced.counted
    have has := adds.counted
    rw [adds.moreFinished,adds.moreDropped,List.length_append,List.length_append]
    omega
  · have was := balanced.dropped
    have has := adds.lost
    rw [adds.moreDropped,List.length_append]
    omega
  · intro unserved fine
    rcases left with active | fails | empty
    · rw [moved.served active] at unserved
      cases unserved
    · rw [fine] at failed
      cases after' : after.failure? with
      | none => exact absurd after' fails
      | some e =>
        rw [after'] at failed
        simp at failed
    · exact empty
  · intro one
    have one' : x.workers.length = 1 := balanced.workers.trans one
    have pending := moved.single one' WorkerStage.pending?
    have none_failed := (moved.single one' WorkerStage.failure?).1
    have kept : l.dropped = [] := by
      have := balanced.dropped
      rw [Dispatcher.failures,none_failed,adds.well] at this
      exact List.length_eq_zero_iff.mp (by simpa using this)
    rw [adds.moreTaken,adds.moreDropped,balanced.single one,kept,Dispatcher.pending,Dispatcher.pending,pending.1,
      pending.2]
    simp only [List.append_nil,List.nil_append,List.append_assoc]
    rw [adds.line,List.append_assoc]
  · intro one
    have running := moved.single (balanced.workers.trans one) WorkerStage.running?
    rw [adds.moreFinished,balanced.inTurn one,Dispatcher.running,Dispatcher.running,running.1,running.2,
      List.append_assoc,adds.carried,List.append_assoc]

end Ledger.Balanced

namespace Run
open Ledger.Balanced (Adds)

/-- The ledger of dispatcher `d` agrees with the state of the run and with what was begun after `earlier`. -/
def InBalance {σ : Type} (d : Nat) (first : Dispatcher) (earlier : List Operation) (l : Ledger) (r : Run σ) : Prop :=
  ∃ x begun, r.dispatchers[d]? = some x ∧ r.site.begunBy d = earlier ++ begun ∧ Ledger.Balanced first l x begun

variable {σ : Type} {r next : Run σ} {d w : Nat} {first x : Dispatcher} {l : Ledger} {worker : Worker}
  {earlier begun : List Operation}

theorem begunBy_append {s t : Site} {begun : List Operation} (log : t.log = s.log ++ begun.map fun op => (d,op)) :
    t.begunBy d = s.begunBy d ++ begun := by
  rw [Site.begunBy,Site.begunBy,log,List.filter_append,List.map_append]
  clear log
  congr 1
  induction begun with
  | nil => rfl
  | cons op begun ih => simpa using ih

theorem stageOf_at (at_d : r.dispatchers[d]? = some x) (at_w : x.workers[w]? = some worker) :
    r.stageOf d w = some worker.stage := by
  simp [stageOf,at_d,at_w]

theorem placed_worker {z : Dispatcher} (at_w : z.workers[w]? = some worker) (stage : WorkerStage) :
    (z.place w stage).workers[w]? = some { worker with stage } := by
  show (z.workers.modify w _)[w]? = _
  rw [List.getElem?_modify,at_w]
  simp

/-- A worker that has moved to another stage keeps the balance, given what its turn adds. -/
private theorem placed_balanced {z : Dispatcher} {after : WorkerStage} {taken finished dropped new : List Operation}
    (at_d : r.dispatchers[d]? = some x) (at_w : x.workers[w]? = some worker) (workers : z.workers = x.workers)
    (capacity : z.capacity = x.capacity) (dispatchers : next.dispatchers = r.dispatchers.set d (z.place w after))
    (log : next.site.log = r.site.log ++ new.map fun op => (d,op)) (since : r.site.begunBy d = earlier ++ begun)
    (balanced : Ledger.Balanced first l x begun)
    (adds : Ledger.Balanced.Adds l ((l.noteStages (some worker.stage) (some after)).noteCounts r.recorder next.recorder)
      taken finished dropped new worker.stage after) (queue : x.queue = taken ++ z.queue)
    (left : (∀ e, after ≠ .ended e) ∨ after.failure? ≠ none ∨ z.queue = []) :
    InBalance d first earlier (note d r (.turn (.worker d w)) next l) next := by
  have inside := (List.getElem?_eq_some_iff.mp at_d).1
  have at_z : z.workers[w]? = some worker := by rw [workers]; exact at_w
  have at_y : next.dispatchers[d]? = some (z.place w after) := by
    rw [dispatchers,List.getElem?_set]
    simp [inside]
  have moved : Moved x (z.place w after) worker.stage after (x.workers.eraseIdx w) := by
    have placed := place_moved at_z after
    exact ⟨workers ▸ placed.before,workers ▸ placed.after,placed.capacity.trans capacity⟩
  refine ⟨_,begun ++ new,at_y,by rw [begunBy_append log,since,List.append_assoc],?_⟩
  rw [note,if_pos rfl,stageOf_at at_d at_w,stageOf_at at_y (placed_worker at_z after)]
  exact balanced.move moved adds queue left

private theorem uncounted (l : Ledger) {before after : Recorder} (calls : after.calls = before.calls)
    (errors : after.errors = before.errors) : l.noteCounts before after = l := by
  simp [Ledger.noteCounts,calls,errors]

private theorem pending_cases {stage : WorkerStage} {op : Operation} (has : stage.pending? = some op) :
    stage = .claiming op ∨ ∃ sinceMs untilMs a, stage = .renewing op sinceMs untilMs a := by
  cases stage with
  | claiming op' => cases has; exact .inl rfl
  | renewing op' sinceMs untilMs a => cases has; exact .inr ⟨_,_,_,rfl⟩
  | _ => cases has

theorem running_cases {stage : WorkerStage} {op : Operation} (has : stage.running? = some op) :
    ∃ sinceMs untilMs a, stage = .executing op sinceMs untilMs a := by
  cases stage with
  | executing op' sinceMs untilMs a => cases has; exact ⟨_,_,_,rfl⟩
  | _ => cases has

theorem operation_of_running {stage : WorkerStage} {op : Operation} (has : stage.running? = some op) :
    stage.operation? = some op := by
  obtain ⟨_,_,_,rfl⟩ := running_cases has
  exact has

/-- Every turn of a worker keeps the balance, as long as the run is not told to end. -/
theorem WorkerTurn.balanced (turn : WorkerTurn r next d w x worker.stage) (at_d : r.dispatchers[d]? = some x)
    (at_w : x.workers[w]? = some worker) (told : next.stopped = false) (since : r.site.begunBy d = earlier ++ begun)
    (balanced : Ledger.Balanced first l x begun) :
    InBalance d first earlier (note d r (.turn (.worker d w)) next l) next := by
  generalize before : worker.stage = stage at turn
  cases turn with
  | quit idle turned =>
    have empty : x.queue = [] := by
      rcases idle with stopped | ⟨empty,-⟩
      · rw [← turned.stopped,told] at stopped
        cases stopped
      · exact empty
    have adds : Adds l ((l.noteStages (some worker.stage) (some (.ended none))).noteCounts r.recorder next.recorder)
        [] [] [] [] worker.stage (.ended none) := by
      rw [before,uncounted _ turned.calls turned.errors]
      constructor <;> simp [Ledger.noteStages,WorkerStage.operation?,WorkerStage.pending?,WorkerStage.running?,
        WorkerStage.failure?]
    exact placed_balanced (z := { x with turns := x.turns.erase w }) at_d at_w rfl rfl turned.dispatchers turned.log
      since balanced adds rfl (.inr (.inr empty))
  | @take op queue oldest turned =>
    have adds : Adds l ((l.noteStages (some worker.stage) (some (.claiming op))).noteCounts r.recorder next.recorder)
        [op] [] [] [] worker.stage (.claiming op) := by
      rw [before,uncounted _ turned.calls turned.errors]
      constructor <;> simp [Ledger.noteStages,WorkerStage.operation?,WorkerStage.pending?,WorkerStage.running?,
        WorkerStage.failure?]
    exact placed_balanced (z := { x with queue, turns := x.turns.tail }) at_d at_w rfl rfl turned.dispatchers turned.log
      since balanced adds oldest (.inl (by simp))
  | @enter op turned =>
    have at_y : next.dispatchers[d]? = some x := by
      rw [turned.dispatchers,List.getElem?_set]
      simp [(List.getElem?_eq_some_iff.mp at_d).1]
    refine ⟨x,begun,at_y,by rw [begunBy_append turned.log,since,List.append_nil],?_⟩
    rw [note,if_pos rfl,stageOf_at at_d at_w,stageOf_at at_y at_w,before,uncounted _ turned.calls turned.errors]
    exact balanced
  | @renew op sinceMs untilMs a turned =>
    have adds : Adds l ((l.noteStages (some worker.stage) (some (.renewing op sinceMs untilMs a))).noteCounts r.recorder
        next.recorder) [] [] [] [] worker.stage (.renewing op sinceMs untilMs a) := by
      rw [before,uncounted _ turned.calls turned.errors]
      constructor <;> simp [Ledger.noteStages,WorkerStage.operation?,WorkerStage.pending?,WorkerStage.running?,
        WorkerStage.failure?]
    exact placed_balanced (z := x) at_d at_w rfl rfl turned.dispatchers turned.log since
      balanced adds rfl (.inl (by simp))
  | @begin stage op sinceMs untilMs a has turned =>
    have adds : Adds l ((l.noteStages (some worker.stage)
        (some (.executing op sinceMs untilMs a))).noteCounts r.recorder next.recorder) [] [] [] [op] worker.stage
        (.executing op sinceMs untilMs a) := by
      rw [before,uncounted _ turned.calls turned.errors]
      rcases pending_cases has with rfl | ⟨_,_,_,rfl⟩
      all_goals constructor <;> simp [Ledger.noteStages,WorkerStage.operation?,WorkerStage.pending?,
        WorkerStage.running?,WorkerStage.failure?]
    exact placed_balanced (z := x) at_d at_w rfl rfl turned.dispatchers turned.log since
      balanced adds rfl (.inl (by simp))
  | @crash stage op has turned =>
    have adds : Adds l ((l.noteStages (some worker.stage) (some (.ended (some .taskFailed)))).noteCounts r.recorder
        next.recorder) [] [] [op] [] worker.stage (.ended (some .taskFailed)) := by
      rw [before,uncounted _ turned.calls turned.errors]
      rcases pending_cases has with rfl | ⟨_,_,_,rfl⟩
      all_goals constructor <;> simp [Ledger.noteStages,WorkerStage.operation?,WorkerStage.pending?,
        WorkerStage.running?,WorkerStage.failure?]
    exact placed_balanced (z := { x with turns := x.turns.erase w }) at_d at_w rfl rfl turned.dispatchers turned.log
      since balanced adds rfl (.inr (.inl (by simp [WorkerStage.failure?])))
  | disconnect stops =>
    rw [told] at stops
    cases stops
  | @finish stage op has dispatchers producers log stopped course counted =>
    have adds : Adds l ((l.noteStages (some worker.stage) (some .waiting)).noteCounts r.recorder next.recorder)
        [] [op] [] [] worker.stage .waiting := by
      obtain ⟨_,_,_,rfl⟩ := running_cases has
      rw [before]
      have one : (l.calls + (next.recorder.calls - r.recorder.calls)) +
          (l.errors + if next.recorder.errors = r.recorder.errors then 0 else 1) = l.calls + l.errors + 1 := by
        rcases counted with success | failure
        · rw [success.calls,success.errors,if_pos rfl]
          omega
        · rw [failure.calls,if_neg failure.errors]
          omega
      constructor <;> simp [Ledger.noteStages,Ledger.noteCounts,WorkerStage.operation?,WorkerStage.pending?,
        WorkerStage.running?,WorkerStage.failure?,one]
    exact placed_balanced (z := { x with turns := x.turns ++ [w] }) at_d at_w rfl rfl dispatchers
      (log.trans (List.append_nil _).symm) since balanced adds rfl (.inl (by simp))
  | @fault stage op has dispatchers producers log stopped course answered same =>
    have adds : Adds l ((l.noteStages (some worker.stage) (some (.ended (some .taskFailed)))).noteCounts r.recorder
        next.recorder) [] [op] [] [] worker.stage (.ended (some .taskFailed)) := by
      obtain ⟨_,_,_,rfl⟩ := running_cases has
      rw [before,uncounted _ (by rw [same]) (by rw [same])]
      constructor <;> simp [Ledger.noteStages,WorkerStage.operation?,WorkerStage.pending?,WorkerStage.running?,
        WorkerStage.failure?]
    exact placed_balanced (z := { x with turns := x.turns.erase w }) at_d at_w rfl rfl dispatchers
      (log.trans (List.append_nil _).symm) since balanced adds rfl (.inr (.inl (by simp [WorkerStage.failure?])))

/-! ### Every step -/

theorem Quiet.inBalance (quiet : Quiet d r next) (balance : InBalance d first earlier l r) :
    InBalance d first earlier l next := by
  obtain ⟨x,begun,at_d,since,balanced⟩ := balance
  obtain ⟨y,at_y,alike⟩ := quiet.dispatcher x at_d
  exact ⟨y,begun,at_y,quiet.begun.trans since,balanced.alike alike⟩

private theorem other_quiet {d' : Nat} {stage : WorkerStage} (turn : WorkerTurn r next d' w x stage) (other : d' ≠ d)
    (told : next.stopped = false) : Quiet d r next := by
  have apart {y : Dispatcher} (begun : List Operation) (dispatchers : next.dispatchers = r.dispatchers.set d' y)
      (log : next.site.log = r.site.log ++ begun.map fun op => (d',op)) : Quiet d r next := by
    refine ⟨fun x at_d => ⟨x,?_,rfl,rfl,rfl⟩,?_⟩
    · rw [dispatchers,List.getElem?_set_ne other]
      exact at_d
    · rw [Site.begunBy,Site.begunBy,log,List.filter_append,List.map_append]
      simp [other]
  cases turn with
  | quit idle turned => exact apart _ turned.dispatchers turned.log
  | take oldest turned => exact apart _ turned.dispatchers turned.log
  | enter turned => exact apart _ turned.dispatchers turned.log
  | renew turned => exact apart _ turned.dispatchers turned.log
  | begin has turned => exact apart _ turned.dispatchers turned.log
  | crash has turned => exact apart _ turned.dispatchers turned.log
  | disconnect stops =>
    rw [told] at stops
    cases stops
  | finish has dispatchers producers log stopped course counted =>
    exact apart [] dispatchers (log.trans (List.append_nil _).symm)
  | fault has dispatchers producers log stopped course answered same =>
    exact apart [] dispatchers (log.trans (List.append_nil _).symm)

section
variable [RandomSource σ]

/-- A turn of a producer keeps the balance of every dispatcher. -/
private theorem ProducerTurn.inBalance {i : Nat} {p : Producer σ} (turn : ProducerTurn r next i p)
    (at_i : r.producers[i]? = some p) (balance : InBalance d first earlier l r) :
    InBalance d first earlier (note d r (.turn (.producer i)) next l) next := by
  have inside := (List.getElem?_eq_some_iff.mp at_i).1
  cases turn with
  | @send op subtree x' stage at_x told served room after =>
    have at_q : next.producers[i]? = some (p.proceed subtree) := by
      rw [after,placeProducer_producers,List.getElem?_set]
      simp [onDispatcher,inside]
    by_cases mine : p.dispatcher = d
    · subst mine
      obtain ⟨x,begun,at_d,since,balanced⟩ := balance
      cases at_x.symm.trans at_d
      rw [note_sent at_i at_q stage rfl (proceed_sent p subtree),after]
      refine (placeProducer_quiet _ i _).inBalance ⟨x'.accept i op,begun,?_,since,balanced.accept served room i op⟩
      show (r.dispatchers.modify p.dispatcher _)[p.dispatcher]? = _
      rw [List.getElem?_modify,at_d]
      simp
    · have noted : note d r (.turn (.producer i)) next l = l := by
        simp only [note,Ledger.noteProducer,at_i,at_q,stage]
        rw [if_neg fun h => mine h.1]
      rw [noted,after]
      refine (placeProducer_quiet _ i _).inBalance (Quiet.inBalance ?_ balance)
      refine ⟨fun x at_d => ⟨x,?_,rfl,rfl,rfl⟩,rfl⟩
      show (r.dispatchers.modify p.dispatcher _)[d]? = _
      rw [List.getElem?_modify,at_d]
      simp [mine]
  | @place q sent after =>
    have at_q : next.producers[i]? = some q := by
      rw [after,placeProducer_producers,List.getElem?_set]
      simp [inside]
    rw [note_unsent at_i at_q sent,after]
    exact (placeProducer_quiet r i q).inBalance balance
  | enlist after =>
    rw [note_unsent at_i (by rw [after]; exact at_i) rfl,after]
    exact (onDispatcher_quiet r p.dispatcher fun x => enlist_alike x i).inBalance balance

/-- Every step keeps the balance, as long as the run is not told to end. -/
theorem step_inBalance {e : Event} (run : r.step e = some next) (told : next.stopped = false)
    (balance : InBalance d first earlier l r) : InBalance d first earlier (note d r e next l) next := by
  cases e with
  | turn p =>
    cases p with
    | main => exact (moveMain_extends run).quiet.inBalance balance
    | producer i =>
      obtain ⟨p,at_i,turn⟩ := moveProducer_turn run
      exact turn.inBalance at_i balance
    | worker d' w =>
      obtain ⟨x',worker,at_d',at_w,turn⟩ := moveWorker_turn run
      by_cases mine : d' = d
      · subst mine
        obtain ⟨x,begun,at_d,since,balanced⟩ := balance
        cases at_d'.symm.trans at_d
        exact turn.balanced at_d at_w told since balanced
      · rw [note,if_neg mine]
        exact (other_quiet turn mine told).inBalance balance
    | watcher i =>
      have aside := moveWatcher_aside run
      exact (quiet_of_same aside.dispatchers aside.begun).inBalance balance
    | reporter i =>
      have aside := moveReporter_aside run
      exact (quiet_of_same aside.dispatchers aside.begun).inBalance balance
  | outside i =>
    cases run
    exact (intervene_quiet r i).inBalance balance
  | pass ms =>
    cases run
    exact (quiet_of_same rfl rfl).inBalance balance

/-- A ledger that was kept from the start of a dispatcher on is in balance. -/
theorem Traced.inBalance {start : Run σ} {events : List Event} (traced : Traced d start events l r)
    (told : r.stopped = false) (balance : InBalance d first earlier Ledger.empty start) :
    InBalance d first earlier l r := by
  induction traced with
  | start => exact balance
  | step _ run ih =>
    refine step_inBalance run told (ih ?_)
    rename_i r next e _
    cases before : r.stopped with
    | false => rfl
    | true =>
      rw [step_stopped run before] at told
      cases told

end

/-! ### The whole run of a dispatcher -/

end Run

/-- Where the operations of a dispatcher of `n` workers are, and which of them were begun. -/
structure Ledger.Conserves (n : Nat) (l : Ledger) (x : Dispatcher) (begun : List Operation) : Prop where
  /-- Every accepted operation is in one place: finished, with a worker, in the queue, or lost with a failed worker. -/
  places : l.accepted.Perm (l.finished ++ x.inHand ++ l.dropped ++ x.queue)
  room : x.queue.length ≤ max n 1
  /-- A worker has one operation or has lost one, not both. -/
  hands : x.inHand.length + l.dropped.length ≤ n
  lost : l.dropped.length ≤ x.failures.length
  /-- Operations leave the queue in the order in which they were accepted. -/
  order : l.accepted = l.taken ++ x.queue
  carried : begun.Perm (l.finished ++ x.running)
  /-- A single worker begins them in that order. -/
  single : n = 1 → begun <+: l.accepted
  /-- Once the workers have ended well, everything accepted was carried out once and counted once. -/
  joined : x.joined? = some (.ok ()) → begun.Perm l.accepted ∧ l.finished.Perm l.accepted ∧
    (n = 1 → begun = l.accepted) ∧ l.calls + l.errors = l.accepted.length

namespace Dispatcher

variable {x : Dispatcher}

private theorem inHand_failures (workers : List Worker) :
    (workers.filterMap fun w => w.stage.operation?).length + (workers.filterMap fun w => w.stage.failure?).length ≤
      workers.length := by
  induction workers with
  | nil => simp
  | cons w workers ih =>
    obtain ⟨client,stage⟩ := w
    cases stage with
    | ended failure => cases failure <;>
        simp [WorkerStage.operation?,WorkerStage.pending?,WorkerStage.running?,WorkerStage.failure?] at ih ⊢ <;> omega
    | _ => simp [WorkerStage.operation?,WorkerStage.pending?,WorkerStage.running?,WorkerStage.failure?] at ih ⊢; omega

/-- The workers of a dispatcher that is joined well have quit. -/
theorem quit_of_joined (joined : x.joined? = some (.ok ())) : ∀ v ∈ x.workers, v.stage = .ended none := by
  unfold joined? at joined
  split at joined
  · cases joined
  · rename_i unserved
    split at joined
    · cases joined
    · rename_i fine
      intro v member
      have gone := List.any_eq_false.mp (Bool.not_eq_true _ ▸ unserved) v member
      have well := List.findSome?_eq_none_iff.mp fine v member
      obtain ⟨client,stage⟩ := v
      cases stage with
      | ended failure => cases failure with
        | none => rfl
        | some e => cases well
      | _ => simp [Worker.hasEnded] at gone

theorem joined_ok (joined : x.joined? = some (.ok ())) :
    x.isServed = false ∧ x.failures = [] ∧ x.inHand = [] ∧ x.pending = [] ∧ x.running = [] := by
  have ended := quit_of_joined joined
  have nothing {α : Type} (f : WorkerStage → Option α) (gone : f (.ended none) = none) :
      (x.workers.filterMap fun w => f w.stage) = [] :=
    List.filterMap_eq_nil_iff.mpr fun w member => by rw [ended w member,gone]
  refine ⟨?_,nothing _ rfl,nothing _ rfl,nothing _ rfl,nothing _ rfl⟩
  exact List.any_eq_false.mpr fun v member => by simp [Worker.hasEnded,ended v member]

end Dispatcher

namespace Ledger.Balanced

theorem start (name : String) (options : DispatchOptions) (clients : List Nat) :
    Balanced (Dispatcher.start name options clients) Ledger.empty (Dispatcher.start name options clients) [] := by
  have nothing {α : Type} (f : WorkerStage → Option α) (waits : f .waiting = none) :
      ((Dispatcher.start name options clients).workers.filterMap fun w => f w.stage) = [] :=
    List.filterMap_eq_nil_iff.mpr fun w member => by
      obtain ⟨c,-,rfl⟩ := List.mem_map.mp member
      exact waits
  have inHand : (Dispatcher.start name options clients).inHand = [] := nothing _ rfl
  have running : (Dispatcher.start name options clients).running = [] := nothing _ rfl
  have pending : (Dispatcher.start name options clients).pending = [] := nothing _ rfl
  have failures : (Dispatcher.start name options clients).failures = [] := nothing _ rfl
  constructor
  case workers => rfl
  case capacity => rfl
  case order => rfl
  case room => exact Nat.zero_le _
  case hands => rw [inHand]; rfl
  case carried => rw [running]; rfl
  case counted => rw [failures]; rfl
  case dropped => exact Nat.zero_le _
  case drained => exact fun _ _ => rfl
  case single => intro _; rw [pending]; rfl
  case inTurn => intro _; rw [running]; rfl

variable {name : String} {options : DispatchOptions} {clients : List Nat} {l : Ledger} {x : Dispatcher}
  {begun : List Operation}

theorem conserves (balanced : Balanced (Dispatcher.start name options clients) l x begun) :
    Conserves clients.length l x begun := by
  have workers : x.workers.length = clients.length := by simpa [Dispatcher.start] using balanced.workers
  have capacity : x.capacity = max clients.length 1 := balanced.capacity
  have single (one : clients.length = 1) : l.taken = begun ++ x.pending ++ l.dropped :=
    balanced.single (by simpa [Dispatcher.start] using one)
  constructor
  case places =>
    rw [balanced.order]
    exact balanced.hands.append_right _
  case room => exact capacity ▸ balanced.room
  case hands =>
    have := Dispatcher.inHand_failures x.workers
    have := balanced.dropped
    simp only [Dispatcher.inHand,Dispatcher.failures] at *
    omega
  case lost => exact balanced.dropped
  case order => exact balanced.order
  case carried => exact balanced.carried
  case single =>
    intro one
    rw [balanced.order,single one,List.append_assoc,List.append_assoc]
    exact List.prefix_append ..
  case joined =>
    intro joined
    obtain ⟨unserved,fine,inHand,pending,running⟩ := Dispatcher.joined_ok joined
    have dropped : l.dropped = [] := by
      have := balanced.dropped
      rw [fine] at this
      exact List.length_eq_zero_iff.mp (by simpa using this)
    have accepted : l.accepted = l.taken := by
      rw [balanced.order,balanced.drained unserved fine,List.append_nil]
    have finished : l.taken.Perm l.finished := by simpa [inHand,dropped] using balanced.hands
    have carried : begun.Perm l.finished := by simpa [running] using balanced.carried
    have counted := balanced.counted
    rw [fine,dropped] at counted
    rw [accepted]
    refine ⟨carried.trans finished.symm,finished.symm,fun one => ?_,?_⟩
    · rw [single one,pending,dropped,List.append_nil,List.append_nil]
    · rw [finished.length_eq]
      simpa using counted

/-- When nothing waits and no worker has an operation, everything accepted is finished; a single worker has finished it
in order. -/
theorem idle (balanced : Balanced (Dispatcher.start name options clients) l x begun) (queue : x.queue = [])
    (inHand : x.inHand = []) (dropped : l.dropped = []) :
    l.finished.Perm l.accepted ∧ (clients.length = 1 → l.finished = l.accepted) := by
  have accepted : l.accepted = l.taken := by rw [balanced.order,queue,List.append_nil]
  have hands : l.taken.Perm l.finished := by simpa [inHand,dropped] using balanced.hands
  refine ⟨accepted ▸ hands.symm,fun one => ?_⟩
  have has_none : ∀ w ∈ x.workers, w.stage.pending? = none ∧ w.stage.running? = none := by
    intro w member
    have has_none := List.filterMap_eq_nil_iff.mp inHand w member
    simpa [WorkerStage.operation?] using has_none
  have pending : x.pending = [] := List.filterMap_eq_nil_iff.mpr fun w member => (has_none w member).1
  have running : x.running = [] := List.filterMap_eq_nil_iff.mpr fun w member => (has_none w member).2
  have one : (Dispatcher.start name options clients).workers.length = 1 := by simpa [Dispatcher.start] using one
  rw [accepted,balanced.single one,balanced.inTurn one,pending,running,dropped]
  simp only [List.append_nil]

end Ledger.Balanced

namespace Run

variable {σ : Type} [RandomSource σ] {start r : Run σ} {d : Nat} {l : Ledger} {events : List Event}
  {name : String} {options : DispatchOptions} {clients : List Nat}

/-- A store at which the second operation fails. -/
def wavering : Behavior where
  operation n _ := ⟨0,if n = 1 then some .closed else none⟩
  connection _ := .prompt

/-- A producer of three puts and a dispatcher of two workers. -/
def pair : Run Xoshiro :=
  ofProducer (Site.fresh wavering Memory.empty) 2 0 "pair" .plain
    (.start 0 (.given [.put "a" "1",.put "b" "2",.put "c" "3"]) (Xoshiro.ofStream 0 0) none)

/-- The workers overtake each other, the producer goes away, the workers end. -/
def errands : List Event :=
  [.turn (.producer 0),.turn (.producer 0),.turn (.producer 0),.turn (.producer 0),.turn (.worker 0 0),
    .turn (.worker 0 0),.turn (.worker 0 1),.turn (.worker 0 1),.turn (.worker 0 1),.turn (.producer 0),
    .turn (.producer 0),.turn (.worker 0 0),.turn (.worker 0 1),.turn (.worker 0 1),.turn (.worker 0 1),
    .outside (.dismiss 0),.turn (.worker 0 0),.turn (.worker 0 1)]

/-- No operation of a dispatcher is lost or carried out twice, through every order of steps and whatever the store
answers, as long as the run is not told to end. -/
theorem dispatcher_conserves (employed : start.dispatchers[d]? = some (Dispatcher.start name options clients))
    (traced : Traced d start events l r) (told : r.stopped = false) :
    ∃ x begun, r.dispatchers[d]? = some x ∧ r.site.begunBy d = start.site.begunBy d ++ begun ∧
      l.Conserves clients.length x begun := by
  have balance : InBalance d (Dispatcher.start name options clients) (start.site.begunBy d) Ledger.empty start :=
    ⟨_,[],employed,(List.append_nil _).symm,Ledger.Balanced.start name options clients⟩
  obtain ⟨x,begun,at_d,since,balanced⟩ := traced.inBalance told balance
  exact ⟨x,begun,at_d,since,balanced.conserves⟩

/-- Two workers carry out three operations, one of which fails. -/
theorem pair_conserves : ∃ l r, Traced 0 pair errands l r ∧
    pair.dispatchers[0]? = some (Dispatcher.start "pair" .plain [0,1]) ∧ r.stopped = false ∧
    r.dispatchers[0]?.bind Dispatcher.joined? = some (.ok ()) ∧
    ∃ x begun, r.dispatchers[0]? = some x ∧ r.site.begunBy 0 = pair.site.begunBy 0 ++ begun ∧
      l.Conserves 2 x begun := by
  have ends : (keep 0 errands .empty pair).any (fun (_,r) =>
      !r.stopped ∧ r.dispatchers[0]?.bind Dispatcher.joined? = some (.ok ())) = true := by decide +kernel
  obtain ⟨⟨l,r⟩,kept,ends⟩ := (Option.any_eq_true _ _).mp ends
  have traced := keep_traced Traced.start kept
  simp only [Bool.not_eq_true',decide_eq_true_eq] at ends
  have employed : pair.dispatchers[0]? = some (Dispatcher.start "pair" .plain [0,1]) := rfl
  exact ⟨l,r,traced,employed,ends.1,ends.2,dispatcher_conserves employed traced ends.1⟩

end Run

end Keyload
