import Keyload.Proofs.Run.Conservation
import Keyload.Proofs.Store.Contents

/-!
Runs of one dispatcher and the producer that feeds it, with nothing done to them from outside. As long as no operation
fails, the store is what the finished operations make of it, one after another; and what was accepted is what the
producer accounts for.
-/
namespace Keyload.Run

variable {σ : Type} {r next : Run σ} {x : Dispatcher} {p : Producer σ} {l : Ledger}

/-! ### What the turn of a worker leaves -/

section
variable {d w : Nat} {stage : WorkerStage}

theorem mem_place {y : Dispatcher} {v : Worker} (member : v ∈ (y.place w stage).workers) :
    v ∈ y.workers ∨ v.stage = stage := by
  have member : v ∈ y.workers.modify w fun v => { v with stage } := member
  obtain ⟨i,inside,rfl⟩ := List.mem_iff_getElem.mp member
  rw [List.getElem_modify]
  split
  · exact .inr rfl
  · exact .inl (List.getElem_mem _)

/-- What the turn of a worker leaves: a worker that has quit has done so because nobody sends. -/
theorem WorkerTurn.leaves (turn : WorkerTurn r next d w x stage) (told : next.stopped = false) :
    ∃ y, next.dispatchers = r.dispatchers.set d y ∧ next.producers = r.producers ∧ next.course = r.course ∧
      ∀ v ∈ y.workers, v.stage = .ended none → v ∈ x.workers ∨ r.hasSenders d = false := by
  have leaves {y : Dispatcher} {stage : WorkerStage} (workers : y.workers = x.workers) (goes_on : stage ≠ .ended none) :
      ∀ v ∈ (y.place w stage).workers, v.stage = .ended none → v ∈ x.workers ∨ r.hasSenders d = false := by
    intro v member quit
    rcases mem_place member with old | new
    · exact .inl (workers ▸ old)
    · exact absurd (new.symm.trans quit) goes_on
  cases turn with
  | quit idle turned =>
    refine ⟨_,turned.dispatchers,turned.producers,turned.course,fun v member quit => ?_⟩
    rcases idle with stopped | ⟨-,nobody⟩
    · rw [← turned.stopped,told] at stopped
      cases stopped
    · exact .inr nobody
  | take oldest turned =>
    exact ⟨_,turned.dispatchers,turned.producers,turned.course,leaves rfl (by simp)⟩
  | enter turned => exact ⟨_,turned.dispatchers,turned.producers,turned.course,fun v member _ => .inl member⟩
  | renew turned => exact ⟨_,turned.dispatchers,turned.producers,turned.course,leaves rfl (by simp)⟩
  | begin has turned => exact ⟨_,turned.dispatchers,turned.producers,turned.course,leaves rfl (by simp)⟩
  | crash has turned => exact ⟨_,turned.dispatchers,turned.producers,turned.course,leaves rfl (by simp)⟩
  | disconnect stops =>
    rw [told] at stops
    cases stops
  | finish has dispatchers producers log stopped course counted =>
    exact ⟨_,dispatchers,producers,course,leaves rfl (by simp)⟩
  | fault has dispatchers producers log stopped course answered uncounted =>
    exact ⟨_,dispatchers,producers,course,leaves rfl (by simp)⟩

theorem WorkerTurn.active (turn : WorkerTurn r next d w x stage) (failure : Option RunError) :
    stage ≠ .ended failure := by
  rintro rfl
  cases turn with
  | begin has turned => cases has
  | crash has turned => cases has
  | disconnect stops has => cases has
  | finish has => cases has
  | fault has => cases has

/-- What a turn of a worker counts when it ends that many operations. -/
inductive Counted (r next : Run σ) (before after : WorkerStage) : Nat → Prop where
  | nothing (counts : next.recorder.counts = r.recorder.counts) : Counted r next before after 0
  | ended {op : Operation} (has : before.running? = some op)
      (counts : next.recorder.counts = r.recorder.counts.succeed op.kind ∨
        next.recorder.counts = r.recorder.counts.fail) : Counted r next before after 1
  | fault (failed : after.failure? ≠ none) (counts : next.recorder.counts = r.recorder.counts) :
      Counted r next before after 1

/-- Worker `w` of dispatcher `d`, which is `x`, goes from one stage to another, begins operations and ends some; but for
that, the dispatcher becomes `z`. -/
structure Advances (r next : Run σ) (d w : Nat) (x z : Dispatcher) (before after : WorkerStage)
    (begun : List Operation) (ended : Nat) : Prop where
  dispatchers : next.dispatchers = r.dispatchers.set d (z.place w after)
  name : z.name = x.name
  workers : z.workers = x.workers
  queue : z.queue ⊆ x.queue
  has : ∀ op, after.operation? = some op → op ∈ x.queue ∨ before.operation? = some op
  producers : next.producers = r.producers
  course : next.course = r.course
  log : next.site.log = r.site.log ++ begun.map fun op => (d,op)
  hands : before.running?.toList.length + begun.length = after.running?.toList.length + ended
  counted : Counted r next before after ended

theorem place_same {worker : Worker} (at_w : x.workers[w]? = some worker) : x.place w worker.stage = x := by
  have same : x.workers.modify w (fun v => { v with stage := worker.stage }) = x.workers := by
    rw [List.modify_eq_set_getElem?,at_w]
    exact set_same at_w
  exact congrArg (fun workers => { x with workers }) same

private theorem Turned.advances {z : Dispatcher} {before after : WorkerStage} {begun : List Operation}
    (turned : Turned r next d (z.place w after) begun) (name : z.name = x.name) (workers : z.workers = x.workers)
    (queue : z.queue ⊆ x.queue) (has : ∀ op, after.operation? = some op → op ∈ x.queue ∨ before.operation? = some op)
    (hands : before.running?.toList.length + begun.length = after.running?.toList.length) :
    Advances r next d w x z before after begun 0 :=
  ⟨turned.dispatchers,name,workers,queue,has,turned.producers,turned.course,turned.log,hands,.nothing turned.counts⟩

/-- The turn of a worker takes it from a stage in which it goes on to another one. -/
theorem moveWorker_advances (run : r.moveWorker d w = some next) :
    ∃ x worker z after begun ended, r.dispatchers[d]? = some x ∧ x.workers[w]? = some worker ∧
      (∀ failure, worker.stage ≠ .ended failure) ∧ Advances r next d w x z worker.stage after begun ended := by
  obtain ⟨x,worker,at_d,at_w,turn⟩ := moveWorker_turn run
  have active := turn.active
  have unmoved := place_same at_w
  suffices ∃ z after begun ended, Advances r next d w x z worker.stage after begun ended by
    obtain ⟨z,after,begun,ended,advances⟩ := this
    exact ⟨x,worker,z,after,begun,ended,at_d,at_w,active,advances⟩
  have nothing {stage : WorkerStage} (free : stage.operation? = none) (op : Operation)
      (held : stage.operation? = some op) : op ∈ x.queue ∨ worker.stage.operation? = some op := by
    rw [free] at held
    cases held
  generalize worker.stage = stage at turn unmoved nothing
  have idle {op : Operation} (has : stage.pending? = some op) : stage.running? = none := by
    cases stage <;> first | rfl | cases has
  have kept := List.Subset.refl x.queue
  cases turn with
  | quit waits turned =>
    exact ⟨{ x with turns := x.turns.erase w },_,_,_,turned.advances rfl rfl kept (nothing rfl) rfl⟩
  | @take op queue oldest turned =>
    refine ⟨{ x with queue, turns := x.turns.tail },_,_,_,turned.advances rfl rfl ?_ (fun op' taken => ?_) rfl⟩
    · rw [oldest]
      exact List.subset_cons_self op queue
    · cases taken
      rw [oldest]
      exact .inl List.mem_cons_self
  | enter turned =>
    rw [← unmoved] at turned
    exact ⟨x,_,_,_,turned.advances rfl rfl kept (fun _ => .inr) rfl⟩
  | renew turned => exact ⟨x,_,_,_,turned.advances rfl rfl kept (fun _ => .inr) rfl⟩
  | begin has turned =>
    refine ⟨x,_,_,_,turned.advances rfl rfl kept (fun op runs => ?_) (by rw [idle has]; rfl)⟩
    cases runs
    exact .inr (by rw [WorkerStage.operation?,has]; rfl)
  | crash has turned =>
    exact ⟨{ x with turns := x.turns.erase w },_,_,_,
      turned.advances rfl rfl kept (nothing rfl) (by rw [idle has]; rfl)⟩
  | @disconnect _ op e stops has dispatchers course producers log counts =>
    exact ⟨{ x with turns := x.turns.erase w },.ended (some e),[],0,dispatchers,rfl,rfl,kept,nothing rfl,producers,
      course,log.trans (List.append_nil _).symm,by rw [idle has]; rfl,.nothing counts⟩
  | finish has dispatchers producers log stopped course counted =>
    refine ⟨{ x with turns := x.turns ++ [w] },.waiting,[],1,dispatchers,rfl,rfl,kept,nothing rfl,producers,course,
      log.trans (List.append_nil _).symm,by rw [has]; rfl,.ended has ?_⟩
    rcases counted with success | failure
    · exact .inl success.counts
    · exact .inr failure.counts
  | fault has dispatchers producers log stopped course answered uncounted =>
    exact ⟨{ x with turns := x.turns.erase w },.ended (some .taskFailed),[],1,dispatchers,rfl,rfl,kept,nothing rfl,
      producers,course,log.trans (List.append_nil _).symm,by rw [has]; rfl,
      .fault (fun fine => by cases fine) (by rw [uncounted])⟩

/-- Where no error is counted, a turn leaves the store as it is or carries an operation out. -/
theorem WorkerTurn.effect (turn : WorkerTurn r next d w x stage) (told : next.stopped = false)
    (fine : next.recorder.errors = r.recorder.errors) :
    (next.site.memory = r.site.memory ∧ stage.running? = none) ∨
      ∃ op a, stage.running? = some op ∧ r.site.memory.execute op = (.ok a,next.site.memory) := by
  cases turn with
  | quit idle turned => exact .inl ⟨turned.memory,rfl⟩
  | take oldest turned => exact .inl ⟨turned.memory,rfl⟩
  | enter turned => exact .inl ⟨turned.memory,rfl⟩
  | renew turned => exact .inl ⟨turned.memory,rfl⟩
  | begin has turned =>
    refine .inl ⟨turned.memory,?_⟩
    cases stage <;> first | rfl | cases has
  | crash has turned =>
    refine .inl ⟨turned.memory,?_⟩
    cases stage <;> first | rfl | cases has
  | disconnect stops =>
    rw [told] at stops
    cases stops
  | @finish _ op has dispatchers producers log stopped course counted =>
    rcases counted with success | failure
    · obtain ⟨a,executed⟩ := success.answered
      exact .inr ⟨op,a,has,executed⟩
    · exact absurd fine failure.errors
  | @fault _ op has dispatchers producers log stopped course answered uncounted =>
    obtain ⟨a,executed⟩ := answered
    exact .inr ⟨op,a,has,executed⟩

/-- The turn of a worker finishes the operation that the worker carries out, if there is one. -/
theorem WorkerTurn.finished {worker : Worker} (turn : WorkerTurn r next d w x worker.stage)
    (at_d : r.dispatchers[d]? = some x) (at_w : x.workers[w]? = some worker) :
    (note d r (.turn (.worker d w)) next l).finished = l.finished ++ worker.stage.running?.toList := by
  rw [note,if_pos rfl,stageOf_at at_d at_w]
  show (l.noteStages _ _).finished = _
  cases has : worker.stage.running? with
  | none =>
    rw [Ledger.noteStages_idle l has]
    exact (List.append_nil _).symm
  | some op =>
    have ended {z : Dispatcher} {after : WorkerStage} (workers : z.workers = x.workers)
        (dispatchers : next.dispatchers = r.dispatchers.set d (z.place w after))
        (rests : after = .waiting ∨ ∃ failure, after = .ended failure) :
        (l.noteStages (some worker.stage) (next.stageOf d w)).finished = l.finished ++ [op] := by
      have at_y : next.dispatchers[d]? = some (z.place w after) := by
        rw [dispatchers,List.getElem?_set]
        simp [(List.getElem?_eq_some_iff.mp at_d).1]
      rw [stageOf_at at_y (placed_worker (workers ▸ at_w) after)]
      exact Ledger.noteStages_ended l has rests
    -- A worker that carries an operation out can only end it.
    obtain ⟨sinceMs,untilMs,a,stage⟩ := running_cases has
    rw [stage] at turn
    cases turn with
    | finish runs dispatchers => exact ended (z := { x with turns := x.turns ++ [w] }) rfl dispatchers (.inl rfl)
    | fault runs dispatchers => exact ended (z := { x with turns := x.turns.erase w }) rfl dispatchers (.inr ⟨_,rfl⟩)
    | begin pends => cases pends
    | crash pends => cases pends
    | disconnect stops pends => cases pends

end

/-! ### One dispatcher -/

theorem only_dispatcher {y : Dispatcher} {d : Nat} (dispatchers : r.dispatchers = [x])
    (at_d : r.dispatchers[d]? = some y) : d = 0 ∧ y = x := by
  rw [dispatchers] at at_d
  cases d with
  | zero => exact ⟨rfl,(Option.some.inj at_d).symm⟩
  | succ d => cases at_d

theorem onDispatcher_alone (dispatchers : r.dispatchers = [x]) (d : Nat) {f : Dispatcher → Dispatcher}
    (alike : ∀ x, (f x).workers = x.workers) :
    ∃ y, (r.onDispatcher d f).dispatchers = [y] ∧ y.workers = x.workers := by
  show ∃ y, r.dispatchers.modify d f = [y] ∧ _
  rw [dispatchers]
  cases d with
  | zero => exact ⟨f x,rfl,alike x⟩
  | succ d => exact ⟨x,by cases d <;> rfl,rfl⟩

theorem placeProducer_alone (dispatchers : r.dispatchers = [x]) (i : Nat) (q : Producer σ) :
    ∃ y, (r.placeProducer i q).dispatchers = [y] ∧ y.workers = x.workers := by
  unfold placeProducer
  simp only
  split
  · exact onDispatcher_alone dispatchers q.dispatcher fun _ => rfl
  · exact ⟨x,dispatchers,rfl⟩

/-- What a turn of the producer comes to, where `Sent` says of a producer which operations it has sent. -/
inductive SentTurn (Sent : List Operation → Producer σ → Prop) (accepted : List Operation) (r next : Run σ)
    (p : Producer σ) : Prop where
  | place {q : Producer σ} (sent : Sent accepted q) (count : q.sent = p.sent) (dispatcher : q.dispatcher = p.dispatcher)
      (after : next = r.placeProducer 0 q) : SentTurn Sent accepted r next p
  | send {op : Operation} {subtree : Option Cursor} {q : Producer σ} (stage : p.stage = .sending op subtree)
      (sent : Sent (accepted ++ [op]) q) (count : q.sent = p.sent + 1) (dispatcher : q.dispatcher = p.dispatcher)
      (after : next = (r.onDispatcher p.dispatcher (·.accept 0 op)).placeProducer 0 q) : SentTurn Sent accepted r next p
  | enlist (after : next = r.onDispatcher p.dispatcher (·.enlist 0)) : SentTurn Sent accepted r next p

/-- The turns of a producer keep `Sent` in step with the operations that are accepted. -/
def Accounts [RandomSource σ] (Sent : List Operation → Producer σ → Prop) : Prop :=
  ∀ {r next : Run σ} {x : Dispatcher} {p : Producer σ} {accepted : List Operation}, r.producers[0]? = some p →
    r.dispatchers[p.dispatcher]? = some x → Sent accepted p → r.moveProducer 0 = some next →
    SentTurn Sent accepted r next p

/-- A run of one dispatcher and its producer, that began with the store `m`. -/
structure Alone (Sent : List Operation → Producer σ → Prop) (m : Memory) (l : Ledger) (r : Run σ) (x : Dispatcher)
    (p : Producer σ) : Prop where
  course : r.course = none
  dispatchers : r.dispatchers = [x]
  producers : r.producers = [p]
  sends : p.dispatcher = 0
  sent : Sent l.accepted p
  /-- Where nothing failed, the store is what the finished operations make of it. -/
  carried : l.errors = 0 → r.site.memory = m.executeAll l.finished

namespace Alone

variable [RandomSource σ] {Sent : List Operation → Producer σ → Prop} {m : Memory}

theorem producer (accounts : Accounts Sent) (state : Alone Sent m l r x p) {i : Nat}
    (run : r.moveProducer i = some next) : ∃ y q, Alone Sent m (note 0 r (.turn (.producer i)) next l) next y q := by
  have at_p : r.producers[0]? = some p := by rw [state.producers]; rfl
  have at_x : r.dispatchers[p.dispatcher]? = some x := by rw [state.dispatchers,state.sends]; rfl
  obtain ⟨q,at_q,-⟩ := moveProducer_turn run
  obtain rfl : i = 0 := by
    rw [state.producers] at at_q
    cases i with
    | zero => rfl
    | succ i => cases at_q
  cases accounts at_p at_x state.sent run with
  | @place q sent count dispatcher after =>
    obtain ⟨y,dispatchers,-⟩ := placeProducer_alone state.dispatchers 0 q
    have producers : next.producers = [q] := by
      rw [after,placeProducer_producers,state.producers]
      rfl
    rw [note_unsent at_p (by rw [producers]; rfl) count]
    refine ⟨y,q,?_,after ▸ dispatchers,producers,dispatcher.trans state.sends,sent,fun fine => ?_⟩
    · rw [after,placeProducer_course]
      exact state.course
    · rw [after,placeProducer_site]
      exact state.carried fine
  | @send op subtree q stage sent count dispatcher after =>
    have accepts : (r.onDispatcher p.dispatcher (·.accept 0 op)).dispatchers = [x.accept 0 op] := by
      show r.dispatchers.modify p.dispatcher _ = _
      rw [state.dispatchers,state.sends]
      rfl
    obtain ⟨y,dispatchers,-⟩ := placeProducer_alone accepts 0 q
    have producers : next.producers = [q] := by
      rw [after,placeProducer_producers]
      show r.producers.set 0 q = [q]
      rw [state.producers]
      rfl
    rw [note_sent at_p (by rw [producers]; rfl) stage state.sends count]
    refine ⟨y,q,?_,after ▸ dispatchers,producers,dispatcher.trans state.sends,sent,fun fine => ?_⟩
    · rw [after,placeProducer_course]
      exact state.course
    · rw [after,placeProducer_site]
      exact state.carried fine
  | enlist after =>
    rw [note_unsent at_p (by rw [after]; exact at_p) rfl]
    refine ⟨x.enlist 0,p,by rw [after]; exact state.course,?_,by rw [after]; exact state.producers,state.sends,
      state.sent,fun fine => ?_⟩
    · rw [after]
      show r.dispatchers.modify p.dispatcher _ = _
      rw [state.dispatchers,state.sends]
      rfl
    · rw [after]
      exact state.carried fine

omit [RandomSource σ] in
theorem worker (state : Alone Sent m l r x p) (told : next.stopped = false) {d w : Nat}
    (run : r.moveWorker d w = some next) : ∃ y, Alone Sent m (note 0 r (.turn (.worker d w)) next l) next y p := by
  obtain ⟨x',worker,at_x,at_w,turn⟩ := moveWorker_turn run
  obtain ⟨rfl,rfl⟩ := only_dispatcher state.dispatchers at_x
  obtain ⟨y,dispatchers,producers,course,-⟩ := turn.leaves told
  have noted : note 0 r (.turn (.worker 0 w)) next l =
      (l.noteStages (r.stageOf 0 w) (next.stageOf 0 w)).noteCounts r.recorder next.recorder := by
    simp [note]
  refine ⟨y,course.trans state.course,?_,producers.trans state.producers,state.sends,?_,fun fine => ?_⟩
  · rw [dispatchers,state.dispatchers]
    rfl
  · rw [noted]
    exact (Ledger.noteStages_accepted ..).symm ▸ state.sent
  · rw [turn.finished at_x at_w,Memory.executeAll_append]
    rw [noted] at fine
    change (l.noteStages _ _).errors + _ = 0 at fine
    rw [Ledger.noteStages_errors] at fine
    have same : next.recorder.errors = r.recorder.errors := by
      by_contra differ
      rw [if_neg differ] at fine
      omega
    rw [← state.carried (by omega)]
    rcases turn.effect told same with ⟨memory,idle⟩ | ⟨op,a,runs,executed⟩
    · rw [idle,memory]
      rfl
    · rw [runs]
      exact (congrArg Prod.snd executed).symm

omit [RandomSource σ] in
private theorem aside (state : Alone Sent m l r x p) (aside : Aside r next) : Alone Sent m l next x p :=
  ⟨aside.course.trans state.course,aside.dispatchers.trans state.dispatchers,aside.producers.trans state.producers,
    state.sends,state.sent,fun fine => aside.memory.trans (state.carried fine)⟩

theorem step (accounts : Accounts Sent) (state : Alone Sent m l r x p) {e : Event} (own : ∀ i, e ≠ .outside i)
    (told : next.stopped = false) (run : r.step e = some next) : ∃ y q, Alone Sent m (note 0 r e next l) next y q := by
  cases e with
  | outside i => exact absurd rfl (own i)
  | pass ms =>
    cases run
    exact ⟨x,p,state.course,state.dispatchers,state.producers,state.sends,state.sent,state.carried⟩
  | turn who =>
    cases who with
    | main =>
      have idle : r.moveMain = none := by rw [moveMain,state.course]
      exact absurd (idle.symm.trans run) (by simp)
    | producer i => exact state.producer accounts run
    | worker d w =>
      obtain ⟨y,state⟩ := state.worker told run
      exact ⟨y,p,state⟩
    | watcher i => exact ⟨x,p,state.aside (moveWatcher_aside run)⟩
    | reporter i => exact ⟨x,p,state.aside (moveReporter_aside run)⟩

end Alone

/-- A run of one dispatcher and its producer stays one, whatever the order of the steps. -/
theorem Traced.alone [RandomSource σ] {Sent : List Operation → Producer σ → Prop} (accounts : Accounts Sent)
    {start : Run σ} {m : Memory} {events : List Event} (traced : Traced 0 start events l r)
    (own : ∀ i, .outside i ∉ events) (told : r.stopped = false) (begins : Alone Sent m Ledger.empty start x p) :
    ∃ y q, Alone Sent m l r y q := by
  induction traced with
  | start => exact ⟨x,p,begins⟩
  | @step events l r next e _ run ih =>
    have before : r.stopped = false := by
      cases before : r.stopped with
      | false => rfl
      | true => exact absurd ((step_stopped run before).symm.trans told) (by simp)
    obtain ⟨y,q,state⟩ := ih (fun i member => own i (List.mem_append_left _ member)) before
    exact state.step accounts (fun i same => own i (by simp [same])) told run

end Keyload.Run
