import Mathlib.Data.List.Basic
import Keyload.Proofs.Run.Frame

/-!
What a turn does to a dispatcher. A worker takes the oldest operation, begins it, ends it or quits; a producer adds an
operation at the end of the queue; nobody else touches a queue or a worker.
-/
namespace Keyload

/-- The operation that a worker has and has not begun. -/
def WorkerStage.pending? : WorkerStage → Option Operation
  | .claiming op => some op
  | .renewing op _ _ _ => some op
  | _ => none

/-- The operation that a worker carries out. -/
def WorkerStage.running? : WorkerStage → Option Operation
  | .executing op _ _ _ => some op
  | _ => none

/-- The turns that a worker has ahead of it at most, if it takes no further operation. -/
def WorkerStage.ahead : WorkerStage → Nat
  | .ended _ => 0
  | .waiting => 1
  | .executing _ _ _ _ => 2
  | .renewing _ _ _ _ => 3
  | .claiming _ => 4

namespace Run

variable {σ : Type}

/-- A worker's turn that leaves its dispatcher as `y` and begins some operations. -/
structure Turned (r next : Run σ) (d : Nat) (y : Dispatcher) (begun : List Operation) : Prop where
  dispatchers : next.dispatchers = r.dispatchers.set d y
  producers : next.producers = r.producers
  log : next.site.log = r.site.log ++ begun.map fun op => (d,op)
  memory : next.site.memory = r.site.memory
  counts : next.recorder.counts = r.recorder.counts
  stopped : next.stopped = r.stopped
  course : next.course = r.course

/-- An operation that succeeded was carried out and counted as a call of its kind. -/
structure Succeeded (r next : Run σ) (op : Operation) : Prop where
  answered : ∃ a, r.site.memory.execute op = (.ok a,next.site.memory)
  counts : next.recorder.counts = r.recorder.counts.succeed op.kind

/-- An operation that failed was counted as an error, and reached the store at most to fail there. -/
structure Failed (r next : Run σ) (op : Operation) : Prop where
  memory : next.site.memory = r.site.memory ∨ next.site.memory = (r.site.memory.execute op).2
  counts : next.recorder.counts = r.recorder.counts.fail

/-- What a turn of worker `w` of dispatcher `d`, which is `x`, can be, by the stage before. -/
inductive WorkerTurn (r next : Run σ) (d w : Nat) (x : Dispatcher) : WorkerStage → Prop where
  | quit (idle : r.stopped = true ∨ x.queue = [] ∧ r.hasSenders d = false)
      (turned : Turned r next d (x.retire w none) []) : WorkerTurn r next d w x .waiting
  | take {op : Operation} {queue : List Operation} (oldest : x.queue = op :: queue)
      (turned : Turned r next d ({ x with queue, turns := x.turns.tail }.place w (.claiming op)) [])
      (first : x.turns.head? = some w) : WorkerTurn r next d w x .waiting
  | enter {op : Operation} (turned : Turned r next d x []) : WorkerTurn r next d w x (.claiming op)
  | renew {op : Operation} {sinceMs untilMs : Nat} {a : Reaction}
      (turned : Turned r next d (x.place w (.renewing op sinceMs untilMs a)) []) :
      WorkerTurn r next d w x (.claiming op)
  | begin {stage : WorkerStage} {op : Operation} {sinceMs untilMs : Nat} {a : Reaction} (has : stage.pending? = some op)
      (turned : Turned r next d (x.place w (.executing op sinceMs untilMs a)) [op]) : WorkerTurn r next d w x stage
  | crash {stage : WorkerStage} {op : Operation} (has : stage.pending? = some op)
      (turned : Turned r next d (x.retire w (some .taskFailed)) []) : WorkerTurn r next d w x stage
  | disconnect {stage : WorkerStage} {op : Operation} {e : RunError} (stops : next.stopped = true)
      (has : stage.pending? = some op) (dispatchers : next.dispatchers = r.dispatchers.set d (x.retire w (some e)))
      (course : next.course = r.course) (producers : next.producers = r.producers) (log : next.site.log = r.site.log)
      (counts : next.recorder.counts = r.recorder.counts) : WorkerTurn r next d w x stage
  | finish {stage : WorkerStage} {op : Operation} (has : stage.running? = some op)
      (dispatchers : next.dispatchers = r.dispatchers.set d (x.rejoin w)) (producers : next.producers = r.producers)
      (log : next.site.log = r.site.log) (stopped : next.stopped = r.stopped) (course : next.course = r.course)
      (counted : Succeeded r next op ∨ Failed r next op) : WorkerTurn r next d w x stage
  | fault {stage : WorkerStage} {op : Operation} (has : stage.running? = some op)
      (dispatchers : next.dispatchers = r.dispatchers.set d (x.retire w (some .taskFailed)))
      (producers : next.producers = r.producers) (log : next.site.log = r.site.log) (stopped : next.stopped = r.stopped)
      (course : next.course = r.course) (answered : ∃ a, r.site.memory.execute op = (.ok a,next.site.memory))
      (uncounted : next.recorder = r.recorder) : WorkerTurn r next d w x stage

namespace Turned

variable {r next : Run σ} {d : Nat} {y : Dispatcher} {begun : List Operation}

theorem calls (turned : Turned r next d y begun) : next.recorder.calls = r.recorder.calls :=
  congrArg Counts.calls turned.counts

theorem errors (turned : Turned r next d y begun) : next.recorder.errors = r.recorder.errors :=
  congrArg Counts.errors turned.counts

end Turned

namespace Succeeded

variable {r next : Run σ} {op : Operation}

theorem calls (success : Succeeded r next op) : next.recorder.calls = r.recorder.calls + 1 :=
  (congrArg Counts.calls success.counts).trans (Counts.succeed_calls _ _)

theorem errors (success : Succeeded r next op) : next.recorder.errors = r.recorder.errors :=
  (congrArg Counts.errors success.counts).trans (Counts.succeed_errors _ _)

end Succeeded

namespace Failed

variable {r next : Run σ} {op : Operation}

theorem calls (failure : Failed r next op) : next.recorder.calls = r.recorder.calls :=
  congrArg Counts.calls failure.counts

theorem errors (failure : Failed r next op) : next.recorder.errors ≠ r.recorder.errors := by
  intro same
  exact Counts.fail_errors r.recorder.counts ((congrArg Counts.errors failure.counts).symm.trans same)

end Failed

/-! ### Workers -/

theorem set_same {α : Type} {l : List α} {i : Nat} {a : α} (at_i : l[i]? = some a) : l.set i a = l := by
  obtain ⟨inside,rfl⟩ := List.getElem?_eq_some_iff.mp at_i
  exact List.set_getElem_self inside

theorem onDispatcher_at {r : Run σ} {d : Nat} {x : Dispatcher} (at_d : r.dispatchers[d]? = some x)
    (f : Dispatcher → Dispatcher) : (r.onDispatcher d f).dispatchers = r.dispatchers.set d (f x) := by
  show r.dispatchers.modify d f = _
  rw [List.modify_eq_set_getElem?,at_d]
  rfl

theorem log_push (s : Site) (nowMs d connection : Nat) (op : Operation) :
    (s.beginOperation nowMs d connection op).2.log = s.log ++ [(d,op)] := by
  simp [Site.log,Site.beginOperation]

/-- A worker begins its operation, after steps that concern neither the dispatcher nor what is counted. -/
private theorem begin_turned {r s : Run σ} {d w : Nat} {x : Dispatcher} (at_d : r.dispatchers[d]? = some x)
    (same : Turned r s d x []) (c : Client) (op : Operation) :
    ∃ since until_ a, Turned r (s.beginOperation d w c op) d (x.place w (.executing op since until_ a)) [op] := by
  have inside := (List.getElem?_eq_some_iff.mp at_d).1
  have set : s.dispatchers[d]? = some x := by
    rw [same.dispatchers,List.getElem?_set]
    simp [inside]
  let a := (s.site.beginOperation s.nowMs d c.connection op).1
  refine ⟨s.nowMs,s.nowMs + a.delayMs,a,?_,same.producers,?_,same.memory,same.counts,same.stopped,same.course⟩
  · refine (onDispatcher_at set _).trans ?_
    rw [same.dispatchers,List.set_set]
    rfl
  · refine (log_push s.site s.nowMs d c.connection op).trans ?_
    rw [same.log]
    simp

private theorem same_turned {r : Run σ} {d : Nat} {x : Dispatcher} (at_d : r.dispatchers[d]? = some x) :
    Turned r r d x [] :=
  ⟨(set_same at_d).symm,rfl,by simp,rfl,rfl,rfl,rfl⟩

private theorem claim_turn {r next : Run σ} {d w i every : Nat} {x : Dispatcher} {op : Operation}
    (at_d : r.dispatchers[d]? = some x) (run : r.claim d w i every op = some next) :
    WorkerTurn r next d w x (.claiming op) := by
  have same := same_turned at_d
  unfold claim at run
  cases client : r.clients[i]? with
  | none => simp only [client] at run; cases run
  | some c =>
    simp only [client] at run
    split at run
    · cases run
      obtain ⟨_,_,_,turned⟩ := begin_turned (w := w) at_d same c op
      exact .begin rfl turned
    · split at run
      · split at run
        · cases run
        · cases run
          exact .enter ⟨same.dispatchers,rfl,same.log,rfl,rfl,rfl,rfl⟩
      · split at run
        · cases run
          exact .renew ⟨onDispatcher_at at_d _,rfl,same.log,rfl,rfl,rfl,rfl⟩
        · cases run
          have entered : Turned r (r.setClient i (c.spend.leave ⟨d,w⟩)) d x [] :=
            ⟨same.dispatchers,rfl,same.log,rfl,rfl,rfl,rfl⟩
          obtain ⟨_,_,_,turned⟩ := begin_turned (w := w) at_d entered (c.spend.leave ⟨d,w⟩) op
          exact .begin rfl turned

private theorem endRenewal_site (c : Client) (s : Site) (a : Reaction) :
    (c.endRenewal s a).2.memory = s.memory ∧ (c.endRenewal s a).2.begun = s.begun := by
  have connected := endConnect_site s c.endpoint a
  unfold Client.endRenewal
  split
  · rename_i ended
    rw [ended] at connected
    exact connected
  · rename_i ended
    rw [ended] at connected
    exact connected

private theorem endRenewal_turn {r next : Run σ} {d w i sinceMs untilMs : Nat} {x : Dispatcher} {op : Operation}
    {a : Reaction} (at_d : r.dispatchers[d]? = some x) (run : r.endRenewal d w i op sinceMs a = some next) :
    WorkerTurn r next d w x (.renewing op sinceMs untilMs a) := by
  have same := same_turned at_d
  unfold endRenewal at run
  cases client : r.clients[i]? with
  | none => simp only [client] at run; cases run
  | some c =>
    have frame := endRenewal_site c r.site a
    simp only [client] at run
    split at run
    · rename_i c' site renewed
      rw [renewed] at frame
      cases counted : r.recorder.reconnect ((r.nowMs - sinceMs) * Ticker.milli) with
      | error f =>
        rw [counted] at run
        cases run
        exact .crash rfl ⟨onDispatcher_at at_d _,rfl,(Site.log_of_begun frame.2).trans (List.append_nil _).symm,frame.1,
          rfl,rfl,rfl⟩
      | ok recorder =>
        rw [counted] at run
        cases run
        have renewed : Turned r { ({ r with site }.setClient i (c'.spend.leave ⟨d,w⟩)) with recorder } d x [] :=
          ⟨same.dispatchers,rfl,(Site.log_of_begun frame.2).trans (List.append_nil _).symm,frame.1,
            Recorder.reconnect_counts counted,rfl,rfl⟩
        obtain ⟨_,_,_,turned⟩ := begin_turned (w := w) at_d renewed (c'.spend.leave ⟨d,w⟩) op
        exact .begin rfl turned
    · rename_i e site refused
      rw [refused] at frame
      cases run
      exact .disconnect rfl rfl (onDispatcher_at at_d _) rfl rfl (Site.log_of_begun frame.2) rfl

/-- An answer is of the kind of its operation. -/
theorem execute_kind {m m' : Memory} {op : Operation} {a : Answer} (executed : m.execute op = (.ok a,m')) :
    a.kind = op.kind := by
  cases op with
  | put key value =>
    simp only [Memory.execute] at executed
    split at executed
    · cases executed
    · cases executed
      rfl
  | delete key below =>
    cases executed
    rfl
  | get key below serializable keysOnly =>
    cases executed
    cases below with
    | true => rfl
    | false =>
      simp only [Memory.read]
      cases m.get? key <;> rfl

private theorem endOperation_turn {r s : Run σ} {d w sinceMs : Nat} {fullRead : Bool} {x : Dispatcher} {op : Operation}
    {stage : WorkerStage} (has : stage.running? = some op) (at_d : r.dispatchers[d]? = some x)
    {result : Except StoreError Answer} (dispatchers : s.dispatchers = r.dispatchers)
    (producers : s.producers = r.producers) (log : s.site.log = r.site.log) (stopped : s.stopped = r.stopped)
    (course : s.course = r.course) (recorder : s.recorder = r.recorder)
    (answered : (∃ a, result = .ok a ∧ r.site.memory.execute op = (.ok a,s.site.memory)) ∨
      (∃ e, result = .error e) ∧ (s.site.memory = r.site.memory ∨ s.site.memory = (r.site.memory.execute op).2)) :
    WorkerTurn r (s.endOperation d w fullRead op sinceMs result) d w x stage := by
  rw [← dispatchers] at at_d
  rcases answered with ⟨a,rfl,executed⟩ | ⟨⟨e,rfl⟩,memory⟩
  · unfold endOperation
    cases counted : s.recorder.answer a ((s.nowMs - sinceMs) * Ticker.milli) fullRead with
    | error f =>
      simp only [counted,recorded]
      exact .fault has ((onDispatcher_at at_d _).trans (by rw [dispatchers])) producers log stopped course ⟨a,executed⟩
        recorder
    | ok recorder' =>
      simp only [counted,recorded]
      have counts := Recorder.answer_counts counted
      rw [recorder,execute_kind executed] at counts
      exact .finish has ((onDispatcher_at at_d _).trans (by rw [dispatchers])) producers log stopped course
        (.inl ⟨⟨a,executed⟩,counts⟩)
  · have counts := Recorder.error_counts s.recorder op.kind.name
    rw [recorder] at counts
    exact .finish has ((onDispatcher_at at_d _).trans (by rw [dispatchers])) producers log stopped course
      (.inr ⟨memory,recorder ▸ counts⟩)

private theorem endOperation_answer (s : Site) (op : Operation) (a : Reaction) :
    (∃ b, (s.endOperation op a).1 = .ok b ∧ s.memory.execute op = (.ok b,(s.endOperation op a).2.memory)) ∨
      (∃ e, (s.endOperation op a).1 = .error e) ∧
        ((s.endOperation op a).2.memory = s.memory ∨ (s.endOperation op a).2.memory = (s.memory.execute op).2) := by
  unfold Site.endOperation
  cases a.failure with
  | some e => exact .inr ⟨⟨e,rfl⟩,.inl rfl⟩
  | none =>
    cases executed : s.memory.execute op with
    | mk result memory =>
      cases result with
      | ok b => exact .inl ⟨b,rfl,rfl⟩
      | error e => exact .inr ⟨⟨e,rfl⟩,.inr rfl⟩

/-- A turn of a worker is one of these. -/
theorem moveWorker_turn {r next : Run σ} {d w : Nat} (run : r.moveWorker d w = some next) :
    ∃ x worker, r.dispatchers[d]? = some x ∧ x.workers[w]? = some worker ∧ WorkerTurn r next d w x worker.stage := by
  obtain ⟨x,at_d,run⟩ := Option.bind_eq_some_iff.mp run
  obtain ⟨worker,at_w,run⟩ := Option.bind_eq_some_iff.mp run
  refine ⟨x,worker,at_d,at_w,?_⟩
  have same := same_turned at_d
  cases stage : worker.stage with
  | waiting =>
    simp only [stage] at run
    split at run
    · rename_i told
      cases run
      exact .quit (.inl told) ⟨onDispatcher_at at_d _,rfl,same.log,rfl,rfl,rfl,rfl⟩
    · split at run
      · rename_i y taken
        cases run
        unfold Dispatcher.take at taken
        split at taken
        · rename_i first
          split at taken
          · rename_i op queue oldest
            cases taken
            exact .take oldest ⟨onDispatcher_at at_d _,rfl,same.log,rfl,rfl,rfl,rfl⟩ first
          · cases taken
        · cases taken
      · split at run
        · rename_i idle
          cases run
          obtain ⟨empty,nobody⟩ := Bool.and_eq_true_iff.mp idle
          exact .quit (.inr ⟨List.isEmpty_iff.mp empty,by simpa using nobody⟩)
            ⟨onDispatcher_at at_d _,rfl,same.log,rfl,rfl,rfl,rfl⟩
        · cases run
  | claiming op =>
    simp only [stage] at run
    exact claim_turn at_d run
  | renewing op sinceMs untilMs a =>
    simp only [stage] at run
    split at run
    · exact endRenewal_turn at_d run
    · cases run
  | executing op sinceMs untilMs a =>
    simp only [stage] at run
    split at run
    · cases run
      have log : (r.site.endOperation op a).2.log = r.site.log := by
        refine Site.log_of_begun ?_
        unfold Site.endOperation
        split <;> rfl
      exact endOperation_turn rfl at_d rfl rfl log rfl rfl rfl (endOperation_answer r.site op a)
    · split at run
      · cases run
      · split at run
        · cases run
          exact endOperation_turn rfl at_d rfl rfl rfl rfl rfl rfl (.inr ⟨⟨_,rfl⟩,.inl rfl⟩)
        · cases run
  | ended failure =>
    simp only [stage] at run
    cases run

/-! ### Producers -/

/-- A turn of a producer: an operation is accepted, or the producer goes on without sending, or it waits in line. -/
inductive ProducerTurn [RandomSource σ] (r next : Run σ) (i : Nat) (p : Producer σ) : Prop where
  | send {op : Operation} {subtree : Option Cursor} {x : Dispatcher} (stage : p.stage = .sending op subtree)
      (at_d : r.dispatchers[p.dispatcher]? = some x) (told : r.stopped = false) (served : x.isServed = true)
      (room : x.queue.length < x.capacity)
      (after : next = (r.onDispatcher p.dispatcher (·.accept i op)).placeProducer i (p.proceed subtree)) :
      ProducerTurn r next i p
  | place {q : Producer σ} (sent : q.sent = p.sent) (after : next = r.placeProducer i q) : ProducerTurn r next i p
  | enlist (after : next = r.onDispatcher p.dispatcher (·.enlist i)) : ProducerTurn r next i p

theorem drawing_sent {α : Type} (p : Producer σ) (x : Draw σ α) {next : α → Producer σ → Producer σ} {n : Nat}
    (at_p : p.sent = n) (after : ∀ a q, q.sent = n → (next a q).sent = n) : (p.drawing x next).sent = n := by
  unfold Producer.drawing
  split
  · exact after _ _ at_p
  · exact at_p

section
variable [RandomSource σ]

theorem build_sent (p : Producer σ) (levels : List Pattern.Level) (c : Cursor) : (p.build levels c).sent = p.sent := by
  refine drawing_sent p _ rfl fun a q same => ?_
  obtain ⟨op,subtree⟩ := a
  cases op with
  | some op => exact same
  | none => exact same

theorem choose_sent {p q : Producer σ} (run : p.choose = some q) : q.sent = p.sent := by
  unfold Producer.choose at run
  split at run
  · cases run
    refine drawing_sent p _ rfl fun a q same => ?_
    obtain ⟨entry,keys⟩ := a
    cases entry with
    | some e => exact same
    | none => exact same
  · cases run
    rfl
  · cases run
    rfl
  · cases run
  · cases run
    rfl

theorem beginStep_sent (p : Producer σ) (held : Option Operation) : (p.beginStep held).sent = p.sent := by
  cases held with
  | some op => rfl
  | none =>
    unfold Producer.beginStep
    simp only
    split
    · refine drawing_sent p _ rfl fun a q same => ?_
      obtain ⟨step,activity⟩ := a
      cases step with
      | send op => exact same
      | build subtree => exact (build_sent _ _ _).trans same
      | nothing => exact same
    · rfl
    · rfl

theorem proceed_sent (p : Producer σ) (subtree : Option Cursor) : (p.proceed subtree).sent = p.sent + 1 := by
  unfold Producer.proceed
  simp only
  split
  · exact build_sent _ _ _
  · rfl

omit [RandomSource σ] in
theorem wake_sent (p : Producer σ) (nowMs : Nat) : (p.wake nowMs).sent = p.sent := by
  unfold Producer.wake
  split <;> rfl

/-- A turn of a producer is one of these. -/
theorem moveProducer_turn {r next : Run σ} {i : Nat} (run : r.moveProducer i = some next) :
    ∃ p, r.producers[i]? = some p ∧ ProducerTurn r next i p := by
  obtain ⟨p,at_i,run⟩ := Option.bind_eq_some_iff.mp run
  obtain ⟨x,at_d,run⟩ := Option.bind_eq_some_iff.mp run
  refine ⟨p,at_i,?_⟩
  cases stage : p.stage with
  | delayed untilMs =>
    simp only [stage] at run
    split at run
    · cases run
      exact .place (q := p.inStage .ended) rfl rfl
    · split at run
      · cases run
        exact .place (wake_sent p _) rfl
      · cases run
  | choosing =>
    simp only [stage] at run
    obtain ⟨q,chosen,rfl⟩ := Option.map_eq_some_iff.mp run
    exact .place (choose_sent chosen) rfl
  | pacing held =>
    simp only [stage] at run
    split at run
    · cases run
      exact .place (q := p.inStage .ended) rfl rfl
    · split at run
      · cases run
        exact .place (q := (p.tick r.nowMs).beginStep held) (beginStep_sent _ held) rfl
      · cases run
  | sending op subtree =>
    simp only [stage] at run
    unfold send at run
    split at run
    · cases run
      exact .place (q := p.inStage .ended) rfl rfl
    · rename_i goes
      simp only [Bool.or_eq_true,Bool.not_eq_true',not_or,Bool.not_eq_true,Bool.not_eq_false] at goes
      split at run
      · rename_i admitted
        cases run
        have room : x.queue.length < x.capacity := by
          unfold Dispatcher.admits at admitted
          exact of_decide_eq_true (Bool.and_eq_true_iff.mp admitted).1
        exact .send stage at_d goes.1 goes.2 room rfl
      · split at run
        · cases run
        · cases run
          exact .enlist rfl
  | ended =>
    simp only [stage] at run
    cases run
  | broken f =>
    simp only [stage] at run
    cases run

end

/-! ### Being told to end -/

theorem ProducerTurn.stopped [RandomSource σ] {r next : Run σ} {i : Nat} {p : Producer σ}
    (turn : ProducerTurn r next i p) : next.stopped = r.stopped := by
  cases turn with
  | send stage at_d told served room after => rw [after,placeProducer_stopped]; rfl
  | place sent after => rw [after,placeProducer_stopped]
  | enlist after => rw [after]; rfl

theorem WorkerTurn.stopped {r next : Run σ} {d w : Nat} {x : Dispatcher} {stage : WorkerStage}
    (turn : WorkerTurn r next d w x stage) (told : r.stopped = true) : next.stopped = true := by
  cases turn with
  | quit idle turned => rw [turned.stopped,told]
  | take oldest turned => rw [turned.stopped,told]
  | enter turned => rw [turned.stopped,told]
  | renew turned => rw [turned.stopped,told]
  | begin has turned => rw [turned.stopped,told]
  | crash has turned => rw [turned.stopped,told]
  | disconnect stops => exact stops
  | finish has dispatchers producers log stopped course counted => rw [stopped,told]
  | fault has dispatchers producers log stopped course answered uncounted => rw [stopped,told]

/-- A run that is told to end stays told. -/
theorem step_stopped [RandomSource σ] {r next : Run σ} {e : Event} (run : r.step e = some next)
    (told : r.stopped = true) : next.stopped = true := by
  cases e with
  | turn p =>
    cases p with
    | main => exact (moveMain_extends run).stopped told
    | producer i =>
      obtain ⟨p,-,turn⟩ := moveProducer_turn run
      rw [turn.stopped,told]
    | worker d w =>
      obtain ⟨x,worker,-,-,turn⟩ := moveWorker_turn run
      exact turn.stopped told
    | watcher i => rw [(moveWatcher_aside run).stopped,told]
    | reporter i => rw [(moveReporter_aside run).stopped,told]
  | outside i =>
    cases run
    exact intervene_stopped r i told
  | pass ms =>
    cases run
    exact told

end Run

end Keyload
