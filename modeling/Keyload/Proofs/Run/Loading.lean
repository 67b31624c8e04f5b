import Keyload.Proofs.KeySpace.Walk
import Keyload.Proofs.Run.Alone

/-!
A load from beginning to end. The producer has sent the entries of the pass so far, holds at most one, and has the
others before it; the workers leave only when it has ended, or fail. So a load that ends well has sent every entry of
the pass, and where no operation failed the store has all of their keys.
-/
namespace Keyload
open Churn.Activity (putOf)

variable {σ : Type} [RandomSource σ]

namespace Bounded

/-- One pass yields the entries `done`, and then what is left of it. -/
structure After (whole : Draw σ (List Entry)) (g₀ : σ) (done : List Entry) (b : Bounded) (g : σ) : Prop where
  onePass : b.total = 0
  rest : whole g₀ = (b.remaining g).map fun r => (done ++ r.1,r.2)

theorem After.next {whole : Draw σ (List Entry)} {g₀ g g' : σ} {done : List Entry} {b b' : Bounded} {e : Entry}
    (after : After whole g₀ done b g) (run : b.next g = .ok ((some e,b'),g')) : After whole g₀ (done ++ [e]) b' g' := by
  refine ⟨(next_total run).trans after.onePass,?_⟩
  rw [after.rest,remaining_next b after.onePass,Draw.bind_run run]
  show ((b'.remaining g').bind fun r => .ok (e :: r.1,r.2)).map _ = _
  cases b'.remaining g' with
  | error f => rfl
  | ok r => simp [Except.bind,Except.map]

theorem After.none {whole : Draw σ (List Entry)} {g₀ g g' : σ} {done : List Entry} {b b' : Bounded}
    (after : After whole g₀ done b g) (run : b.next g = .ok ((none,b'),g')) : whole g₀ = .ok (done,g') := by
  rw [after.rest,remaining_next b after.onePass,Draw.bind_run run]
  show Except.ok (done ++ [],g') = _
  rw [List.append_nil]

end Bounded

/-! ### The producer of a load -/

open Bounded (After)

/-- The producer of a load, after the entries `done` were accepted by the dispatcher `x`. -/
inductive Loading (whole : Draw σ (List Entry)) (g₀ : σ) (x : Dispatcher) (done : List Entry) (p : Producer σ) :
    Prop where
  | choosing {b : Bounded} (stage : p.stage = .choosing) (work : p.work = .load b)
      (after : After whole g₀ done b p.source) : Loading whole g₀ x done p
  | pacing {b : Bounded} {e : Entry} (stage : p.stage = .pacing (some (putOf e))) (work : p.work = .load b)
      (after : After whole g₀ (done ++ [e]) b p.source) : Loading whole g₀ x done p
  | sending {b : Bounded} {e : Entry} (stage : p.stage = .sending (putOf e) none) (work : p.work = .load b)
      (after : After whole g₀ (done ++ [e]) b p.source) : Loading whole g₀ x done p
  | complete {g : σ} (stage : p.stage = .ended) (all : whole g₀ = .ok (done,g)) : Loading whole g₀ x done p
  /-- All workers have failed. -/
  | abandoned (stage : p.stage = .ended) (failed : ∀ w ∈ x.workers, ∃ f, w.stage = .ended (some f)) :
      Loading whole g₀ x done p
  | broken {f : Fault} (stage : p.stage = .broken f) : Loading whole g₀ x done p

/-- What a turn of the producer of a load comes to. -/
inductive LoadTurn (whole : Draw σ (List Entry)) (g₀ : σ) (x : Dispatcher) (done : List Entry) (r next : Run σ)
    (p : Producer σ) : Prop where
  | place {q : Producer σ} (loading : Loading whole g₀ x done q) (sent : q.sent = p.sent)
      (dispatcher : q.dispatcher = p.dispatcher) (signal : q.signal = p.signal) (after : next = r.placeProducer 0 q) :
      LoadTurn whole g₀ x done r next p
  | send {e : Entry} {q : Producer σ} (stage : p.stage = .sending (putOf e) none)
      (loading : Loading whole g₀ (x.accept 0 (putOf e)) (done ++ [e]) q) (sent : q.sent = p.sent + 1)
      (dispatcher : q.dispatcher = p.dispatcher) (signal : q.signal = p.signal)
      (after : next = (r.onDispatcher p.dispatcher (·.accept 0 (putOf e))).placeProducer 0 q) :
      LoadTurn whole g₀ x done r next p
  | enlist (after : next = r.onDispatcher p.dispatcher (·.enlist 0)) : LoadTurn whole g₀ x done r next p

namespace Run

variable {whole : Draw σ (List Entry)} {g₀ : σ} {x : Dispatcher} {done : List Entry} {r next : Run σ} {p : Producer σ}

theorem load_turn (at_p : r.producers[0]? = some p) (at_x : r.dispatchers[p.dispatcher]? = some x)
    (loading : Loading whole g₀ x done p) (told : r.stopped = false) (silent : p.signal = none)
    (unquit : ∀ w ∈ x.workers, w.stage ≠ .ended none) (run : r.moveProducer 0 = some next) :
    LoadTurn whole g₀ x done r next p := by
  have free : r.isInterrupted p = false := by simp [isInterrupted,told,silent]
  unfold moveProducer at run
  rw [at_p] at run
  simp only [Option.bind_eq_bind,Option.bind_some,at_x] at run
  cases loading with
  | @choosing b stage work after =>
    simp only [stage,Producer.choose,work,Option.map_some,Option.some.injEq,Producer.drawing] at run
    cases drawn : (b.next : Draw σ _) p.source with
    | error f =>
      rw [drawn] at run
      exact .place (q := p.inStage (.broken f)) (.broken rfl) rfl rfl rfl run.symm
    | ok chosen =>
      rw [drawn] at run
      obtain ⟨⟨entry,b⟩,g⟩ := chosen
      cases entry with
      | some e =>
        let q := { p with source := g, work := .load b, stage := .pacing (some (putOf e)) }
        exact .place (q := q) (.pacing rfl rfl (after.next drawn)) rfl rfl rfl run.symm
      | none =>
        let q := { p with source := g, work := .load b, stage := .ended }
        exact .place (q := q) (.complete rfl (after.none drawn)) rfl rfl rfl run.symm
  | pacing stage work after =>
    simp only [stage,free,Bool.false_eq_true,if_false] at run
    split at run
    · cases run
      exact .place (q := (p.tick r.nowMs).inStage (.sending _ none)) (.sending rfl work after) rfl rfl rfl rfl
    · cases run
  | sending stage work after =>
    simp only [stage,send,told,Bool.false_or] at run
    split at run
    · rename_i unserved
      cases run
      refine .place (q := p.inStage .ended) (.abandoned rfl fun w member => ?_) rfl rfl rfl rfl
      have all : ∀ w ∈ x.workers, w.hasEnded = true := by simpa [Dispatcher.isServed] using unserved
      have gone := all w member
      unfold Worker.hasEnded at gone
      cases at_w : w.stage with
      | ended failure =>
        cases failure with
        | some f => exact ⟨f,rfl⟩
        | none => exact absurd at_w (unquit w member)
      | _ => simp [at_w] at gone
    · split at run
      · cases run
        exact .send (q := { p with sent := p.sent + 1 }.finishStep) stage (.choosing rfl work after) rfl rfl rfl rfl
      · split at run
        · cases run
        · cases run
          exact .enlist rfl
  | complete stage all => simp only [stage] at run; cases run
  | abandoned stage failed => simp only [stage] at run; cases run
  | broken stage => simp only [stage] at run; cases run

end Run

theorem Loading.alike {whole : Draw σ (List Entry)} {g₀ : σ} {x y : Dispatcher} {done : List Entry} {p : Producer σ}
    (loading : Loading whole g₀ x done p) (workers : y.workers = x.workers) : Loading whole g₀ y done p := by
  cases loading with
  | choosing stage work after => exact .choosing stage work after
  | pacing stage work after => exact .pacing stage work after
  | sending stage work after => exact .sending stage work after
  | complete stage all => exact .complete stage all
  | abandoned stage failed => exact .abandoned stage (workers ▸ failed)
  | broken stage => exact .broken stage

/-! ### The state of a load -/

namespace Run

/-- The main task waits for the load, or has seen it fail. -/
inductive Unloaded : Phase σ → Prop where
  | loading : Unloaded (.loading 0 0)
  | failed {e : RunError} : Unloaded (.ended (.error e))
  | crashed {f : Fault} : Unloaded (.crashed f)

omit [RandomSource σ] in
theorem Unloaded.unfinished {c : Course σ} (unloaded : Unloaded c.phase) (finding : Finding) :
    c.ending? ≠ some (ExceptT.mk (.ok (.ok finding))) := by
  intro ended
  unfold Course.ending? at ended
  generalize c.phase = phase at ended unloaded
  cases unloaded <;> cases ended

/-- What the main task has come to. -/
inductive Awaiting (x : Dispatcher) (p : Producer σ) : Phase σ → Prop where
  | unloaded {phase : Phase σ} (unloaded : Unloaded phase) : Awaiting x p phase
  | loaded {sent : List Nat} (joined : x.joined? = some (.ok ())) (ended : p.stage = .ended) :
      Awaiting x p (.ended (.ok (.loaded sent)))

/-- A load that the main task has begun. -/
structure Underway (whole : Draw σ (List Entry)) (g₀ : σ) (l : Ledger) (r : Run σ) (x : Dispatcher) (p : Producer σ)
    (c : Course σ) : Prop where
  course : r.course = some c
  told : r.stopped = false
  goal : ∃ total, c.goal = .loads 1 total
  first : c.phase = .loading 0 0 → c.loaded = []
  phase : Awaiting x p c.phase
  dispatchers : r.dispatchers = [x]
  producers : r.producers = [p]
  sends : p.dispatcher = 0
  silent : p.signal = none
  loading : ∃ done, l.accepted = done.map putOf ∧ Loading whole g₀ x done p
  /-- A worker leaves only after the producer has. -/
  patient : ∀ w ∈ x.workers, w.stage = .ended none → p.hasEnded = true
  /-- Where nothing failed, what is finished is in the store. -/
  stored : l.errors = 0 → ∀ e, putOf e ∈ l.finished → e.key ∈ r.site.memory.data

variable {whole : Draw σ (List Entry)} {g₀ : σ} {l : Ledger} {r next : Run σ} {x : Dispatcher} {p : Producer σ}
  {c : Course σ}

omit [RandomSource σ] in
private theorem unfailed_of_joined {v : Worker} {e : RunError} (joined : x.joined? = some (.ok ()))
    (member : v ∈ x.workers) : v.stage ≠ .ended (some e) := by
  intro failed
  have seen := List.filterMap_eq_nil_iff.mp (Dispatcher.joined_ok joined).2.1 v member
  rw [failed] at seen
  cases seen

omit [RandomSource σ] in
private theorem joined_alone (dispatchers : r.dispatchers = [x]) (joined : r.dispatchersJoined? [0] = some (.ok ())) :
    x.joined? = some (.ok ()) := by
  simp only [dispatchersJoined?,dispatchers,List.getElem?_cons_zero,Option.elim_some] at joined
  obtain ⟨one,at_one,joined⟩ := Option.bind_eq_some_iff.mp joined
  cases one with
  | ok _ => exact at_one
  | error e => simp at joined

omit [RandomSource σ] in
private theorem ended_well (unbroken : p.fault? = none) (ended : p.hasEnded = true) : p.stage = .ended := by
  unfold Producer.fault? at unbroken
  unfold Producer.hasEnded at ended
  cases stage : p.stage with
  | ended => rfl
  | broken f => simp [stage] at unbroken
  | _ => simp [stage] at ended

theorem Underway.main (state : Underway whole g₀ l r x p c) (run : r.moveMain = some next) :
    ∃ c, Underway whole g₀ l next x p c := by
  have in_phase {c' : Course σ} {phase : Phase σ} (goal : c'.goal = c.goal) (awaiting : Awaiting x p phase)
      (gone : phase ≠ .loading 0 0) : Underway whole g₀ l (r.inPhase c' phase) x p { c' with phase } :=
    ⟨rfl,state.told,goal ▸ state.goal,fun again => absurd again gone,awaiting,state.dispatchers,state.producers,
      state.sends,state.silent,state.loading,state.patient,state.stored⟩
  have move := moveMain_move state.course run
  have awaiting := state.phase
  obtain ⟨total,goal⟩ := state.goal
  generalize at_phase : c.phase = phase at move awaiting
  rcases awaiting with (_ | _ | _) | ⟨_,_⟩
  · cases move with
    | broken at_i broken after =>
      rw [after]
      exact ⟨_,in_phase rfl (.unloaded .crashed) (by simp)⟩
    | unjoined joined after =>
      rw [after]
      exact ⟨_,in_phase rfl (.unloaded .failed) (by simp)⟩
    | loaded done _ _ after =>
      have at_p := done.at_i
      rw [state.producers] at at_p
      cases at_p
      have ends : Awaiting x p (.ended (.ok (.loaded [p.sent]))) :=
        .loaded (joined_alone state.dispatchers done.joined) (ended_well done.unbroken done.ended)
      rw [after,state.first at_phase]
      exact ⟨_,in_phase rfl ends (by simp)⟩
    | loadsOn done again more =>
      cases goal.symm.trans again
      omega
    | goesOn done other => exact absurd goal (other 1 total)
  all_goals cases move

theorem moveProducer_active {i : Nat} (at_p : r.producers[i]? = some p) (run : r.moveProducer i = some next) :
    p.hasEnded = false := by
  obtain ⟨q,at_q,run⟩ := Option.bind_eq_some_iff.mp run
  cases at_p.symm.trans at_q
  obtain ⟨y,-,run⟩ := Option.bind_eq_some_iff.mp run
  unfold Producer.hasEnded
  cases stage : p.stage with
  | ended => simp only [stage] at run; cases run
  | broken f => simp only [stage] at run; cases run
  | _ => rfl

omit [RandomSource σ] in
private theorem Awaiting.loaded_or {phase : Phase σ} (awaiting : Awaiting x p phase) :
    Unloaded phase ∨ x.joined? = some (.ok ()) ∧ p.stage = .ended := by
  cases awaiting with
  | unloaded unloaded => exact .inl unloaded
  | loaded joined ended => exact .inr ⟨joined,ended⟩

omit [RandomSource σ] in
private theorem Awaiting.of_active {y : Dispatcher} {q : Producer σ} {phase : Phase σ} (awaiting : Awaiting x p phase)
    (active : p.hasEnded = false) : Awaiting y q phase := by
  cases awaiting with
  | unloaded unloaded => exact .unloaded unloaded
  | loaded joined ended => simp [Producer.hasEnded,ended] at active

omit [RandomSource σ] in
private theorem Awaiting.of_unjoined {phase : Phase σ} (awaiting : Awaiting x p phase) (unjoined : x.joined? = none) :
    Unloaded phase := by
  cases awaiting with
  | unloaded unloaded => exact unloaded
  | loaded joined ended => cases unjoined.symm.trans joined

theorem Underway.producer (state : Underway whole g₀ l r x p c) {i : Nat} (run : r.moveProducer i = some next) :
    ∃ y q, Underway whole g₀ (note 0 r (.turn (.producer i)) next l) next y q c := by
  obtain ⟨done,accepted,loading⟩ := state.loading
  have at_p : r.producers[0]? = some p := by rw [state.producers]; rfl
  have at_x : r.dispatchers[p.dispatcher]? = some x := by rw [state.dispatchers,state.sends]; rfl
  obtain ⟨q,at_q,turn⟩ := moveProducer_turn run
  have told : next.stopped = false := turn.stopped.trans state.told
  obtain rfl : i = 0 := by
    rw [state.producers] at at_q
    cases i with
    | zero => rfl
    | succ i => cases at_q
  have active := moveProducer_active at_p run
  have unquit : ∀ w ∈ x.workers, w.stage ≠ .ended none := fun w member quit => by
    rw [state.patient w member quit] at active
    cases active
  -- The rest of the state does not depend on where the producer stands.
  have keep {l' : Ledger} {y : Dispatcher} {q : Producer σ} {done : List Entry} (dispatchers : next.dispatchers = [y])
      (workers : y.workers = x.workers) (producers : next.producers = [q]) (dispatcher : q.dispatcher = p.dispatcher)
      (signal : q.signal = p.signal) (course : next.course = r.course) (memory : next.site.memory = r.site.memory)
      (accepted : l'.accepted = done.map putOf) (loading : Loading whole g₀ y done q)
      (finished : l'.finished = l.finished) (errors : l'.errors = l.errors) : Underway whole g₀ l' next y q c :=
    ⟨course.trans state.course,told,state.goal,state.first,state.phase.of_active active,dispatchers,producers,
      dispatcher.trans state.sends,signal.trans state.silent,⟨done,accepted,loading⟩,
      fun w member quit => absurd quit (unquit w (workers ▸ member)),
      fun fine e member => memory ▸ state.stored (errors ▸ fine) e (finished ▸ member)⟩
  cases load_turn at_p at_x loading state.told state.silent unquit run with
  | @place q loading sent dispatcher signal after =>
    obtain ⟨y,dispatchers,workers⟩ := placeProducer_alone state.dispatchers 0 q
    have producers : next.producers = [q] := by
      rw [after,placeProducer_producers,state.producers]
      rfl
    rw [note_unsent at_p (by rw [producers]; rfl) sent]
    exact ⟨y,q,keep (after ▸ dispatchers) workers producers dispatcher signal (after ▸ placeProducer_course r 0 q)
      (by rw [after,placeProducer_site]) accepted (loading.alike workers) rfl rfl⟩
  | @send e q stage loading sent dispatcher signal after =>
    have accepts : (r.onDispatcher p.dispatcher (·.accept 0 (putOf e))).dispatchers = [x.accept 0 (putOf e)] := by
      show r.dispatchers.modify p.dispatcher _ = _
      rw [state.dispatchers,state.sends]
      rfl
    obtain ⟨y,dispatchers,workers⟩ := placeProducer_alone accepts 0 q
    have producers : next.producers = [q] := by
      rw [after,placeProducer_producers]
      show r.producers.set 0 q = [q]
      rw [state.producers]
      rfl
    rw [note_sent at_p (by rw [producers]; rfl) stage state.sends sent]
    exact ⟨y,q,keep (after ▸ dispatchers) workers producers dispatcher signal (after ▸ placeProducer_course _ 0 q)
      (by rw [after,placeProducer_site]; rfl) (by rw [accepted,List.map_append]; rfl) (loading.alike workers) rfl rfl⟩
  | enlist after =>
    have dispatchers : next.dispatchers = [x.enlist 0] := by
      rw [after]
      show r.dispatchers.modify p.dispatcher _ = _
      rw [state.dispatchers,state.sends]
      rfl
    rw [note_unsent at_p (by rw [after]; exact at_p) rfl]
    exact ⟨_,p,keep dispatchers rfl (after ▸ state.producers) rfl rfl (by rw [after]; rfl) (by rw [after]; rfl) accepted
      (loading.alike rfl) rfl rfl⟩

/-! ### The workers of a load -/

variable {first : Dispatcher} {earlier : List Operation}

omit [RandomSource σ] in
private theorem unjoined_of_active {w : Nat} {worker : Worker} (at_w : x.workers[w]? = some worker)
    (active : ∀ failure, worker.stage ≠ .ended failure) : x.joined? = none := by
  rw [Dispatcher.joined?,if_pos (Dispatcher.served_of_active at_w active)]

omit [RandomSource σ] in
private theorem running_accepted {begun : List Operation} (balanced : Ledger.Balanced first l x begun) {worker : Worker}
    {op : Operation} (member : worker ∈ x.workers) (runs : worker.stage.running? = some op) : op ∈ l.accepted := by
  have in_hand : op ∈ x.inHand := List.mem_filterMap.mpr ⟨worker,member,operation_of_running runs⟩
  rw [balanced.order]
  refine List.mem_append_left _ (balanced.hands.mem_iff.mpr ?_)
  simp [in_hand]

/-- A turn of a worker that counts no error leaves what is finished in the store. -/
private theorem Underway.stores (state : Underway whole g₀ l r x p c) {begun : List Operation}
    (balanced : Ledger.Balanced first l x begun) (told : next.stopped = false) {w : Nat} {worker : Worker}
    (member : worker ∈ x.workers) (turn : WorkerTurn r next 0 w x worker.stage)
    (same : next.recorder.errors = r.recorder.errors) (fine : l.errors = 0) {after : Option WorkerStage} {e : Entry}
    (finished : putOf e ∈ (l.noteStages (some worker.stage) after).finished) : e.key ∈ next.site.memory.data := by
  have effect := turn.effect told same
  rcases Ledger.noteStages_finished _ _ _ finished with old | ⟨stage,was,runs⟩
  · have kept := state.stored fine e old
    rcases effect with ⟨memory,-⟩ | ⟨op,a,runs,executed⟩
    · rw [memory]
      exact kept
    · obtain ⟨done,accepted,-⟩ := state.loading
      obtain ⟨e',-,rfl⟩ := List.mem_map.mp (accepted ▸ running_accepted balanced member runs)
      exact (Memory.put_answered executed).2 _ kept
  · cases was
    rcases effect with ⟨-,idle⟩ | ⟨op,a,runs',executed⟩
    · rw [idle] at runs
      cases runs
    · cases runs'.symm.trans runs
      exact (Memory.put_answered executed).1

theorem Underway.worker (state : Underway whole g₀ l r x p c) (balance : InBalance 0 first earlier l r)
    (told : next.stopped = false) {d w : Nat} (run : r.moveWorker d w = some next) :
    ∃ y, Underway whole g₀ (note 0 r (.turn (.worker d w)) next l) next y p c := by
  obtain ⟨x',worker,at_x,at_w,turn⟩ := moveWorker_turn run
  obtain ⟨rfl,rfl⟩ := only_dispatcher state.dispatchers at_x
  obtain ⟨_,begun,at_x',-,balanced⟩ := balance
  cases at_x.symm.trans at_x'
  have at_worker : worker ∈ x'.workers := List.mem_of_getElem? at_w
  obtain ⟨done,accepted,loading⟩ := state.loading
  obtain ⟨y,dispatchers,producers,course,leaves⟩ := turn.leaves told
  have active := turn.active
  have noted : note 0 r (.turn (.worker 0 w)) next l =
      (l.noteStages (r.stageOf 0 w) (next.stageOf 0 w)).noteCounts r.recorder next.recorder := by
    simp [note]
  have before : r.stageOf 0 w = some worker.stage := by simp [stageOf,at_x,at_w]
  have awaiting : Awaiting y p c.phase := .unloaded (state.phase.of_unjoined (unjoined_of_active at_w active))
  refine ⟨y,course.trans state.course,told,state.goal,state.first,awaiting,?_,producers.trans state.producers,
    state.sends,state.silent,⟨done,?_,?_⟩,?_,?_⟩
  · rw [dispatchers,state.dispatchers]
    rfl
  · rw [noted]
    exact (Ledger.noteStages_accepted ..).trans accepted
  · cases loading with
    | choosing stage work after => exact .choosing stage work after
    | pacing stage work after => exact .pacing stage work after
    | sending stage work after => exact .sending stage work after
    | complete stage all => exact .complete stage all
    | abandoned stage failed =>
      obtain ⟨f,gone⟩ := failed worker at_worker
      exact absurd gone (active _)
    | broken stage => exact .broken stage
  · intro v member quit
    rcases leaves v member quit with old | nobody
    · exact state.patient v old quit
    · rw [hasSenders,state.producers] at nobody
      simpa [state.sends] using nobody
  · intro fine e member
    rw [noted] at fine member
    change (l.noteStages _ _).errors + _ = 0 at fine
    change _ ∈ (l.noteStages _ _).finished at member
    rw [Ledger.noteStages_errors] at fine
    have same : next.recorder.errors = r.recorder.errors := by
      by_contra differ
      rw [if_neg differ] at fine
      omega
    rw [before] at member
    exact state.stores balanced told at_worker turn same (by omega) member

private theorem Underway.aside (state : Underway whole g₀ l r x p c) (aside : Aside r next) :
    Underway whole g₀ l next x p c :=
  ⟨aside.course.trans state.course,aside.stopped.trans state.told,state.goal,state.first,state.phase,
    aside.dispatchers.trans state.dispatchers,aside.producers.trans state.producers,state.sends,state.silent,
    state.loading,state.patient,
    fun fine e member => aside.memory ▸ state.stored fine e member⟩

/-! ### A load that is broken off -/

omit [RandomSource σ] in
/-- A worker that has failed stays as it is while another one goes on. -/
private theorem Advances.keeps {d w ended : Nat} {worker v : Worker} {z : Dispatcher} {after : WorkerStage}
    {begun : List Operation} {e : RunError} (advances : Advances r next d w x z worker.stage after begun ended)
    (at_w : x.workers[w]? = some worker) (active : ∀ failure, worker.stage ≠ .ended failure) (member : v ∈ x.workers)
    (failed : v.stage = .ended (some e)) : v ∈ (z.place w after).workers := by
  have moved := Dispatcher.place_moved (advances.workers ▸ at_w : z.workers[w]? = some worker) after
  obtain ⟨c,was⟩ := moved.before
  obtain ⟨c',is⟩ := moved.after
  rcases List.mem_cons.mp (was.mem_iff.mp (advances.workers ▸ member)) with rfl | other
  · exact absurd failed (active _)
  · exact is.mem_iff.mpr (.tail _ other)

omit [RandomSource σ] in
/-- A worker tells the run to end only when it fails. -/
private theorem WorkerTurn.fails {d w : Nat} {worker : Worker} (turn : WorkerTurn r next d w x worker.stage)
    (at_w : x.workers[w]? = some worker) (untold : r.stopped = false) (told : next.stopped = true) :
    next.course = r.course ∧ ∃ y, next.dispatchers = r.dispatchers.set d y ∧
      ∃ v ∈ y.workers, ∃ e, v.stage = .ended (some e) := by
  have same (stopped : next.stopped = r.stopped) : False := by
    rw [stopped,untold] at told
    cases told
  generalize worker.stage = stage at turn
  cases turn with
  | quit idle turned => exact (same turned.stopped).elim
  | take oldest turned => exact (same turned.stopped).elim
  | enter turned => exact (same turned.stopped).elim
  | renew turned => exact (same turned.stopped).elim
  | begin has turned => exact (same turned.stopped).elim
  | crash has turned => exact (same turned.stopped).elim
  | @disconnect _ op e stops has dispatchers course =>
    obtain ⟨c,is⟩ := (Dispatcher.place_moved at_w (.ended (some e))).after
    exact ⟨course,_,dispatchers,_,is.mem_iff.mpr List.mem_cons_self,e,rfl⟩
  | finish has dispatchers producers log stopped course counted => exact (same stopped).elim
  | fault has dispatchers producers log stopped course answered uncounted => exact (same stopped).elim

/-- A worker of the load has failed before the main task has seen the load end. -/
structure BrokenOff (r : Run σ) : Prop where
  unloaded : ∃ c, r.course = some c ∧ Unloaded c.phase
  failed : ∃ x, r.dispatchers = [x] ∧ ∃ v ∈ x.workers, ∃ e, v.stage = .ended (some e)

omit [RandomSource σ] in
private theorem BrokenOff.alike {y : Dispatcher} (state : BrokenOff r) (dispatchers : r.dispatchers = [x])
    (dispatchers' : next.dispatchers = [y]) (workers : y.workers = x.workers) (course : next.course = r.course) :
    BrokenOff next := by
  obtain ⟨x',at_x,failed⟩ := state.failed
  cases dispatchers.symm.trans at_x
  exact ⟨course ▸ state.unloaded,y,dispatchers',workers ▸ failed⟩

/-- A load that is broken off is not taken for one that has ended well. -/
private theorem BrokenOff.main (state : BrokenOff r) (run : r.moveMain = some next) : BrokenOff next := by
  obtain ⟨c,course,unloaded⟩ := state.unloaded
  obtain ⟨x,dispatchers,v,member,e,stage⟩ := state.failed
  have in_phase {phase : Phase σ} (unloaded : Unloaded phase) : BrokenOff (r.inPhase c phase) :=
    ⟨⟨_,rfl,unloaded⟩,state.failed⟩
  have move := moveMain_move course run
  generalize c.phase = phase at move unloaded
  rcases unloaded with _ | _ | _
  · cases move with
    | broken at_i broken after =>
      rw [after]
      exact in_phase .crashed
    | unjoined joined after =>
      rw [after]
      exact in_phase .failed
    | loadsOn done | loaded done | goesOn done =>
      exact absurd stage (unfailed_of_joined (joined_alone dispatchers done.joined) member)
  all_goals cases move

private theorem BrokenOff.step (state : BrokenOff r) {ev : Event} (own : ∀ i, ev ≠ .outside i)
    (run : r.step ev = some next) : BrokenOff next := by
  obtain ⟨x,dispatchers,v,member,e,stage⟩ := state.failed
  have aside (aside : Aside r next) : BrokenOff next :=
    state.alike dispatchers (aside.dispatchers.trans dispatchers) rfl aside.course
  cases ev with
  | outside i => exact absurd rfl (own i)
  | pass ms =>
    cases run
    exact state.alike dispatchers dispatchers rfl rfl
  | turn who =>
    cases who with
    | main => exact state.main run
    | producer i =>
      obtain ⟨p,-,turn⟩ := moveProducer_turn run
      cases turn with
      | @send op subtree _ _ at_d told served room after =>
        obtain ⟨y,one,workers⟩ := onDispatcher_alone dispatchers p.dispatcher (f := (·.accept i op)) fun _ => rfl
        obtain ⟨z,after_one,same⟩ := placeProducer_alone one i (p.proceed subtree)
        exact state.alike dispatchers (after ▸ after_one) (same.trans workers) (after ▸ placeProducer_course ..)
      | @place q sent after =>
        obtain ⟨y,one,workers⟩ := placeProducer_alone dispatchers i q
        exact state.alike dispatchers (after ▸ one) workers (after ▸ placeProducer_course ..)
      | enlist after =>
        obtain ⟨y,one,workers⟩ := onDispatcher_alone dispatchers p.dispatcher (f := (·.enlist i)) fun _ => rfl
        exact state.alike dispatchers (after ▸ one) workers (after ▸ rfl)
    | worker d w =>
      obtain ⟨x',worker,z,after,begun,ended,at_d,at_w,active,advances⟩ := moveWorker_advances run
      obtain ⟨rfl,rfl⟩ := only_dispatcher dispatchers at_d
      have placed := advances.dispatchers
      rw [dispatchers] at placed
      exact ⟨advances.course ▸ state.unloaded,_,placed,v,advances.keeps at_w active member stage,e,stage⟩
    | watcher i => exact aside (moveWatcher_aside run)
    | reporter i => exact aside (moveReporter_aside run)

/-- A worker that tells the run to end breaks the load off. -/
private theorem Underway.breaks (state : Underway whole g₀ l r x p c) (told : next.stopped = true) {d w : Nat}
    (run : r.moveWorker d w = some next) : BrokenOff next := by
  obtain ⟨x',worker,at_d,at_w,turn⟩ := moveWorker_turn run
  have active := turn.active
  obtain ⟨rfl,rfl⟩ := only_dispatcher state.dispatchers at_d
  obtain ⟨course,y,placed,failed⟩ := turn.fails at_w state.told told
  rw [state.dispatchers] at placed
  exact ⟨⟨c,course.trans state.course,state.phase.of_unjoined (unjoined_of_active at_w active)⟩,y,placed,failed⟩

/-! ### The whole load -/

/-- Nothing has happened in a run but time and turns of others. -/
structure Unbegun (c : Course σ) (earlier : List Operation) (r : Run σ) : Prop where
  course : r.course = some c
  told : r.stopped = false
  dispatchers : r.dispatchers = []
  producers : r.producers = []
  begun : r.site.begunBy 0 = earlier

omit [RandomSource σ] in
private theorem Unbegun.aside {c : Course σ} (state : Unbegun c earlier r) (aside : Aside r next) :
    Unbegun c earlier next :=
  ⟨aside.course.trans state.course,aside.stopped.trans state.told,aside.dispatchers.trans state.dispatchers,
    aside.producers.trans state.producers,(begunBy_of_begun aside.begun 0).trans state.begun⟩

/-- The main task of one load of all keys. -/
def loadCourse (e : Engine) (options : DispatchOptions) (clients nowMs : Nat) (streams : Nat → σ) : Course σ :=
  Course.start e (.loads 1 0) options clients nowMs streams

section
variable {e : Engine} {options : DispatchOptions} {clients nowMs : Nat} {streams : Nat → σ}

private theorem Unbegun.main (state : Unbegun (loadCourse e options clients nowMs streams) earlier r)
    (run : r.moveMain = some next) :
    ∃ x p c, Underway (e.keySpace.keys 0).remaining (streams 1) Ledger.empty next x p c ∧
      InBalance 0 (Dispatcher.start "load" options (List.range clients)) earlier Ledger.empty next := by
  unfold moveMain at run
  rw [state.course] at run
  cases run
  have at_d : r.nextDispatcher = 0 := by rw [nextDispatcher,state.dispatchers]; rfl
  have at_p : r.nextProducer = 0 := by rw [nextProducer,state.producers]; rfl
  let c := (loadCourse e options clients nowMs streams).takeStream.2
  let x := Dispatcher.start "load" options (List.range clients)
  let p := Producer.start 0 (.load (e.keySpace.keys 0)) (streams 1)
    (Ticker.ofRate e.settings.workload.putRate r.nowNs)
  have begins : r.beginCourse (loadCourse e options clients nowMs streams) =
      ((r.employ "load" options (List.range clients)).assign p).inPhase c (.loading 0 0) := by
    show ((r.employ "load" options (List.range clients)).assign { p with dispatcher := r.nextDispatcher }).inPhase c
      (.loading r.nextDispatcher r.nextProducer) = _
    rw [at_d,at_p]
    rfl
  have dispatchers : (r.employ "load" options (List.range clients)).dispatchers = [x] := by
    show r.dispatchers ++ [x] = [x]
    rw [state.dispatchers]
    rfl
  have producers : ((r.employ "load" options (List.range clients)).assign p).producers = [p] := by
    show r.producers ++ [p] = [p]
    rw [state.producers]
    rfl
  have after : Bounded.After (e.keySpace.keys 0).remaining (streams 1) [] (e.keySpace.keys 0) (streams 1) := by
    refine ⟨rfl,?_⟩
    cases (e.keySpace.keys 0).remaining (streams 1) <;> rfl
  rw [begins]
  refine ⟨x,p,_,⟨rfl,state.told,⟨0,rfl⟩,fun _ => rfl,.unloaded .loading,dispatchers,producers,rfl,rfl,
    ⟨[],rfl,.choosing rfl rfl after⟩,?_,?_⟩,x,[],?_,?_,Ledger.Balanced.start ..⟩
  · intro w member quit
    obtain ⟨i,-,rfl⟩ := List.mem_map.mp member
    cases quit
  · intro _ entry member
    cases member
  · show (r.employ "load" options (List.range clients)).dispatchers[0]? = some x
    rw [dispatchers]
    rfl
  · rw [List.append_nil]
    exact state.begun

private theorem Unbegun.step (state : Unbegun (loadCourse e options clients nowMs streams) earlier r) {ev : Event}
    (own : ∀ i, ev ≠ .outside i) (run : r.step ev = some next) :
    Unbegun (loadCourse e options clients nowMs streams) earlier next ∧ note 0 r ev next Ledger.empty = Ledger.empty ∨
      ∃ x p c, Underway (e.keySpace.keys 0).remaining (streams 1) (note 0 r ev next Ledger.empty) next x p c ∧
        InBalance 0 (Dispatcher.start "load" options (List.range clients)) earlier (note 0 r ev next Ledger.empty)
          next := by
  cases ev with
  | outside i => exact absurd rfl (own i)
  | pass ms =>
    cases run
    exact .inl ⟨⟨state.course,state.told,state.dispatchers,state.producers,state.begun⟩,rfl⟩
  | turn who =>
    cases who with
    | main => exact .inr (state.main run)
    | producer i =>
      obtain ⟨p,at_i,-⟩ := moveProducer_turn run
      rw [state.producers] at at_i
      cases at_i
    | worker d w =>
      obtain ⟨x,_,at_d,-⟩ := moveWorker_turn run
      rw [state.dispatchers] at at_d
      cases at_d
    | watcher i => exact .inl ⟨state.aside (moveWatcher_aside run),rfl⟩
    | reporter i => exact .inl ⟨state.aside (moveReporter_aside run),rfl⟩

private theorem Underway.step (state : Underway whole g₀ l r x p c) (balance : InBalance 0 first earlier l r)
    {ev : Event} (own : ∀ i, ev ≠ .outside i) (run : r.step ev = some next) :
    (∃ x p c, Underway whole g₀ (note 0 r ev next l) next x p c) ∨ BrokenOff next := by
  cases ev with
  | outside i => exact absurd rfl (own i)
  | pass ms =>
    cases run
    exact .inl ⟨x,p,c,state.course,state.told,state.goal,state.first,state.phase,state.dispatchers,state.producers,
      state.sends,state.silent,state.loading,state.patient,state.stored⟩
  | turn who =>
    cases who with
    | main =>
      obtain ⟨c,state⟩ := state.main run
      exact .inl ⟨x,p,c,state⟩
    | producer i =>
      obtain ⟨y,q,state⟩ := state.producer run
      exact .inl ⟨y,q,c,state⟩
    | worker d w =>
      cases told : next.stopped with
      | false =>
        obtain ⟨y,state⟩ := state.worker balance told run
        exact .inl ⟨y,p,c,state⟩
      | true => exact .inr (state.breaks told run)
    | watcher i => exact .inl ⟨x,p,c,state.aside (moveWatcher_aside run)⟩
    | reporter i => exact .inl ⟨x,p,c,state.aside (moveReporter_aside run)⟩

/-- What a load has come to, at any time: it has not begun, or it is under way, or it is broken off. -/
private theorem load_state {start : Run σ} {events : List Event} (traced : Traced 0 start events l r)
    (begins : Unbegun (loadCourse e options clients nowMs streams) earlier start) (own : ∀ i, .outside i ∉ events) :
    (Unbegun (loadCourse e options clients nowMs streams) earlier r ∧ l = Ledger.empty) ∨
      (∃ x p c, Underway (e.keySpace.keys 0).remaining (streams 1) l r x p c ∧
        InBalance 0 (Dispatcher.start "load" options (List.range clients)) earlier l r) ∨ BrokenOff r := by
  induction traced with
  | start => exact .inl ⟨begins,rfl⟩
  | @step events l r next ev _ run ih =>
    have mine (i : Intervention) : ev ≠ .outside i := fun same =>
      own i (List.mem_append_right _ (List.mem_singleton.mpr same.symm))
    rcases ih (fun i member => own i (List.mem_append_left _ member)) with ⟨state,rfl⟩ | ⟨x,p,c,state,balance⟩ | state
    · rcases state.step mine run with unbegun | underway
      · exact .inl unbegun
      · exact .inr (.inl underway)
    · rcases state.step balance mine run with ⟨x,p,c,underway⟩ | broken
      · exact .inr (.inl ⟨x,p,c,underway,step_inBalance run underway.told balance⟩)
      · exact .inr (.inr broken)
    · exact .inr (.inr (state.step mine run))

/-- One load of all keys that has ended well, with no operation failed, has put every entry of one pass into the
store. -/
theorem load_stores {site : Site} {pool : Pool} {events : List Event} {sent : List Nat}
    (traced : Traced 0 (ofCourse site pool nowMs (loadCourse e options clients nowMs streams)) events l r)
    (own : ∀ i, .outside i ∉ events) (manned : 0 < clients) (fine : l.errors = 0)
    (ended : r.ending? = some (ExceptT.mk (.ok (.ok (.loaded sent))))) :
    ∃ es g, (e.keySpace.keys 0).remaining (streams 1) = .ok (es,g) ∧ ∀ entry ∈ es, entry.key ∈ r.site.memory.data := by
  have begins : Unbegun (loadCourse e options clients nowMs streams) (site.begunBy 0)
      (ofCourse site pool nowMs (loadCourse e options clients nowMs streams)) := ⟨rfl,rfl,rfl,rfl,rfl⟩
  rcases load_state traced begins own with ⟨state,-⟩ | ⟨x,p,c,state,x',begun,at_x,-,balanced⟩ | state
  · rw [ending?,state.course] at ended
    cases ended
  · rw [state.dispatchers] at at_x
    cases at_x
    have at_phase : c.ending? = some (ExceptT.mk (.ok (.ok (.loaded sent)))) := by
      rw [ending?,state.course] at ended
      exact ended
    obtain ⟨joined,gone⟩ : x.joined? = some (.ok ()) ∧ p.stage = .ended := by
      rcases state.phase.loaded_or with unloaded | loaded
      · exact absurd at_phase (unloaded.unfinished _)
      · exact loaded
    obtain ⟨done,accepted,loading⟩ := state.loading
    obtain ⟨-,finished,-⟩ := balanced.conserves.joined joined
    cases loading with
    | @complete g stage all =>
      refine ⟨done,g,all,fun entry member => state.stored fine entry ?_⟩
      exact finished.mem_iff.mpr (accepted ▸ List.mem_map_of_mem member)
    | abandoned stage failed =>
      have some_worker : 0 < x.workers.length := by
        rw [balanced.workers]
        simpa [Dispatcher.start] using manned
      obtain ⟨f,gone⟩ := failed _ (List.getElem_mem some_worker)
      exact absurd gone (unfailed_of_joined joined (List.getElem_mem some_worker))
    | choosing stage => cases stage.symm.trans gone
    | pacing stage => cases stage.symm.trans gone
    | sending stage => cases stage.symm.trans gone
    | broken stage => cases stage.symm.trans gone
  · obtain ⟨c,course,unloaded⟩ := state.unloaded
    rw [ending?,course] at ended
    exact absurd ended (unloaded.unfinished _)

end

end Run

end Keyload
