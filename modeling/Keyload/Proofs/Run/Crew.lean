import Mathlib.Algebra.BigOperators.Group.List.Basic
import Mathlib.Algebra.Ring.Nat
import Keyload.Proofs.Run.WorkerMoves

/-!
Workers of a load that goes well. Each of them has a client to itself, those that wait stand in line once, and every
turn brings the dispatcher nearer to its end; so as long as there is something to do for it, or nobody left to send,
one of the workers can go on after some time.
-/
namespace Keyload

/-- The line at the client of a worker that shares it with nobody. -/
def WorkerStage.line (u : ClientUser) : WorkerStage → List ClientUser
  | .renewing _ _ _ _ => [u]
  | _ => []

namespace Dispatcher

/-- The turns that the workers have ahead of them at most, if no operation is accepted any more. -/
def ahead (x : Dispatcher) : Nat := 4 * x.queue.length + (x.workers.map fun v => v.stage.ahead).sum

/-- The operations accepted and not carried out yet. -/
def unfinished (x : Dispatcher) : List Operation := x.queue ++ x.inHand

theorem accept_ahead (x : Dispatcher) (i : Nat) (op : Operation) : (x.accept i op).ahead = x.ahead + 4 := by
  show 4 * (x.queue ++ [op]).length + (x.workers.map fun v => v.stage.ahead).sum =
    4 * x.queue.length + (x.workers.map fun v => v.stage.ahead).sum + 4
  rw [List.length_append,List.length_singleton]
  omega

theorem accept_unfinished (x : Dispatcher) (i : Nat) (op op' : Operation) :
    op' ∈ (x.accept i op).unfinished ↔ op' ∈ x.unfinished ∨ op' = op := by
  show op' ∈ (x.queue ++ [op]) ++ x.inHand ↔ op' ∈ x.queue ++ x.inHand ∨ _
  simp only [List.mem_append,List.mem_singleton]
  tauto

end Dispatcher

namespace Run

variable {σ : Type}

/-- A turn in which nothing fails: no error is counted, and no worker has ended with one. -/
structure Smooth (r next : Run σ) : Prop where
  errors : next.recorder.errors = r.recorder.errors
  unfailed : ∀ x ∈ next.dispatchers, ∀ v ∈ x.workers, v.failure? = none

instance (r next : Run σ) : Decidable (Smooth r next) :=
  decidable_of_iff (next.recorder.errors = r.recorder.errors ∧
      ∀ x ∈ next.dispatchers, ∀ v ∈ x.workers, v.failure? = none)
    ⟨fun ⟨errors,unfailed⟩ => ⟨errors,unfailed⟩,fun smooth => ⟨smooth.errors,smooth.unfailed⟩⟩

/-- The workers of dispatcher `d` where nothing has failed. Those that wait are in line, each once, and the client at a
worker's own place is used by nobody else. -/
structure Crew (clients : List Client) (d : Nat) (x : Dispatcher) : Prop where
  once : x.turns.Nodup
  waits : ∀ w, w ∈ x.turns ↔ ∃ v, x.workers[w]? = some v ∧ v.stage = .waiting
  own : ∀ w (v : Worker), x.workers[w]? = some v → v.client = w
  lines : ∀ w (v : Worker), x.workers[w]? = some v → ∃ c : Client, clients[w]? = some c ∧ c.line = v.stage.line ⟨d,w⟩
  unfailed : ∀ v ∈ x.workers, v.failure? = none

variable {r next : Run σ} {d w : Nat} {x y : Dispatcher} {v : Worker}

/-! ### The client of a worker -/

theorem Crew.at_client (crew : Crew r.clients d x) (at_w : x.workers[w]? = some v) :
    ∃ c, r.clients[v.client]? = some c ∧ c.line = v.stage.line ⟨d,w⟩ := by
  rw [crew.own w v at_w]
  exact crew.lines w v at_w

/-- Where nothing has failed, a worker that has ended has quit. -/
theorem Crew.quit (crew : Crew r.clients d x) (at_w : x.workers[w]? = some v) (ended : v.hasEnded = true) :
    v.stage = .ended none := by
  obtain ⟨failure,stage⟩ := Worker.hasEnded_iff.mp ended
  have fine := crew.unfailed v (List.mem_of_getElem? at_w)
  simp only [Worker.failure?,stage] at fine
  rw [stage,fine]

/-- A worker goes to the stage `after` and uses no client but its own, as the stage says. -/
structure Uses (r next : Run σ) (d w : Nat) (v : Worker) (after : WorkerStage) : Prop where
  stage : next.stageOf d w = some after
  moved : after ≠ v.stage
  client : ∃ c : Client, next.clients = r.clients.set v.client c ∧ c.line = after.line ⟨d,w⟩
  watchers : next.watchers = r.watchers
  reporters : next.reporters = r.reporters

section
variable (at_d : r.dispatchers[d]? = some x) (at_w : x.workers[w]? = some v)
include at_d at_w

private theorem uses_of_placed {s : Run σ} {f : Dispatcher → Dispatcher} {after : WorkerStage} {c : Client}
    (same : s.dispatchers = r.dispatchers) (alike : (f x).workers = x.workers) (moved : after ≠ v.stage)
    (clients : s.clients = r.clients.set v.client c) (line : c.line = after.line ⟨d,w⟩)
    (watchers : s.watchers = r.watchers) (reporters : s.reporters = r.reporters) :
    Uses r (s.onDispatcher d fun y => (f y).place w after) d w v after := by
  have at_next : (s.onDispatcher d fun y => (f y).place w after).dispatchers[d]? = some ((f x).place w after) := by
    rw [onDispatcher_at (same ▸ at_d),List.getElem?_set,same]
    simp [(List.getElem?_eq_some_iff.mp at_d).1]
  exact ⟨stageOf_at at_next (placed_worker (alike ▸ at_w) after),moved,⟨c,clients,line⟩,watchers,reporters⟩

variable {c : Client}

private theorem uses_of_retired {s : Run σ} {failure : Option RunError} (same : s.dispatchers = r.dispatchers)
    (active : ∀ failure, v.stage ≠ .ended failure) (clients : s.clients = r.clients.set v.client c)
    (empty : c.line = []) (watchers : s.watchers = r.watchers) (reporters : s.reporters = r.reporters) :
    Uses r (s.retire d w failure) d w v (.ended failure) :=
  uses_of_placed (f := fun y => { y with turns := y.turns.erase w }) at_d at_w same rfl (active failure).symm clients
    empty watchers reporters

private theorem claim_uses {op : Operation} {every : Nat} (at_c : r.clients[v.client]? = some c) (empty : c.line = [])
    (stage : v.stage = .claiming op) (run : r.claim d w v.client every op = some next) :
    ∃ after, Uses r next d w v after := by
  unfold claim at run
  simp only [at_c] at run
  split at run
  · cases run
    exact ⟨_,uses_of_placed (s := { r with site := _ }) (f := id) at_d at_w rfl rfl (by simp [stage])
      (set_same at_c).symm empty rfl rfl⟩
  · split at run
    · rename_i elsewhere
      simp [Client.enter,Client.isHeldBy,empty] at elsewhere
    · split at run
      · cases run
        refine ⟨_,uses_of_placed (f := id) at_d at_w rfl rfl (by simp [stage]) rfl ?_ rfl rfl⟩
        simp [Client.enter,empty,WorkerStage.line]
      · cases run
        refine ⟨_,uses_of_placed (s := { r.setClient _ _ with site := _ }) (f := id) at_d at_w rfl rfl (by simp [stage])
          rfl ?_ rfl rfl⟩
        simp [Client.spend,Client.leave,empty,WorkerStage.line]

private theorem endRenewal_uses {op : Operation} {sinceMs untilMs : Nat} {a : Reaction}
    (at_c : r.clients[v.client]? = some c) (held : c.line = [⟨d,w⟩]) (stage : v.stage = .renewing op sinceMs untilMs a)
    (run : r.endRenewal d w v.client op sinceMs a = some next) : ∃ after, Uses r next d w v after := by
  unfold endRenewal at run
  simp only [at_c] at run
  split at run
  · rename_i c' site renewed
    have same : c'.line = c.line := by
      unfold Client.endRenewal at renewed
      split at renewed <;> cases renewed
      rfl
    have left : (c'.spend.leave ⟨d,w⟩).line = [] := by simp [Client.spend,Client.leave,same,held]
    cases counted : r.recorder.reconnect ((r.nowMs - sinceMs) * Ticker.milli) with
    | error f =>
      rw [counted] at run
      cases run
      exact ⟨_,uses_of_retired at_d at_w rfl (by simp [stage]) rfl left rfl rfl⟩
    | ok recorder =>
      rw [counted] at run
      cases run
      exact ⟨_,uses_of_placed (f := id) at_d at_w rfl rfl (by simp [stage]) rfl left rfl rfl⟩
  · cases run
    exact ⟨_,uses_of_retired at_d at_w rfl (by simp [stage]) rfl (by simp [Client.leave,held]) rfl rfl⟩

private theorem recorded_uses {s : Run σ} {op : Operation} (outcome : Except Fault Recorder)
    (at_c : r.clients[v.client]? = some c) (empty : c.line = []) (runs : v.stage.running? = some op)
    (same : s.dispatchers = r.dispatchers) (clients : s.clients = r.clients) (watchers : s.watchers = r.watchers)
    (reporters : s.reporters = r.reporters) : ∃ after, Uses r (s.recorded d w outcome (·.rejoin d w)) d w v after := by
  obtain ⟨_,_,_,stage⟩ := running_cases runs
  have unchanged := clients.trans (set_same at_c).symm
  cases outcome with
  | ok recorder =>
    have rejoins : Uses r (({ s with recorder } : Run σ).rejoin d w) d w v .waiting :=
      uses_of_placed (f := fun y => { y with turns := y.turns ++ [w] }) at_d at_w same rfl (by simp [stage]) unchanged
        empty watchers reporters
    exact ⟨_,rejoins⟩
  | error f =>
    exact ⟨_,uses_of_retired at_d at_w same (by simp [stage]) unchanged empty watchers reporters⟩

theorem moveWorker_uses (at_c : r.clients[v.client]? = some c) (line : c.line = v.stage.line ⟨d,w⟩)
    (run : r.moveWorker d w = some next) : ∃ after, Uses r next d w v after := by
  unfold moveWorker at run
  simp only [Option.bind_eq_bind,Option.bind_some,at_d,at_w] at run
  cases stage : v.stage with
  | ended failure =>
    simp only [stage] at run
    cases run
  | waiting =>
    rw [stage] at line
    have quits : Uses r (r.retire d w none) d w v (.ended none) :=
      uses_of_retired at_d at_w rfl (by simp [stage]) (set_same at_c).symm line rfl rfl
    simp only [stage] at run
    split at run
    · cases run
      exact ⟨_,quits⟩
    · split at run
      · rename_i taken take
        cases run
        unfold Dispatcher.take at take
        split at take
        · split at take
          · rename_i op queue oldest
            cases take
            exact ⟨_,uses_of_placed (f := fun _ => { x with queue, turns := x.turns.tail }) at_d at_w rfl rfl
              (by simp [stage]) (set_same at_c).symm line rfl rfl⟩
          · cases take
        · cases take
      · split at run
        · cases run
          exact ⟨_,quits⟩
        · cases run
  | claiming op =>
    simp only [stage] at run
    exact claim_uses at_d at_w at_c (by rw [line,stage]; rfl) stage run
  | renewing op sinceMs untilMs a =>
    simp only [stage] at run
    split at run
    · exact endRenewal_uses at_d at_w at_c (by rw [line,stage]; rfl) stage run
    · cases run
  | executing op sinceMs untilMs a =>
    have empty : c.line = [] := by rw [line,stage]; rfl
    have runs : v.stage.running? = some op := by rw [stage]; rfl
    simp only [stage] at run
    split at run
    · cases run
      exact recorded_uses at_d at_w _ at_c empty runs rfl rfl rfl rfl
    · split at run
      · cases run
      · split at run
        · cases run
          exact recorded_uses at_d at_w (.ok (r.recorder.error op.kind.name)) at_c empty runs rfl rfl rfl rfl
        · cases run

end

/-! ### A turn in which nothing fails -/

/-- Dispatcher `x` becomes `y` while worker `w` goes from one stage to another, and the operation `done`, if there is
one, has been carried out. -/
structure Handles (x y : Dispatcher) (w : Nat) (before after : WorkerStage) (done : Option Operation) : Prop where
  workers : y.workers = (x.place w after).workers
  capacity : y.capacity = x.capacity
  blocked : y.blocked = x.blocked
  queue : y.queue ⊆ x.queue
  turns : y.turns = if before = .waiting then x.turns.erase w else if after = .waiting then x.turns ++ [w] else x.turns
  ahead : 4 * y.queue.length + after.ahead < 4 * x.queue.length + before.ahead
  unfinished : ∀ op, op ∈ x.queue ∨ before.operation? = some op ↔
    op ∈ y.queue ∨ after.operation? = some op ∨ done = some op

namespace Handles

theorem quit (x : Dispatcher) (w : Nat) : Handles x (x.retire w none) w .waiting (.ended none) none := by
  refine ⟨rfl,rfl,rfl,List.Subset.refl _,rfl,Nat.lt_succ_self _,fun op => ?_⟩
  show op ∈ x.queue ∨ none = some op ↔ op ∈ x.queue ∨ none = some op ∨ none = some op
  simp

theorem take {op : Operation} {queue : List Operation} (oldest : x.queue = op :: queue)
    (first : x.turns.head? = some w) :
    Handles x ({ x with queue, turns := x.turns.tail }.place w (.claiming op)) w .waiting (.claiming op) none := by
  refine ⟨rfl,rfl,rfl,oldest ▸ List.subset_cons_self op queue,?_,?_,fun op' => ?_⟩
  · obtain ⟨others,line⟩ := List.head?_eq_some_iff.mp first
    show x.turns.tail = x.turns.erase w
    rw [line,List.erase_cons_head,List.tail_cons]
  · rw [oldest]
    show 4 * queue.length + 4 < 4 * (queue.length + 1) + 1
    omega
  · rw [oldest]
    show op' ∈ op :: queue ∨ none = some op' ↔ op' ∈ queue ∨ some op = some op' ∨ none = some op'
    simp [or_comm,eq_comm]

/-- A worker keeps its operation, and has fewer turns ahead of it with it. -/
theorem go_on {before after : WorkerStage} {op : Operation} (had : before.operation? = some op)
    (has : after.operation? = some op) (fewer : after.ahead < before.ahead) :
    Handles x (x.place w after) w before after none := by
  have busy {stage : WorkerStage} (holds : stage.operation? = some op) : stage ≠ .waiting := by
    rintro rfl
    cases holds
  refine ⟨rfl,rfl,rfl,List.Subset.refl _,?_,Nat.add_lt_add_left fewer _,fun op' => ?_⟩
  · rw [if_neg (busy had),if_neg (busy has)]
    rfl
  · rw [had,has]
    show op' ∈ x.queue ∨ some op = some op' ↔ op' ∈ x.queue ∨ some op = some op' ∨ none = some op'
    simp

theorem finish (x : Dispatcher) (w : Nat) (op : Operation) (sinceMs untilMs : Nat) (a : Reaction) :
    Handles x (x.rejoin w) w (.executing op sinceMs untilMs a) .waiting (some op) := by
  refine ⟨rfl,rfl,rfl,List.Subset.refl _,rfl,Nat.lt_succ_self _,fun op' => ?_⟩
  show op' ∈ x.queue ∨ some op = some op' ↔ op' ∈ x.queue ∨ none = some op' ∨ some op = some op'
  simp

variable {after : WorkerStage} {done : Option Operation}

theorem worker_at (handles : Handles x y w v.stage after done) (at_w : x.workers[w]? = some v) (u : Nat) :
    y.workers[u]? = if u = w then some { v with stage := after } else x.workers[u]? := by
  rw [handles.workers]
  split_ifs with same
  · rw [same]
    exact placed_worker at_w after
  · show (x.workers.modify w _)[u]? = _
    rw [List.getElem?_modify]
    simp [Ne.symm same]

/-- Those that wait stand in line, each once, before and after. -/
theorem in_line (handles : Handles x y w v.stage after done) (at_w : x.workers[w]? = some v) (moved : after ≠ v.stage)
    (once : x.turns.Nodup) (waits : ∀ u, u ∈ x.turns ↔ ∃ v', x.workers[u]? = some v' ∧ v'.stage = .waiting) :
    y.turns.Nodup ∧ ∀ u, u ∈ y.turns ↔ ∃ v', y.workers[u]? = some v' ∧ v'.stage = .waiting := by
  have own : w ∈ x.turns ↔ v.stage = .waiting := by
    rw [waits,at_w]
    simp
  rw [handles.turns]
  constructor
  · split_ifs with before
    · exact once.erase w
    · refine List.nodup_append.mpr ⟨once,by simp,?_⟩
      intro u member u' last
      rw [List.mem_singleton.mp last]
      rintro rfl
      exact before (own.mp member)
    · exact once
  · intro u
    rw [handles.worker_at at_w]
    by_cases same : u = w
    · subst same
      rw [if_pos rfl]
      split_ifs with before since
      · simp [once.not_mem_erase,before ▸ moved]
      · simp [since]
      · simp [since,own,before]
    · rw [if_neg same,← waits]
      split_ifs
      · exact List.mem_erase_of_ne same
      · simp [same]
      · rfl

/-- Every such turn brings the dispatcher nearer to its end. -/
theorem ahead_lt (handles : Handles x y w v.stage after done) (at_w : x.workers[w]? = some v) :
    y.ahead < x.ahead := by
  have moved := Dispatcher.place_moved at_w after
  obtain ⟨c,was⟩ := moved.before
  obtain ⟨c',is⟩ := moved.after
  have before := (was.map fun v => v.stage.ahead).sum_nat
  have since := (is.map fun v => v.stage.ahead).sum_nat
  have turn := handles.ahead
  simp only [List.map_cons,List.sum_cons] at before since
  rw [Dispatcher.ahead,Dispatcher.ahead,handles.workers]
  omega

theorem unfinished_iff (handles : Handles x y w v.stage after done) (at_w : x.workers[w]? = some v) (op : Operation) :
    op ∈ x.unfinished ↔ op ∈ y.unfinished ∨ done = some op := by
  obtain ⟨before,since⟩ := (Dispatcher.place_moved at_w after).filterMap WorkerStage.operation?
  have hands : y.inHand = (x.place w after).inHand := by rw [Dispatcher.inHand,handles.workers]; rfl
  have turn := handles.unfinished op
  rw [Dispatcher.unfinished,Dispatcher.unfinished,List.mem_append,List.mem_append,hands,Dispatcher.inHand,
    Dispatcher.inHand,before.mem_iff,since.mem_iff,List.mem_append,List.mem_append]
  simp only [Option.mem_toList]
  tauto

end Handles

/-- What a turn of worker `w`, which is `v`, comes to where nothing fails: its dispatcher `x` becomes `y`, it goes to the
stage `after`, and the operation `done`, if there is one, has been carried out. -/
structure Works (r next : Run σ) (d w : Nat) (x y : Dispatcher) (v : Worker) (after : WorkerStage)
    (done : Option Operation) : Prop extends Handles x y w v.stage after done where
  dispatchers : next.dispatchers = r.dispatchers.set d y
  producers : next.producers = r.producers
  stopped : next.stopped = r.stopped
  course : next.course = r.course
  memory : done = none ∧ next.site.memory = r.site.memory ∨
    ∃ op a, done = some op ∧ r.site.memory.execute op = (.ok a,next.site.memory)
  quits : after = .ended none → y.queue = [] ∧ r.hasSenders d = false
  uses : Uses r next d w v after

private theorem works_of_turned {begun : List Operation} {after : WorkerStage} (turned : Turned r next d y begun)
    (uses : Uses r next d w v after) (handles : Handles x y w v.stage after none)
    (quits : after = .ended none → y.queue = [] ∧ r.hasSenders d = false) :
    ∃ y after done, Works r next d w x y v after done :=
  ⟨y,after,none,handles,turned.dispatchers,turned.producers,turned.stopped,turned.course,.inl ⟨rfl,turned.memory⟩,quits,
    uses⟩

theorem moveWorker_works (at_d : r.dispatchers[d]? = some x) (at_w : x.workers[w]? = some v)
    (crew : Crew r.clients d x) (told : r.stopped = false) (run : r.moveWorker d w = some next)
    (smooth : Smooth r next) : ∃ y after done, Works r next d w x y v after done := by
  obtain ⟨c,at_c,line⟩ := crew.at_client at_w
  obtain ⟨after,uses⟩ := moveWorker_uses at_d at_w at_c line run
  obtain ⟨x',v',at_d',at_w',turn⟩ := moveWorker_turn run
  cases at_d.symm.trans at_d'
  cases at_w.symm.trans at_w'
  have at_next {y : Dispatcher} (dispatchers : next.dispatchers = r.dispatchers.set d y) :
      next.dispatchers[d]? = some y := by
    rw [dispatchers,List.getElem?_set]
    simp [(List.getElem?_eq_some_iff.mp at_d).1]
  have goes_to {z : Dispatcher} {stage : WorkerStage} (workers : z.workers = x.workers)
      (dispatchers : next.dispatchers = r.dispatchers.set d (z.place w stage)) : after = stage := by
    have stands := stageOf_at (at_next dispatchers) (placed_worker (workers ▸ at_w) stage)
    exact Option.some.inj (uses.stage.symm.trans stands)
  have unharmed {f : RunError} (dispatchers : next.dispatchers = r.dispatchers.set d (x.retire w (some f))) :
      False := by
    have at_w : (x.retire w (some f)).workers[w]? = some { v with stage := .ended (some f) } := placed_worker at_w _
    have member := List.mem_of_getElem? at_w
    cases smooth.unfailed _ (List.mem_of_getElem? (at_next dispatchers)) _ member
  -- of the turns of a worker, those that end it with a failure are ruled out, and so is a wait for its client
  generalize at_stage : v.stage = stage at turn
  cases turn with
  | quit idle turned =>
    obtain ⟨empty,nobody⟩ := idle.resolve_left (by simp [told])
    obtain rfl := goes_to (z := { x with turns := x.turns.erase w }) rfl turned.dispatchers
    exact works_of_turned turned uses (at_stage ▸ .quit x w) fun _ => ⟨empty,nobody⟩
  | @take op queue oldest turned first =>
    obtain rfl := goes_to (z := { x with queue, turns := x.turns.tail }) rfl turned.dispatchers
    exact works_of_turned turned uses (at_stage ▸ .take oldest first) fun rests => by cases rests
  | enter turned =>
    have stands := stageOf_at (at_next turned.dispatchers) at_w
    exact absurd (Option.some.inj (uses.stage.symm.trans stands)) uses.moved
  | @renew op sinceMs untilMs a turned =>
    obtain rfl := goes_to rfl turned.dispatchers
    exact works_of_turned turned uses (at_stage ▸ .go_on rfl rfl (Nat.lt_succ_self _)) fun rests => by cases rests
  | @begin _ op sinceMs untilMs a has turned =>
    obtain rfl := goes_to rfl turned.dispatchers
    have holds : stage.operation? = some op := by rw [WorkerStage.operation?,has]; rfl
    have fewer : 2 < stage.ahead := by
      cases stage with
      | claiming _ => exact Nat.lt_add_of_pos_right Nat.two_pos
      | renewing _ _ _ _ => exact Nat.lt_succ_self 2
      | _ => cases has
    exact works_of_turned turned uses (at_stage ▸ .go_on holds rfl fewer) fun rests => by cases rests
  | crash has turned => exact (unharmed turned.dispatchers).elim
  | disconnect stops has dispatchers => exact (unharmed dispatchers).elim
  | @finish _ op has dispatchers producers log stopped course counted =>
    obtain ⟨sinceMs,untilMs,a,rfl⟩ := running_cases has
    cases has
    obtain rfl := goes_to (z := { x with turns := x.turns ++ [w] }) rfl dispatchers
    rcases counted with success | failure
    · obtain ⟨answer,executed⟩ := success.answered
      exact ⟨_,.waiting,some op,at_stage ▸ .finish x w op sinceMs untilMs a,dispatchers,producers,stopped,course,
        .inr ⟨op,answer,rfl,executed⟩,(fun rests => by cases rests),uses⟩
    · exact absurd smooth.errors failure.errors
  | fault has dispatchers => exact (unharmed dispatchers).elim

/-- The workers go on as they should. -/
theorem Works.crew {after : WorkerStage} {done : Option Operation} (works : Works r next d w x y v after done)
    (at_d : r.dispatchers[d]? = some x) (at_w : x.workers[w]? = some v) (smooth : Smooth r next)
    (crew : Crew r.clients d x) : Crew next.clients d y := by
  have elsewhere {u : Nat} (other : u ≠ w) : y.workers[u]? = x.workers[u]? := by
    rw [works.worker_at at_w,if_neg other]
  have at_own : y.workers[w]? = some { v with stage := after } := by rw [works.worker_at at_w,if_pos rfl]
  obtain ⟨once,waits⟩ := works.in_line at_w works.uses.moved crew.once crew.waits
  obtain ⟨c,clients,line⟩ := works.uses.client
  have own := crew.own w v at_w
  refine ⟨once,waits,fun u v' at_u => ?_,fun u v' at_u => ?_,fun v' member => ?_⟩
  · by_cases same : u = w
    · subst same
      cases at_own.symm.trans at_u
      exact own
    · exact crew.own u v' (elsewhere same ▸ at_u)
  · rw [clients,own,List.getElem?_set]
    by_cases same : u = w
    · subst same
      cases at_own.symm.trans at_u
      obtain ⟨_,at_c,-⟩ := crew.lines u v at_w
      exact ⟨c,by simp [(List.getElem?_eq_some_iff.mp at_c).1],line⟩
    · rw [if_neg (Ne.symm same)]
      exact crew.lines u v' (elsewhere same ▸ at_u)
  · refine smooth.unfailed y ?_ v' member
    rw [works.dispatchers]
    exact List.mem_set (List.getElem?_eq_some_iff.mp at_d).1 y

/-! ### A worker that can go on -/

/-- A worker that has an operation goes on, if it is given some time. -/
private theorem Crew.carries_on (crew : Crew r.clients d x) (at_d : r.dispatchers[d]? = some x)
    (at_w : x.workers[w]? = some v) {op : Operation} (has : v.stage.operation? = some op) :
    ∃ ms next, (r.pass ms).moveWorker d w = some next := by
  obtain ⟨c,at_c,line⟩ := crew.at_client at_w
  refine moveWorker_carries_on at_d at_w has at_c fun op' claims => .inr (.inl ?_)
  rw [line,claims]
  exact List.not_mem_nil

/-- As long as a worker has not ended, and there is something to do or nobody left who sends, one of the workers goes
on after some time. -/
theorem Crew.goes_on (crew : Crew r.clients d x) (at_d : r.dispatchers[d]? = some x) (told : r.stopped = false)
    (at_w : x.workers[w]? = some v) (active : v.hasEnded = false) (called : x.queue ≠ [] ∨ r.hasSenders d = false) :
    ∃ ms u next, (r.pass ms).moveWorker d u = some next := by
  cases has : v.stage.operation? with
  | some op =>
    obtain ⟨ms,next,run⟩ := crew.carries_on at_d at_w has
    exact ⟨ms,w,next,run⟩
  | none =>
    have waits := Worker.waits_of_idle active has
    -- who stands first in the line takes the oldest operation, or quits where nobody is left who sends
    have in_line : w ∈ x.turns := (crew.waits w).mpr ⟨v,at_w,waits⟩
    obtain ⟨u,others,line⟩ := List.exists_cons_of_ne_nil (List.ne_nil_of_mem in_line)
    obtain ⟨v',at_u,waits'⟩ := (crew.waits u).mp (line ▸ List.mem_cons_self)
    have later : (r.pass 0).dispatchers[d]? = some x := at_d
    have untold : (r.pass 0).stopped = false := told
    refine ⟨0,u,Option.isSome_iff_exists.mp ?_⟩
    unfold moveWorker
    simp only [later,Option.bind_eq_bind,Option.bind_some,at_u,waits',untold]
    cases queue : x.queue with
    | cons op rest => simp [Dispatcher.take,line,queue]
    | nil =>
      have nobody : (r.pass 0).hasSenders d = false := called.resolve_left fun some_left => some_left queue
      simp [Dispatcher.take,line,queue,nobody]

/-! ### From the beginning to the end -/

theorem crew_start {clients : List Client} {n : Nat} (free : ∀ w < n, ∃ c, clients[w]? = some c ∧ c.line = [])
    (d : Nat) (name : String) (options : DispatchOptions) :
    Crew clients d (Dispatcher.start name options (List.range n)) := by
  have worker_at {w : Nat} {v : Worker}
      (at_w : (Dispatcher.start name options (List.range n)).workers[w]? = some v) : w < n ∧ v = ⟨w,.waiting⟩ := by
    simp only [Dispatcher.start,List.getElem?_map,Option.map_eq_some_iff,List.getElem?_eq_some_iff] at at_w
    obtain ⟨_,⟨inside,rfl⟩,rfl⟩ := at_w
    exact ⟨by simpa using inside,by simp⟩
  refine ⟨List.nodup_range,fun w => ?_,fun w v at_w => ?_,fun w v at_w => ?_,fun v member => ?_⟩
  · simp [Dispatcher.start,List.getElem?_eq_some_iff]
  · rw [(worker_at at_w).2]
  · obtain ⟨inside,rfl⟩ := worker_at at_w
    exact free w inside
  · obtain ⟨w,at_w⟩ := List.mem_iff_getElem?.mp member
    rw [(worker_at at_w).2]
    rfl

theorem start_ahead (name : String) (options : DispatchOptions) (n : Nat) :
    (Dispatcher.start name options (List.range n)).ahead = n := by
  simp only [Dispatcher.ahead,Dispatcher.start,List.length_nil,List.map_map,Function.comp_def,WorkerStage.ahead,
    List.map_const',List.length_range,List.sum_replicate_nat]
  omega

theorem start_unfinished (name : String) (options : DispatchOptions) (clients : List Nat) :
    (Dispatcher.start name options clients).unfinished = [] := by
  simp [Dispatcher.unfinished,Dispatcher.start,Dispatcher.inHand,WorkerStage.operation?,WorkerStage.pending?,
    WorkerStage.running?]

/-- Where nothing has failed, a dispatcher ends well as soon as all of its workers have ended. -/
theorem Crew.joined {clients : List Client} (crew : Crew clients d x) :
    x.joined? = if x.isServed then none else some (.ok ()) := by
  have fine : x.workers.findSome? Worker.failure? = none := List.findSome?_eq_none_iff.mpr crew.unfailed
  rw [Dispatcher.joined?,fine]

end Run

end Keyload
