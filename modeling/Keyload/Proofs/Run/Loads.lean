import Keyload.Proofs.Run.FilledEngine
import Keyload.Proofs.Run.Puts

/-!
Loads, one after another, in which nothing fails. At any time every key that was sent is in the store, or in the queue
or a worker's hand, and nothing but the keys of the plan ever gets there; the turns that are left grow fewer with every
turn, and as long as the main task waits somebody can go on. So all loads come to their end, after each of them the
store has the keys of the plan, and further loads leave them as they are.
-/
namespace Keyload
open Bounded (Complete Fixed Ready passTexts ready_start)
open Churn.Activity (putOf)
open Cursor (LeafLast)

variable {σ : Type} [RandomSource σ] {plan : LoadPlan}

namespace Run

/-- `first` gets to a state in so many turns, in any order and at any times, in which nothing fails and nothing is done
from outside. -/
inductive Smoothly (first : Run σ) : Nat → Run σ → Prop where
  | start : Smoothly first 0 first
  | pass {turns : Nat} {r : Run σ} (ms : Nat) (before : Smoothly first turns r) : Smoothly first turns (r.pass ms)
  | turn {turns : Nat} {r next : Run σ} {who : Participant} (before : Smoothly first turns r)
      (run : r.move who = some next) (smooth : Smooth r next) : Smoothly first (turns + 1) next

/-- Take turns in an order, as long as nothing fails. -/
def takeTurns : List Participant → Run σ → Option (Run σ)
  | [],r => some r
  | who :: order,r => do
    let next ← r.move who
    if Smooth r next then takeTurns order next else none

theorem takeTurns_smoothly {first r last : Run σ} {turns : Nat} {order : List Participant}
    (before : Smoothly first turns r) (run : takeTurns order r = some last) :
    Smoothly first (turns + order.length) last := by
  induction order generalizing turns r with
  | nil =>
    cases run
    exact before
  | cons who order ih =>
    obtain ⟨next,moved,run⟩ := Option.bind_eq_some_iff.mp run
    split_ifs at run with smooth
    rw [List.length_cons,Nat.add_comm order.length 1,← Nat.add_assoc]
    exact ih (before.turn moved smooth) run

variable {r next : Run σ} {c : Course σ} {j : Nat} {x : Dispatcher} {p : Producer σ}

/-! ### The state of the loads -/

/-- The course of the loads, `j` of which are done. -/
structure Planned (plan : LoadPlan) (j : Nat) (c : Course σ) : Prop where
  goal : c.goal = .loads plan.times plan.total
  patterns : c.engine.keySpace.patterns = plan.patterns
  pool : c.pool = List.range plan.clients
  loaded : c.loaded = List.replicate j plan.puts

/-- Nobody takes part but those who load, and nobody is told to end. -/
structure Undisturbed (r : Run σ) : Prop where
  told : r.stopped = false
  watchers : r.watchers = []
  reporters : r.reporters = []

omit [RandomSource σ] in
/-- What does not touch the rest of a run leaves it undisturbed. -/
theorem Undisturbed.still (undisturbed : Undisturbed r) (told : next.stopped = r.stopped)
    (watchers : next.watchers = r.watchers) (reporters : next.reporters = r.reporters) : Undisturbed next :=
  ⟨told.trans undisturbed.told,watchers.trans undisturbed.watchers,reporters.trans undisturbed.reporters⟩

/-- The store has no keys but those of the plan, and all of them once a load is done. -/
structure Stored (plan : LoadPlan) (j : Nat) (m : Memory) : Prop where
  within : ∀ key ∈ m.data, key ∈ plan.keys
  whole : 0 < j → ∀ key ∈ plan.keys, key ∈ m.data

/-- Dispatchers and producers of `j` loads that are done. -/
structure Ended (dispatchers : List Dispatcher) (producers : List (Producer σ)) (j : Nat) : Prop where
  crews : dispatchers.length = j
  unserved : ∀ y ∈ dispatchers, ∀ v ∈ y.workers, v.hasEnded = true
  sources : producers.length = j
  silent : ∀ q ∈ producers, q.hasEnded = true

omit [RandomSource σ] in
theorem Ended.more {dispatchers : List Dispatcher} {producers : List (Producer σ)}
    (ended : Ended dispatchers producers j) (unserved : ∀ v ∈ x.workers, v.hasEnded = true)
    (silent : p.hasEnded = true) : Ended (dispatchers ++ [x]) (producers ++ [p]) (j + 1) := by
  refine ⟨?_,fun y member => ?_,?_,fun q member => ?_⟩
  · rw [List.length_append,ended.crews]
    rfl
  · rcases List.mem_append.mp member with old | last
    · exact ended.unserved y old
    · exact List.mem_singleton.mp last ▸ unserved
  · rw [List.length_append,ended.sources]
    rfl
  · rcases List.mem_append.mp member with old | last
    · exact ended.silent q old
    · exact List.mem_singleton.mp last ▸ silent

/-- `j` loads are done and no other one is under way. -/
structure Between (plan : LoadPlan) (j : Nat) (r : Run σ) (c : Course σ) : Prop where
  planned : Planned plan j c
  undisturbed : Undisturbed r
  ended : Ended r.dispatchers r.producers j
  clients : ∀ w < plan.clients, ∃ k, r.clients[w]? = some k ∧ k.line = []
  stored : Stored plan j r.site.memory

/-- Where the keys are that the producer of a load has sent. -/
structure Carried (plan : LoadPlan) (m : Memory) (x : Dispatcher) (sent : Nat) : Prop where
  arrives : ∀ i < sent, ∀ key, plan.keyAt? i = some key → key ∈ m.data ∨ ∃ value, .put key value ∈ x.unfinished
  belongs : ∀ op ∈ x.unfinished, ∃ key value, op = .put key value ∧ key ∈ plan.keys

/-- The next key is sent. -/
theorem Carried.accept {m : Memory} {sent : Nat} {e : Entry} (carried : Carried plan m x sent) (i : Nat)
    (key : plan.keyAt? sent = some e.key) (within : sent < plan.puts) :
    Carried plan m (x.accept i (putOf e)) (sent + 1) := by
  have unfinished := x.accept_unfinished i (putOf e)
  refine ⟨fun k inside key' at_k => ?_,fun op member => ?_⟩
  · by_cases last : k = sent
    · subst last
      cases key.symm.trans at_k
      exact .inr ⟨_,(unfinished _).mpr (.inr rfl)⟩
    · rcases carried.arrives k (by omega) key' at_k with stored | ⟨value,member⟩
      · exact .inl stored
      · exact .inr ⟨value,(unfinished _).mpr (.inl member)⟩
  · rcases (unfinished op).mp member with old | rfl
    · exact carried.belongs op old
    · exact ⟨e.key,_,rfl,LoadPlan.mem_keys.mpr ⟨sent,within,key⟩⟩

section
variable {d w : Nat} {y : Dispatcher} {v : Worker} {after : WorkerStage} {done : Option Operation} {sent : Nat}
  (works : Works r next d w x y v after done) (at_w : x.workers[w]? = some v)
  (carried : Carried plan r.site.memory x sent)
include works at_w carried

omit [RandomSource σ] in
/-- What a worker adds to the store is the key of the put that it has carried out. -/
private theorem Works.mem_data (key : String) : key ∈ next.site.memory.data ↔
    (∃ value, done = some (.put key value)) ∨ key ∈ r.site.memory.data := by
  rcases works.memory with ⟨rfl,same⟩ | ⟨op,a,rfl,executed⟩
  · simp [same]
  · obtain ⟨key',value,rfl,-⟩ := carried.belongs op ((works.unfinished_iff at_w op).mpr (.inr rfl))
    have same : key = key' ↔ ∃ value', some (Operation.put key' value) = some (.put key value') := by
      constructor
      · rintro rfl
        exact ⟨value,rfl⟩
      · rintro ⟨_,same⟩
        cases same
        rfl
    rw [Memory.mem_answered executed,same]

omit [RandomSource σ] in
/-- Whatever a worker does, every key that was sent stays in the store or on its way there. -/
private theorem Works.keeps (stored : Stored plan j r.site.memory) :
    Stored plan j next.site.memory ∧ Carried plan next.site.memory y sent := by
  have data := works.mem_data at_w carried
  have stays (key : String) (old : key ∈ r.site.memory.data) : key ∈ next.site.memory.data := (data key).mpr (.inr old)
  refine ⟨⟨fun key member => ?_,fun some_done key member => stays key (stored.whole some_done key member)⟩,
    fun i inside key at_i => ?_,fun op left => carried.belongs op ((works.unfinished_iff at_w op).mpr (.inl left))⟩
  · rcases (data key).mp member with ⟨value,rfl⟩ | old
    · obtain ⟨_,_,same,planned⟩ := carried.belongs _ ((works.unfinished_iff at_w _).mpr (.inr rfl))
      cases same
      exact planned
    · exact stored.within key old
  · rcases carried.arrives i inside key at_i with old | ⟨value,member⟩
    · exact .inl (stays key old)
    · rcases (works.unfinished_iff at_w _).mp member with left | rfl
      · exact .inr ⟨value,left⟩
      · exact .inl ((data key).mpr (.inl ⟨value,rfl⟩))

end

/-- Load number `j` is under way: its dispatcher is `x` and its producer `p`. -/
structure Load (plan : LoadPlan) (j : Nat) (r : Run σ) (x : Dispatcher) (p : Producer σ) (c : Course σ) : Prop where
  course : r.course = some c
  phase : c.phase = .loading j j
  due : j < plan.times
  planned : Planned plan j c
  undisturbed : Undisturbed r
  ended : ∃ dispatchers producers, Ended dispatchers producers j ∧ r.dispatchers = dispatchers ++ [x] ∧
    r.producers = producers ++ [p]
  sends : p.dispatcher = j
  silent : p.signal = none
  unbounded : p.allowance = none
  crew : Crew r.clients j x
  manned : x.workers.length = plan.clients
  room : 0 < x.capacity
  blocked : x.blocked = [] ∨ x.blocked = [j] ∧ ∃ op subtree, p.stage = .sending op subtree
  puts : Puts plan p
  /-- A worker leaves only after the producer has, and leaves nothing behind. -/
  patient : ∀ v ∈ x.workers, v.hasEnded = true → p.hasEnded = true ∧ x.queue = []
  stored : Stored plan j r.site.memory
  carried : Carried plan r.site.memory x p.sent

/-- The turns that are left while load number `j` is under way. -/
def turnsLeft (plan : LoadPlan) (j : Nat) (x : Dispatcher) (p : Producer σ) : Nat :=
  (plan.times - (j + 1)) * plan.turns + 1 + p.ahead plan.puts (!x.blocked.isEmpty) + x.ahead

/-- What the loads have come to, and how many turns are left at most. -/
inductive Loads (plan : LoadPlan) (r : Run σ) : Nat → Prop where
  | beginning {c : Course σ} (course : r.course = some c) (phase : c.phase = .beginning)
      (between : Between plan 0 r c) : Loads plan r (1 + plan.times * plan.turns)
  | loading {j : Nat} {x : Dispatcher} {p : Producer σ} {c : Course σ} (load : Load plan j r x p c) :
      Loads plan r (turnsLeft plan j x p)
  | done {c : Course σ} (course : r.course = some c)
      (phase : c.phase = .ended (.ok (.loaded (List.replicate plan.times plan.puts))))
      (between : Between plan plan.times r c) : Loads plan r 0

/-! ### Who can go on while a load is under way -/

namespace Load

theorem at_x (load : Load plan j r x p c) : r.dispatchers[j]? = some x := by
  obtain ⟨_,_,ended,dispatchers,-⟩ := load.ended
  rw [dispatchers,← ended.crews]
  exact List.getElem?_concat_length

theorem at_p (load : Load plan j r x p c) : r.producers[j]? = some p := by
  obtain ⟨_,_,ended,-,producers⟩ := load.ended
  rw [producers,← ended.sources]
  exact List.getElem?_concat_length

/-- Nobody else has a worker that has not ended. -/
theorem only_dispatcher (load : Load plan j r x p c) {d : Nat} {y : Dispatcher} {v : Worker}
    (at_d : r.dispatchers[d]? = some y) (member : v ∈ y.workers) (active : v.hasEnded = false) : d = j ∧ y = x := by
  obtain ⟨before,_,ended,dispatchers,-⟩ := load.ended
  have length := ended.crews
  have inside := (List.getElem?_eq_some_iff.mp at_d).1
  rw [dispatchers,List.length_append,List.length_singleton] at inside
  by_cases earlier : d < j
  · rw [dispatchers,List.getElem?_append_left (by omega)] at at_d
    rw [ended.unserved y (List.mem_of_getElem? at_d) v member] at active
    cases active
  · obtain rfl : d = j := by omega
    exact ⟨rfl,Option.some.inj (at_d.symm.trans load.at_x)⟩

/-- No other producer has not ended. -/
theorem only_producer (load : Load plan j r x p c) {i : Nat} {q : Producer σ} (at_i : r.producers[i]? = some q)
    (active : q.hasEnded = false) : i = j ∧ q = p := by
  obtain ⟨_,before,ended,-,producers⟩ := load.ended
  have length := ended.sources
  have inside := (List.getElem?_eq_some_iff.mp at_i).1
  rw [producers,List.length_append,List.length_singleton] at inside
  by_cases earlier : i < j
  · rw [producers,List.getElem?_append_left (by omega)] at at_i
    rw [ended.silent q (List.mem_of_getElem? at_i)] at active
    cases active
  · obtain rfl : i = j := by omega
    exact ⟨rfl,Option.some.inj (at_i.symm.trans load.at_p)⟩

theorem hasSenders (load : Load plan j r x p c) : r.hasSenders j = !p.hasEnded := by
  obtain ⟨_,before,ended,-,producers⟩ := load.ended
  have none_before : before.any (fun q => q.dispatcher == j && !q.hasEnded) = false := by
    rw [List.any_eq_false]
    intro q member
    simp [ended.silent q member]
  rw [Run.hasSenders,producers,List.any_append,none_before]
  simp [load.sends]

theorem some_worker (load : Load plan j r x p c) (manned : 0 < plan.clients) : ∃ v, x.workers[0]? = some v := by
  have inside : 0 < x.workers.length := load.manned ▸ manned
  exact ⟨_,List.getElem?_eq_getElem inside⟩

/-- As long as the producer goes on, so do all workers. -/
theorem worker_active (load : Load plan j r x p c) (active : p.hasEnded = false) {v : Worker} (member : v ∈ x.workers) :
    v.hasEnded = false := by
  refine Bool.eq_false_iff.mpr fun gone => ?_
  rw [(load.patient v member gone).1] at active
  cases active

/-- The main task goes on once the producer and all workers have ended. -/
theorem moveMain_eq (load : Load plan j r x p c) :
    r.moveMain = if p.hasEnded = true ∧ x.isServed = false then some (r.endLoad c p.sent) else none := by
  have unbroken : p.fault? = none := by
    unfold Producer.fault?
    cases load.puts with
    | choosing stage => rw [stage]
    | pacing stage => rw [stage]
    | sending stage => rw [stage]
    | complete stage => rw [stage]
  have joined : r.dispatchersJoined? [j] = if x.isServed then none else some (.ok ()) := by
    simp only [dispatchersJoined?,load.at_x,Option.elim_some,load.crew.joined]
    split <;> rfl
  unfold moveMain
  simp only [load.course,load.phase]
  unfold awaitLoad
  simp only [load.at_p,Option.bind_eq_bind,Option.bind_some,unbroken,joined]
  cases p.hasEnded <;> cases x.isServed <;> rfl

/-! ### Turns of workers and of the producer -/

/-- Nobody waits in line but a producer that is sending. -/
theorem unblocked (load : Load plan j r x p c) (unsent : ∀ op subtree, p.stage ≠ .sending op subtree) :
    x.blocked = [] := by
  rcases load.blocked with nobody | ⟨-,op,subtree,sending⟩
  · exact nobody
  · exact absurd sending (unsent op subtree)

theorem worker (load : Load plan j r x p c) {d w : Nat} (run : r.moveWorker d w = some next) (smooth : Smooth r next) :
    ∃ y, Load plan j next y p c ∧ turnsLeft plan j y p < turnsLeft plan j x p := by
  obtain ⟨x',v,at_d,at_w,turn⟩ := moveWorker_turn run
  obtain ⟨rfl,rfl⟩ := load.only_dispatcher at_d (List.mem_of_getElem? at_w) (Worker.hasEnded_of_active turn.active)
  obtain ⟨y,after,done,works⟩ := moveWorker_works at_d at_w load.crew load.undisturbed.told run smooth
  have crew := works.crew at_d at_w smooth load.crew
  obtain ⟨stored,carried⟩ := works.keeps at_w load.carried load.stored
  obtain ⟨dispatchers,producers,ended,at_dispatchers,at_producers⟩ := load.ended
  refine ⟨y,⟨works.course.trans load.course,load.phase,load.due,load.planned,?_,
    ⟨dispatchers,producers,ended,?_,works.producers.trans at_producers⟩,load.sends,load.silent,load.unbounded,crew,?_,
    works.capacity ▸ load.room,works.blocked ▸ load.blocked,load.puts,fun v' member gone => ?_,stored,carried⟩,?_⟩
  · exact load.undisturbed.still works.stopped works.uses.watchers works.uses.reporters
  · rw [works.dispatchers,at_dispatchers,← ended.crews]
    simp
  · rw [works.workers,← load.manned]
    exact List.length_modify ..
  · obtain ⟨u,at_u⟩ := List.mem_iff_getElem?.mp member
    have quit := crew.quit at_u gone
    rw [works.worker_at at_w] at at_u
    split_ifs at at_u with same
    · cases at_u
      obtain ⟨empty,nobody⟩ := works.quits quit
      rw [load.hasSenders] at nobody
      exact ⟨by simpa using nobody,empty⟩
    · obtain ⟨ended,empty⟩ := load.patient v' (List.mem_of_getElem? at_u) gone
      exact ⟨ended,List.subset_nil.mp (empty ▸ works.queue)⟩
  · have fewer := works.ahead_lt at_w
    unfold turnsLeft
    rw [works.blocked]
    omega

/-- What a turn of the producer leaves as it was. -/
structure Untouched (r next : Run σ) (x y : Dispatcher) : Prop where
  course : next.course = r.course
  memory : next.site.memory = r.site.memory
  clients : next.clients = r.clients
  stopped : next.stopped = r.stopped
  watchers : next.watchers = r.watchers
  reporters : next.reporters = r.reporters
  turns : y.turns = x.turns
  workers : y.workers = x.workers
  capacity : y.capacity = x.capacity

/-- A turn of the producer keeps the load under way. -/
private theorem keep (load : Load plan j r x p c) {y : Dispatcher} {q : Producer σ} (active : p.hasEnded = false)
    (same : Same p q) (puts : Puts plan q) (dispatchers : next.dispatchers = r.dispatchers.set j y)
    (producers : next.producers = r.producers.set j q) (untouched : Untouched r next x y)
    (blocked : y.blocked = [] ∨ y.blocked = [j] ∧ ∃ op subtree, q.stage = .sending op subtree)
    (carried : Carried plan r.site.memory y q.sent) : Load plan j next y q c := by
  obtain ⟨dispatchers',producers',ended,at_dispatchers,at_producers⟩ := load.ended
  obtain ⟨course,memory,clients,stopped,watchers,reporters,turns,workers,capacity⟩ := untouched
  have crew := load.crew
  refine ⟨course.trans load.course,load.phase,load.due,load.planned,load.undisturbed.still stopped watchers reporters,
    ⟨dispatchers',producers',ended,?_,?_⟩,same.dispatcher.trans load.sends,same.signal.trans load.silent,
    same.allowance.trans load.unbounded,?_,workers ▸ load.manned,capacity ▸ load.room,blocked,puts,
    fun v member gone => ?_,memory ▸ load.stored,memory ▸ carried⟩
  · rw [dispatchers,at_dispatchers,← ended.crews]
    simp
  · rw [producers,at_producers,← ended.sources]
    simp
  · rw [clients]
    exact ⟨turns ▸ crew.once,turns ▸ workers ▸ crew.waits,workers ▸ crew.own,workers ▸ crew.lines,
      workers ▸ crew.unfailed⟩
  · have ended := (load.patient v (workers ▸ member) gone).1
    rw [active] at ended
    cases ended

/-- The producer chooses or waits for its time. -/
private theorem placed (load : Load plan j r x p c) {q : Producer σ} (active : p.hasEnded = false) (puts : Puts plan q)
    (same : Same p q) (sent : q.sent = p.sent) (unsent : ∀ op subtree, p.stage ≠ .sending op subtree)
    (ahead : q.ahead plan.puts false < p.ahead plan.puts false) :
    Load plan j (r.placeProducer j q) x q c ∧ turnsLeft plan j x q < turnsLeft plan j x p := by
  have nobody := load.unblocked unsent
  have unmoved : x.giveUp j = x := by
    show { x with blocked := x.blocked.erase j } = x
    rw [nobody]
    show { x with blocked := [] } = x
    rw [← nobody]
  have given_up : r.dispatchers.modify j (·.giveUp j) = r.dispatchers := by
    rw [List.modify_eq_set_getElem?,load.at_x]
    show r.dispatchers.set j (x.giveUp j) = _
    rw [unmoved,set_same load.at_x]
  rw [placeProducer_eq (same.signal.trans load.silent),same.dispatcher,load.sends,given_up,ite_self]
  refine ⟨load.keep active same puts (set_same load.at_x).symm rfl ⟨rfl,rfl,rfl,rfl,rfl,rfl,rfl,rfl,rfl⟩
    (.inl nobody) (sent ▸ load.carried),?_⟩
  unfold turnsLeft
  rw [nobody]
  show _ + q.ahead plan.puts false + _ < _ + p.ahead plan.puts false + _
  omega

/-- The producer sends the key that it holds. -/
private theorem sent (load : Load plan j r x p c) {e : Entry} {q : Producer σ} (active : p.hasEnded = false)
    (puts : Puts plan q) (same : Same p q) (sent : q.sent = p.sent + 1) (key : plan.keyAt? p.sent = some e.key)
    (within : p.sent < plan.puts) (chooses : q.stage = .choosing)
    (ahead : q.ahead plan.puts false + 4 < p.ahead plan.puts true) :
    Load plan j ((r.onDispatcher j (·.accept j (putOf e))).placeProducer j q) (x.accept j (putOf e)) q c ∧
      turnsLeft plan j (x.accept j (putOf e)) q < turnsLeft plan j x p := by
  have goes_on : q.hasEnded = false := by simp [Producer.hasEnded,chooses]
  have left : x.blocked.erase j = [] := by
    rcases load.blocked with nobody | ⟨line,-⟩
    · rw [nobody]
      rfl
    · simp [line]
  rw [placeProducer_eq (same.signal.trans load.silent),goes_on,if_neg Bool.false_ne_true]
  refine ⟨load.keep active same puts (onDispatcher_at load.at_x _) rfl ⟨rfl,rfl,rfl,rfl,rfl,rfl,rfl,rfl,rfl⟩
    (.inl left) (sent ▸ load.carried.accept j key within),?_⟩
  have least := p.ahead_enlisted plan.puts (!x.blocked.isEmpty)
  unfold turnsLeft
  show _ + q.ahead plan.puts (!(x.blocked.erase j).isEmpty) + _ < _
  rw [left,x.accept_ahead]
  show _ + q.ahead plan.puts false + _ < _
  omega

/-- The producer gets in line where there is no room. -/
private theorem enlisted (load : Load plan j r x p c) {op : Operation} {subtree : Option Cursor}
    (active : p.hasEnded = false) (stage : p.stage = .sending op subtree) (absent : j ∉ x.blocked)
    (ahead : p.ahead plan.puts true < p.ahead plan.puts false) :
    Load plan j (r.onDispatcher j (·.enlist j)) (x.enlist j) p c ∧
      turnsLeft plan j (x.enlist j) p < turnsLeft plan j x p := by
  have nobody : x.blocked = [] := by
    rcases load.blocked with nobody | ⟨line,-⟩
    · exact nobody
    · simp [line] at absent
  have line : (x.enlist j).blocked = [j] := by
    show x.blocked ++ [j] = [j]
    rw [nobody]
    rfl
  refine ⟨load.keep active ⟨rfl,rfl,rfl⟩ load.puts (onDispatcher_at load.at_x _) (set_same load.at_p).symm
    ⟨rfl,rfl,rfl,rfl,rfl,rfl,rfl,rfl,rfl⟩ (.inr ⟨line,op,subtree,stage⟩) ⟨load.carried.arrives,load.carried.belongs⟩,?_⟩
  unfold turnsLeft
  rw [line,nobody]
  show _ + p.ahead plan.puts true + x.ahead < _ + p.ahead plan.puts false + _
  omega

theorem producer (load : Load plan j r x p c) (manned : 0 < plan.clients)
    (leafLast : ∀ p ∈ plan.patterns, LeafLast p.levels) (fixed : Fixed plan.patterns)
    (complete : Complete σ plan.patterns) {i : Nat} (run : r.moveProducer i = some next) :
    ∃ y q, Load plan j next y q c ∧ turnsLeft plan j y q < turnsLeft plan j x p := by
  obtain ⟨q,at_i,-⟩ := moveProducer_turn run
  have active := moveProducer_active at_i run
  obtain ⟨rfl,rfl⟩ := load.only_producer at_i active
  have at_x : r.dispatchers[q.dispatcher]? = some x := by rw [load.sends]; exact load.at_x
  have served : x.isServed = true := by
    obtain ⟨v,at_v⟩ := load.some_worker manned
    refine List.any_eq_true.mpr ⟨v,List.mem_of_getElem? at_v,?_⟩
    rw [load.worker_active active (List.mem_of_getElem? at_v)]
    rfl
  have turn := put_turn leafLast fixed complete at_i at_x load.puts load.undisturbed.told load.silent load.unbounded
    served run
  cases turn with
  | place puts same sent unsent ahead after =>
    subst after
    exact ⟨_,_,load.placed active puts same sent unsent ahead⟩
  | send puts same sent key within chooses ahead after =>
    rw [load.sends] at after
    subst after
    exact ⟨_,_,load.sent active puts same sent key within chooses ahead⟩
  | enlist stage absent ahead after =>
    rw [load.sends] at after
    subst after
    exact ⟨_,_,load.enlisted active stage absent ahead⟩

/-! ### From one load to the next -/

/-- Once the producer and all workers have ended, one more load is done. -/
theorem joined (load : Load plan j r x p c) (manned : 0 < plan.clients) (ended : p.hasEnded = true)
    (unserved : x.isServed = false) : Between plan (j + 1) r { c with loaded := c.loaded ++ [p.sent] } := by
  have gone : ∀ v ∈ x.workers, v.hasEnded = true := by simpa [Dispatcher.isServed] using unserved
  obtain ⟨-,all⟩ := load.puts.of_ended ended
  obtain ⟨v,at_v⟩ := load.some_worker manned
  -- all workers have quit, so nothing is in the queue or in a hand: what was sent is in the store
  have empty := (load.patient v (List.mem_of_getElem? at_v) (gone v (List.mem_of_getElem? at_v))).2
  have well : x.joined? = some (.ok ()) := by rw [load.crew.joined,unserved]; rfl
  have nothing : x.unfinished = [] := by
    rw [Dispatcher.unfinished,empty,(Dispatcher.joined_ok well).2.2.1]
    rfl
  obtain ⟨dispatchers,producers,before,at_dispatchers,at_producers⟩ := load.ended
  refine ⟨⟨load.planned.goal,load.planned.patterns,load.planned.pool,?_⟩,load.undisturbed,?_,fun w inside => ?_,?_⟩
  · rw [List.replicate_succ',← load.planned.loaded,all]
  · rw [at_dispatchers,at_producers]
    exact before.more gone ended
  · obtain ⟨v,at_w⟩ : ∃ v, x.workers[w]? = some v := ⟨_,List.getElem?_eq_getElem (load.manned.symm ▸ inside)⟩
    obtain ⟨k,at_k,line⟩ := load.crew.lines w v at_w
    refine ⟨k,at_k,line.trans ?_⟩
    rw [load.crew.quit at_w (gone v (List.mem_of_getElem? at_w))]
    rfl
  · refine ⟨load.stored.within,fun _ key member => ?_⟩
    obtain ⟨i,inside,at_i⟩ := LoadPlan.mem_keys.mp member
    rcases load.carried.arrives i (all ▸ inside) key at_i with stored | ⟨value,left⟩
    · exact stored
    · rw [nothing] at left
      cases left

end Load

omit [RandomSource σ] in
theorem Between.in_phase (between : Between plan j r c) (phase : Phase σ) :
    Between plan j (r.inPhase c phase) { c with phase } :=
  ⟨⟨between.planned.goal,between.planned.patterns,between.planned.pool,between.planned.loaded⟩,
    between.undisturbed.still rfl rfl rfl,between.ended,between.clients,between.stored⟩

/-- The next load begins. -/
theorem Between.begins (between : Between plan j r c) (due : j < plan.times) (some_pattern : plan.patterns ≠ [])
    (leafLast : ∀ p ∈ plan.patterns, LeafLast p.levels) (complete : Complete σ plan.patterns) :
    ∃ x p c', Load plan j (r.beginLoad c plan.total) x p c' ∧
      turnsLeft plan j x p = (plan.times - j) * plan.turns := by
  have at_d : r.nextDispatcher = j := between.ended.crews
  have at_p : r.nextProducer = j := between.ended.sources
  have planned := between.planned
  let x := Dispatcher.start "load" c.options (List.range plan.clients)
  let p := Producer.start j (.load (c.engine.keySpace.keys plan.total)) (c.streams c.nextStream)
    (Ticker.ofRate c.settings.workload.putRate r.nowNs)
  let c' : Course σ := { c with nextStream := c.nextStream + 1, phase := .loading j j }
  have begins : r.beginLoad c plan.total =
      { r with dispatchers := r.dispatchers ++ [x], producers := r.producers ++ [p], course := some c' } := by
    have crew : Dispatcher.start "load" c.options c.pool = x := by rw [planned.pool]
    unfold beginLoad
    rw [at_d,at_p,← crew]
    rfl
  have ready : Ready plan.patterns plan.total 0 (c.engine.keySpace.keys plan.total) (c.streams c.nextStream) := by
    rw [KeySpace.keys,planned.patterns]
    exact ready_start leafLast some_pattern complete plan.total _
  have left : turnsLeft plan j x p = (plan.times - j) * plan.turns := by
    have one_more : plan.times - j = plan.times - (j + 1) + 1 := by omega
    unfold turnsLeft
    rw [start_ahead,one_more,Nat.succ_mul]
    show _ + 1 + (8 * (plan.puts - 0) + 1) + plan.clients = _ + (8 * plan.puts + plan.clients + 2)
    omega
  have nothing : x.unfinished = [] := start_unfinished ..
  refine ⟨x,p,c',?_,left⟩
  rw [begins]
  refine ⟨rfl,rfl,due,⟨planned.goal,planned.patterns,planned.pool,planned.loaded⟩,between.undisturbed.still rfl rfl rfl,
    ⟨_,_,between.ended,rfl,rfl⟩,rfl,rfl,rfl,crew_start between.clients j _ _,?_,?_,.inl rfl,.choosing rfl rfl ready,?_,
    between.stored,?_⟩
  · simp [x,Dispatcher.start]
  · show 0 < max (List.range plan.clients).length 1
    omega
  · intro v member gone
    obtain ⟨w,-,rfl⟩ := List.mem_map.mp member
    cases gone
  · refine ⟨fun i inside => absurd inside (Nat.not_lt_zero i),fun op member => ?_⟩
    rw [nothing] at member
    cases member

/-- A load that is done is followed by the next one, or by the end. -/
theorem Load.ends (load : Load plan j r x p c) (some_pattern : plan.patterns ≠ []) (manned : 0 < plan.clients)
    (leafLast : ∀ p ∈ plan.patterns, LeafLast p.levels) (complete : Complete σ plan.patterns)
    (ended : p.hasEnded = true) (unserved : x.isServed = false) :
    ∃ left < turnsLeft plan j x p, Loads plan (r.endLoad c p.sent) left := by
  have between := load.joined manned ended unserved
  have planned := between.planned
  have loaded : c.loaded ++ [p.sent] = List.replicate (j + 1) plan.puts := planned.loaded
  have count : (c.loaded ++ [p.sent]).length = j + 1 := by rw [loaded,List.length_replicate]
  have fewer : (plan.times - (j + 1)) * plan.turns < turnsLeft plan j x p := by
    unfold turnsLeft
    omega
  by_cases more : j + 1 < plan.times
  · have goes_on : r.endLoad c p.sent = r.beginLoad { c with loaded := c.loaded ++ [p.sent] } plan.total := by
      simp only [endLoad,load.planned.goal,count,if_pos more]
    obtain ⟨x',p',c',next_load,left⟩ := between.begins more some_pattern leafLast complete
    exact ⟨_,left ▸ fewer,goes_on ▸ .loading next_load⟩
  · have last : j + 1 = plan.times := Nat.le_antisymm load.due (Nat.le_of_not_lt more)
    have concludes : r.endLoad c p.sent =
        r.conclude { c with loaded := c.loaded ++ [p.sent] } (.ok (.loaded (List.replicate plan.times plan.puts))) := by
      simp only [endLoad,load.planned.goal,count,if_neg more]
      rw [loaded,last]
    exact ⟨0,Nat.zero_lt_of_lt fewer,concludes ▸ .done rfl rfl (last ▸ between.in_phase _)⟩

/-! ### Every turn -/

/-- Where no load is under way, nobody but the main task can go on. -/
theorem Between.idle (between : Between plan j r c) {who : Participant} (run : r.move who = some next) :
    who = .main := by
  have ended := between.ended
  cases who with
  | main => rfl
  | producer i =>
    obtain ⟨p,at_i,-⟩ := moveProducer_turn run
    have active := moveProducer_active at_i run
    rw [ended.silent p (List.mem_of_getElem? at_i)] at active
    cases active
  | worker d w =>
    obtain ⟨x,v,at_d,at_w,turn⟩ := moveWorker_turn run
    have active := Worker.hasEnded_of_active turn.active
    rw [ended.unserved x (List.mem_of_getElem? at_d) v (List.mem_of_getElem? at_w)] at active
    cases active
  | watcher i => simp [move,moveWatcher,between.undisturbed.watchers] at run
  | reporter i => simp [move,moveReporter,between.undisturbed.reporters] at run

section
variable (some_pattern : plan.patterns ≠ []) (manned : 0 < plan.clients)
  (leafLast : ∀ p ∈ plan.patterns, LeafLast p.levels) (fixed : Fixed plan.patterns)
  (complete : Complete σ plan.patterns)
include some_pattern manned leafLast fixed complete

/-- A turn in which nothing fails takes one of the turns that are left. -/
theorem Loads.turn {left : Nat} (loads : Loads plan r left) {who : Participant} (run : r.move who = some next)
    (smooth : Smooth r next) : ∃ fewer < left, Loads plan next fewer := by
  cases loads with
  | @beginning c course phase between =>
    obtain rfl := between.idle run
    have begun : next = r.beginCourse c := by
      simp only [move,moveMain,course,phase,Option.some.injEq] at run
      exact run.symm
    subst begun
    by_cases none_due : plan.times = 0
    · have concludes : r.beginCourse c = r.conclude c (.ok (.loaded [])) := by
        simp only [beginCourse,between.planned.goal,if_pos none_due]
      have nothing : (.ended (.ok (.loaded [])) : Phase σ) =
          .ended (.ok (.loaded (List.replicate plan.times plan.puts))) := by rw [none_due]; rfl
      have ended : Between plan plan.times (r.inPhase c (.ended (.ok (.loaded [])))) _ :=
        none_due ▸ between.in_phase _
      exact ⟨0,by omega,concludes ▸ .done rfl nothing ended⟩
    · have begins : r.beginCourse c = r.beginLoad c plan.total := by
        simp only [beginCourse,between.planned.goal,if_neg none_due]
      obtain ⟨x,p,c',load,left⟩ := between.begins (Nat.pos_of_ne_zero none_due) some_pattern leafLast complete
      rw [Nat.sub_zero] at left
      exact ⟨turnsLeft plan 0 x p,by omega,begins ▸ Loads.loading load⟩
  | @loading j x p c load =>
    cases who with
    | main =>
      rw [move,load.moveMain_eq] at run
      split at run
      · rename_i both
        cases run
        exact load.ends some_pattern manned leafLast complete both.1 both.2
      · cases run
    | producer i =>
      obtain ⟨y,q,load,fewer⟩ := load.producer manned leafLast fixed complete run
      exact ⟨_,fewer,.loading load⟩
    | worker d w =>
      obtain ⟨y,load,fewer⟩ := load.worker run smooth
      exact ⟨_,fewer,.loading load⟩
    | watcher i => simp [move,moveWatcher,load.undisturbed.watchers] at run
    | reporter i => simp [move,moveReporter,load.undisturbed.reporters] at run
  | @done c course phase between =>
    obtain rfl := between.idle run
    simp [move,moveMain,course,phase] at run

end

/-- Time changes nothing. -/
theorem Loads.pass {left : Nat} (loads : Loads plan r left) (ms : Nat) : Loads plan (r.pass ms) left := by
  cases loads with
  | beginning course phase between =>
    exact .beginning course phase { between with undisturbed := between.undisturbed.still rfl rfl rfl }
  | loading load => exact .loading { load with undisturbed := load.undisturbed.still rfl rfl rfl }
  | done course phase between =>
    exact .done course phase { between with undisturbed := between.undisturbed.still rfl rfl rfl }

/-- As long as the main task has not ended, somebody can go on after some time. -/
theorem Loads.goes_on {left : Nat} (loads : Loads plan r left) (manned : 0 < plan.clients)
    (unended : r.ending? = none) : ∃ ms who next, (r.pass ms).move who = some next := by
  cases loads with
  | @beginning c course phase between =>
    have later : (r.pass 0).course = some c := course
    refine ⟨0,.main,(r.pass 0).beginCourse c,?_⟩
    simp only [move,moveMain,later,phase]
  | @loading j x p c load =>
    have called (all_gone : p.hasEnded = true) : r.hasSenders j = false := by rw [load.hasSenders,all_gone]; rfl
    have by_worker {w : Nat} {v : Worker} (at_w : x.workers[w]? = some v) (active : v.hasEnded = false)
        (called : x.queue ≠ [] ∨ r.hasSenders j = false) : ∃ ms who next, (r.pass ms).move who = some next := by
      obtain ⟨ms,u,next,run⟩ := load.crew.goes_on load.at_x load.undisturbed.told at_w active called
      exact ⟨ms,.worker j u,next,run⟩
    cases ended : p.hasEnded with
    | false =>
      obtain ⟨v,at_v⟩ := load.some_worker manned
      by_cases room : j ∈ x.blocked → x.admits j = true
      · obtain ⟨ms,next,run⟩ := load.puts.goes_on load.at_p (load.sends ▸ load.at_x) load.undisturbed.told load.silent
          load.unbounded ended room
        exact ⟨ms,.producer j,next,run⟩
      -- the producer waits for room, so something is in the queue, and a worker can take it
      · obtain ⟨enlisted,full⟩ := Classical.not_imp.mp room
        refine by_worker at_v (load.worker_active ended (List.mem_of_getElem? at_v)) (.inl fun empty => full ?_)
        rcases load.blocked with nobody | ⟨line,-⟩
        · rw [nobody] at enlisted
          cases enlisted
        · simp [Dispatcher.admits,empty,line,load.room]
    | true =>
      cases served : x.isServed with
      | false =>
        have later : Load plan j (r.pass 0) x p c := { load with undisturbed := load.undisturbed.still rfl rfl rfl }
        have main := later.moveMain_eq
        rw [if_pos ⟨ended,served⟩] at main
        exact ⟨0,.main,_,main⟩
      | true =>
        obtain ⟨v,member,active⟩ := List.any_eq_true.mp served
        obtain ⟨w,at_w⟩ := List.mem_iff_getElem?.mp member
        exact by_worker at_w (by simpa using active) (.inr (called ended))
  | done course phase between =>
    rw [ending?,course] at unended
    simp [Course.ending?,phase] at unended

/-! ### Whole runs -/

/-- As many turns as were taken are no longer left. -/
theorem Smoothly.loads {first : Run σ} {turns left : Nat} (some_pattern : plan.patterns ≠ [])
    (manned : 0 < plan.clients) (leafLast : ∀ p ∈ plan.patterns, LeafLast p.levels) (fixed : Fixed plan.patterns)
    (complete : Complete σ plan.patterns) (begins : Loads plan first left) (smoothly : Smoothly first turns r) :
    ∃ fewer, Loads plan r fewer ∧ turns + fewer ≤ left := by
  -- on the turns taken; what the loads have come to bounds the turns to come
  induction smoothly with
  | start => exact ⟨left,begins,by omega⟩
  | pass ms _ ih =>
    obtain ⟨fewer,loads,bound⟩ := ih
    exact ⟨fewer,loads.pass ms,bound⟩
  | turn _ run smooth ih =>
    obtain ⟨fewer,loads,bound⟩ := ih
    obtain ⟨fewest,less,after⟩ := loads.turn some_pattern manned leafLast fixed complete run smooth
    exact ⟨fewest,after,by omega⟩

theorem Loads.ends_well {left : Nat} (loads : Loads plan r left) {x : Outcome RunError Finding}
    (ended : r.ending? = some x) :
    x = ExceptT.mk (.ok (.ok (.loaded (List.replicate plan.times plan.puts)))) := by
  cases loads with
  | beginning course phase between => simp [ending?,course,Course.ending?,phase] at ended
  | loading load => simp [ending?,load.course,Course.ending?,load.phase] at ended
  | done course phase between =>
    simp only [ending?,course,Option.bind_some,Course.ending?,phase,Option.some.injEq] at ended
    exact ended.symm

/-- Once a load is done, the store has the keys of the plan, and still has them during all further loads. -/
theorem Loads.stored {left : Nat} (loads : Loads plan r left) (course : r.course = some c) (some_done : c.loaded ≠ [])
    (key : String) : key ∈ r.site.memory.data ↔ key ∈ plan.keys := by
  have stored {j : Nat} {c' : Course σ} (at_c : r.course = some c') (planned : Planned plan j c')
      (stored : Stored plan j r.site.memory) : key ∈ r.site.memory.data ↔ key ∈ plan.keys := by
    obtain rfl := Option.some.inj (course.symm.trans at_c)
    have some_load : 0 < j := by
      refine Nat.pos_of_ne_zero ?_
      rintro rfl
      exact some_done planned.loaded
    exact ⟨stored.within key,stored.whole some_load key⟩
  cases loads with
  | beginning at_c phase between => exact stored at_c between.planned between.stored
  | loading load => exact stored load.course load.planned load.stored
  | done at_c phase between => exact stored at_c between.planned between.stored

end Run

end Keyload
