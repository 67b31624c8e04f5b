import Keyload.Proofs.Run.InsideTree
import Keyload.Proofs.Run.Rosters
import Keyload.Proofs.Run.Unstuck

/-!
A run that is told to end loses queued work only. From then on whoever sends is turned away, workers take no operation,
and each goes on with the one that it has, if any, and ends after a few turns. Whatever was accepted and is never begun
stays in the queue, but for one operation of each worker whose client could not be reconnected.
-/
namespace Keyload

/-- Worker `u` has its turn. -/
def Event.isTurnOf (u : ClientUser) : Event → Bool
  | .turn (.worker d w) => u == ⟨d,w⟩
  | _ => false

namespace Run

variable {σ : Type}

/-- Worker `w` of dispatcher `d`, which has `op` and renews the connection of its client, fails in that and ends: it is
refused, or it cannot be counted how long that took. -/
inductive Severed (r next : Run σ) (d w : Nat) (op : Operation) : Prop where
  | refused {sinceMs untilMs delayMs : Nat} {c : Client} {cause : StoreError}
      (renewing : r.stageOf d w = some (.renewing op sinceMs untilMs ⟨delayMs,some cause⟩))
      (refused : Refused r next d w c cause)
      (ended : next.stageOf d w = some (.ended (some (.reconnect c.index cause))))
  | uncounted {sinceMs untilMs delayMs : Nat} {f : Fault}
      (renewing : r.stageOf d w = some (.renewing op sinceMs untilMs ⟨delayMs,none⟩))
      (uncounted : r.recorder.reconnect ((r.nowMs - sinceMs) * Ticker.milli) = .error f)
      (ended : next.stageOf d w = some (.ended (some .taskFailed)))

/-- Whoever sends to dispatcher `d` ends with its next turn, also when it stands in line for room, and nothing is put
into the queue. -/
def TurnsAway [RandomSource σ] (r : Run σ) (d : Nat) : Prop :=
  ∀ i p op subtree, r.producers[i]? = some p → p.dispatcher = d → p.stage = .sending op subtree →
    ∃ next, r.moveProducer i = some next ∧ next.producers[i]? = some (p.inStage .ended) ∧
      next.dispatchers[d]?.map Dispatcher.queue = r.dispatchers[d]?.map Dispatcher.queue

/-- The lines at the clients are in order, and the main task, if there is one, is one of an engine. -/
structure Tended (r : Run σ) : Prop where
  lined : Lined r
  directed : r.course = none ∨ ∃ e g, Led e g r

section
variable [RandomSource σ]

/-- Among the turns of a run is one in which a worker loses its operation with the connection of its client. -/
def Loses (first : Run σ) (events : List Event) (d w : Nat) (op : Operation) : Prop :=
  ∃ before s next, before ++ [.turn (.worker d w)] <+: events ∧ first.steps before = some s ∧
    s.moveWorker d w = some next ∧ Severed s next d w op

/-- The workers of dispatcher `d` come to their ends: no worker at all has many turns, and as long as one of the
dispatcher is left, somebody can have one after some time. -/
structure Retires (r : Run σ) (d : Nat) : Prop where
  bounded : ∀ more s u, r.steps more = some s → more.countP (Event.isTurnOf u) ≤ 5
  goes_on : ∀ more s x, r.steps more = some s → s.dispatchers[d]? = some x → x.isServed = true →
    ∃ ms d' w next, (s.pass ms).moveWorker d' w = some next
  ends : ∃ more s x, r.steps more = some s ∧ (∀ ev ∈ more, (∃ d' w, ev = .turn (.worker d' w)) ∨ ∃ ms, ev = .pass ms) ∧
    s.dispatchers[d]? = some x ∧ x.isServed = false

end

variable {r next : Run σ} {d w i : Nat} {x y : Dispatcher} {v : Worker} {op : Operation} {stage : WorkerStage}
  {u : ClientUser}

/-! ### Operations that are lost -/

/-- A worker that claims its client does not end with that. -/
private theorem claim_stays {failure : Option RunError} (at_d : r.dispatchers[d]? = some x)
    (at_w : x.workers[w]? = some v) (claims : v.stage = .claiming op) (run : r.moveWorker d w = some next) :
    next.stageOf d w ≠ some (.ended failure) := by
  have placed {s : Run σ} (same : s.dispatchers = r.dispatchers) (stage : WorkerStage) :
      (s.placeWorker d w stage).stageOf d w = some stage := by
    simp [stageOf,placeWorker,onDispatcher,Dispatcher.place,same,at_d,at_w]
  obtain ⟨x',v',at_d',at_w',move⟩ := moveWorker_move run
  cases at_d.symm.trans at_d'
  cases at_w.symm.trans at_w'
  have other {stage : WorkerStage} (is : v.stage = stage) (apart : stage ≠ .claiming op) : False :=
    apart (is.symm.trans claims)
  cases move with
  | use stage at_c uncounted after =>
    subst after
    intro ended
    cases (placed rfl _).symm.trans ended
  | enter stage at_c counted absent after =>
    subst after
    intro ended
    have same := (stageOf_at at_d at_w).symm.trans ended
    rw [claims] at same
    cases same
  | renew stage at_c counted memory after =>
    subst after
    intro ended
    cases (placed rfl _).symm.trans ended
  | spend stage at_c after =>
    subst after
    intro ended
    cases (placed rfl _).symm.trans ended
  | quit is after => exact (other is (by simp)).elim
  | take is told first oldest after => exact (other is (by simp)).elim
  | renewed is at_c memory after => exact (other is (by simp)).elim
  | uncounted is at_c memory after => exact (other is (by simp)).elim
  | refused is due at_c after => exact (other is (by simp)).elim
  | finish is memory after => exact (other is (by simp)).elim
  | fault is memory after => exact (other is (by simp)).elim

/-- A worker that ends with an operation that it has not begun could not reconnect its client. -/
theorem moveWorker_severed {failure : Option RunError} (run : r.moveWorker d w = some next)
    (stands : r.stageOf d w = some stage) (has : stage.pending? = some op)
    (ended : next.stageOf d w = some (.ended failure)) : Severed r next d w op := by
  obtain ⟨x,v,at_d,at_w,-⟩ := moveWorker_move run
  obtain rfl : v.stage = stage := Option.some.inj ((stageOf_at at_d at_w).symm.trans stands)
  cases at_stage : v.stage with
  | claiming op' => exact absurd ended (claim_stays at_d at_w at_stage run)
  | renewing op' sinceMs untilMs a =>
    rw [at_stage] at has stands
    cases has
    have moved := run
    unfold moveWorker at moved
    simp only [at_d,at_w,Option.bind_eq_bind,Option.bind_some,at_stage] at moved
    split at moved
    · rename_i due
      unfold endRenewal at moved
      cases at_c : r.clients[v.client]? with
      | none =>
        simp only [at_c] at moved
        cases moved
      | some c =>
        obtain ⟨delayMs,failed⟩ := a
        simp only [at_c,Client.endRenewal,Site.endConnect] at moved
        cases failed with
        | some cause =>
          cases moved
          refine .refused stands ⟨⟨x,v.client,op,sinceMs,untilMs,delayMs,at_d,?_,due,at_c⟩,rfl,rfl⟩ ?_
          · rw [← at_stage]
            exact at_w
          · simp [stageOf,retire,onDispatcher,Dispatcher.retire,Dispatcher.place,setClient,at_d,at_w]
        | none =>
          cases counted : r.recorder.reconnect ((r.nowMs - sinceMs) * Ticker.milli) with
          | error f =>
            simp only [counted] at moved
            cases moved
            refine .uncounted stands counted ?_
            simp [recorded,stageOf,retire,onDispatcher,Dispatcher.retire,Dispatcher.place,setClient,at_d,at_w]
          | ok recorder =>
            simp only [counted] at moved
            cases moved
            simp [recorded,stageOf,beginOperation,placeWorker,onDispatcher,Dispatcher.place,setClient,at_d,
              at_w] at ended
    · cases moved
  | _ =>
    rw [at_stage] at has
    cases has

section
variable [RandomSource σ]

theorem step_severed {e : Event} (run : r.step e = some next) (member : op ∈ (note d r e next .empty).dropped) :
    ∃ w, e = .turn (.worker d w) ∧ Severed r next d w op := by
  cases e with
  | turn p =>
    cases p with
    | worker d' w =>
      rw [note] at member
      split at member
      · rename_i same
        subst same
        obtain ⟨⟨stage,stands,has⟩,failure,ended⟩ := Ledger.noteStages_dropped member
        exact ⟨w,rfl,moveWorker_severed run stands has ended⟩
      · cases member
    | producer i =>
      rw [note,Ledger.noteProducer_dropped] at member
      cases member
    | _ => cases member
  | _ => cases member

/-- Every operation that was dropped was lost with a connection. -/
theorem roster_loses {first : Run σ} {events : List Event} (run : first.steps events = some r) {p : Nat × Operation}
    (member : p ∈ (first.roster d events).dropped) : first.Loses events d p.1 p.2 := by
  refine steps_induction (fun events _ => ∀ p ∈ (first.roster d events).dropped, first.Loses events d p.1 p.2)
    (fun p member => (nomatch member)) ?_ run p member
  intro events s e next before ih step p member
  rw [roster_concat before step] at member
  rcases List.mem_append.mp member with old | new
  · obtain ⟨earlier,s',next',shorter,rest⟩ := ih p old
    exact ⟨earlier,s',next',shorter.trans (List.prefix_append ..),rest⟩
  · obtain ⟨op,dropped,rfl⟩ := List.mem_map.mp new
    obtain ⟨w,rfl,severed⟩ := step_severed step dropped
    exact ⟨events,s,next,List.prefix_rfl,before,step,severed⟩

/-! ### Producers that are turned away -/

theorem turnsAway_of_told (told : r.stopped = true) (at_d : r.dispatchers[d]? = some x) : r.TurnsAway d := by
  rintro i p op subtree at_i rfl stage
  have moved : r.moveProducer i = some (r.placeProducer i (p.inStage .ended)) := by
    simp [moveProducer,at_i,at_d,stage,send,told]
  refine ⟨_,moved,?_,?_⟩
  · rw [placeProducer_producers]
    exact List.getElem?_set_self (List.getElem?_eq_some_iff.mp at_i).1
  · obtain ⟨y,at_y,queue,-⟩ := (placeProducer_quiet r i (p.inStage .ended)).dispatcher x at_d
    rw [at_y,at_d,Option.map_some,Option.map_some,queue]

end

/-! ### Workers that end -/

/-- The turns that a worker has left in a run that is told to end. One that is still to come has as many as any. -/
def credit (r : Run σ) (u : ClientUser) : Nat := (r.workerAt u).elim 5 fun m => m.2.left r.clients u

theorem credit_le (r : Run σ) (u : ClientUser) : r.credit u ≤ 5 := by
  unfold credit
  cases r.workerAt u with
  | none => exact Nat.le_refl 5
  | some m =>
    show m.2.left r.clients u ≤ 5
    unfold Worker.left
    split
    · split_ifs <;> omega
    · exact (ahead_le _).trans (by omega)

theorem moveWorker_credit (told : r.stopped = true) (run : r.moveWorker d w = some next) (u : ClientUser) :
    next.credit u + (if u = ⟨d,w⟩ then 1 else 0) ≤ r.credit u := by
  obtain ⟨fewer,others⟩ := moveWorker_left told run
  obtain ⟨x,v,at_d,at_w,move⟩ := moveWorker_move run
  obtain ⟨z,after,serves⟩ := move.serves at_d at_w
  have since := serves.workerAt at_d at_w u
  split_ifs at since ⊢ with own
  · subst own
    rw [workerLeft,workerLeft,since,workerAt_at at_d at_w] at fewer
    rw [credit,credit,since,workerAt_at at_d at_w]
    exact fewer
  · have same := others u own
    rw [workerLeft,workerLeft,since] at same
    rw [credit,credit,since]
    cases at_u : r.workerAt u with
    | none => exact Nat.le_refl 5
    | some m =>
      rw [at_u] at same
      exact Nat.le_of_eq same

/-- A run of one dispatcher and one producer begins with the lines in order. -/
theorem tended_ofProducer (site : Site) (n connection : Nat) (name : String) (options : DispatchOptions)
    (p : Producer σ) : Tended (ofProducer site n connection name options p) := by
  have lines (c : Client) (member : c ∈ (ofProducer site n connection name options p).clients) : c.line = [] := by
    obtain ⟨i,-,rfl⟩ := List.mem_map.mp member
    rfl
  refine ⟨⟨fun u o v at_u => ?_,fun c member => ?_,fun i u stands => ?_⟩,.inl rfl⟩
  · obtain ⟨x,at_d,at_w⟩ := Option.bind_eq_some_iff.mp at_u
    obtain ⟨v',at_w,same⟩ := Option.map_eq_some_iff.mp at_w
    cases same
    cases List.mem_singleton.mp (List.mem_of_getElem? at_d)
    obtain ⟨c,member,rfl⟩ := List.mem_map.mp (List.mem_of_getElem? at_w)
    simpa [ofProducer,assign,employ,Run.start] using member
  · rw [lines c member]
    exact List.nodup_nil
  · obtain ⟨c,at_c,among⟩ := queues_iff.mp stands
    rw [lines c (List.mem_of_getElem? at_c)] at among
    cases among

/-- So does a whole run of an engine, if nobody stands in line at its clients. -/
theorem tended_ofCourse (e : Engine) (g : Goal) (options : DispatchOptions) (site : Site) {pool : Pool} (nowMs : Nat)
    (streams : Nat → σ) (free : ∀ c ∈ pool.clients, c.line = []) :
    Tended (ofCourse site pool nowMs (Course.start e g options pool.size nowMs streams)) :=
  ⟨(orderly_start e g options site nowMs streams free).lined,.inr ⟨e,g,led_start e g options site pool nowMs streams⟩⟩

/-- As long as a worker of the dispatcher is left, somebody can have a turn. -/
theorem Tended.goes_on (tended : Tended r) (told : r.stopped = true) (at_d : r.dispatchers[d]? = some x)
    (served : x.isServed = true) : ∃ ms d' w next, (r.pass ms).moveWorker d' w = some next := by
  obtain ⟨v,member,active⟩ := List.any_eq_true.mp served
  obtain ⟨w,at_w⟩ := List.mem_iff_getElem?.mp member
  exact tended.lined.goes_on told (workerAt_at at_d at_w) (by simpa using active)

section
variable [RandomSource σ]

/-- The turn of a main task is made of deeds. -/
theorem Tended.deeds (tended : Tended r) (run : r.moveMain = some next) : ∃ ks, Deeds ks r next := by
  rcases tended.directed with nobody | ⟨e,g,c,course,equipped⟩
  · rw [moveMain,nobody] at run
    cases run
  · exact ⟨_,(moveMain_deeds course equipped run).1⟩

theorem Tended.step {ev : Event} (tended : Tended r) (run : r.step ev = some next) : Tended next := by
  constructor
  case lined =>
    by_cases main : ev = .turn .main
    · subst main
      obtain ⟨ks,deeds⟩ := tended.deeds run
      exact tended.lined.deeds deeds
    · exact tended.lined.beside run main
  case directed => exact tended.directed.imp (step_undirected · run) fun ⟨e,g,led⟩ => ⟨e,g,led.step run⟩

theorem Tended.steps {events : List Event} (tended : Tended r) (run : r.steps events = some next) : Tended next :=
  steps_induction (fun _ s => Tended s) tended (fun _ before step => before.step step) run

/-- A worker that has a turn has one less to come, and nobody gets more. -/
theorem step_credit {ev : Event} (tended : Tended r) (told : r.stopped = true) (run : r.step ev = some next)
    (u : ClientUser) : next.credit u + (if ev.isTurnOf u then 1 else 0) ≤ r.credit u := by
  by_cases worker : ∃ d w, ev = .turn (.worker d w)
  · obtain ⟨d,w,rfl⟩ := worker
    simpa [Event.isTurnOf] using moveWorker_credit told run u
  have idle : ev.isTurnOf u = false := by
    unfold Event.isTurnOf
    split
    · exact absurd ⟨_,_,rfl⟩ worker
    · rfl
  rw [idle]
  show next.credit u ≤ r.credit u
  by_cases main : ev = .turn .main
  · subst main
    obtain ⟨ks,deeds⟩ := tended.deeds run
    cases at_u : r.workerAt u with
    | none =>
      refine (credit_le next u).trans (Nat.le_of_eq ?_)
      rw [credit,at_u]
      rfl
    | some m => rw [credit,credit,at_u,deeds.workerAt at_u,deeds.same_clients]
  · obtain ⟨staff,clients⟩ := step_staff run main fun d w same => worker ⟨d,w,same⟩
    rw [credit,credit,workerAt_of_staff staff,clients]

theorem steps_told {events : List Event} (told : r.stopped = true) (run : r.steps events = some next) :
    next.stopped = true :=
  steps_induction (fun _ s => s.stopped = true) told (fun _ before step => step_stopped step before) run

/-- By turns of workers and time alone the workers of the dispatcher come to their ends. -/
theorem Tended.comes_to_end (tended : Tended r) (told : r.stopped = true) (at_d : r.dispatchers[d]? = some x) :
    ∃ more s y, r.steps more = some s ∧ (∀ ev ∈ more, (∃ d' w, ev = .turn (.worker d' w)) ∨ ∃ ms, ev = .pass ms) ∧
      s.dispatchers[d]? = some y ∧ y.isServed = false := by
  have goes_on (s : Run σ) (here : Tended s ∧ s.stopped = true ∧ ∃ y, s.dispatchers[d]? = some y)
      (left : ¬∃ y, s.dispatchers[d]? = some y ∧ y.isServed = false) :
      ∃ ms p t, (∃ d' w, p = .worker d' w) ∧ (s.pass ms).move p = some t ∧ t.allLeft < s.allLeft := by
    obtain ⟨tended,told,y,at_y⟩ := here
    have served : y.isServed = true := Bool.not_eq_false _ ▸ fun unserved => left ⟨y,at_y,unserved⟩
    obtain ⟨ms,d',w,t,turn⟩ := tended.goes_on told at_y served
    exact ⟨ms,.worker d' w,t,⟨d',w,rfl⟩,turn,(moveWorker_spends (r := s.pass ms) told turn).lt⟩
  have kept (s : Run σ) (ms : Nat) (p : Participant) (t : Run σ)
      (here : Tended s ∧ s.stopped = true ∧ ∃ y, s.dispatchers[d]? = some y)
      (run : s.steps [.pass ms,.turn p] = some t) : Tended t ∧ t.stopped = true ∧ ∃ y, t.dispatchers[d]? = some y := by
    obtain ⟨tended,told,y,at_y⟩ := here
    obtain ⟨z,-,at_z,-⟩ := roster_agrees at_y run
    exact ⟨tended.steps run,steps_told told run,z,at_z⟩
  obtain ⟨more,s,run,plain,y,at_y,unserved⟩ := comes_to goes_on kept ⟨tended,told,x,at_d⟩
  refine ⟨more,s,y,run,fun ev member => ?_,at_y,unserved⟩
  rcases plain ev member with ⟨p,⟨d',w,rfl⟩,rfl⟩ | passes
  · exact .inl ⟨d',w,rfl⟩
  · exact .inr passes

theorem Tended.retires (tended : Tended r) (told : r.stopped = true) (at_d : r.dispatchers[d]? = some x) :
    r.Retires d := by
  refine ⟨fun more s u run => ?_,fun more s y run at_y served => ?_,tended.comes_to_end told at_d⟩
  · have spent : s.credit u + more.countP (Event.isTurnOf u) ≤ 5 := by
      refine (steps_induction (fun more s => Tended s ∧ s.stopped = true ∧
        s.credit u + more.countP (Event.isTurnOf u) ≤ 5) ⟨tended,told,credit_le r u⟩ ?_ run).2.2
      rintro more s ev next - ⟨tended,told,spent⟩ step
      have fewer := step_credit tended told step u
      refine ⟨tended.step step,step_stopped step told,?_⟩
      rw [List.countP_append,List.countP_singleton]
      omega
    omega
  · exact (tended.steps run).goes_on (steps_told told run) at_y served

end

end Run

/-! ### What is lost -/

namespace Roster

/-- From `x` to `y` a dispatcher accepts nothing and hands nothing out. A worker goes on with what it had, one operation
at most, and has finished it, has it still or has dropped it. -/
structure Closes (b : Roster) (x y : Dispatcher) (begun : List Operation) : Prop where
  accepted : b.accepted = []
  taken : b.taken = []
  queue : y.queue = x.queue
  hands : x.hands.Perm (b.finished ++ y.hands ++ b.dropped)
  single : (x.hands.map Prod.fst).Nodup
  /-- What is begun was already with a worker. -/
  pending : x.pending.Perm (begun ++ y.pending ++ b.dropped.map Prod.snd)

variable {b : Roster} {first x y : Dispatcher} {begun : List Operation}

theorem Agrees.inHand (agrees : Agrees first b x begun) : (first.inHand ++ b.taken.map Prod.snd).Perm
    (b.finished.map Prod.snd ++ x.inHand ++ b.dropped.map Prod.snd) := by
  have hands := agrees.hands.map Prod.snd
  simpa only [List.map_append,Dispatcher.hands_map] using hands

theorem Agrees.closes (agrees : Agrees x b y begun) (accepted : b.accepted = []) (taken : b.taken = []) :
    b.Closes x y begun := by
  refine ⟨accepted,taken,?_,?_,x.hands_nodup,?_⟩
  · have queue := agrees.queue
    rw [accepted,taken,List.append_nil] at queue
    exact queue.symm
  · have hands := agrees.hands
    rwa [taken,List.append_nil] at hands
  · refine List.perm_iff_count.mpr fun op => ?_
    have hands := List.perm_iff_count.mp agrees.inHand op
    have carried := List.perm_iff_count.mp agrees.carried op
    have had := List.perm_iff_count.mp x.inHand_perm op
    have has := List.perm_iff_count.mp y.inHand_perm op
    simp only [taken,List.map_nil,List.append_nil,List.count_append] at *
    omega

/-- Where everything is that was accepted by a dispatcher that had nothing at first. -/
theorem Agrees.places (agrees : Agrees first b x begun) (queue : first.queue = []) (hands : first.inHand = []) :
    b.accepted.Perm (begun ++ x.pending ++ b.dropped.map Prod.snd ++ x.queue) := by
  refine List.perm_iff_count.mpr fun op => ?_
  have order := congrArg (List.count op) agrees.queue
  have taken := List.perm_iff_count.mp agrees.inHand op
  have carried := List.perm_iff_count.mp agrees.carried op
  have had := List.perm_iff_count.mp first.inHand_perm op
  have has := List.perm_iff_count.mp x.inHand_perm op
  simp only [queue,hands,List.nil_append,List.count_append,List.count_nil] at *
  omega

end Roster

theorem Dispatcher.start_inHand (name : String) (options : DispatchOptions) (clients : List Nat) :
    (start name options clients).inHand = [] := by
  have hands := (Ledger.Balanced.start name options clients).hands
  simpa [Ledger.empty] using hands

theorem Dispatcher.pending_of_unserved {x : Dispatcher} (unserved : x.isServed = false) : x.pending = [] := by
  refine List.filterMap_eq_nil_iff.mpr fun v member => ?_
  have ended := List.any_eq_false.mp unserved v member
  obtain ⟨failure,stage⟩ := Worker.hasEnded_iff.mp (by simpa using ended)
  rw [stage]
  rfl

namespace Run

variable {σ : Type} [RandomSource σ]

/-- What comes of dispatcher `d`, which started in `start`, as the run is told to end in `r` at the latest and gets to
`t`: the dispatcher was `x` and is `y`, and of its operations these were begun late and altogether. -/
structure Cancelled (start r t : Run σ) (events more : List Event) (d : Nat) (x y : Dispatcher)
    (late begun : List Operation) : Prop where
  before : r.dispatchers[d]? = some x
  after : t.dispatchers[d]? = some y
  turnsAway : t.TurnsAway d
  since : t.site.begunBy d = r.site.begunBy d ++ late
  closes : (r.roster d more).Closes x y late
  retires : t.Retires d
  whole : t.site.begunBy d = start.site.begunBy d ++ begun
  /-- What was accepted was begun or soon will be, or it was lost with a connection or is left in the queue. -/
  places : (start.roster d (events ++ more)).accepted.Perm
    (begun ++ y.pending ++ (start.roster d (events ++ more)).dropped.map Prod.snd ++ y.queue)
  idle : y.isServed = false → y.pending = []
  /-- A worker loses one operation at most. -/
  single : ((start.roster d (events ++ more)).dropped.map Prod.fst).Nodup
  loses : ∀ p ∈ (start.roster d (events ++ more)).dropped, start.Loses (events ++ more) d p.1 p.2

variable {start r t : Run σ} {events more : List Event} {d : Nat} {name : String} {options : DispatchOptions}
  {clients : List Nat}

/-- A store at which nobody can connect again. -/
def forbidding : Behavior := { Behavior.prompt with connection := fun _ => ⟨0,some .closed⟩ }

/-- A producer of six puts and a dispatcher of two workers that renew their connections after every use. -/
def crowd : Run Xoshiro :=
  ofProducer (Site.fresh forbidding Memory.empty) 2 0 "crowd" ⟨none,1,true⟩ (.start 0
    (.given [.put "a" "1",.put "b" "2",.put "c" "3",.put "d" "4",.put "e" "5",.put "f" "6"])
    (Xoshiro.ofStream 0 0) none)

/-- An operation is chosen and sent. -/
def handIn : List Event := [.turn (.producer 0),.turn (.producer 0)]

/-- One worker renews its connection and the other carries out an operation, and the producer stands in line for room,
as the run is told to end. -/
def crowding : List Event :=
  handIn ++ [.turn (.worker 0 0),.turn (.worker 0 0),.turn (.worker 0 0)] ++ handIn ++
    [.turn (.worker 0 1),.turn (.worker 0 1)] ++ handIn ++ [.turn (.worker 0 0),.turn (.worker 0 0)] ++ handIn ++
    handIn ++ handIn ++ [.outside .cancel]

/-- The producer is turned away; one worker is refused a connection, the other finishes its operation and quits. -/
def leaving : List Event :=
  [.turn (.producer 0),.turn (.worker 0 0),.turn (.worker 0 1),.turn (.worker 0 1)]

/-- A dispatcher of a run that is told to end loses what is left in its queue, and what workers have whose clients
cannot be reconnected: with any number of workers and producers, through every order of steps, whenever the run is
told. -/
theorem cancel_loses_queued (employed : start.dispatchers[d]? = some (Dispatcher.start name options clients))
    (tended : Tended start) (run : start.steps events = some r) (told : r.stopped = true)
    (later : r.steps more = some t) : ∃ x y late begun, Cancelled start r t events more d x y late begun := by
  have whole : start.steps (events ++ more) = some t := by
    rw [steps_append,run]
    exact later
  obtain ⟨x,-,at_x,-,-⟩ := roster_agrees employed run
  obtain ⟨y,late,at_y,since,agrees⟩ := roster_agrees at_x later
  obtain ⟨y',begun,at_y',all,agrees'⟩ := roster_agrees employed whole
  cases at_y.symm.trans at_y'
  obtain ⟨accepted,taken⟩ := roster_told at_x told later
  have told' := steps_told told later
  exact ⟨x,y,late,begun,at_x,at_y,turnsAway_of_told told' at_y,since,agrees.closes accepted taken,
    (tended.steps whole).retires told' at_y,all,agrees'.places rfl (Dispatcher.start_inHand ..),
    Dispatcher.pending_of_unserved,agrees'.once,fun p member => roster_loses whole member⟩

/-- Of six puts two are carried out, one is lost with the connection of its client, two are left in the queue, and the
last one is turned away. -/
theorem crowd_cancelled : ∃ r t, Tended crowd ∧
    crowd.dispatchers[0]? = some (Dispatcher.start "crowd" ⟨none,1,true⟩ [0,1]) ∧ crowd.steps crowding = some r ∧
    r.stopped = true ∧ r.steps leaving = some t ∧
    (crowd.roster 0 (crowding ++ leaving)).dropped = [(0,.put "c" "3")] ∧
    t.dispatchers[0]?.map (fun y => (y.isServed,y.queue)) = some (false,[.put "d" "4",.put "e" "5"]) ∧
    ∃ x y late begun, Cancelled crowd r t crowding leaving 0 x y late begun := by
  have ran : (crowd.steps crowding).any (fun r => r.stopped && (r.steps leaving).any fun t =>
      (crowd.roster 0 (crowding ++ leaving)).dropped == [(0,.put "c" "3")] &&
        t.dispatchers[0]?.map (fun y => (y.isServed,y.queue)) == some (false,[.put "d" "4",.put "e" "5"])) = true := by
    decide +kernel
  obtain ⟨r,run,ran⟩ := (Option.any_eq_true _ _).mp ran
  obtain ⟨told,ran⟩ := Bool.and_eq_true_iff.mp ran
  obtain ⟨t,later,ran⟩ := (Option.any_eq_true _ _).mp ran
  obtain ⟨dropped,left⟩ := Bool.and_eq_true_iff.mp ran
  have employed : crowd.dispatchers[0]? = some (Dispatcher.start "crowd" ⟨none,1,true⟩ [0,1]) := rfl
  have tended : Tended crowd := tended_ofProducer ..
  exact ⟨r,t,tended,employed,run,told,later,beq_iff_eq.mp dropped,beq_iff_eq.mp left,
    cancel_loses_queued employed tended run told later⟩

end Run

end Keyload
