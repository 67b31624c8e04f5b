import Keyload.Proofs.Run.Tallied

/-!
The moves of workers, each with the state that it leads to. Two things are read off them: how a worker's stage and its
place in the line of its client go together, and how a worker fails. A worker fails by its own move alone, with a fault
while something was counted or because the connection of its client was refused when it was to be renewed; the second
stops the run at once.
-/
namespace Keyload.Run

variable {σ : Type} {r next : Run σ} {d w : Nat} {x : Dispatcher} {v : Worker} {e : RunError}

/-- What worker `w` of dispatcher `d` can do when it has its turn, the dispatcher being `x` and the worker `v`. -/
inductive WorkerMove (r next : Run σ) (d w : Nat) (x : Dispatcher) (v : Worker) : Prop where
  | quit (stage : v.stage = .waiting) (after : next = r.retire d w none)
  | take {op : Operation} {queue : List Operation} (stage : v.stage = .waiting) (told : r.stopped = false)
      (first : x.turns.head? = some w) (oldest : x.queue = op :: queue)
      (after : next = r.onDispatcher d fun _ => { x with queue, turns := x.turns.tail }.place w (.claiming op))
  | use {op : Operation} {c : Client} (stage : v.stage = .claiming op) (at_c : r.clients[v.client]? = some c)
      (uncounted : x.options.reconnectEvery = 0) (after : next = r.beginOperation d w c op)
  | enter {op : Operation} {c : Client} (stage : v.stage = .claiming op) (at_c : r.clients[v.client]? = some c)
      (counted : x.options.reconnectEvery ≠ 0) (absent : ⟨d,w⟩ ∉ c.line)
      (after : next = r.setClient v.client (c.enter ⟨d,w⟩))
  | renew {op : Operation} {c : Client} {untilMs : Nat} {a : Reaction} {site : Site} (stage : v.stage = .claiming op)
      (at_c : r.clients[v.client]? = some c) (counted : x.options.reconnectEvery ≠ 0)
      (memory : site.memory = r.site.memory)
      (after : next = ({ r with site }.setClient v.client (c.enter ⟨d,w⟩)).placeWorker d w
        (.renewing op r.nowMs untilMs a))
  | spend {op : Operation} {c : Client} (stage : v.stage = .claiming op) (at_c : r.clients[v.client]? = some c)
      (after : next = (r.setClient v.client (c.spend.leave ⟨d,w⟩)).beginOperation d w (c.spend.leave ⟨d,w⟩) op)
  | renewed {op : Operation} {sinceMs untilMs : Nat} {a : Reaction} {c : Client} {site : Site} {recorder : Recorder}
      (stage : v.stage = .renewing op sinceMs untilMs a) (at_c : r.clients[v.client]? = some c)
      (memory : site.memory = r.site.memory)
      (after : next = ({ ({ r with site }.setClient v.client ((c.renew r.site.issued).spend.leave ⟨d,w⟩)) with
        recorder }).beginOperation d w ((c.renew r.site.issued).spend.leave ⟨d,w⟩) op)
  | uncounted {op : Operation} {sinceMs untilMs : Nat} {a : Reaction} {c : Client} {site : Site}
      (stage : v.stage = .renewing op sinceMs untilMs a) (at_c : r.clients[v.client]? = some c)
      (memory : site.memory = r.site.memory)
      (after : next = ({ r with site }.setClient v.client ((c.renew r.site.issued).spend.leave ⟨d,w⟩)).retire d w
        (some .taskFailed))
  | refused {op : Operation} {sinceMs untilMs delayMs : Nat} {c : Client} {cause : StoreError}
      (stage : v.stage = .renewing op sinceMs untilMs ⟨delayMs,some cause⟩) (due : untilMs ≤ r.nowMs)
      (at_c : r.clients[v.client]? = some c)
      (after : next = ({ r with
        site := { r.site with history := r.site.history.push (.refused c.endpoint) }
        stopped := true }.setClient v.client (c.leave ⟨d,w⟩)).retire d w (some (.reconnect c.index cause)))
  | finish {op : Operation} {sinceMs untilMs : Nat} {a : Reaction} {site : Site} {recorder : Recorder}
      (stage : v.stage = .executing op sinceMs untilMs a)
      (memory : site.memory = r.site.memory ∨ site.memory = (r.site.memory.execute op).2)
      (after : next = { r with site, recorder }.rejoin d w)
  | fault {op : Operation} {sinceMs untilMs : Nat} {a : Reaction} {site : Site}
      (stage : v.stage = .executing op sinceMs untilMs a)
      (memory : site.memory = r.site.memory ∨ site.memory = (r.site.memory.execute op).2)
      (after : next = { r with site }.retire d w (some .taskFailed))

private theorem claim_move {op : Operation} (stage : v.stage = .claiming op)
    (run : r.claim d w v.client x.options.reconnectEvery op = some next) : WorkerMove r next d w x v := by
  unfold claim at run
  cases at_c : r.clients[v.client]? with
  | none =>
    simp only [at_c] at run
    cases run
  | some c =>
    simp only [at_c] at run
    split at run
    · rename_i uncounted
      cases run
      exact .use stage at_c uncounted rfl
    · rename_i counted
      split at run
      · split at run
        · cases run
        · rename_i absent
          cases run
          exact .enter stage at_c counted (by simpa using absent) rfl
      · split at run
        · cases run
          refine .renew stage at_c counted ?_ rfl
          rfl
        · cases run
          exact .spend stage at_c rfl

private theorem endRenewal_move {op : Operation} {sinceMs untilMs : Nat} {a : Reaction}
    (stage : v.stage = .renewing op sinceMs untilMs a) (due : untilMs ≤ r.nowMs)
    (run : r.endRenewal d w v.client op sinceMs a = some next) : WorkerMove r next d w x v := by
  unfold endRenewal at run
  cases at_c : r.clients[v.client]? with
  | none =>
    simp only [at_c] at run
    cases run
  | some c =>
    obtain ⟨delayMs,failure⟩ := a
    simp only [at_c,Client.endRenewal,Site.endConnect] at run
    cases failure with
    | none =>
      cases counted : r.recorder.reconnect ((r.nowMs - sinceMs) * Ticker.milli) with
      | error f =>
        simp only [counted] at run
        cases run
        refine .uncounted stage at_c ?_ rfl
        rfl
      | ok recorder =>
        simp only [counted] at run
        cases run
        refine .renewed stage at_c ?_ rfl
        rfl
    | some cause =>
      cases run
      exact .refused stage due at_c rfl

private theorem endOperation_move {op : Operation} {sinceMs untilMs : Nat} {a : Reaction}
    (stage : v.stage = .executing op sinceMs untilMs a) {s : Site}
    (memory : s.memory = r.site.memory ∨ s.memory = (r.site.memory.execute op).2) (fullRead : Bool)
    (result : Except StoreError Answer) :
    WorkerMove r ({ r with site := s }.endOperation d w fullRead op sinceMs result) d w x v := by
  unfold endOperation
  cases result with
  | error e => exact .finish stage memory rfl
  | ok answer =>
    cases counted : r.recorder.answer answer ((r.nowMs - sinceMs) * Ticker.milli) fullRead with
    | error f =>
      simp only [counted]
      exact .fault stage memory rfl
    | ok recorder =>
      simp only [counted]
      exact .finish stage memory rfl

/-- The turn of a worker is one of its moves. -/
theorem moveWorker_move (run : r.moveWorker d w = some next) :
    ∃ x v, r.dispatchers[d]? = some x ∧ x.workers[w]? = some v ∧ WorkerMove r next d w x v := by
  obtain ⟨x,at_d,run⟩ := Option.bind_eq_some_iff.mp run
  obtain ⟨v,at_w,run⟩ := Option.bind_eq_some_iff.mp run
  refine ⟨x,v,at_d,at_w,?_⟩
  cases stage : v.stage with
  | waiting =>
    simp only [stage] at run
    split at run
    · cases run
      exact .quit stage rfl
    · rename_i told
      split at run
      · rename_i y taken
        cases run
        unfold Dispatcher.take at taken
        split at taken
        · rename_i first
          split at taken
          · rename_i op queue oldest
            cases taken
            exact .take stage (by simpa using told) first oldest rfl
          · cases taken
        · cases taken
      · split at run
        · cases run
          exact .quit stage rfl
        · cases run
  | claiming op =>
    simp only [stage] at run
    exact claim_move stage run
  | renewing op sinceMs untilMs a =>
    simp only [stage] at run
    split at run
    · rename_i due
      exact endRenewal_move stage due run
    · cases run
  | executing op sinceMs untilMs a =>
    simp only [stage] at run
    split at run
    · cases run
      refine endOperation_move stage ?_ _ _
      unfold Site.endOperation
      split
      · exact .inl rfl
      · exact .inr rfl
    · split at run
      · cases run
      · split at run
        · cases run
          exact endOperation_move (s := r.site) stage (.inl rfl) _ _
        · cases run
  | ended failure =>
    simp only [stage] at run
    cases run

/-- A worker reaches the contents of the store by the operation that it carries out, if at all. -/
theorem WorkerMove.memory (move : WorkerMove r next d w x v) : next.site.memory = r.site.memory ∨
    ∃ op, v.stage.running? = some op ∧ next.site.memory = (r.site.memory.execute op).2 := by
  cases move with
  | @finish op sinceMs untilMs a site recorder stage memory after =>
    subst after
    exact memory.imp id fun executed => ⟨op,by rw [stage]; rfl,executed⟩
  | @fault op sinceMs untilMs a site stage memory after =>
    subst after
    exact memory.imp id fun executed => ⟨op,by rw [stage]; rfl,executed⟩
  | renew stage at_c counted memory after =>
    subst after
    exact .inl memory
  | renewed stage at_c memory after =>
    subst after
    exact .inl memory
  | uncounted stage at_c memory after =>
    subst after
    exact .inl memory
  | quit stage after =>
    subst after
    exact .inl rfl
  | take stage told first oldest after =>
    subst after
    exact .inl rfl
  | use stage at_c uncounted after =>
    subst after
    exact .inl rfl
  | enter stage at_c counted absent after =>
    subst after
    exact .inl rfl
  | spend stage at_c after =>
    subst after
    exact .inl rfl
  | refused stage due at_c after =>
    subst after
    exact .inl rfl

/-- A worker that has an operation goes on after some time, if it does not stand behind others in line at its client. -/
theorem moveWorker_carries_on {op : Operation} {c : Client} (at_d : r.dispatchers[d]? = some x)
    (at_w : x.workers[w]? = some v) (has : v.stage.operation? = some op) (at_c : r.clients[v.client]? = some c)
    (free : ∀ op, v.stage = .claiming op → x.options.reconnectEvery = 0 ∨ ⟨d,w⟩ ∉ c.line ∨
      c.line.head? = some ⟨d,w⟩) :
    ∃ ms next, (r.pass ms).moveWorker d w = some next := by
  have later (ms : Nat) : (r.pass ms).dispatchers[d]? = some x := at_d
  cases stage : v.stage with
  | waiting =>
    rw [stage] at has
    cases has
  | ended f =>
    rw [stage] at has
    cases has
  | claiming op' =>
    refine ⟨0,Option.isSome_iff_exists.mp ?_⟩
    have client : (r.pass 0).clients[v.client]? = some c := at_c
    have free := free op' stage
    unfold moveWorker
    simp only [later,Option.bind_eq_bind,Option.bind_some,at_w,stage]
    unfold claim
    simp only [client]
    split_ifs with uncounted elsewhere inside
    · rfl
    · rcases free with none_counted | absent | first
      · exact absurd none_counted uncounted
      · exact absurd (by simpa using inside) absent
      · have among : ⟨d,w⟩ ∈ c.line := by simpa using inside
        have held : (c.enter ⟨d,w⟩).isHeldBy ⟨d,w⟩ = true := by simp [Client.enter,Client.isHeldBy,among,first]
        rw [held] at elsewhere
        cases elsewhere
    · rfl
    · rfl
    · rfl
  | renewing op' sinceMs untilMs a =>
    refine ⟨untilMs,Option.isSome_iff_exists.mp ?_⟩
    have due : untilMs ≤ (r.pass untilMs).nowMs := Nat.le_add_left _ _
    have client : (r.pass untilMs).clients[v.client]? = some c := at_c
    unfold moveWorker
    simp only [later,Option.bind_eq_bind,Option.bind_some,at_w,stage,if_pos due]
    unfold endRenewal
    simp only [client]
    split <;> rfl
  | executing op' sinceMs untilMs a =>
    refine ⟨untilMs,Option.isSome_iff_exists.mp ?_⟩
    have due : untilMs ≤ (r.pass untilMs).nowMs := Nat.le_add_left _ _
    unfold moveWorker
    simp only [later,Option.bind_eq_bind,Option.bind_some,at_w,stage,if_pos due]
    rfl

/-! ### How a worker fails -/

/-- Worker `w` of dispatcher `d` was renewing the connection of the client `c`, and is refused. -/
structure Refused (r next : Run σ) (d w : Nat) (c : Client) (cause : StoreError) : Prop where
  renewing : ∃ x i op sinceMs untilMs delayMs, r.dispatchers[d]? = some x ∧
    x.workers[w]? = some ⟨i,.renewing op sinceMs untilMs ⟨delayMs,some cause⟩⟩ ∧ untilMs ≤ r.nowMs ∧
    r.clients[i]? = some c
  history : next.site.history = r.site.history.push (.refused c.endpoint)
  stopped : next.stopped = true

/-- Why a worker fails in its turn. -/
inductive Lapse (r next : Run σ) (d w : Nat) : RunError → Prop where
  | fault : Lapse r next d w .taskFailed
  | refused {c : Client} {cause : StoreError} (refused : Refused r next d w c cause) :
      Lapse r next d w (.reconnect c.index cause)

/-- No worker finds a definition to be bad. -/
theorem Lapse.undefined (lapse : Lapse r next d w e) (bad : DefinitionError) : e ≠ .definition bad := by
  rintro rfl
  cases lapse

/-! ### Stages and lines -/

/-- What becomes of the clients when worker `u`, which is `v`, goes to another stage: it leaves them alone, gets in line
at its own or leaves the line there. -/
inductive LineMove (clients after : List Client) (v : Worker) (u : ClientUser) (every : Nat) (stage : WorkerStage) :
    Prop where
  | apart (same : after = clients) (out : v.stage.pending? = none ∨ every = 0) : LineMove clients after v u every stage
  | joins {c c' : Client} (at_c : clients[v.client]? = some c) (set : after = clients.set v.client c')
      (line : c'.line = (c.enter u).line) (pending : stage.pending? ≠ none) (counted : every ≠ 0) :
      LineMove clients after v u every stage
  | leaves {c c' : Client} (at_c : clients[v.client]? = some c) (set : after = clients.set v.client c')
      (line : c'.line = c.line.erase u) (idle : stage.pending? = none) : LineMove clients after v u every stage

/-- Worker `w` of dispatcher `d`, which is `v`, gets in line at its client. -/
structure Joins (r next : Run σ) (d w : Nat) (v : Worker) : Prop where
  claims : ∃ op, v.stage = .claiming op
  absent : ∃ c, r.clients[v.client]? = some c ∧ ⟨d,w⟩ ∉ c.line
  present : ∃ c, next.clients[v.client]? = some c ∧ ⟨d,w⟩ ∈ c.line

/-- Worker `w` of dispatcher `d`, which is `v`, goes to the stage `after`; but for that, the dispatcher becomes `z`. -/
structure Serves (r next : Run σ) (d w : Nat) (x z : Dispatcher) (v : Worker) (after : WorkerStage) : Prop where
  dispatchers : next.dispatchers = r.dispatchers.set d (z.place w after)
  workers : z.workers = x.workers
  options : z.options = x.options
  line : LineMove r.clients next.clients v ⟨d,w⟩ x.options.reconnectEvery after
  lapse : ∀ e, after = .ended (some e) → Lapse r next d w e
  producers : next.producers = r.producers
  watchers : next.watchers = r.watchers
  reporters : next.reporters = r.reporters
  signals : next.signals = r.signals
  nowMs : next.nowMs = r.nowMs
  nears : r.stopped = true → after.ahead < v.stage.ahead ∨ after = v.stage ∧ Joins r next d w v

/-- A move takes a worker to another stage, or into the line of its client. -/
theorem WorkerMove.serves (at_d : r.dispatchers[d]? = some x) (at_w : x.workers[w]? = some v)
    (move : WorkerMove r next d w x v) : ∃ z after, Serves r next d w x z v after := by
  have idle {stage : WorkerStage} (waits : stage.pending? = none) (same : v.stage = stage) :
      v.stage.pending? = none := same ▸ waits
  have well {stage : WorkerStage} (fine : stage.failure? = none) (e : RunError) (failed : stage = .ended (some e)) :
      Lapse r next d w e := by
    rw [failed] at fine
    cases fine
  have nearer {stage after : WorkerStage} (same : v.stage = stage) (fewer : after.ahead < stage.ahead) :
      r.stopped = true → after.ahead < v.stage.ahead ∨ after = v.stage ∧ Joins r next d w v :=
    fun _ => .inl (same ▸ fewer)
  cases move with
  | quit stage after =>
    subst after
    exact ⟨{ x with turns := x.turns.erase w },.ended none,onDispatcher_at at_d _,rfl,rfl,
      .apart rfl (.inl (idle rfl stage)),well rfl,rfl,rfl,rfl,rfl,rfl,nearer stage (by decide)⟩
  | @take op queue stage told first oldest after =>
    subst after
    refine ⟨{ x with queue, turns := x.turns.tail },.claiming op,onDispatcher_at at_d _,rfl,rfl,
      .apart rfl (.inl (idle rfl stage)),well rfl,rfl,rfl,rfl,rfl,rfl,fun ends => ?_⟩
    rw [told] at ends
    cases ends
  | @use op c stage at_c uncounted after =>
    subst after
    exact ⟨x,_,onDispatcher_at at_d _,rfl,rfl,.apart rfl (.inr uncounted),well rfl,rfl,rfl,
      rfl,rfl,rfl,nearer stage (by simp [WorkerStage.ahead])⟩
  | @enter op c stage at_c counted absent after =>
    subst after
    refine ⟨x,v.stage,?_,rfl,rfl,.joins at_c rfl rfl (by rw [stage]; simp [WorkerStage.pending?]) counted,
      fun e failed => ?_,rfl,rfl,rfl,rfl,rfl,fun _ => .inr ⟨rfl,⟨op,stage⟩,⟨c,at_c,absent⟩,?_⟩⟩
    · rw [place_same at_w]
      exact (set_same at_d).symm
    · rw [stage] at failed
      cases failed
    · refine ⟨c.enter ⟨d,w⟩,?_,?_⟩
      · exact List.getElem?_set_self (List.getElem?_eq_some_iff.mp at_c).1
      · simp [Client.enter,absent]
  | @renew op c untilMs a site stage at_c counted memory after =>
    subst after
    exact ⟨x,_,onDispatcher_at at_d _,rfl,rfl,.joins at_c rfl rfl (by simp [WorkerStage.pending?]) counted,
      well rfl,rfl,rfl,rfl,rfl,rfl,nearer stage (by simp [WorkerStage.ahead])⟩
  | @spend op c stage at_c after =>
    subst after
    exact ⟨x,_,onDispatcher_at at_d _,rfl,rfl,.leaves at_c rfl rfl rfl,well rfl,rfl,rfl,
      rfl,rfl,rfl,nearer stage (by simp [WorkerStage.ahead])⟩
  | @renewed op sinceMs untilMs a c site recorder stage at_c memory after =>
    subst after
    exact ⟨x,_,onDispatcher_at at_d _,rfl,rfl,.leaves at_c rfl rfl rfl,well rfl,rfl,rfl,
      rfl,rfl,rfl,nearer stage (by simp [WorkerStage.ahead])⟩
  | @uncounted op sinceMs untilMs a c site stage at_c memory after =>
    subst after
    refine ⟨{ x with turns := x.turns.erase w },.ended (some .taskFailed),onDispatcher_at at_d _,rfl,rfl,
      .leaves at_c rfl rfl rfl,fun e failed => ?_,rfl,rfl,rfl,rfl,rfl,
      nearer stage (by simp [WorkerStage.ahead])⟩
    cases failed
    exact .fault
  | @refused op sinceMs untilMs delayMs c cause stage due at_c after =>
    subst after
    refine ⟨{ x with turns := x.turns.erase w },.ended (some (.reconnect c.index cause)),onDispatcher_at at_d _,rfl,rfl,
      .leaves at_c rfl rfl rfl,fun e failed => ?_,rfl,rfl,rfl,rfl,rfl,
      nearer stage (by simp [WorkerStage.ahead])⟩
    cases failed
    exact .refused ⟨⟨x,v.client,op,sinceMs,untilMs,delayMs,at_d,stage ▸ at_w,due,at_c⟩,rfl,rfl⟩
  | @finish op sinceMs untilMs a site recorder stage memory after =>
    subst after
    exact ⟨{ x with turns := x.turns ++ [w] },.waiting,onDispatcher_at at_d _,rfl,rfl,
      .apart rfl (.inl (idle rfl stage)),well rfl,rfl,rfl,rfl,rfl,rfl,nearer stage (by simp [WorkerStage.ahead])⟩
  | @fault op sinceMs untilMs a site stage memory after =>
    subst after
    refine ⟨{ x with turns := x.turns.erase w },.ended (some .taskFailed),onDispatcher_at at_d _,rfl,rfl,
      .apart rfl (.inl (idle rfl stage)),fun e failed => ?_,rfl,rfl,rfl,rfl,rfl,
      nearer stage (by simp [WorkerStage.ahead])⟩
    cases failed
    exact .fault

end Keyload.Run
