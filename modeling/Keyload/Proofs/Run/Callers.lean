import Keyload.Proofs.Run.Cancelled
import Keyload.Proofs.Run.Guarded
import Keyload.Proofs.Store.Budget
import Keyload.Proofs.Store.Layout

/-!
The workers of a run as the callers of its clients. A worker that claims a client acquires it: it gets in line, and once
it has the client to itself it counts a use or replaces the connection first. All that happens beside this leaves the
clients alone. So every run is an interleaving of such calls (`steps_trace`), and what holds of all interleavings holds
in every run.
-/
namespace Keyload

/-- How a worker stands with its client, where it is in line or not. -/
def Worker.callStage (v : Worker) (o : DispatchOptions) (queued : Bool) : CallStage :=
  match v.stage with
  | .claiming _ => if queued then some (.acquire o.reconnectEvery,none) else none
  | .renewing _ _ _ a => some (.acquire o.reconnectEvery,some a)
  | _ => none

namespace Run

variable {σ : Type}

/-- How a user stands with a client of the run. -/
def callStage (r : Run σ) (i : Nat) (u : ClientUser) : CallStage :=
  (r.workerAt u).bind fun m => if m.2.client = i then m.2.callStage m.1 (queues r.clients i u) else none

/-- The clients of a run between their callers. -/
def callers (r : Run σ) : SharedPool := ⟨r.clients,r.site,r.callStage⟩

/-- What the workers of a run ask of its clients. Anything may happen to the site meanwhile, but no number of a
connection is given out twice. -/
def usage (r : Run σ) : Usage where
  asks i q := ∃ u o v, r.workerAt u = some (o,v) ∧ v.client = i ∧ q = .acquire o.reconnectEvery
  meanwhile a b := a.issued ≤ b.issued

/-- What a worker that claims client `i`, which is `c`, can do. -/
inductive Claim (r next : Run σ) (d w i every : Nat) (op : Operation) (c : Client) : Prop where
  | passes (uncounted : every = 0) (after : next = r.beginOperation d w c op)
  | waits (counted : every ≠ 0) (absent : ⟨d,w⟩ ∉ c.line) (after : next = r.setClient i (c.enter ⟨d,w⟩))
  | closes (counted : every ≠ 0) (held : (c.enter ⟨d,w⟩).isHeldBy ⟨d,w⟩ = true) (due : c.isDue every = true)
    (after : next = ({ r with site := (c.beginRenewal r.site).2 }.setClient i (c.enter ⟨d,w⟩)).placeWorker d w
      (.renewing op r.nowMs (r.nowMs + (c.beginRenewal r.site).1.delayMs) (c.beginRenewal r.site).1))
  | takes (counted : every ≠ 0) (held : (c.enter ⟨d,w⟩).isHeldBy ⟨d,w⟩ = true) (young : c.isDue every = false)
    (after : next = (r.setClient i (c.spend.leave ⟨d,w⟩)).beginOperation d w (c.spend.leave ⟨d,w⟩) op)

/-- How a worker ends the renewal of client `i`, which is `c`, when the store answers `a`. -/
inductive Renewal (r next : Run σ) (d w i : Nat) (op : Operation) (a : Reaction) (c : Client) : Prop where
  | renewed {c' : Client} {site : Site} {recorder : Recorder} (answer : c.endRenewal r.site a = (.ok c',site))
    (after : next = { { r with site }.setClient i (c'.spend.leave ⟨d,w⟩) with recorder }.beginOperation d w
      (c'.spend.leave ⟨d,w⟩) op)
  | uncounted {c' : Client} {site : Site} (answer : c.endRenewal r.site a = (.ok c',site))
    (after : next = ({ r with site }.setClient i (c'.spend.leave ⟨d,w⟩)).retire d w (some .taskFailed))
  | refused {e : StoreError} {site : Site} (answer : c.endRenewal r.site a = (.error e,site))
    (after : next = ({ r with site, stopped := true }.setClient i (c.leave ⟨d,w⟩)).retire d w
      (some (.reconnect c.index e)))

variable {r next : Run σ} {d w i every : Nat} {op : Operation} {a : Reaction} {c : Client} {x : Dispatcher} {v : Worker}
  {u : ClientUser}

theorem claim_claims (run : r.claim d w i every op = some next) :
    ∃ c, r.clients[i]? = some c ∧ Claim r next d w i every op c := by
  unfold claim at run
  cases at_i : r.clients[i]? with
  | none =>
    simp only [at_i] at run
    cases run
  | some c =>
    simp only [at_i] at run
    refine ⟨c,rfl,?_⟩
    split_ifs at run with uncounted behind inside due
    · cases run
      exact .passes uncounted rfl
    · cases run
      exact .waits uncounted (by simpa using inside) rfl
    · cases run
      exact .closes uncounted (by simpa using behind) due rfl
    · cases run
      exact .takes uncounted (by simpa using behind) (Bool.eq_false_iff.mpr due) rfl

theorem endRenewal_renewal {sinceMs : Nat} (run : r.endRenewal d w i op sinceMs a = some next) :
    ∃ c, r.clients[i]? = some c ∧ Renewal r next d w i op a c := by
  unfold endRenewal at run
  cases at_i : r.clients[i]? with
  | none =>
    simp only [at_i] at run
    cases run
  | some c =>
    simp only [at_i] at run
    refine ⟨c,rfl,?_⟩
    split at run
    · rename_i c' site answer
      cases counted : r.recorder.reconnect ((r.nowMs - sinceMs) * Ticker.milli) with
      | error f =>
        simp only [counted] at run
        cases run
        exact .uncounted answer rfl
      | ok recorder =>
        simp only [counted] at run
        cases run
        exact .renewed answer rfl
    · rename_i e site answer
      cases run
      exact .refused answer rfl

/-! ### Where workers stand -/

variable {o : DispatchOptions} {w' : Usage} {c' : Client}

theorem callStage_own (at_u : r.workerAt u = some (o,v)) :
    r.callStage v.client u = v.callStage o (queues r.clients v.client u) := by
  simp [callStage,at_u]

theorem callStage_elsewhere (at_u : r.workerAt u = some (o,v)) (other : v.client ≠ i) : r.callStage i u = none := by
  simp [callStage,at_u,other]

/-- A step that leaves the callers of clients where they are. -/
theorem callers_still (clients : next.clients = r.clients) (calls : ∀ i u, next.callStage i u = r.callStage i u) :
    next.callers = { r.callers with site := next.site } := by
  have same : next.callStage = r.callStage := funext fun i => funext fun u => calls i u
  rw [callers,callers,clients,same]

/-- A step of one worker leaves the others where they are. -/
theorem callStage_other {z : Dispatcher} {stage : WorkerStage} (serves : Serves r next d w x z v stage)
    (at_d : r.dispatchers[d]? = some x) (at_w : x.workers[w]? = some v) (other : (i,u) ≠ (v.client,⟨d,w⟩)) :
    next.callStage i u = r.callStage i u := by
  have own' : next.workerAt ⟨d,w⟩ = some (x.options,{ v with stage }) := by
    rw [serves.workerAt at_d at_w,if_pos rfl]
  by_cases same : u = ⟨d,w⟩
  · subst same
    have elsewhere : v.client ≠ i := fun same => other (by rw [same])
    rw [callStage_elsewhere (workerAt_at at_d at_w) elsewhere,
      callStage_elsewhere (v := { v with stage }) own' elsewhere]
  · rw [callStage,callStage,serves.workerAt at_d at_w,if_neg same,serves.line.queues_other same]

theorem callers_put {z : Dispatcher} {stage : WorkerStage} (serves : Serves r next d w x z v stage)
    (at_d : r.dispatchers[d]? = some x) (at_w : x.workers[w]? = some v)
    (clients : next.clients = r.clients.set v.client c') :
    next.callers = r.callers.put v.client ⟨d,w⟩ c' next.site (next.callStage v.client ⟨d,w⟩) := by
  have calls (i : Nat) (u : ClientUser) : next.callStage i u =
      (r.callers.put v.client ⟨d,w⟩ c' next.site (next.callStage v.client ⟨d,w⟩)).calls i u := by
    by_cases here : (i,u) = (v.client,⟨d,w⟩)
    · cases here
      rw [SharedPool.put_calls_self]
    · rw [SharedPool.put_calls_of_ne here]
      exact callStage_other serves at_d at_w here
  have same := funext fun i => funext fun u => calls i u
  show (⟨next.clients,next.site,next.callStage⟩ : SharedPool) = ⟨r.clients.set v.client c',next.site,_⟩
  rw [clients]
  exact congrArg (SharedPool.mk _ _) same

theorem moveWorker_claims (at_d : r.dispatchers[d]? = some x) (at_w : x.workers[w]? = some v)
    (stage : v.stage = .claiming op) (run : r.moveWorker d w = some next) :
    r.claim d w v.client x.options.reconnectEvery op = some next := by
  simpa [moveWorker,at_d,at_w,stage] using run

theorem moveWorker_renews {sinceMs untilMs : Nat} (at_d : r.dispatchers[d]? = some x) (at_w : x.workers[w]? = some v)
    (stage : v.stage = .renewing op sinceMs untilMs a) (run : r.moveWorker d w = some next) :
    r.endRenewal d w v.client op sinceMs a = some next := by
  have run : untilMs ≤ r.nowMs ∧ r.endRenewal d w v.client op sinceMs a = some next := by
    simpa [moveWorker,at_d,at_w,stage] using run
  exact run.2

/-! ### What a claim comes to -/

theorem enter_stays (member : u ∈ c.line) : c.enter u = c := by
  simp [Client.enter,member]

/-- Whoever has the client to itself on getting in line leaves it as one does that was there. -/
theorem leave_enter (held : (c.enter u).isHeldBy u = true) : (c.enter u).spend.leave u = c.spend.leave u := by
  by_cases member : u ∈ c.line
  · rw [enter_stays member]
  · have line : (c.enter u).line = c.line ++ [u] := by simp [Client.enter,member]
    have empty : c.line = [] := by
      have first := eq_of_beq held
      rw [line] at first
      cases at_line : c.line with
      | nil => rfl
      | cons v rest =>
        rw [at_line] at first
        cases first
        exact absurd (at_line ▸ List.mem_cons_self) member
    rw [SharedClient.enter_empty empty]
    simp [Client.spend,Client.leave,empty]

theorem enter_beginRenewal (c : Client) (u : ClientUser) (s : Site) :
    (c.enter u).beginRenewal s = c.beginRenewal s := by
  rw [Client.beginRenewal,Client.beginRenewal,SharedClient.enter_connection]

/-- A worker that claims a client is in line there, or gets in line. -/
theorem trace_enters (at_u : r.workerAt u = some (o,v)) (stage : v.stage = .claiming op)
    (at_c : r.clients[v.client]? = some c) (counted : o.reconnectEvery ≠ 0)
    (asked : w'.asks v.client (.acquire o.reconnectEvery)) :
    SharedPool.Trace w' r.callers []
      (r.callers.put v.client u (c.enter u) r.site (some (.acquire o.reconnectEvery,none))) := by
  have stands := callStage_own at_u
  rw [Worker.callStage,stage] at stands
  by_cases member : u ∈ c.line
  · have queued : queues r.clients v.client u = true := queues_iff.mpr ⟨c,at_c,member⟩
    rw [if_pos queued] at stands
    have same := SharedPool.put_same (s := r.callers) at_c stands
    rw [enter_stays member]
    exact same.symm ▸ .start
  · have out : ¬ queues r.clients v.client u = true := by
      rintro queued
      obtain ⟨c',at_c',member'⟩ := queues_iff.mp queued
      cases at_c.symm.trans at_c'
      exact member member'
    rw [if_neg out] at stands
    have idle : r.callers.calls v.client u = none := stands
    have counted : ClientCall.acquire o.reconnectEvery ≠ .acquire 0 := by simpa using counted
    exact SharedPool.Trace.start.step (.call at_c (idle ▸ ClientMove.asks asked counted))

section
variable {z : Dispatcher} {stage : WorkerStage} {notes : List (Nat × ClientNote)} {site : Site} {stands : CallStage}

/-- The calls of a worker have come to the state after its step, but for what it did at the site. -/
theorem trace_arrives (serves : Serves r next d w x z v stage) (at_d : r.dispatchers[d]? = some x)
    (at_w : x.workers[w]? = some v) (meanwhile : ∀ a b, a.issued ≤ b.issued → w'.meanwhile a b)
    (trace : SharedPool.Trace w' r.callers notes (r.callers.put v.client ⟨d,w⟩ c' site stands))
    (clients : next.clients = r.clients.set v.client c') (issued : site.issued ≤ next.site.issued)
    (after : next.callStage v.client ⟨d,w⟩ = stands) : SharedPool.Trace w' r.callers notes next.callers := by
  rw [callers_put serves at_d at_w clients,after]
  exact trace.goes_aside (meanwhile site next.site issued)

/-- A worker that was placed in a stage. -/
theorem placed_callStage {s : Run σ} (same : s.dispatchers = r.dispatchers) (at_d : r.dispatchers[d]? = some x)
    (at_w : x.workers[w]? = some v) (stage : WorkerStage) : (s.placeWorker d w stage).callStage v.client ⟨d,w⟩ =
      Worker.callStage { v with stage } x.options (queues s.clients v.client ⟨d,w⟩) := by
  have own : (s.placeWorker d w stage).workerAt ⟨d,w⟩ = some (x.options,{ v with stage }) := by
    simp [workerAt,placeWorker,onDispatcher,Dispatcher.place,same,at_d,at_w]
  exact callStage_own own

/-- A worker that carries out its operation is done with its client. -/
theorem begun_callStage {s : Run σ} (same : s.dispatchers = r.dispatchers) (at_d : r.dispatchers[d]? = some x)
    (at_w : x.workers[w]? = some v) (c : Client) (op : Operation) :
    (s.beginOperation d w c op).callStage v.client ⟨d,w⟩ = none :=
  placed_callStage (s := { s with site := (s.site.beginOperation s.nowMs d c.connection op).2 }) same at_d at_w _

/-- What a claim comes to is an interleaving of calls. -/
theorem Claim.trace (claim : Claim r next d w v.client x.options.reconnectEvery op c) (lined : Lined r)
    (at_d : r.dispatchers[d]? = some x) (at_w : x.workers[w]? = some v) (at_c : r.clients[v.client]? = some c)
    (claims : v.stage = .claiming op) (serves : Serves r next d w x z v stage)
    (asked : w'.asks v.client (.acquire x.options.reconnectEvery))
    (meanwhile : ∀ a b, a.issued ≤ b.issued → w'.meanwhile a b) :
    ∃ notes, SharedPool.Trace w' r.callers notes next.callers := by
  have own := workerAt_at at_d at_w
  have inside := (List.getElem?_eq_some_iff.mp at_c).1
  have enters (counted : x.options.reconnectEvery ≠ 0) := trace_enters own claims at_c counted asked
  have same_due : ClientCall.isDue (c.enter ⟨d,w⟩) (.acquire x.options.reconnectEvery) =
      c.isDue x.options.reconnectEvery := by
    rw [ClientCall.isDue,Client.isDue,SharedPool.enter_uses]
    rfl
  cases claim with
  | passes uncounted after =>
    have out : ¬ queues r.clients v.client ⟨d,w⟩ = true := by
      rintro queued
      obtain ⟨o,v',at_u,-,-,counted⟩ := lined.queued _ _ queued
      cases own.symm.trans at_u
      exact counted uncounted
    have idle : r.callers.calls v.client ⟨d,w⟩ = none := by
      show r.callStage _ _ = none
      rw [callStage_own own,Worker.callStage,claims]
      exact if_neg out
    have passes : ClientMove (w'.asks v.client) ⟨d,w⟩ c r.site (r.callers.calls v.client ⟨d,w⟩) (some .passed) c r.site
        none := by
      rw [idle]
      exact .passes (uncounted ▸ asked)
    have begins : SharedPool.Trace w' r.callers [] r.callers := .start
    have passed := begins.step (.call at_c passes)
    have clients : r.clients = r.clients.set v.client c := by
      rw [← (List.getElem?_eq_some_iff.mp at_c).2,List.set_getElem_self]
    subst after
    exact ⟨_,trace_arrives serves at_d at_w meanwhile passed clients (Nat.le_refl _)
      (begun_callStage (by rfl) at_d at_w c op)⟩
  | waits counted absent after =>
    subst after
    refine ⟨_,trace_arrives serves at_d at_w meanwhile (enters counted) rfl (Nat.le_refl _) ?_⟩
    have own' : (r.setClient v.client (c.enter ⟨d,w⟩)).workerAt ⟨d,w⟩ = some (x.options,v) := own
    have queued : queues (r.setClient v.client (c.enter ⟨d,w⟩)).clients v.client ⟨d,w⟩ = true := by
      show queues (r.clients.set v.client (c.enter ⟨d,w⟩)) v.client ⟨d,w⟩ = true
      rw [queues_set inside,if_pos rfl]
      simp [Client.enter,absent]
    rw [callStage_own own',Worker.callStage,claims]
    exact if_pos queued
  | closes counted held due after =>
    subst after
    have closed := (enters counted).goes_on inside
      (.closes held (same_due.trans due) (enter_beginRenewal c ⟨d,w⟩ r.site))
    exact ⟨_,trace_arrives serves at_d at_w meanwhile closed rfl (Nat.le_refl _)
      ((placed_callStage (by rfl) at_d at_w _).trans rfl)⟩
  | takes counted held young after =>
    subst after
    have took := (enters counted).goes_on inside (.takes held (same_due.trans young))
    have left : (ClientCall.spend (c.enter ⟨d,w⟩) (.acquire x.options.reconnectEvery)).leave ⟨d,w⟩ =
        c.spend.leave ⟨d,w⟩ := leave_enter held
    rw [left] at took
    exact ⟨_,trace_arrives serves at_d at_w meanwhile took rfl (Nat.le_refl _)
      (begun_callStage (by rfl) at_d at_w _ op)⟩

/-- A worker that has ended is done with its client. -/
theorem retired_callStage {s : Run σ} (same : s.dispatchers = r.dispatchers) (at_d : r.dispatchers[d]? = some x)
    (at_w : x.workers[w]? = some v) (failure : Option RunError) :
    (s.retire d w failure).callStage v.client ⟨d,w⟩ = none := by
  have own : (s.retire d w failure).workerAt ⟨d,w⟩ = some (x.options,{ v with stage := .ended failure }) := by
    simp [workerAt,retire,onDispatcher,Dispatcher.retire,Dispatcher.place,same,at_d,at_w]
  exact (callStage_own own).trans rfl

theorem Renewal.trace (renewal : Renewal r next d w v.client op a c) (at_d : r.dispatchers[d]? = some x)
    (at_w : x.workers[w]? = some v) (at_c : r.clients[v.client]? = some c) {sinceMs untilMs : Nat}
    (renewing : v.stage = .renewing op sinceMs untilMs a) (serves : Serves r next d w x z v stage)
    (meanwhile : ∀ a b, a.issued ≤ b.issued → w'.meanwhile a b) :
    ∃ notes, SharedPool.Trace w' r.callers notes next.callers := by
  have inside := (List.getElem?_eq_some_iff.mp at_c).1
  have stands : r.callers.calls v.client ⟨d,w⟩ = some (.acquire x.options.reconnectEvery,some a) := by
    show r.callStage _ _ = _
    rw [callStage_own (workerAt_at at_d at_w),Worker.callStage,renewing]
  have begins : SharedPool.Trace w' r.callers [] (r.callers.put v.client ⟨d,w⟩ c r.site
      (some (.acquire x.options.reconnectEvery,some a))) := by
    rw [show r.site = r.callers.site from rfl,SharedPool.put_same at_c stands]
    exact .start
  cases renewal with
  | renewed answer after =>
    subst after
    have renewed := begins.goes_on inside (.renews answer)
    exact ⟨_,trace_arrives serves at_d at_w meanwhile renewed rfl (Nat.le_refl _)
      (begun_callStage (by rfl) at_d at_w _ op)⟩
  | uncounted answer after =>
    subst after
    have renewed := begins.goes_on inside (.renews answer)
    exact ⟨_,trace_arrives serves at_d at_w meanwhile renewed rfl (Nat.le_refl _)
      (retired_callStage (by rfl) at_d at_w _)⟩
  | refused answer after =>
    subst after
    have refused := begins.goes_on inside (.fails answer)
    exact ⟨_,trace_arrives serves at_d at_w meanwhile refused rfl (Nat.le_refl _)
      (retired_callStage (by rfl) at_d at_w _)⟩

/-- A worker that does not deal with its client leaves the callers where they are. -/
theorem callers_idle (serves : Serves r next d w x z v stage) (at_d : r.dispatchers[d]? = some x)
    (at_w : x.workers[w]? = some v) (clients : next.clients = r.clients)
    (before : r.callStage v.client ⟨d,w⟩ = none) (after : next.callStage v.client ⟨d,w⟩ = none) :
    next.callers = { r.callers with site := next.site } := by
  refine callers_still clients fun i u => ?_
  by_cases here : (i,u) = (v.client,⟨d,w⟩)
  · cases here
    rw [before,after]
  · exact callStage_other serves at_d at_w here

end

/-- The turn of a worker comes to some calls. -/
theorem moveWorker_trace (lined : Lined r) (run : r.moveWorker d w = some next)
    (asked : ∀ o v, r.workerAt ⟨d,w⟩ = some (o,v) → w'.asks v.client (.acquire o.reconnectEvery))
    (meanwhile : ∀ a b, a.issued ≤ b.issued → w'.meanwhile a b) :
    ∃ notes, SharedPool.Trace w' r.callers notes next.callers := by
  obtain ⟨x,v,at_d,at_w,move⟩ := moveWorker_move run
  obtain ⟨z,stage,serves⟩ := move.serves at_d at_w
  have own := workerAt_at at_d at_w
  have issued := (moveWorker_labours run).renews.issued
  have still (clients : next.clients = r.clients) (before : r.callStage v.client ⟨d,w⟩ = none)
      (after : next.callStage v.client ⟨d,w⟩ = none) : ∃ notes, SharedPool.Trace w' r.callers notes next.callers := by
    have begins : SharedPool.Trace w' r.callers [] r.callers := .start
    rw [callers_idle serves at_d at_w clients before after]
    exact ⟨[],begins.goes_aside (meanwhile _ _ issued)⟩
  have idle {stage : WorkerStage} (here : v.stage = stage) (idle : stage.pending? = none) :
      r.callStage v.client ⟨d,w⟩ = none := by
    rw [callStage_own own,Worker.callStage,here]
    cases stage <;> first | rfl | cases idle
  have claiming {op : Operation} (claims : v.stage = .claiming op) :
      ∃ notes, SharedPool.Trace w' r.callers notes next.callers := by
    obtain ⟨c,at_c,claim⟩ := claim_claims (moveWorker_claims at_d at_w claims run)
    exact claim.trace lined at_d at_w at_c claims serves (asked _ _ own) meanwhile
  have renewing {op : Operation} {sinceMs untilMs : Nat} {a : Reaction}
      (renewing : v.stage = .renewing op sinceMs untilMs a) :
      ∃ notes, SharedPool.Trace w' r.callers notes next.callers := by
    obtain ⟨c,at_c,renewal⟩ := endRenewal_renewal (moveWorker_renews at_d at_w renewing run)
    exact renewal.trace at_d at_w at_c renewing serves meanwhile
  cases move with
  | use claims => exact claiming claims
  | enter claims => exact claiming claims
  | renew claims => exact claiming claims
  | spend claims => exact claiming claims
  | renewed renews => exact renewing renews
  | uncounted renews => exact renewing renews
  | refused renews => exact renewing renews
  | quit waits after =>
    refine still (by rw [after]; rfl) (idle waits rfl) ?_
    rw [after]
    exact retired_callStage rfl at_d at_w none
  | @take op queue waits told first oldest after =>
    have own' : next.workerAt ⟨d,w⟩ = some (x.options,{ v with stage := .claiming op }) := by
      rw [after]
      simp [workerAt,onDispatcher,Dispatcher.place,at_d,at_w]
    have clients : next.clients = r.clients := by rw [after]; rfl
    refine still clients (idle waits rfl) ((callStage_own own').trans (if_neg fun queued => ?_))
    rw [clients] at queued
    obtain ⟨o,v',at_u,-,pending,-⟩ := lined.queued _ _ queued
    cases own.symm.trans at_u
    rw [waits] at pending
    exact pending rfl
  | finish runs memory after =>
    have own' : next.workerAt ⟨d,w⟩ = some (x.options,{ v with stage := .waiting }) := by
      rw [after]
      simp [workerAt,rejoin,onDispatcher,Dispatcher.rejoin,Dispatcher.place,at_d,at_w]
    exact still (by rw [after]; rfl) (idle runs rfl) ((callStage_own own').trans rfl)
  | fault runs memory after =>
    refine still (by rw [after]; rfl) (idle runs rfl) ?_
    rw [after]
    exact retired_callStage (by rfl) at_d at_w _

/-! ### Numbers of connections -/

theorem watch_issued (s : Site) (key : String) (withPrefix : Bool) : (s.watch key withPrefix).2.issued = s.issued := by
  unfold Site.watch
  split <;> rfl

theorem sentinel_issued {t t' : Sentinel} {stopped : Bool} {nowMs : Nat} {s s' : Site}
    (run : t.step stopped nowMs s = some (t',s')) : t'.key = t.key ∧ s'.issued = s.issued := by
  unfold Sentinel.step at run
  cases stage : t.stage with
  | opening =>
    have issued := watch_issued s t.key false
    simp only [stage] at run
    split at run
    · cases run
      exact ⟨rfl,rfl⟩
    · split at run
      · rename_i watched
        rw [watched] at issued
        cases run
        exact ⟨rfl,issued⟩
      · rename_i watched
        rw [watched] at issued
        cases run
        exact ⟨rfl,issued⟩
  | watching stream =>
    simp only [stage] at run
    split at run
    · cases run
      exact ⟨rfl,rfl⟩
    · obtain ⟨after,-,same⟩ := Option.map_eq_some_iff.mp run
      cases same
      exact ⟨rfl,rfl⟩
  | pausing untilMs =>
    simp only [stage] at run
    split at run
    · cases run
      exact ⟨rfl,rfl⟩
    · cases run
  | settled seen =>
    simp only [stage] at run
    cases run
  | failed e =>
    simp only [stage] at run
    cases run

theorem watcher_issued {w w' : Watch.Watcher} {event : Watch.WatcherEvent} {stopped : Bool} {s s' : Site}
    (run : w.step stopped s = some (w',event,s')) : s'.issued = s.issued := by
  unfold Watch.Watcher.step at run
  split at run
  · cases run
  · have issued := watch_issued s w.key w.withPrefix
    unfold Watch.Watcher.attempt at run
    split at run
    · rename_i watched
      rw [watched] at issued
      cases run
      exact issued
    · rename_i watched
      rw [watched] at issued
      cases run
      exact issued
  · split at run
    · cases run
      rfl
    · split at run
      · cases run
      · cases run
        rfl
      · cases run
        rfl

section
variable [RandomSource σ] {ev : Event}

theorem moveMain_issued (run : r.moveMain = some next) : r.site.issued ≤ next.site.issued := by
  cases course : r.course with
  | none =>
    rw [moveMain,course] at run
    cases run
  | some c =>
    cases guards : r.guarding? with
    | none => exact (moveMain_turn course guards run).links.issued
    | some m =>
      obtain ⟨c',w,id,t⟩ := m
      obtain ⟨course',phase⟩ := guarding_phase guards
      cases course.symm.trans course'
      have run : r.guard c w id t = some next := by simpa [moveMain,course,phase] using run
      rw [guard_eq] at run
      obtain ⟨⟨t',site⟩,stepped,rfl⟩ := Option.map_eq_some_iff.mp run
      obtain ⟨key,issued⟩ := sentinel_issued stepped
      have guards' : ({ r with site } : Run σ).guarding? = some (c,w,id,t) := guards
      exact issued ▸ (guarded_links guards' key).issued

/-- No number of a connection is given out twice. -/
theorem step_issued (run : r.step ev = some next) : r.site.issued ≤ next.site.issued := by
  by_cases main : ev = .turn .main
  · subst main
    exact moveMain_issued run
  · by_cases unread : r.reads ev = false
    · exact (step_unread run unread main).renews.issued
    · cases ev with
      | turn p =>
        cases p with
        | watcher i =>
          obtain ⟨v,-,run⟩ := Option.bind_eq_some_iff.mp run
          obtain ⟨⟨v',event,site⟩,stepped,same⟩ := Option.bind_eq_some_iff.mp run
          cases same
          obtain ⟨recorder,noted⟩ := noteWatcher_eq { r with site, watchers := r.watchers.set i v' } event
          rw [noted]
          exact Nat.le_of_eq (watcher_issued stepped).symm
        | main => exact absurd rfl main
        | producer i => exact absurd rfl unread
        | worker d w => exact absurd rfl unread
        | reporter i => exact absurd rfl unread
      | outside i => exact absurd rfl unread
      | pass ms => exact absurd rfl unread

/-! ### Every run -/

omit [RandomSource σ] in
/-- The workers that the main task employs wait. -/
theorem deeds_callStage {ks : KeySpace} (deeds : Deeds ks r next) (i : Nat) (u : ClientUser) :
    next.callStage i u = r.callStage i u := by
  cases at_u : r.workerAt u with
  | some m => rw [callStage,callStage,deeds.workerAt at_u,at_u,deeds.same_clients]
  | none =>
    have nobody : r.callStage i u = none := by rw [callStage,at_u]; rfl
    rw [nobody]
    cases at_next : next.workerAt u with
    | none => rw [callStage,at_next]; rfl
    | some m =>
      have stands : next.stageOf u.dispatcher u.worker = some m.2.stage := by
        rw [stageOf_workerAt,at_next]
        rfl
      rcases deeds.stageOf stands with before | waits
      · rw [stageOf_workerAt,at_u] at before
        cases before
      · simp [callStage,at_next,Worker.callStage,waits]

/-- A worker keeps its client and its options. -/
theorem Tended.worker_stays {o : DispatchOptions} (tended : Tended r) (run : r.step ev = some next)
    (at_u : r.workerAt u = some (o,v)) : ∃ v', next.workerAt u = some (o,v') ∧ v'.client = v.client := by
  by_cases worker : ∃ d w, ev = .turn (.worker d w)
  · obtain ⟨d,w,rfl⟩ := worker
    obtain ⟨x,v',at_d,at_w,move⟩ := moveWorker_move run
    obtain ⟨z,stage,serves⟩ := move.serves at_d at_w
    rw [serves.workerAt at_d at_w]
    by_cases same : u = ⟨d,w⟩
    · subst same
      cases at_u.symm.trans (workerAt_at at_d at_w)
      exact ⟨_,if_pos rfl,rfl⟩
    · exact ⟨v,(if_neg same).trans at_u,rfl⟩
  · by_cases main : ev = .turn .main
    · subst main
      obtain ⟨ks,deeds⟩ := tended.deeds run
      exact ⟨v,deeds.workerAt at_u,rfl⟩
    · obtain ⟨staff,-⟩ := step_staff run main fun d w same => worker ⟨d,w,same⟩
      exact ⟨v,(workerAt_of_staff staff u).trans at_u,rfl⟩

theorem Tended.asks_stays (tended : Tended r) (run : r.step ev = some next) (i : Nat) (q : ClientCall)
    (asked : r.usage.asks i q) : next.usage.asks i q := by
  obtain ⟨u,o,v,at_u,client,rfl⟩ := asked
  obtain ⟨v',at_next,same⟩ := tended.worker_stays run at_u
  exact ⟨u,o,v',at_next,same.trans client,rfl⟩

theorem Tended.step_trace (tended : Tended r) (run : r.step ev = some next) :
    ∃ notes, SharedPool.Trace r.usage r.callers notes next.callers := by
  have issued := step_issued run
  have still (clients : next.clients = r.clients) (calls : ∀ i u, next.callStage i u = r.callStage i u) :
      ∃ notes, SharedPool.Trace r.usage r.callers notes next.callers := by
    have begins : SharedPool.Trace r.usage r.callers [] r.callers := .start
    rw [callers_still clients calls]
    exact ⟨[],begins.goes_aside issued⟩
  by_cases worker : ∃ d w, ev = .turn (.worker d w)
  · obtain ⟨d,w,rfl⟩ := worker
    exact moveWorker_trace tended.lined run (fun o v at_u => ⟨_,o,v,at_u,rfl,rfl⟩) fun _ _ issued => issued
  · by_cases main : ev = .turn .main
    · subst main
      obtain ⟨ks,deeds⟩ := tended.deeds run
      exact still deeds.same_clients (deeds_callStage deeds)
    · obtain ⟨staff,clients⟩ := step_staff run main fun d w same => worker ⟨d,w,same⟩
      exact still clients fun i u => by rw [callStage,callStage,workerAt_of_staff staff,clients]

/-- Every run is an interleaving of calls, those that its workers make on its clients. -/
theorem steps_trace {first : Run σ} {events : List Event} (tended : Tended first) (run : first.steps events = some r) :
    ∃ notes, SharedPool.Trace r.usage first.callers notes r.callers := by
  refine steps_induction (fun _ s => ∃ notes, SharedPool.Trace s.usage first.callers notes s.callers) ⟨[],.start⟩
    (fun before reached step => ?_) run
  obtain ⟨notes,trace⟩ := reached
  have tended := tended.steps before
  obtain ⟨more,later⟩ := tended.step_trace step
  exact ⟨_,(trace.trans later).mono (tended.asks_stays step) fun _ _ issued => issued⟩

/-- So the workers of every run keep to the budget of a client that they share. -/
theorem steps_budgeted {first : Run σ} {events : List Event} {k : Nat} (tended : Tended first)
    (run : first.steps events = some r) (there : first.clients[i]? = some c) (unused : c.uses = 0)
    (idle : ∀ u, first.callStage i u = none) (some_uses : 0 < k)
    (budget : ∀ u o v, r.workerAt u = some (o,v) → v.client = i → o.reconnectEvery = k) :
    ∃ notes c, SharedPool.Trace r.usage first.callers notes r.callers ∧ r.clients[i]? = some c ∧
      SharedPool.Budgeted r.usage k i (SharedPool.notesOf i notes) r.callers c := by
  obtain ⟨notes,trace⟩ := steps_trace tended run
  have only : ∀ q, r.usage.asks i q → q = .acquire k := by
    rintro q ⟨u,o,v,at_u,client,rfl⟩
    rw [budget u o v at_u client]
  obtain ⟨c',there',spends⟩ := trace.spends some_uses only there unused idle
  exact ⟨notes,c',trace,there',spends.budgeted some_uses only there'⟩

omit [RandomSource σ] in
/-- Nobody has called a client before there is a worker. -/
theorem callers_ofCourse (site : Site) (pool : Pool) (nowMs : Nat) (c : Course σ) :
    (ofCourse site pool nowMs c).callers = ⟨pool.clients,site,fun _ _ => none⟩ := rfl

/-- And the clients of an engine keep to their endpoints, and to their own connections if they were given some. -/
theorem ofCourse_isolated {e : Engine} {g : Goal} {options : DispatchOptions} {conns clients ms nowMs : Nat}
    {isPrivate : Bool} {s site : Site} {pool : Pool} {streams : Nat → σ} {events : List Event}
    {limit : Option Nat} (connected : Pool.connect conns clients isPrivate limit s = (.success pool,ms,site))
    (run : (ofCourse site pool nowMs (Course.start e g options pool.size nowMs streams)).steps events = some r) :
    SharedPool.Isolated r.usage (Pool.connections conns clients isPrivate) isPrivate r.callers := by
  obtain ⟨-,clients_eq,rfl⟩ := Pool.connect_success connected
  have free : ∀ c ∈ pool.clients, c.line = [] := by
    intro c member
    rw [clients_eq] at member
    obtain ⟨i,-,rfl⟩ := List.mem_map.mp member
    rfl
  obtain ⟨notes,trace⟩ := steps_trace (tended_ofCourse e g options _ nowMs streams free) run
  rw [callers_ofCourse,clients_eq] at trace
  exact (trace.placed (fun _ _ issued => issued) (SharedPool.placed_dealt rfl)).isolated

end

end Run

end Keyload
