import Keyload.Proofs.Run.InsideTree
import Keyload.Proofs.Run.Unstuck

/-!
No fatal error of a client is lost. When a worker is refused the new connection of its client, the run is told to end at
once and never ends well; if its main task has not ended yet, it does so after a bounded number of turns, and with an
error unless the producer of its load broke. And a run that ends with the error of a client has lost that client.
-/
namespace Keyload

namespace Run

variable {σ : Type}

/-- The client that worker `w` of dispatcher `d` is refused a connection for in its next turn, and why. -/
def refusal? (r : Run σ) (d w : Nat) : Option (Nat × StoreError) :=
  match r.workerAt ⟨d,w⟩ with
  | some (_,⟨i,.renewing _ _ untilMs ⟨_,some cause⟩⟩) =>
    if untilMs ≤ r.nowMs then r.clients[i]?.map fun c => (c.index,cause) else none
  | _ => none

section
variable [RandomSource σ]

/-- Among the turns of a run is one in which a worker is refused a connection for a client. -/
def LosesClient (first : Run σ) (events : List Event) (client : Nat) (cause : StoreError) : Prop :=
  ∃ before d w s, before ++ [.turn (.worker d w)] <+: events ∧ first.steps before = some s ∧
    s.refusal? d w = some (client,cause)

/-- Whatever happens to others than the producers, the main task ends, and with an error unless the load broke. -/
structure Fails (r : Run σ) : Prop where
  bounded : ∀ more s, r.steps more = some s → (∀ ev ∈ more, ev.drives = false) →
    s.allLeft + more.countP Event.isWork ≤ r.allLeft
  goes_on : ∀ more s, r.steps more = some s → (∀ ev ∈ more, ev.drives = false) → s.ending? = none →
    ∃ ms p next, (s.pass ms).move p = some next ∧ next.allLeft < s.allLeft
  ends : ∀ more s x, r.steps more = some s → (∀ ev ∈ more, ev.drives = false) → s.ending? = some x →
    (∃ err, x = ExceptT.mk (.ok (.error err))) ∨
      ∃ f, x = Outcome.stop f ∧ ∃ p ∈ s.producers, p.work.isLoad = true ∧ p.fault? = some f
  ended : ∃ more s, r.steps more = some s ∧ (∀ ev ∈ more, (∃ p, ev = .turn p) ∨ ∃ ms, ev = .pass ms) ∧
    s.ending?.isSome

end

variable {r next : Run σ} {e : Engine} {n d w client : Nat} {cause : StoreError} {f : Fault}

/-! ### Refusals -/

theorem refusal_iff : r.refusal? d w = some (client,cause) ↔ ∃ x i op sinceMs untilMs delayMs c,
    r.dispatchers[d]? = some x ∧ x.workers[w]? = some ⟨i,.renewing op sinceMs untilMs ⟨delayMs,some cause⟩⟩ ∧
      untilMs ≤ r.nowMs ∧ r.clients[i]? = some c ∧ c.index = client := by
  constructor
  · intro refused
    unfold refusal? at refused
    split at refused
    · rename_i o i op sinceMs untilMs delayMs cause' at_u
      split at refused
      · rename_i due
        obtain ⟨x,at_d,at_w⟩ := Option.bind_eq_some_iff.mp at_u
        obtain ⟨v,at_w,same⟩ := Option.map_eq_some_iff.mp at_w
        obtain ⟨c,at_c,known⟩ := Option.map_eq_some_iff.mp refused
        cases same
        cases known
        exact ⟨x,i,op,sinceMs,untilMs,delayMs,c,at_d,at_w,due,at_c,rfl⟩
      · cases refused
    · cases refused
  · rintro ⟨x,i,op,sinceMs,untilMs,delayMs,c,at_d,at_w,due,at_c,rfl⟩
    simp [refusal?,workerAt_at at_d at_w,due,at_c]

theorem Refused.refusal {c : Client} (refused : Refused r next d w c cause) :
    r.refusal? d w = some (c.index,cause) := by
  obtain ⟨x,i,op,sinceMs,untilMs,delayMs,at_d,at_w,due,at_c⟩ := refused.renewing
  exact refusal_iff.mpr ⟨x,i,op,sinceMs,untilMs,delayMs,c,at_d,at_w,due,at_c,rfl⟩

/-- A worker that is refused a connection ends with that. -/
theorem disconnected_of_refusal (refused : r.refusal? d w = some (client,cause)) (run : r.moveWorker d w = some next) :
    Disconnected next := by
  obtain ⟨x,i,op,sinceMs,untilMs,delayMs,c,at_d,at_w,due,at_c,rfl⟩ := refusal_iff.mp refused
  refine ⟨d,w,c.index,cause,?_⟩
  unfold moveWorker at run
  simp only [at_d,at_w,Option.bind_eq_bind,Option.bind_some,if_pos due] at run
  unfold endRenewal at run
  simp only [at_c,Client.endRenewal,Site.endConnect] at run
  cases run
  simp [stageOf,retire,onDispatcher,Dispatcher.retire,Dispatcher.place,setClient,at_d,at_w]

section
variable [RandomSource σ]

theorem Disconnected.steps {events : List Event} (lost : Disconnected r) (run : r.steps events = some next) :
    Disconnected next :=
  steps_induction (fun _ s => Disconnected s) lost (fun _ before step => before.step step) run

theorem LosesClient.disconnected {first : Run σ} {events : List Event} (loses : LosesClient first events client cause)
    (run : first.steps events = some r) : Disconnected r := by
  obtain ⟨before,d,w,s,⟨after,rfl⟩,at_s,refused⟩ := loses
  rw [steps_append,steps_concat,at_s] at run
  obtain ⟨t,step,run⟩ := Option.bind_eq_some_iff.mp run
  exact (disconnected_of_refusal refused step).steps run

/-! ### What follows a refusal -/

theorem undriven_unoffered {ev : Event} (undriven : ev.drives = false) (i : Nat) (op : Operation) :
    ev ≠ .outside (.offer i op) := by
  rintro rfl
  cases undriven

omit [RandomSource σ] in
theorem stage_of_fault {p : Producer σ} (broken : p.fault? = some f) : p.stage = .broken f := by
  unfold Producer.fault? at broken
  split at broken
  · rename_i f' stage
    rw [stage,Option.some.inj broken]
  · cases broken

/-- A producer that broke stays so. -/
theorem step_broken {ev : Event} (run : r.step ev = some next) (undriven : ev.drives = false) {p : Producer σ}
    (member : p ∈ r.producers) (broken : p.fault? = some f) : p ∈ next.producers := by
  cases ev with
  | turn who =>
    cases who with
    | main => exact (moveMain_extends run).producers.subset member
    | producer i =>
      obtain ⟨q,x,at_i,at_d,move⟩ := moveProducer_move run
      obtain ⟨j,at_j⟩ := List.mem_iff_getElem?.mp member
      have other : i ≠ j := by
        rintro rfl
        cases at_i.symm.trans at_j
        have step : r.moveProducer i = some next := run
        simp [moveProducer,at_i,at_d,stage_of_fault broken] at step
      have stays (q' : Producer σ) : p ∈ r.producers.set i q' :=
        List.mem_of_getElem? ((List.getElem?_set_ne other).trans at_j)
      cases move with
      | goes goes after =>
        rw [after,placeProducer_producers]
        exact stays _
      | sends stage told after =>
        rw [after,placeProducer_producers]
        exact stays _
      | enlists told after =>
        rw [after]
        exact member
    | worker d w =>
      obtain ⟨x,v,at_d,at_w,move⟩ := moveWorker_move run
      obtain ⟨z,after,serves⟩ := move.serves at_d at_w
      rwa [serves.producers]
    | watcher i => rwa [(moveWatcher_aside run).producers]
    | reporter i => rwa [(moveReporter_aside run).producers]
  | outside x =>
    cases run
    cases x with
    | offer i op => cases undriven
    | urge i => cases undriven
    | dismiss i => cases undriven
    | _ => exact member
  | pass ms =>
    cases run
    exact member

/-- A run whose main task can only end with an error, unless the load broke. -/
structure Failing (e : Engine) (n : Nat) (r : Run σ) : Prop where
  heeding : Heeding e n r
  orderly : Orderly r
  lost : Disconnected r
  breaks : ∀ f, r.ending? = some (Outcome.stop f) → ∃ p ∈ r.producers, p.work.isLoad = true ∧ p.fault? = some f

theorem Failing.step {ev : Event} (failing : Failing e n r) (run : r.step ev = some next)
    (undriven : ev.drives = false) : Failing e n next := by
  have unoffered := undriven_unoffered undriven
  refine ⟨failing.heeding.step run unoffered,failing.orderly.step failing.heeding.led run unoffered,
    failing.lost.step run,fun f crashed => ?_⟩
  by_cases main : ev = .turn .main
  · subst main
    obtain ⟨c,course,heeds⟩ := failing.heeding.main run
    obtain ⟨c',course',⟨result,phase,same⟩ | ⟨f',phase,same⟩⟩ := phase_of_ending crashed
    · cases same
    · cases same
      cases course.symm.trans course'
      rcases heeds.breaks f phase with quit | ⟨c₀,d,i,p,before,loading,member,broken⟩
      · exact absurd failing.lost quit.connected
      · obtain ⟨c₁,before',fits⟩ := failing.orderly.fitting
        cases before.symm.trans before'
        rw [loading] at fits
        exact ⟨p,step_broken run undriven member broken,fits.2 p member,broken⟩
  · rw [step_ending failing.heeding.led run main] at crashed
    obtain ⟨p,member,loads,broken⟩ := failing.breaks f crashed
    exact ⟨p,step_broken run undriven member broken,loads,broken⟩

/-- What is to come of a run whose main task can only end with an error: no more turns than are left. -/
theorem Failing.steps {more : List Event} {s : Run σ} (failing : Failing e n r) (run : r.steps more = some s)
    (undriven : ∀ ev ∈ more, ev.drives = false) :
    Failing e n s ∧ s.allLeft + more.countP Event.isWork ≤ r.allLeft := by
  refine steps_induction (fun more s => (∀ ev ∈ more, ev.drives = false) →
    Failing e n s ∧ s.allLeft + more.countP Event.isWork ≤ r.allLeft) (fun _ => ⟨failing,Nat.le_refl _⟩) ?_ run undriven
  intro more s ev t _ before step undriven
  obtain ⟨failing,bounded⟩ := before fun ev member => undriven ev (List.mem_append_left _ member)
  have undriven := undriven ev (List.mem_append_right _ List.mem_cons_self)
  refine ⟨failing.step step undriven,?_⟩
  have fewer := step_left failing.heeding failing.orderly.staffed failing.lost step undriven
  rw [List.countP_append,List.countP_singleton]
  omega

/-- By turns and time alone the main task comes to its end. -/
theorem Failing.comes_to_end (failing : Failing e n r) : ∃ more s, r.steps more = some s ∧
    (∀ ev ∈ more, (∃ p, ev = .turn p) ∨ ∃ ms, ev = .pass ms) ∧ s.ending?.isSome := by
  have goes_on (s : Run σ) (failing : Failing e n s) (unended : ¬s.ending?.isSome) :
      ∃ ms p t, True ∧ (s.pass ms).move p = some t ∧ t.allLeft < s.allLeft := by
    obtain ⟨ms,p,t,turn,fewer⟩ := failing.heeding.goes_on failing.orderly failing.lost (by simpa using unended)
    exact ⟨ms,p,t,trivial,turn,fewer⟩
  obtain ⟨more,s,run,plain,ends⟩ := comes_to goes_on
    (fun s ms p t failing run => (failing.steps run (by simp [Event.drives])).1) failing
  exact ⟨more,s,run,fun ev member => (plain ev member).imp (fun ⟨p,_,turn⟩ => ⟨p,turn⟩) id,ends⟩

theorem Failing.fails (failing : Failing e n r) : Fails r := by
  refine ⟨fun more s run undriven => (failing.steps run undriven).2,fun more s run undriven unended => ?_,
    fun more s x run undriven ended => ?_,failing.comes_to_end⟩
  · have failing := (failing.steps run undriven).1
    exact failing.heeding.goes_on failing.orderly failing.lost unended
  · have failing := (failing.steps run undriven).1
    obtain ⟨c,course,⟨result,phase,same⟩ | ⟨f,phase,same⟩⟩ := phase_of_ending ended
    · cases result with
      | error err => exact .inl ⟨err,same⟩
      | ok finding => exact absurd (ended.trans (congrArg some same)) (failing.heeding.unwell failing.lost finding)
    · exact .inr ⟨f,same,failing.breaks f (ended.trans (congrArg some same))⟩

/-- A run that has lost a client is told to end and does not end well, over every order of steps and whatever the store
answers; if it has not ended, it is to end with an error. And no client is blamed that was not lost. -/
theorem lost_client_fails_run (e : Engine) (options : DispatchOptions) (site : Site) (pool : Pool) (nowMs : Nat)
    (streams : Nat → σ) {events : List Event}
    (run : (ofCourse site pool nowMs (Course.start e .workload options pool.size nowMs streams)).steps events = some r)
    (undriven : ∀ ev ∈ events, ev.drives = false) :
    (∀ client cause, LosesClient (ofCourse site pool nowMs (Course.start e .workload options pool.size nowMs streams))
        events client cause →
      r.stopped = true ∧ (∀ finding, r.ending? ≠ some (ExceptT.mk (.ok (.ok finding)))) ∧
        ((∀ c ∈ pool.clients, c.line = []) → r.ending? = none → Fails r)) ∧
    ∀ client cause, r.ending? = some (ExceptT.mk (.ok (.error (.reconnect client cause)))) →
      LosesClient (ofCourse site pool nowMs (Course.start e .workload options pool.size nowMs streams))
        events client cause := by
  have start := heeding_start e options site pool nowMs streams
  have orderly (free : ∀ c ∈ pool.clients, c.line = []) := orderly_start e .workload options site nowMs streams free
  generalize at_first : ofCourse site pool nowMs (Course.start e .workload options pool.size nowMs streams) = first at *
  have unended : first.ending? = none := by rw [← at_first]; rfl
  have nobody : first.dispatchers = [] := by rw [← at_first]; rfl
  have unoffered : ∀ i op, .outside (.offer i op) ∉ events :=
    fun i op member => undriven_unoffered (undriven _ member) i op rfl
  have heeding := start.steps run unoffered
  constructor
  · intro client cause loses
    have lost := loses.disconnected run
    refine ⟨heeding.stopped lost,heeding.unwell lost,fun free going => ?_⟩
    refine Failing.fails ⟨heeding,(orderly free).steps start.led run unoffered,lost,fun f crashed => ?_⟩
    cases going.symm.trans crashed
  · intro client cause ended
    obtain ⟨before,s,d,w,part,at_s,failed⟩ := start.blamed unended run unoffered ended
    obtain ⟨earlier,s',t,c,shorter,at_s',-,refused,rfl⟩ := failed_refused start.led nobody at_s failed
    exact ⟨earlier,d,w,s',shorter.trans part,at_s',refused.refusal⟩

end

/-! ### A client that is refused -/

/-- Settings of one pattern that renew a client's connection after every use. -/
def renewing (pattern : String) : Settings :=
  { Engine.plainly pattern with client := { Settings.standard.client with reconnectEvery := 1 } }

/-- A whole run of one client at a store that lets nobody connect again. -/
def unwelcome (e : Engine) : Run Xoshiro :=
  ofEngine e .workload (Site.fresh { Behavior.prompt with connection := fun _ => ⟨0,some .closed⟩ } .empty)
    (Pool.deal [0] 1) 0

/-- A key is loaded, and the client is refused a new connection for the second one. -/
def refuseSecond : List Event := [.turn .main] ++ sendOne 0 ++ sendOne 0

/-- The load ends, and then the main task. -/
def endLoading : List Event := [.turn (.producer 0),.turn .main]

/-- Whether a run has ended with the error of a client. -/
def blames (r : Run Xoshiro) (client : Nat) (cause : StoreError) : Bool :=
  match r.ending?.map ExceptT.run with
  | some (.ok (.error err)) => err == .reconnect client cause
  | _ => false

private theorem blamed_of_check {r : Run Xoshiro} (checked : r.blames client cause = true) :
    r.ending? = some (ExceptT.mk (.ok (.error (.reconnect client cause)))) := by
  unfold blames at checked
  split at checked
  · rename_i err ended
    obtain ⟨ending,at_end,same⟩ := Option.map_eq_some_iff.mp ended
    rw [beq_iff_eq.mp checked] at same
    exact at_end.trans (congrArg some same)
  · cases checked

/-- The client is refused a connection for the second key; the run ends with that. -/
theorem refused_client_fails_run : ∃ e r t, Engine.new (renewing "/%k%d[2];z") 1 = ExceptT.mk (.ok (.ok e)) ∧
    (unwelcome e).steps refuseSecond = some r ∧ LosesClient (unwelcome e) refuseSecond 0 .closed ∧
    r.stopped = true ∧ r.ending? = none ∧ Fails r ∧
    (unwelcome e).steps (refuseSecond ++ endLoading) = some t ∧
    t.ending? = some (ExceptT.mk (.ok (.error (.reconnect 0 .closed)))) ∧
    LosesClient (unwelcome e) (refuseSecond ++ endLoading) 0 .closed := by
  have ran : ((Engine.new (renewing "/%k%d[2];z") 1).run.toOption.bind Except.toOption).any (fun e =>
      ((unwelcome e).steps refuseSecond.dropLast).any (fun s => s.refusal? 0 0 == some (0,.closed)) &&
        ((unwelcome e).steps refuseSecond).any fun r =>
          r.ending?.isNone && (r.steps endLoading).any (·.blames 0 .closed)) = true := by
    decide +kernel
  obtain ⟨e,accepted,ran⟩ := (Option.any_eq_true _ _).mp ran
  obtain ⟨refused,ran⟩ := Bool.and_eq_true_iff.mp ran
  obtain ⟨s,at_s,refused⟩ := (Option.any_eq_true _ _).mp refused
  obtain ⟨r,run,ran⟩ := (Option.any_eq_true _ _).mp ran
  obtain ⟨going,ran⟩ := Bool.and_eq_true_iff.mp ran
  obtain ⟨t,later,ended⟩ := (Option.any_eq_true _ _).mp ran
  have whole : (unwelcome e).steps (refuseSecond ++ endLoading) = some t := by
    rw [steps_append,run]
    exact later
  have loses : LosesClient (unwelcome e) refuseSecond 0 .closed :=
    ⟨refuseSecond.dropLast,0,0,s,List.prefix_rfl,at_s,beq_iff_eq.mp refused⟩
  have going : r.ending? = none := Option.isNone_iff_eq_none.mp going
  have ended := blamed_of_check ended
  have fails := lost_client_fails_run e _ _ _ _ _ run (by decide)
  have blamed := lost_client_fails_run e _ _ _ _ _ whole (by decide)
  obtain ⟨stopped,-,doomed⟩ := fails.1 0 .closed loses
  exact ⟨e,r,t,Engine.new_of_toOption accepted,run,loses,stopped,going,doomed (by decide) going,whole,ended,
    blamed.2 0 .closed ended⟩

end Run

end Keyload
