import Mathlib.Algebra.Order.BigOperators.Group.List
import Mathlib.Algebra.Order.Ring.Nat
import Keyload.Run.Schedule
import Keyload.Proofs.Run.Fitting
import Keyload.Proofs.Run.Heeded

/-!
How a run winds down whose client could not be connected again. It is told to end, so every turn but the report of an
interval leaves fewer turns to whoever had it and no more to anybody else; and as long as the main task has not ended,
somebody can have such a turn after some time: the workers first, then the producers and the watchers, then the
reporters, and at last the main task.
-/
namespace Keyload

/-- Something is done to a producer from outside. -/
def Event.drives : Event → Bool
  | .outside (.offer ..) => true
  | .outside (.urge _) => true
  | .outside (.dismiss _) => true
  | _ => false

/-- Somebody has a turn, and not for the report of an interval. -/
def Event.isWork : Event → Bool
  | .turn (.reporter _) => false
  | .turn _ => true
  | _ => false

/-- The turns that a producer has left at most in a run that is told to end. -/
def ProducerStage.left : ProducerStage → Nat
  | .choosing => 2
  | .ended => 0
  | .broken _ => 0
  | _ => 1

/-- The turns that a watcher has left at most in a run that is told to end. -/
def Watch.WatcherStage.left : Watch.WatcherStage → Nat
  | .opening => 2
  | .watching _ => 1
  | .ended => 0

/-- The turns that a reporter has left at most, its reports apart. -/
def ReporterStage.left : ReporterStage → Nat
  | .running => 1
  | _ => 0

/-- The turns that a sentinel has left at most in a run that is told to end. -/
def SentinelStage.left : SentinelStage → Nat
  | .pausing _ => 2
  | _ => 1

/-- The turns that the main task has left at most once a client could not be connected again. -/
def Phase.left {σ : Type} : Phase σ → Nat
  | .loading .. => 1
  | .dialing .testEnd .. => 3
  | .guarding .testEnd _ t => t.stage.left + 1
  | .finishing _ => 1
  | _ => 0

namespace Run

variable {σ : Type}

/-- The turns that a participant has left at most once a client could not be connected again, reports apart. -/
def left (r : Run σ) : Participant → Nat
  | .main => r.course.elim 0 fun c => c.phase.left
  | .producer i => r.producers[i]?.elim 0 fun p => p.stage.left
  | .worker d w => r.workerLeft ⟨d,w⟩
  | .watcher i => r.watchers[i]?.elim 0 fun w => w.stage.left
  | .reporter i => r.reporters[i]?.elim 0 fun t => t.stage.left

/-- The turns that all participants have left together. -/
def allLeft (r : Run σ) : Nat := (r.participants.map r.left).sum

/-- The turn of a participant takes nothing from others, and leaves it no more than it had. -/
structure Takes (r next : Run σ) (p : Participant) : Prop where
  participants : next.participants = r.participants
  among : p ∈ r.participants
  others : ∀ q ≠ p, next.left q = r.left q
  own : next.left p ≤ r.left p

/-- Nobody but the main task has gone on. -/
structure Still (r next : Run σ) : Prop where
  producers : next.producers = r.producers
  dispatchers : next.dispatchers = r.dispatchers
  clients : next.clients = r.clients
  watchers : next.watchers = r.watchers
  reporters : next.reporters = r.reporters

/-- The turn of a participant takes from what it has left itself, and nothing from others. -/
def Spends (r next : Run σ) (p : Participant) : Prop := Takes r next p ∧ next.left p < r.left p

variable {r next : Run σ} {c : Course σ} {e : Engine} {n d w i : Nat} {p : Participant}

/-! ### Who takes part -/

/-- Who takes part depends on how many there are of each kind. -/
theorem participants_eq (producers : next.producers.length = r.producers.length)
    (crews : next.dispatchers.map (fun x => x.workers.length) = r.dispatchers.map fun x => x.workers.length)
    (watchers : next.watchers.length = r.watchers.length) (reporters : next.reporters.length = r.reporters.length) :
    next.participants = r.participants := by
  have length : next.dispatchers.length = r.dispatchers.length := by simpa using congrArg List.length crews
  have workers (d : Nat) : next.dispatchers[d]?.map (fun x => x.workers.length) =
      r.dispatchers[d]?.map fun x => x.workers.length := by
    rw [← List.getElem?_map,← List.getElem?_map,crews]
  simp only [participants,producers,length,workers,watchers,reporters]

theorem crews_of_staff (staff : next.dispatchers.map Dispatcher.staff = r.dispatchers.map Dispatcher.staff) :
    next.dispatchers.map (fun x => x.workers.length) = r.dispatchers.map fun x => x.workers.length := by
  simpa [Dispatcher.staff,Function.comp_def] using congrArg (List.map fun m => m.2.length) staff

theorem worker_among {x : Dispatcher} {v : Worker} (at_d : r.dispatchers[d]? = some x) (at_w : x.workers[w]? = some v) :
    .worker d w ∈ r.participants := by
  have known : ∃ d' < r.dispatchers.length, ∃ w' < ((r.dispatchers[d']?.map fun x => x.workers.length).getD 0),
      Participant.worker d' w' = .worker d w := by
    refine ⟨d,(List.getElem?_eq_some_iff.mp at_d).1,w,?_,rfl⟩
    rw [at_d]
    exact (List.getElem?_eq_some_iff.mp at_w).1
  simpa only [participants,List.mem_append,List.mem_flatMap,List.mem_map,List.mem_range] using
    .inl (.inl (.inr known))

theorem producer_among {q : Producer σ} (at_i : r.producers[i]? = some q) : .producer i ∈ r.participants := by
  simp [participants,(List.getElem?_eq_some_iff.mp at_i).1]

theorem watcher_among {v : Watch.Watcher} (at_i : r.watchers[i]? = some v) : .watcher i ∈ r.participants := by
  simp [participants,(List.getElem?_eq_some_iff.mp at_i).1]

theorem reporter_among {t : Reporter} (at_i : r.reporters[i]? = some t) : .reporter i ∈ r.participants := by
  simp [participants,(List.getElem?_eq_some_iff.mp at_i).1]

theorem Takes.le (takes : Takes r next p) : next.allLeft ≤ r.allLeft := by
  rw [allLeft,allLeft,takes.participants]
  refine List.sum_le_sum fun q _ => ?_
  by_cases same : q = p
  · rw [same]
    exact takes.own
  · exact Nat.le_of_eq (takes.others q same)

theorem Spends.lt (spends : Spends r next p) : next.allLeft < r.allLeft := by
  obtain ⟨takes,fewer⟩ := spends
  rw [allLeft,allLeft,takes.participants]
  refine List.sum_lt_sum _ _ (fun q _ => ?_) ⟨p,takes.among,fewer⟩
  by_cases same : q = p
  · rw [same]
    exact takes.own
  · exact Nat.le_of_eq (takes.others q same)

/-! ### The turns of others than the main task -/

theorem workerLeft_eq (staff : next.dispatchers.map Dispatcher.staff = r.dispatchers.map Dispatcher.staff)
    (clients : next.clients = r.clients) (u : ClientUser) : next.workerLeft u = r.workerLeft u := by
  rw [workerLeft,workerLeft,workerAt_of_staff staff,clients]

theorem elim_set {α : Type} {l : List α} {j : Nat} (f : α → Nat) (a : α) (other : j ≠ i) :
    (l.set i a)[j]?.elim 0 f = l[j]?.elim 0 f := by
  rw [List.getElem?_set_ne (Ne.symm other)]

section
variable [RandomSource σ]

theorem choose_left {q q' : Producer σ} (own : ∀ ops, q.work ≠ .given ops) (chosen : q.choose = some q') :
    q'.stage.left < 2 := by
  unfold Producer.choose at chosen
  split at chosen
  · cases chosen
    unfold Producer.drawing
    split
    · rename_i drawn source _
      obtain ⟨entry,keys⟩ := drawn
      cases entry <;> simp [ProducerStage.left]
    · simp [Producer.inStage,ProducerStage.left]
  · cases chosen
    simp [Producer.inStage,ProducerStage.left]
  · cases chosen
    simp [Producer.inStage,ProducerStage.left]
  · cases chosen
  · rename_i given
    exact absurd given (own _)

/-- Told to end, a producer draws once more at most. -/
theorem goes_left {q q' : Producer σ} {nowMs : Nat} (own : ∀ ops, q.work ≠ .given ops) (goes : q.Goes true nowMs q') :
    q'.stage.left < q.stage.left := by
  cases goes with
  | ends active after =>
    subst after
    show 0 < q.stage.left
    cases stage : q.stage <;> simp_all [ProducerStage.left,Producer.hasEnded]
  | wakes stage heard => cases heard
  | chooses stage after =>
    rw [stage]
    exact choose_left own after
  | begins stage heard => cases heard

theorem moveProducer_spends (staffed : Staffed r) (told : r.stopped = true) (run : r.moveProducer i = some next) :
    Spends r next (.producer i) := by
  have step : r.step (.turn (.producer i)) = some next := run
  obtain ⟨staff,clients⟩ := step_staff step (by simp) (by simp)
  obtain ⟨-,reporters,watchers⟩ := moveProducer_beside run
  have length := (moveProducer_attends run).length
  obtain ⟨q,x,at_i,-,move⟩ := moveProducer_move run
  have own := (staffed q (List.mem_of_getElem? at_i)).2
  have inside := (List.getElem?_eq_some_iff.mp at_i).1
  cases move with
  | sends stage going => cases told.symm.trans going
  | enlists going => cases told.symm.trans going
  | @goes q' goes after =>
    have producers : next.producers = r.producers.set i q' := by rw [after,placeProducer_producers]
    have course : next.course = r.course := by rw [after,placeProducer_course]
    have fewer : next.left (.producer i) < r.left (.producer i) := by
      have going := goes_left own (told ▸ goes)
      simp only [left,producers,List.getElem?_set_self inside,at_i,Option.elim_some]
      exact going
    refine ⟨⟨participants_eq length (crews_of_staff staff) (by rw [watchers]) (by rw [reporters]),producer_among at_i,?_,
      Nat.le_of_lt fewer⟩,fewer⟩
    intro p other
    cases p with
    | main => simp only [left,course]
    | producer j =>
      simp only [left,producers]
      exact elim_set _ _ fun same => other (by rw [same])
    | worker d w => exact workerLeft_eq staff clients _
    | watcher j => simp only [left,watchers]
    | reporter j => simp only [left,reporters]

end

theorem watcher_left {v v' : Watch.Watcher} {event : Watch.WatcherEvent} {s s' : Site}
    (run : v.step true s = some (v',event,s')) : v'.stage.left < v.stage.left := by
  unfold Watch.Watcher.step at run
  cases stage : v.stage with
  | ended =>
    simp only [stage] at run
    cases run
  | opening =>
    simp only [stage] at run
    unfold Watch.Watcher.attempt at run
    split at run
    · cases run
      exact Nat.lt_succ_self 1
    · cases run
      exact Nat.two_pos
  | watching stream =>
    simp only [stage,if_true] at run
    cases run
    exact Nat.one_pos

theorem moveWatcher_set (run : r.moveWatcher i = some next) : ∃ v v' event site, r.watchers[i]? = some v ∧
    v.step r.stopped r.site = some (v',event,site) ∧ next.watchers = r.watchers.set i v' := by
  obtain ⟨v,at_i,run⟩ := Option.bind_eq_some_iff.mp run
  obtain ⟨⟨v',event,site⟩,stepped,run⟩ := Option.bind_eq_some_iff.mp run
  refine ⟨v,v',event,site,at_i,stepped,?_⟩
  cases run
  unfold noteWatcher
  split
  · rfl
  · rfl
  · split <;> rfl

theorem moveWatcher_spends (told : r.stopped = true) (run : r.moveWatcher i = some next) :
    Spends r next (.watcher i) := by
  obtain ⟨clients,reporters,-⟩ := moveWatcher_beside run
  have aside := moveWatcher_aside run
  obtain ⟨v,v',event,site,at_i,stepped,watchers⟩ := moveWatcher_set run
  have inside := (List.getElem?_eq_some_iff.mp at_i).1
  have staff : next.dispatchers.map Dispatcher.staff = r.dispatchers.map Dispatcher.staff := by rw [aside.dispatchers]
  have fewer : next.left (.watcher i) < r.left (.watcher i) := by
    simp only [left,watchers,List.getElem?_set_self inside,at_i,Option.elim_some]
    rw [told] at stepped
    exact watcher_left stepped
  have length : next.watchers.length = r.watchers.length := by rw [watchers,List.length_set]
  refine ⟨⟨participants_eq (by rw [aside.producers]) (crews_of_staff staff) length (by rw [reporters]),
    watcher_among at_i,?_,Nat.le_of_lt fewer⟩,fewer⟩
  intro p other
  cases p with
  | main => simp only [left,aside.course]
  | producer j => simp only [left,aside.producers]
  | worker d w => exact workerLeft_eq staff clients _
  | watcher j =>
    simp only [left,watchers]
    exact elim_set _ _ fun same => other (by rw [same])
  | reporter j => simp only [left,reporters]

/-- A report takes no turn from anybody, and a reporter that is told ends. -/
theorem moveReporter_takes (run : r.moveReporter i = some next) : Takes r next (.reporter i) ∧
    (∀ t, r.reporters[i]? = some t → r.signals.isRaised t.signal = true →
      next.left (.reporter i) < r.left (.reporter i)) := by
  have aside := moveReporter_aside run
  obtain ⟨_,_,_,_,_,clients,watchers,-⟩ := moveReporter_some run
  obtain ⟨t,at_i,running,move⟩ := moveReporter_move run
  have inside := (List.getElem?_eq_some_iff.mp at_i).1
  have staff : next.dispatchers.map Dispatcher.staff = r.dispatchers.map Dispatcher.staff := by rw [aside.dispatchers]
  have before : r.left (.reporter i) = 1 := by simp [left,at_i,running,ReporterStage.left]
  have takes {t' : Reporter} (reporters : next.reporters = r.reporters.set i t') (fewer : t'.stage.left ≤ 1) :
      Takes r next (.reporter i) := by
    have length : next.reporters.length = r.reporters.length := by rw [reporters,List.length_set]
    refine ⟨participants_eq (by rw [aside.producers]) (crews_of_staff staff) (by rw [watchers]) length,
      reporter_among at_i,?_,?_⟩
    · intro p other
      cases p with
      | main => simp only [left,aside.course]
      | producer j => simp only [left,aside.producers]
      | worker d w => exact workerLeft_eq staff clients _
      | watcher j => simp only [left,watchers]
      | reporter j =>
        simp only [left,reporters]
        exact elim_set _ _ fun same => other (by rw [same])
    · rw [before]
      simp only [left,reporters,List.getElem?_set_self inside,Option.elim_some]
      exact fewer
  cases move with
  | ends raised reporters =>
    refine ⟨takes reporters (Nat.zero_le 1),fun _ _ _ => ?_⟩
    rw [before]
    simp [left,reporters,inside,ReporterStage.left]
  | ticks unheard reporters =>
    refine ⟨takes reporters ?_,fun t' at_i' raised => ?_⟩
    · rw [Reporter.tick_stage,running]
      exact Nat.le_refl 1
    · cases at_i.symm.trans at_i'
      exact absurd raised unheard

theorem moveWorker_spends (told : r.stopped = true) (run : r.moveWorker d w = some next) :
    Spends r next (.worker d w) := by
  obtain ⟨fewer,others⟩ := moveWorker_left told run
  have course := moveWorker_course run
  obtain ⟨x,v,at_d,at_w,move⟩ := moveWorker_move run
  obtain ⟨z,after,serves⟩ := move.serves at_d at_w
  have crews : next.dispatchers.map (fun x => x.workers.length) = r.dispatchers.map fun x => x.workers.length := by
    have length : (z.place w after).workers.length = x.workers.length := by simp [Dispatcher.place,serves.workers]
    rw [serves.dispatchers,List.map_set,length]
    exact set_same (by simp [at_d])
  refine ⟨⟨participants_eq (by rw [serves.producers]) crews (by rw [serves.watchers]) (by rw [serves.reporters]),
    worker_among at_d at_w,?_,Nat.le_of_lt fewer⟩,fewer⟩
  intro p other
  cases p with
  | main => simp only [left,course]
  | producer j => simp only [left,serves.producers]
  | worker d' w' =>
    refine others ⟨d',w'⟩ fun same => other ?_
    cases same
    rfl
  | watcher j => simp only [left,serves.watchers]
  | reporter j => simp only [left,serves.reporters]

/-! ### The turns of the main task -/

/-- A turn of the main task that starts nothing and comes to a phase with fewer turns left. -/
theorem inPhase_spends {s : Run σ} {c' : Course σ} {phase : Phase σ} (course : r.course = some c) (still : Still r s)
    (fewer : phase.left < c.phase.left) : Spends r (s.inPhase c' phase) .main := by
  have staff : (s.inPhase c' phase).dispatchers.map Dispatcher.staff = r.dispatchers.map Dispatcher.staff :=
    congrArg (List.map Dispatcher.staff) still.dispatchers
  have fewer : (s.inPhase c' phase).left .main < r.left .main := by
    simp only [left,course]
    exact fewer
  refine ⟨⟨participants_eq (congrArg List.length still.producers) (crews_of_staff staff)
    (congrArg List.length still.watchers) (congrArg List.length still.reporters),by simp [participants],?_,
    Nat.le_of_lt fewer⟩,fewer⟩
  intro p other
  cases p with
  | main => exact absurd rfl other
  | producer j => exact congrArg (fun l => l[j]?.elim 0 fun q => q.stage.left) still.producers
  | worker d w => exact workerLeft_eq staff still.clients _
  | watcher j => exact congrArg (fun l => l[j]?.elim 0 fun v => v.stage.left) still.watchers
  | reporter j => exact congrArg (fun l => l[j]?.elim 0 fun t => t.stage.left) still.reporters

theorem WaitMove.spends {s : Run σ} {result : Except StoreError Bool} (move : WaitMove s next c .testEnd result)
    (course : r.course = some c) (goal : c.goal = .workload) (still : Still r s) (more : 1 < c.phase.left) :
    Spends r next .main := by
  cases move with
  | tells other => cases goal.symm.trans other
  | winds _ after =>
    have still : Still r s.stopAll := ⟨still.producers,still.dispatchers,still.clients,still.watchers,still.reporters⟩
    rw [after]
    exact inPhase_spends course still more

/-- A sentinel that has not settled settles when it is told, but for its pause. -/
theorem sentinel_left {t t' : Sentinel} {nowMs : Nat} {site site' : Site}
    (run : t.step true nowMs site = some (t',site')) : t'.outcome? = none → t'.stage.left < t.stage.left := by
  unfold Sentinel.step at run
  cases stage : t.stage with
  | opening =>
    simp only [stage,if_true] at run
    cases run
    intro unsettled
    cases unsettled
  | watching s =>
    simp only [stage,if_true] at run
    cases run
    intro unsettled
    cases unsettled
  | pausing untilMs =>
    simp only [stage] at run
    split at run
    · cases run
      exact fun _ => Nat.lt_succ_self 1
    · cases run
  | settled seen =>
    simp only [stage] at run
    cases run
  | failed err =>
    simp only [stage] at run
    cases run

theorem hangUp_still (r : Run σ) (id : Nat) (w : Wait) (result : Except StoreError Bool) :
    Still r (r.hangUp id w result) := by
  unfold hangUp
  split <;> exact ⟨rfl,rfl,rfl,rfl,rfl⟩

section
variable [RandomSource σ]

/-- While it waits for the end of the test and winds up the run, the main task comes nearer to its end. -/
theorem Follows.spends {phase : Phase σ} (follows : Follows c .testEnd phase) (move : MainMove r next c phase)
    (course : r.course = some c) (at_phase : c.phase = phase) (goal : c.goal = .workload) (told : r.stopped = true) :
    Spends r next .main := by
  cases follows with
  | dialing =>
    have more : 2 < c.phase.left := by
      rw [at_phase]
      exact Nat.lt_succ_self 2
    cases move with
    | connects connected after =>
      rw [after]
      exact inPhase_spends course ⟨rfl,rfl,rfl,rfl,rfl⟩ more
    | refused refused move => exact move.spends course goal ⟨rfl,rfl,rfl,rfl,rfl⟩ (Nat.lt_of_succ_lt more)
  | @guarding _ id t =>
    have there : c.phase.left = t.stage.left + 1 := by
      rw [at_phase]
      rfl
    cases move with
    | guards stepped unsettled after =>
      have heard : r.told .testEnd = true := told
      rw [heard] at stepped
      have fewer := sentinel_left stepped unsettled
      rw [after]
      refine inPhase_spends course ⟨rfl,rfl,rfl,rfl,rfl⟩ ?_
      rw [there]
      exact Nat.succ_lt_succ fewer
    | @settles _ _ _ t' site result stepped settled move =>
      have more : 1 < c.phase.left := by
        rw [there]
        cases t.stage <;> simp [SentinelStage.left]
      have left := hangUp_still { r with site } id .testEnd result
      have still : Still r (hangUp { r with site } id .testEnd result) :=
        ⟨left.producers,left.dispatchers,left.clients,left.watchers,left.reporters⟩
      exact move.spends course goal still more
  | finishing =>
    have more : 0 < c.phase.left := by
      rw [at_phase]
      exact Nat.one_pos
    cases move with
    | unreported after | fails failed after | keeps wound keeps after | reports wound ends after =>
      rw [after]
      exact inPhase_spends course ⟨rfl,rfl,rfl,rfl,rfl⟩ more

/-- After a client could not be connected again the main task starts nothing, and comes nearer to its end. -/
theorem moveMain_spends (heeding : Heeding e n r) (lost : Disconnected r) (run : r.moveMain = some next) :
    Spends r next .main := by
  have told := heeding.stopped lost
  obtain ⟨c,course,goal,-,reporting⟩ := heeding.conducts
  have manned {names : List String} (manned : c.phase.manned? = some names) := heeding.quit c names course manned
  have move := moveMain_move course run
  have waits {w : Wait} (follows : Follows c w c.phase) : Spends r next .main := by
    cases w with
    | testEnd => exact follows.spends move course rfl goal told
    | keepAlive =>
      -- everything has been joined well
      generalize c.phase = phase at follows manned move
      cases follows with
      | dialing => exact absurd lost (manned rfl : Quit [] r).connected
      | guarding => exact absurd lost (manned rfl : Quit [] r).connected
      | failed => cases move
      | reported => cases move
  cases reporting with
  | beginning phase dispatchers =>
    obtain ⟨d,w,client,cause,failed⟩ := lost
    rw [stageOf,dispatchers] at failed
    cases failed
  | loading phase loads alone =>
    have more : 0 < c.phase.left := by
      rw [phase]
      exact Nat.one_pos
    rw [phase] at move
    cases move with
    | broken at_i broken after | unjoined joined after =>
      rw [after]
      exact inPhase_spends course ⟨rfl,rfl,rfl,rfl,rfl⟩ more
    | goesOn done => exact absurd lost (done.quit alone).connected
    | loadsOn done other | loaded done other => cases goal.symm.trans other
  | opening phase steady unstarted =>
    have quit : Quit steadyNames r := manned (by rw [phase]; rfl)
    exact absurd lost (unstarted.quit quit).connected
  | awaiting follows => exact waits follows
  | reported follows => exact waits follows
  | unsteady phase =>
    rw [phase] at move
    cases move
  | failed phase =>
    rw [phase] at move
    cases move
  | crashed phase =>
    rw [phase] at move
    cases move

end

/-! ### All steps -/

theorem befallen_left (x : Watch.Interruption) (phase : Phase σ) : (befallen x phase).left = phase.left := by
  cases phase with
  | guarding w id t =>
    cases w with
    | keepAlive => rfl
    | testEnd =>
      show (t.interrupt x).stage.left + 1 = t.stage.left + 1
      unfold Sentinel.interrupt
      split
      · rename_i s stage
        rw [stage]
        rfl
      · rfl
  | _ => rfl

theorem interrupt_left (r : Run σ) (x : Watch.Interruption) : (r.interrupt x).allLeft = r.allLeft := by
  have participants : (r.interrupt x).participants = r.participants :=
    participants_eq rfl rfl (List.length_map _) rfl
  rw [allLeft,allLeft,participants]
  congr 2
  funext p
  cases p with
  | main =>
    cases course : r.course with
    | none => simp [left,interrupt,course]
    | some c =>
      simp only [left,interrupt_course course x,course,Option.elim_some]
      exact befallen_left x c.phase
  | watcher i =>
    have kept (v : Watch.Watcher) : (v.interrupt x).stage.left = v.stage.left := by
      unfold Watch.Watcher.interrupt
      split
      · rename_i s stage
        rw [stage]
        rfl
      · rfl
    show ((r.watchers.map (·.interrupt x))[i]?).elim 0 _ = (r.watchers[i]?).elim 0 _
    rw [List.getElem?_map]
    cases r.watchers[i]? with
    | none => rfl
    | some v => exact kept v
  | _ => rfl

section
variable [RandomSource σ]

/-- What is done to others than the producers, and time, takes no turn from anybody. -/
theorem intervene_left (r : Run σ) {x : Intervention} (undriven : (Event.outside x).drives = false) :
    (r.intervene x).allLeft = r.allLeft := by
  cases x with
  | interrupt x => exact interrupt_left r x
  | offer i op => cases undriven
  | urge i => cases undriven
  | dismiss i => cases undriven
  | _ => rfl

/-- Once a client could not be connected again, every turn takes from what is left, and nothing adds to it. -/
theorem step_left {ev : Event} (heeding : Heeding e n r) (staffed : Staffed r) (lost : Disconnected r)
    (run : r.step ev = some next) (undriven : ev.drives = false) :
    next.allLeft + (if ev.isWork then 1 else 0) ≤ r.allLeft := by
  have told := heeding.stopped lost
  cases ev with
  | turn p =>
    cases p with
    | main => exact (moveMain_spends heeding lost run).lt
    | producer i => exact (moveProducer_spends staffed told run).lt
    | worker d w => exact (moveWorker_spends told run).lt
    | watcher i => exact (moveWatcher_spends told run).lt
    | reporter i => exact (moveReporter_takes run).1.le
  | outside x =>
    cases run
    exact Nat.le_of_eq (intervene_left r undriven)
  | pass ms =>
    cases run
    exact Nat.le_refl r.allLeft

end

end Run

end Keyload
