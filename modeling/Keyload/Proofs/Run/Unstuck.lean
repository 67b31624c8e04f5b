import Keyload.Proofs.Run.WindingDown

/-!
A run that winds down does not get stuck. Its workers, producers and watchers can go on until they have ended; then
every join is answered, reporters are told as soon as the main task waits for them, and the main task can go on itself.
-/
namespace Keyload

namespace Run

variable {σ : Type}

/-- The workers, the producers and the watchers have ended. -/
structure Gone (r : Run σ) : Prop where
  workers : ∀ u o v, r.workerAt u = some (o,v) → v.hasEnded = true
  producers : ∀ p ∈ r.producers, p.hasEnded = true
  watchers : ∀ v ∈ r.watchers, v.stage = .ended

variable {r next : Run σ} {c : Course σ} {e : Engine} {n i : Nat} {p : Producer σ}

/-! ### Joins that are answered -/

theorem Gone.joined (gone : Gone r) {d : Nat} {x : Dispatcher} (at_d : r.dispatchers[d]? = some x) :
    ∃ result, x.joined? = some result := by
  have unserved : x.isServed = false := by
    refine List.any_eq_false.mpr fun v member => ?_
    obtain ⟨w,at_w⟩ := List.mem_iff_getElem?.mp member
    simp [gone.workers ⟨d,w⟩ _ v (workerAt_at at_d at_w)]
  unfold Dispatcher.joined?
  rw [unserved]
  cases x.workers.findSome? Worker.failure? with
  | none => exact ⟨_,rfl⟩
  | some err => exact ⟨_,rfl⟩

theorem Gone.dispatchers (gone : Gone r) (ds : List Nat) : ∃ result, r.dispatchersJoined? ds = some result := by
  induction ds with
  | nil => exact ⟨_,rfl⟩
  | cons d ds ih =>
    obtain ⟨others,at_others⟩ := ih
    obtain ⟨one,at_one⟩ : ∃ one, r.dispatchers[d]?.elim (some (.ok ())) Dispatcher.joined? = some one := by
      cases at_d : r.dispatchers[d]? with
      | none => exact ⟨_,rfl⟩
      | some x => exact gone.joined at_d
    rw [dispatchersJoined?,at_one,at_others]
    cases one <;> exact ⟨_,rfl⟩

theorem Gone.ended (gone : Gone r) (ps : List Nat) : ∃ result, r.producersEnded? ps = some result := by
  induction ps with
  | nil => exact ⟨_,rfl⟩
  | cons i ps ih =>
    rw [producersEnded?]
    cases at_i : r.producers[i]? with
    | none => exact ih
    | some p =>
      have ended := gone.producers p (List.mem_of_getElem? at_i)
      simp only [ended,if_true]
      split
      · exact ⟨_,rfl⟩
      · exact ih

theorem Gone.closed (gone : Gone r) (c : Course σ) : ∃ result, r.watchesClosed? c = some result := by
  have watchers : (r.watchers.all fun v => v.stage == .ended) = true :=
    List.all_eq_true.mpr fun v member => by simp [gone.watchers v member]
  obtain ⟨produced,at_produced⟩ := gone.ended c.replays
  rw [watchesClosed?,watchers,at_produced]
  cases produced with
  | error err => exact ⟨_,rfl⟩
  | ok _ => exact gone.dispatchers _

theorem Gone.woundDown (gone : Gone r) (c : Course σ) : ∃ result, r.woundDown? c = some result := by
  obtain ⟨produced,at_produced⟩ := gone.ended (c.activities.map Prod.snd)
  obtain ⟨dispatched,at_dispatched⟩ := gone.dispatchers (c.activities.map Prod.fst)
  obtain ⟨closed,at_closed⟩ := gone.closed c
  rw [woundDown?,at_produced,at_dispatched,at_closed]
  cases produced with
  | error err => exact ⟨_,rfl⟩
  | ok _ => cases closed <;> exact ⟨_,rfl⟩

/-! ### Turns that can be had -/

/-- A sentinel that is told and has not settled goes on, after its pause if it has one. -/
theorem guard_told {id : Nat} {t : Sentinel} (told : r.stopped = true) (unsettled : t.outcome? = none) :
    ∃ ms next, (r.pass ms).guard c .testEnd id t = some next := by
  obtain ⟨ms,t',site,stepped⟩ : ∃ ms t' site, t.step true (r.pass ms).nowMs (r.pass ms).site = some (t',site) := by
    unfold Sentinel.outcome? at unsettled
    unfold Sentinel.step
    cases stage : t.stage with
    | opening => exact ⟨0,_,_,rfl⟩
    | watching s => exact ⟨0,_,_,rfl⟩
    | pausing untilMs => exact ⟨untilMs,_,_,if_pos (Nat.le_add_left untilMs r.nowMs)⟩
    | settled seen =>
      rw [stage] at unsettled
      cases unsettled
    | failed err =>
      rw [stage] at unsettled
      cases unsettled
  have told : (r.pass ms).stopped = true := told
  refine ⟨ms,?_⟩
  unfold guard
  simp only [told,stepped]
  cases t'.outcome? <;> exact ⟨_,rfl⟩

theorem finish_goes_on (gone : Gone r) (silent : ∀ t ∈ r.reporters, t.stage ≠ .running)
    (waited : Except StoreError Bool) : ∃ next, r.finish c waited = some next := by
  obtain ⟨outcome,wound⟩ := gone.woundDown c
  have none_runs : (r.reporters.any fun t => t.stage == .running) = false :=
    List.any_eq_false.mpr fun t member => by simpa using silent t member
  unfold finish
  rw [wound]
  simp only [Option.bind_eq_bind,Option.bind_some,none_runs]
  split <;> exact ⟨_,rfl⟩

theorem moveReporter_goes_on {t : Reporter} (at_i : r.reporters[i]? = some t) (running : t.stage = .running)
    (raised : r.signals.isRaised t.signal = true) : ∃ next, r.moveReporter i = some next := by
  simp [moveReporter,at_i,running,raised]

theorem moveWatcher_goes_on {v : Watch.Watcher} (told : r.stopped = true) (at_i : r.watchers[i]? = some v)
    (active : v.stage ≠ .ended) : ∃ next, r.moveWatcher i = some next := by
  obtain ⟨after,stepped⟩ : ∃ after, v.step r.stopped r.site = some after := by
    unfold Watch.Watcher.step
    rw [told]
    cases stage : v.stage with
    | opening => exact ⟨_,rfl⟩
    | watching s => exact ⟨_,rfl⟩
    | ended => exact absurd stage active
  simp [moveWatcher,at_i,stepped]

section
variable [RandomSource σ]

theorem choose_goes_on (own : ∀ ops, p.work ≠ .given ops) : ∃ q, p.choose = some q := by
  unfold Producer.choose
  cases work : p.work with
  | given ops => exact absurd work (own ops)
  | _ => exact ⟨_,rfl⟩

theorem moveProducer_goes_on (staffed : Staffed r) (told : r.stopped = true) (at_i : r.producers[i]? = some p)
    (active : p.hasEnded = false) : ∃ next, r.moveProducer i = some next := by
  obtain ⟨⟨name,named⟩,own⟩ := staffed p (List.mem_of_getElem? at_i)
  obtain ⟨x,at_d,-⟩ := Option.map_eq_some_iff.mp named
  obtain ⟨q,chosen⟩ := choose_goes_on own
  have interrupted : r.isInterrupted p = true := by simp [isInterrupted,told]
  unfold Producer.hasEnded at active
  unfold moveProducer
  simp only [at_i,at_d,Option.bind_eq_bind,Option.bind_some,interrupted,if_true]
  cases stage : p.stage with
  | ended => simp [stage] at active
  | broken f => simp [stage] at active
  | choosing => simp [chosen]
  | sending op subtree => simp [send,told]
  | delayed untilMs => exact ⟨_,rfl⟩
  | pacing held => exact ⟨_,rfl⟩

theorem awaitLoad_goes_on (gone : Gone r) (inside : i < r.producers.length) (c : Course σ) (d : Nat) :
    ∃ next, r.awaitLoad c d i = some next := by
  obtain ⟨p,at_i⟩ : ∃ p, r.producers[i]? = some p := ⟨_,List.getElem?_eq_getElem inside⟩
  have ended := gone.producers p (List.mem_of_getElem? at_i)
  obtain ⟨joined,at_joined⟩ := gone.dispatchers [d]
  unfold awaitLoad
  simp only [at_i,Option.bind_eq_bind,Option.bind_some,ended,if_true,at_joined]
  cases p.fault? with
  | some f => exact ⟨_,rfl⟩
  | none => cases joined <;> exact ⟨_,rfl⟩

/-- When all others have ended, and the reporters as far as it waits for them, the main task goes on. -/
theorem moveMain_goes_on (heeding : Heeding e n r) (fitting : Fitting r) (lost : Disconnected r)
    (unended : r.ending? = none) (gone : Gone r)
    (silent : ∀ c waited, r.course = some c → c.phase = .finishing waited → ∀ t ∈ r.reporters, t.stage ≠ .running) :
    ∃ ms next, (r.pass ms).moveMain = some next := by
  have told := heeding.stopped lost
  obtain ⟨c,course,goal,-,reporting⟩ := heeding.conducts
  obtain ⟨c',course',fits⟩ := fitting
  cases course.symm.trans course'
  have manned {names : List String} (manned : c.phase.manned? = some names) := heeding.quit c names course manned
  have at_main (ms : Nat) : (r.pass ms).course = some c := course
  have going : c.ending? = none := by
    rw [ending?,course] at unended
    exact unended
  unfold moveMain
  simp only [at_main]
  unfold Course.ending? at going
  cases phase : c.phase with
  | beginning => exact ⟨0,_,rfl⟩
  | loading d i =>
    rw [phase] at fits
    have gone : Gone (r.pass 0) := gone
    exact ⟨0,awaitLoad_goes_on gone fits.1 c d⟩
  | opening p targets clients source =>
    cases reporting with
    | opening at_phase steady unstarted =>
      have quit : Quit steadyNames r := manned (by rw [phase]; rfl)
      exact absurd lost (unstarted.quit quit).connected
    | awaiting follows =>
      rw [phase] at follows
      cases follows
    | reported follows =>
      rw [phase] at follows
      cases follows
    | _ at_phase => cases phase.symm.trans at_phase
  | dialing w untilMs a => exact ⟨untilMs,by simp [pass]⟩
  | guarding w id t =>
    cases w with
    | testEnd =>
      rw [phase] at fits
      exact guard_told told fits
    | keepAlive =>
      have quit : Quit [] r := manned (by rw [phase]; rfl)
      exact absurd lost quit.connected
  | finishing waited =>
    have gone : Gone (r.pass 0) := gone
    exact ⟨0,finish_goes_on gone (silent c waited course phase) waited⟩
  | ended result => simp [phase] at going
  | crashed f => simp [phase] at going

/-- As long as the main task has not ended, somebody can have a turn after some time that takes from what is left. -/
theorem Heeding.goes_on (heeding : Heeding e n r) (orderly : Orderly r) (lost : Disconnected r)
    (unended : r.ending? = none) : ∃ ms p next, (r.pass ms).move p = some next ∧ next.allLeft < r.allLeft := by
  have told := heeding.stopped lost
  by_cases workers : ∃ u o v, r.workerAt u = some (o,v) ∧ v.hasEnded = false
  · obtain ⟨u,o,v,at_u,active⟩ := workers
    obtain ⟨ms,d,w,next,run⟩ := orderly.lined.goes_on told at_u active
    have told : (r.pass ms).stopped = true := told
    exact ⟨ms,.worker d w,next,run,(moveWorker_spends told run).lt⟩
  by_cases producers : ∃ p ∈ r.producers, p.hasEnded = false
  · obtain ⟨p,member,active⟩ := producers
    obtain ⟨i,at_i⟩ := List.mem_iff_getElem?.mp member
    have staffed : Staffed (r.pass 0) := orderly.staffed
    obtain ⟨next,run⟩ := moveProducer_goes_on staffed told at_i active
    exact ⟨0,.producer i,next,run,(moveProducer_spends staffed told run).lt⟩
  by_cases watchers : ∃ v ∈ r.watchers, v.stage ≠ .ended
  · obtain ⟨v,member,active⟩ := watchers
    obtain ⟨i,at_i⟩ := List.mem_iff_getElem?.mp member
    have later : (r.pass 0).watchers[i]? = some v := at_i
    obtain ⟨next,run⟩ := moveWatcher_goes_on told later active
    exact ⟨0,.watcher i,next,run,(moveWatcher_spends told run).lt⟩
  have gone : Gone r := by
    refine ⟨fun u o v at_u => ?_,fun p member => ?_,fun v member => ?_⟩
    · by_contra active
      exact workers ⟨u,o,v,at_u,Bool.eq_false_iff.mpr active⟩
    · by_contra active
      exact producers ⟨p,member,Bool.eq_false_iff.mpr active⟩
    · by_contra active
      exact watchers ⟨v,member,active⟩
  by_cases silent : ∀ c waited, r.course = some c → c.phase = .finishing waited →
      ∀ t ∈ r.reporters, t.stage ≠ .running
  · obtain ⟨ms,next,run⟩ := moveMain_goes_on heeding orderly.fitting lost unended gone silent
    have step : r.step (.pass ms) = some (r.pass ms) := rfl
    have heeding := heeding.step step (by simp)
    exact ⟨ms,.main,next,run,(moveMain_spends heeding (lost.step step) run).lt⟩
  · push Not at silent
    obtain ⟨c,waited,course,phase,t,member,running⟩ := silent
    obtain ⟨c',course',fits⟩ := orderly.fitting
    cases course.symm.trans course'
    rw [phase] at fits
    have raised : r.signals.isRaised t.signal = true := fits t member running
    obtain ⟨i,at_i⟩ := List.mem_iff_getElem?.mp member
    have later : (r.pass 0).reporters[i]? = some t := at_i
    obtain ⟨next,run⟩ := moveReporter_goes_on later running raised
    obtain ⟨takes,fewer⟩ := moveReporter_takes run
    have spends : Spends (r.pass 0) next (.reporter i) := ⟨takes,fewer t later raised⟩
    exact ⟨0,.reporter i,next,run,spends.lt⟩

/-- If something stands, and as long as it is not over somebody can have a turn after some time that takes from what is
left, then by such turns and time alone it comes to be over. -/
theorem comes_to {stands ended : Run σ → Prop} {who : Participant → Prop}
    (goes_on : ∀ s, stands s → ¬ended s → ∃ ms p t, who p ∧ (s.pass ms).move p = some t ∧ t.allLeft < s.allLeft)
    (kept : ∀ s ms p t, stands s → s.steps [.pass ms,.turn p] = some t → stands t) (start : stands r) :
    ∃ more s, r.steps more = some s ∧ (∀ ev ∈ more, (∃ p, who p ∧ ev = .turn p) ∨ ∃ ms, ev = .pass ms) ∧
      ended s := by
  induction left : r.allLeft using Nat.strong_induction_on generalizing r with
  | _ k ih =>
    by_cases done : ended r
    · exact ⟨[],r,rfl,by simp,done⟩
    obtain ⟨ms,p,t,may,turn,fewer⟩ := goes_on r start done
    have run : r.steps [.pass ms,.turn p] = some t := by
      show ((r.pass ms).move p).bind _ = _
      rw [turn]
      rfl
    obtain ⟨more,s,run',plain,ends⟩ := ih t.allLeft (left ▸ fewer) (kept r ms p t start run) rfl
    refine ⟨[.pass ms,.turn p] ++ more,s,?_,fun ev member => ?_,ends⟩
    · rw [steps_append,run]
      exact run'
    · rcases List.mem_append.mp member with early | late
      · simp only [List.mem_cons,List.not_mem_nil,or_false] at early
        rcases early with rfl | rfl
        · exact .inr ⟨ms,rfl⟩
        · exact .inl ⟨p,may,rfl⟩
      · exact plain ev late

end

end Run

end Keyload
