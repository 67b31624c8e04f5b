import Keyload.Proofs.Run.BadDefinition

/-!
What becomes of a client that can not be connected again. Its worker ends with that and stops the run; the main task
never ends well after it, since it goes past the load, and past the end of the test, only when every worker that was
started until then has quit. And where the main task ends with such a failure, it is that of a worker which was refused
in a turn of its own.
-/
namespace Keyload

/-- The dispatchers that may have workers which have not quit while the main task waits. -/
def Wait.manned : Wait → List String
  | .testEnd => Run.steadyNames
  | .keepAlive => []

/-- The dispatchers that may have workers which have not quit, where all others have been joined. -/
def Phase.manned? {σ : Type} : Phase σ → Option (List String)
  | .opening .. => some Run.steadyNames
  | .dialing w .. => some w.manned
  | .guarding w .. => some w.manned
  | .finishing _ => some Run.steadyNames
  | .ended (.ok _) => some []
  | _ => none

namespace Run

variable {σ : Type}

/-- A worker has ended because the connection of its client could not be opened again. -/
def Disconnected (r : Run σ) : Prop :=
  ∃ d w client cause, r.stageOf d w = some (.ended (some (.reconnect client cause)))

/-- All workers have quit but for those of dispatchers with these names. -/
def Quit (names : List String) (r : Run σ) : Prop :=
  ∀ d name, r.nameOf d = some name → name ∉ names → ∀ w stage, r.stageOf d w = some stage → stage = .ended none

/-- The main task waits for a load, and a producer broke. -/
def LoadBroken (f : Fault) (r : Run σ) : Prop :=
  ∃ c d i p, r.course = some c ∧ c.phase = .loading d i ∧ p ∈ r.producers ∧ p.fault? = some f

/-- What a turn of the main task tells of failures by the phase that it leads to. -/
structure Heeds (r next : Run σ) (phase : Phase σ) : Prop where
  quit : ∀ names, phase.manned? = some names → Quit names next
  blames : ∀ client cause, phase = .ended (.error (.reconnect client cause)) →
    ∃ d w, r.stageOf d w = some (.ended (some (.reconnect client cause)))
  breaks : ∀ f, phase = .crashed f → Quit [] r ∨ LoadBroken f r

/-- A turn of the main task has led to a run in which no failure is lost. -/
def Heeded (r next : Run σ) : Prop := ∃ c, next.course = some c ∧ Heeds r next c.phase

/-- A whole run of an engine in which no failure is lost, when `n` operations had been begun before it. -/
structure Heeding (e : Engine) (n : Nat) (r : Run σ) : Prop where
  led : Led e .workload r
  conducts : Conducts e n r
  stopped : Disconnected r → r.stopped = true
  quit : ∀ c names, r.course = some c → c.phase.manned? = some names → Quit names r

variable {r next : Run σ} {c : Course σ} {e : Engine} {n d w : Nat} {names : List String}

/-! ### Workers that have quit -/

theorem nameOf_of_stage {stage : WorkerStage} (stands : r.stageOf d w = some stage) :
    ∃ name, r.nameOf d = some name := by
  obtain ⟨x,at_d,-⟩ := Option.bind_eq_some_iff.mp stands
  exact ⟨x.name,by rw [nameOf,at_d]; rfl⟩

/-- Where every worker has quit, none has failed. -/
theorem Quit.connected (quit : Quit [] r) : ¬Disconnected r := by
  rintro ⟨d,w,client,cause,failed⟩
  obtain ⟨name,named⟩ := nameOf_of_stage failed
  cases quit d name named List.not_mem_nil w _ failed

theorem Quit.weaken (quit : Quit [] r) (names : List String) : Quit names r :=
  fun d name named _ => quit d name named List.not_mem_nil

theorem Quit.same (quit : Quit names r) (dispatchers : next.dispatchers = r.dispatchers) : Quit names next := by
  intro d name named apart w stage stands
  rw [nameOf,dispatchers] at named
  rw [stageOf,dispatchers] at stands
  exact quit d name named apart w stage stands

theorem Quit.rests (quit : Quit names r) (rests : Rests r next) : Quit names next := by
  intro d name named apart w stage stands
  exact quit d name ((rests.nameOf d).symm.trans named) apart w stage ((rests.stageOf d w).symm.trans stands)

theorem Quit.worker (quit : Quit names r) (run : r.moveWorker d w = some next) : Quit names next := by
  obtain ⟨x,v,at_d,at_w,turn⟩ := moveWorker_turn run
  obtain ⟨x',v',at_d',at_w',move⟩ := moveWorker_move run
  cases at_d.symm.trans at_d'
  cases at_w.symm.trans at_w'
  obtain ⟨z,after,serves⟩ := move.serves at_d at_w
  intro d' name named apart w' stage stands
  have named : r.nameOf d' = some name := ((moveWorker_names run).1 d').symm.trans named
  rw [serves.stageOf at_d at_w] at stands
  split at stands
  · -- the worker that moves has not quit, so its dispatcher is one of those named
    rename_i own
    obtain ⟨rfl,rfl⟩ := own
    exact absurd (quit d' name named apart w' _ (stageOf_at at_d at_w)) (turn.active none)
  · exact quit d' name named apart w' stage stands

/-- The workers of dispatchers that have been joined well have quit. -/
theorem quit_of_joined (quit : Quit names r)
    (joined : ∀ (d : Nat) (x : Dispatcher), r.dispatchers[d]? = some x → x.name ∈ names → x.joined? = some (.ok ())) :
    Quit [] r := by
  intro d name named _ w stage stands
  by_cases among : name ∈ names
  · obtain ⟨x,at_d,stands⟩ := Option.bind_eq_some_iff.mp stands
    obtain ⟨v,at_w,stands⟩ := Option.bind_eq_some_iff.mp stands
    cases stands
    rw [nameOf,at_d] at named
    cases named
    exact Dispatcher.quit_of_joined (joined d x at_d among) v (List.mem_of_getElem? at_w)
  · exact quit d name named among w stage stands

/-- When the load has been joined well, all workers have quit. -/
theorem LoadOver.quit {i : Nat} {p : Producer σ} (done : LoadOver r 0 i p)
    (alone : ∀ d name, r.nameOf d = some name → d = 0 ∧ name = "load") : Quit [] r := by
  have all : Quit ["load"] r := by
    intro d name named apart
    rw [(alone d name named).2] at apart
    simp at apart
  exact quit_of_joined all fun d x at_d _ => done.all alone x (List.mem_of_getElem? at_d)

/-- When everything has wound down well, all workers have quit. -/
theorem quit_of_woundDown (quit : Quit steadyNames r) (registered : Registered r c)
    (wound : r.woundDown? c = some (.ok ())) : Quit [] r :=
  quit_of_joined quit fun d x at_d among =>
    joined_of_woundDown wound d (registered d x.name (by rw [nameOf,at_d]; rfl) among) x at_d

/-- The workers that are there when everything is started wait, and belong to dispatchers of the names known. -/
theorem quit_of_started (quit : Quit [] r)
    (kept : ∀ d w stage, next.stageOf d w = some stage → r.stageOf d w = some stage ∨ stage = .waiting)
    (serving : ∀ x ∈ next.dispatchers, x.isServed = true → x.name ∈ names) : Quit names next := by
  intro d name named apart w stage stands
  rcases kept d w stage stands with old | rfl
  · obtain ⟨name',named'⟩ := nameOf_of_stage old
    exact quit d name' named' List.not_mem_nil w stage old
  · obtain ⟨x,at_d,stands⟩ := Option.bind_eq_some_iff.mp stands
    obtain ⟨v,at_w,stands⟩ := Option.bind_eq_some_iff.mp stands
    have waits : v.stage = .waiting := Option.some.inj stands
    rw [nameOf,at_d] at named
    cases named
    have served := Dispatcher.served_of_active at_w (by simp [waits])
    exact absurd (serving x (List.mem_of_getElem? at_d) served) apart

theorem Unstarted.quit (unstarted : Unstarted r) (quit : Quit steadyNames r) : Quit [] r :=
  fun d name named _ => quit d name named (unstarted d name named)

theorem befallen_manned (x : Watch.Interruption) (phase : Phase σ) : (befallen x phase).manned? = phase.manned? := by
  cases phase <;> rfl

/-! ### The turns of the main task -/

/-- The main task goes where workers are known to have quit. -/
theorem heeded_of_quit {phase : Phase σ} (manned : phase.manned? = some names) (quit : Quit names next) :
    Heeded r (next.inPhase c phase) := by
  refine ⟨_,rfl,?_,?_,?_⟩
  · intro names' same
    cases manned.symm.trans same
    exact quit.same rfl
  · rintro client cause rfl
    cases manned
  · rintro f rfl
    cases manned

theorem heeded_of_loading (d i : Nat) : Heeded r (next.inPhase c (.loading d i)) := by
  refine ⟨_,rfl,?_,?_,?_⟩
  · intro names manned
    cases manned
  · intro client cause same
    cases same
  · intro f same
    cases same

theorem heeded_of_error {err : RunError} (blamed : ∀ client cause, err = .reconnect client cause →
    ∃ d w, r.stageOf d w = some (.ended (some (.reconnect client cause)))) :
    Heeded r (next.conclude c (.error err)) := by
  refine ⟨_,rfl,?_,?_,?_⟩
  · intro names manned
    cases manned
  · intro client cause same
    cases same
    exact blamed client cause rfl
  · intro f same
    cases same

theorem heeded_of_crash {f : Fault} (broken : Quit [] r ∨ LoadBroken f r) :
    Heeded r (next.inPhase c (.crashed f)) := by
  refine ⟨_,rfl,?_,?_,?_⟩
  · intro names manned
    cases manned
  · intro client cause same
    cases same
  · intro f' same
    cases same
    exact broken

theorem heeded_of_other {err : RunError} (other : ∀ client cause, err ≠ .reconnect client cause) :
    Heeded r (next.conclude c (.error err)) :=
  heeded_of_error fun client cause same => absurd same (other client cause)

/-! The wait for a key -/

theorem WaitMove.heeded {s : Run σ} {w : Wait} {result : Except StoreError Bool} (move : WaitMove s next c w result)
    (goal : c.goal = .workload) (quit : Quit w.manned s) : Heeded r next := by
  cases move with
  | reports after =>
    rw [after]
    exact heeded_of_quit rfl quit
  | fails after =>
    rw [after]
    exact heeded_of_other (by simp)
  | tells other => cases goal.symm.trans other
  | winds _ after =>
    rw [after]
    exact heeded_of_quit rfl (quit.same rfl)

/-- While it waits for a key and winds up the run, the main task loses no failure. -/
theorem Follows.heeded [RandomSource σ] {w : Wait} {phase : Phase σ} (follows : Follows c w phase)
    (move : MainMove r next c phase) (goal : c.goal = .workload)
    (quit : ∀ names, phase.manned? = some names → Quit names r) (registered : w = .testEnd → Registered r c) :
    Heeded r next := by
  cases follows with
  | dialing =>
    have quit : Quit w.manned r := quit _ rfl
    cases move with
    | connects connected after =>
      rw [after]
      exact heeded_of_quit rfl (quit.same rfl)
    | @refused _ _ _ _ site refused move =>
      have there : Quit w.manned { r with site } := quit.same rfl
      exact move.heeded goal there
  | guarding =>
    have quit : Quit w.manned r := quit _ rfl
    cases move with
    | guards stepped unsettled after =>
      rw [after]
      exact heeded_of_quit rfl (quit.same rfl)
    | @settles _ _ _ _ site _ stepped settled move =>
      have there : Quit w.manned { r with site } := quit.same rfl
      exact move.heeded goal (there.rests (hangUp_rests _ _ _ _))
  | finishing =>
    cases move with
    | unreported after =>
      rw [after]
      exact heeded_of_other (by simp)
    | @fails waited err failed after =>
      rw [after]
      refine heeded_of_error ?_
      rintro client cause rfl
      rcases failed with ⟨cause,-,same⟩ | wound
      · cases same
      · rcases woundDown_error wound with task | failed
        · cases task
        · exact failed
    | keeps wound keeps after =>
      have there : Quit [] { r with site := r.site.beginConnect.2 } :=
        (quit_of_woundDown (quit _ rfl) (registered rfl) wound).same rfl
      rw [after]
      exact heeded_of_quit rfl there
    | reports wound ends after =>
      rw [after]
      exact heeded_of_quit rfl (quit_of_woundDown (quit _ rfl) (registered rfl) wound)
  | failed => cases move
  | reported => cases move

/-! What follows the load -/

theorem run_adapt {m : Type → Type} [Monad m] {ε ε' α : Type} (f : ε → ε') (x : ExceptT ε m α) :
    (x.adapt f).run = Except.mapError f <$> x.run := rfl

section
variable [RandomSource σ]

theorem planWatches_unblamed {clients : List Nat} {source source' : σ} {err : RunError}
    (planned : (c.planWatches clients).run source = .ok (.error err,source')) (client : Nat) (cause : StoreError) :
    err ≠ .reconnect client cause := by
  rintro rfl
  unfold Course.planWatches at planned
  dsimp only at planned
  split at planned
  · cases planned
  · split at planned
    · cases planned
    · simp only [ExceptT.run_bind,run_adapt,bind_map_left] at planned
      obtain ⟨built,source'',-,planned⟩ := Draw.bind_ok planned
      cases built with
      | error bad => cases planned
      | ok plan =>
        dsimp only [Except.mapError] at planned
        split at planned
        · cases planned
        · split at planned <;> cases planned

theorem OpenMove.heeded {s : Run σ} {p : Prepared} {clients : List Nat} {source : σ}
    (move : OpenMove s next c p clients source) (quit : Quit [] r) (same : s.dispatchers = r.dispatchers) :
    Heeded r next := by
  cases move with
  | crash planned after =>
    rw [after]
    exact heeded_of_crash (.inl quit)
  | refuse planned after =>
    rw [after]
    exact heeded_of_other (planWatches_unblamed planned)
  | opens planned after =>
    rw [after]
    have there : Quit steadyNames s := (quit.weaken steadyNames).same same
    exact heeded_of_quit rfl (there.rests (watchTargets_rests s _ _))

theorem SteadyMove.heeded (move : SteadyMove r next c) (quit : Quit [] r) : Heeded r next := by
  cases move with
  | skips unsteady after =>
    rw [after]
    exact heeded_of_quit rfl quit
  | crash steady after =>
    rw [after]
    exact heeded_of_crash (.inl quit)
  | refuse steady defined after =>
    rw [after]
    exact heeded_of_other (by simp)
  | opens steady defined shared move => exact move.heeded quit rfl

/-- What the main task starts once the watches are open. -/
theorem Heeding.opened (heeding : Heeding e n r) (quit : Quit [] r) (run : r.moveMain = some next) {c' : Course σ}
    (course : next.course = some c') {untilMs : Nat} {a : Reaction} (phase : c'.phase = .dialing .testEnd untilMs a) :
    Heeded r next := by
  obtain ⟨c,course_before,equipped⟩ := heeding.led
  obtain ⟨deeds,-⟩ := moveMain_deeds course_before equipped run
  obtain ⟨c'',course'',-,-,reporting⟩ := heeding.conducts.main run
  cases course.symm.trans course''
  have serving : ∀ x ∈ next.dispatchers, x.isServed = true → x.name ∈ steadyNames := by
    cases reporting with
    | awaiting follows steady registered => exact steady.tallied.serving
    | reported follows reported =>
      rw [phase] at follows
      cases follows
    | _ at_phase => cases phase.symm.trans at_phase
  refine ⟨c',course,?_⟩
  rw [phase]
  refine ⟨?_,?_,?_⟩
  · intro names manned
    cases manned
    exact quit_of_started quit (fun d w stage stands => deeds.stageOf stands) serving
  · intro client cause same
    cases same
  · intro f same
    cases same

theorem Heeding.main (heeding : Heeding e n r) (run : r.moveMain = some next) : Heeded r next := by
  obtain ⟨c,course,goal,engine,reporting⟩ := heeding.conducts
  have quit (names : List String) (manned : c.phase.manned? = some names) := heeding.quit c names course manned
  have move := moveMain_move course run
  cases reporting with
  | beginning phase dispatchers putting log counts ramp =>
    rw [phase] at move
    cases move with
    | skipsLoad _ skips move =>
      refine move.heeded ?_
      intro d name named
      rw [nameOf,dispatchers] at named
      cases named
    | begins _ loads after =>
      rw [after]
      exact heeded_of_loading _ _
    | loads other | loadsNone other | dials other | watches other => cases goal.symm.trans other
  | loading phase loads alone tallied putting =>
    rw [phase] at move
    cases move with
    | broken at_i broken after =>
      rw [after]
      exact heeded_of_crash (.inr ⟨c,_,_,_,course,phase,List.mem_of_getElem? at_i,broken⟩)
    | unjoined joined after =>
      rw [after]
      refine heeded_of_error ?_
      rintro client cause rfl
      obtain ⟨d,-,w,failed⟩ := dispatchersJoined_error joined
      exact ⟨d,w,failed⟩
    | goesOn done _ move => exact move.heeded (done.quit alone)
    | loadsOn done other | loaded done other => cases goal.symm.trans other
  | opening phase steady unstarted =>
    have quit : Quit [] r := unstarted.quit (quit steadyNames (by rw [phase]; rfl))
    rw [phase] at move
    cases move with
    | unreplayed tried after | unstarted tried replays _ after =>
      rw [after]
      exact heeded_of_crash (.inl quit)
    | watching tried replays watches =>
      cases (Starting.replays goal engine steady unstarted replays).goal.symm.trans watches
    | starts tried replays _ started after =>
      subst after
      exact heeding.opened quit run rfl rfl
  | awaiting follows steady registered => exact follows.heeded move goal quit fun _ => registered
  | reported follows reported =>
    refine follows.heeded move goal quit fun same => ?_
    cases same
  | unsteady phase reported =>
    rw [phase] at move
    cases move
  | failed phase =>
    rw [phase] at move
    cases move
  | crashed phase =>
    rw [phase] at move
    cases move

/-! ### All steps -/

/-- A worker that has ended stays as it is. -/
theorem step_ended {ev : Event} {failure : Option RunError} (run : r.step ev = some next)
    (ended : r.stageOf d w = some (.ended failure)) : next.stageOf d w = some (.ended failure) := by
  by_cases main : ev = .turn .main
  · subst main
    obtain ⟨x,at_d,stands⟩ := Option.bind_eq_some_iff.mp ended
    obtain ⟨y,at_y,alike⟩ := (moveMain_extends run).quiet.dispatcher x at_d
    rw [← alike.workers] at stands
    exact Option.bind_eq_some_iff.mpr ⟨y,at_y,stands⟩
  · rcases step_rests run main with rests | ⟨d',w',moved⟩
    · exact (rests.stageOf d w).trans ended
    · obtain ⟨x,v,at_d,at_w,turn⟩ := moveWorker_turn moved
      obtain ⟨x',v',at_d',at_w',move⟩ := moveWorker_move moved
      cases at_d.symm.trans at_d'
      cases at_w.symm.trans at_w'
      obtain ⟨z,after,serves⟩ := move.serves at_d at_w
      rw [serves.stageOf at_d at_w,if_neg]
      · exact ended
      · rintro ⟨rfl,rfl⟩
        exact turn.active failure (Option.some.inj ((stageOf_at at_d at_w).symm.trans ended))

theorem Disconnected.step {ev : Event} (lost : Disconnected r) (run : r.step ev = some next) : Disconnected next := by
  obtain ⟨d,w,client,cause,failed⟩ := lost
  exact ⟨d,w,client,cause,step_ended run failed⟩

theorem Heeding.step {ev : Event} (heeding : Heeding e n r) (run : r.step ev = some next)
    (unoffered : ∀ i op, ev ≠ .outside (.offer i op)) : Heeding e n next := by
  have led := heeding.led.step run
  have conducts := heeding.conducts.step run unoffered
  refine ⟨led,conducts,?_,?_⟩
  · rintro ⟨d,w,client,cause,failed⟩
    rcases step_lapse heeding.led run failed with before | ⟨-,lapse⟩
    · exact step_stopped run (heeding.stopped ⟨d,w,client,cause,before⟩)
    · cases lapse with
      | refused refused => exact refused.stopped
  · intro c names course manned
    by_cases main : ev = .turn .main
    · subst main
      obtain ⟨c',course',heeds⟩ := heeding.main run
      cases course.symm.trans course'
      exact heeds.quit names manned
    · obtain ⟨c',course',-⟩ := heeding.conducts
      obtain ⟨phase,after,stays⟩ := step_course run main course'
      cases course.symm.trans after
      have still : c'.phase.manned? = some names := by
        rcases stays with rfl | ⟨x,rfl⟩
        · exact manned
        · rwa [befallen_manned] at manned
      have quit := heeding.quit c' names course' still
      rcases step_rests run main with rests | ⟨d,w,moved⟩
      · exact quit.rests rests
      · exact quit.worker moved

omit [RandomSource σ] in
theorem heeding_start (e : Engine) (options : DispatchOptions) (site : Site) (pool : Pool) (nowMs : Nat)
    (streams : Nat → σ) : Heeding e site.begun.size
      (ofCourse site pool nowMs (Course.start e .workload options pool.size nowMs streams)) := by
  refine ⟨led_start e .workload options site pool nowMs streams,.ofCourse e options site pool nowMs streams,?_,?_⟩
  · rintro ⟨d,w,client,cause,failed⟩
    cases failed
  · intro c names course manned
    cases course
    cases manned

theorem Heeding.steps {events : List Event} (heeding : Heeding e n r) (run : r.steps events = some next)
    (unoffered : ∀ i op, .outside (.offer i op) ∉ events) : Heeding e n next := by
  refine steps_induction (fun events s => (∀ i op, .outside (.offer i op) ∉ events) → Heeding e n s)
    (fun _ => heeding) ?_ run unoffered
  intro events s ev t _ before step unoffered
  refine (before fun i op member => unoffered i op (List.mem_append_left _ member)).step step ?_
  rintro i op rfl
  exact unoffered i op (by simp)

/-! ### How the main task ends -/

omit [RandomSource σ] in
/-- After a client could not be connected again the main task does not end well. -/
theorem Heeding.unwell (heeding : Heeding e n r) (lost : Disconnected r) (finding : Finding) :
    r.ending? ≠ some (ExceptT.mk (.ok (.ok finding))) := by
  intro ended
  obtain ⟨c,course,⟨result,phase,same⟩ | ⟨f,phase,same⟩⟩ := phase_of_ending ended
  · cases same
    exact (heeding.quit c [] course (by rw [phase]; rfl)).connected lost
  · cases same

/-- A failure that the main task ends with is that of a worker. -/
theorem Heeding.blamed {first : Run σ} {events : List Event} {client : Nat} {cause : StoreError}
    (heeding : Heeding e n first) (unended : first.ending? = none) (run : first.steps events = some r)
    (unoffered : ∀ i op, .outside (.offer i op) ∉ events)
    (ended : r.ending? = some (ExceptT.mk (.ok (.error (.reconnect client cause))))) :
    ∃ before s d w, before <+: events ∧ first.steps before = some s ∧
      s.stageOf d w = some (.ended (some (.reconnect client cause))) := by
  obtain ⟨before,after,s,t,rfl,at_s,moved,at_t,-⟩ := ends_by_main heeding.led unended run ended
  have heeding := heeding.steps at_s fun i op member => unoffered i op (List.mem_append_left _ member)
  obtain ⟨c,course,heeds⟩ := heeding.main moved
  obtain ⟨c',course',⟨result,phase,same⟩ | ⟨f,phase,same⟩⟩ := phase_of_ending at_t
  · cases same
    cases course.symm.trans course'
    obtain ⟨d,w,failed⟩ := heeds.blames client cause phase
    exact ⟨before,s,d,w,List.prefix_append _ _,at_s,failed⟩
  · cases same

/-- A worker that has failed so was refused a connection in a turn of its own. -/
theorem failed_refused {first : Run σ} {events : List Event} {g : Goal} {client : Nat} {cause : StoreError}
    (led : Led e g first) (nobody : first.dispatchers = []) (run : first.steps events = some r)
    (failed : r.stageOf d w = some (.ended (some (.reconnect client cause)))) :
    ∃ before s t c, before ++ [.turn (.worker d w)] <+: events ∧ first.steps before = some s ∧
      s.step (.turn (.worker d w)) = some t ∧ Refused s t d w c cause ∧ c.index = client := by
  refine (steps_induction (fun events r => Led e g r ∧
    (r.stageOf d w = some (.ended (some (.reconnect client cause))) → ∃ before s t c,
      before ++ [.turn (.worker d w)] <+: events ∧ first.steps before = some s ∧
        s.step (.turn (.worker d w)) = some t ∧ Refused s t d w c cause ∧ c.index = client)) ?_ ?_ run).2 failed
  · refine ⟨led,fun failed => ?_⟩
    rw [stageOf,nobody] at failed
    cases failed
  · intro events r ev next at_r before step
    obtain ⟨led,before⟩ := before
    refine ⟨led.step step,fun failed => ?_⟩
    rcases step_lapse led step failed with earlier | ⟨rfl,lapse⟩
    · obtain ⟨before,s,t,c,part,rest⟩ := before earlier
      exact ⟨before,s,t,c,part.trans (List.prefix_append _ _),rest⟩
    · cases lapse with
      | refused refused => exact ⟨events,r,next,_,List.prefix_rfl,at_r,step,refused,rfl⟩

end

end Run

end Keyload
