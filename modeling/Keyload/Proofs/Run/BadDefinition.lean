import Keyload.Proofs.Run.Joins

/-!
What a run has done that ends with a bad definition. Everything that can be badly defined is read before the first of
what follows the load is started, and the load is over by then. So such a run has begun operations of the load alone and
has opened no connection but those that its workers renewed, nothing else was ever started, and the store is what the
load has left (`bad_definition_starts_nothing`).
-/
namespace Keyload

/-- A bad definition can not be what the main task ends with any more. -/
def Phase.isBeyond {σ : Type} : Phase σ → Prop
  | .beginning => False
  | .loading .. => False
  | .ended (.error (.definition _)) => False
  | _ => True

namespace Run

variable {σ : Type}

/-- Nothing but the load has been started, `n` operations having been begun before it. -/
structure LoadOnly (n : Nat) (r : Run σ) : Prop where
  alone : ∀ d name, r.nameOf d = some name → d = 0 ∧ name = "load"
  putting : Putting r
  since : n ≤ r.site.log.length
  begun : ∀ b ∈ r.site.log.drop n, b.1 = 0 ∧ b.2.kind = .put
  watchers : r.watchers = []
  reporters : r.reporters = []

/-- The connections, and the operations begun, are as they were. -/
structure Connected (s t : Site) : Prop where
  attempts : t.attempts = s.attempts
  issued : t.issued = s.issued
  history : t.history = s.history
  begun : t.begun = s.begun

/-- Where the main task stands up to when it ends with a bad definition. -/
inductive Undertaking (n : Nat) (r : Run σ) : Phase σ → Prop where
  | beginning (nobody : r.dispatchers = []) (only : LoadOnly n r) : Undertaking n r .beginning
  | loading {i : Nat} (only : LoadOnly n r) : Undertaking n r (.loading 0 i)
  | refused {bad : DefinitionError} (gone : Deserted r) (only : LoadOnly n r) :
      Undertaking n r (.ended (.error (.definition bad)))

/-- No worker has failed with a bad definition. -/
def Sane (r : Run σ) : Prop := ∀ d w bad, r.stageOf d w ≠ some (.ended (some (.definition bad)))

/-- A whole run of an engine, when `n` operations had been begun before it. -/
structure Undertakes (e : Engine) (n : Nat) (r : Run σ) : Prop where
  led : Led e .workload r
  sane : Sane r
  stands : ∃ c, r.course = some c ∧ (c.phase.isBeyond ∨ Undertaking n r c.phase)

variable {r next : Run σ} {c : Course σ} {e : Engine} {n d w : Nat} {bad : DefinitionError}

/-! ### While only the load is there -/

/-- What a worker begins is what it had. -/
theorem moveWorker_begins (run : r.moveWorker d w = some next) :
    ∃ (x : Dispatcher) (v : Worker) (begun : List Operation), r.dispatchers[d]? = some x ∧ x.workers[w]? = some v ∧
      next.site.log = r.site.log ++ begun.map (fun op => (d,op)) ∧ ∀ op ∈ begun, v.stage.operation? = some op := by
  obtain ⟨x,v,at_d,at_w,turn⟩ := moveWorker_turn run
  have nothing (log : next.site.log = r.site.log) : ∃ (x : Dispatcher) (v : Worker) (begun : List Operation),
      r.dispatchers[d]? = some x ∧ x.workers[w]? = some v ∧
        next.site.log = r.site.log ++ begun.map (fun op => (d,op)) ∧ ∀ op ∈ begun, v.stage.operation? = some op := by
    refine ⟨x,v,[],at_d,at_w,log.trans (List.append_nil _).symm,?_⟩
    intro op member
    cases member
  generalize at_stage : v.stage = stage at turn
  cases turn with
  | quit idle turned => exact nothing (turned.log.trans (List.append_nil _))
  | take oldest turned => exact nothing (turned.log.trans (List.append_nil _))
  | enter turned => exact nothing (turned.log.trans (List.append_nil _))
  | renew turned => exact nothing (turned.log.trans (List.append_nil _))
  | crash has turned => exact nothing (turned.log.trans (List.append_nil _))
  | disconnect stops has dispatchers course producers log => exact nothing log
  | finish has dispatchers producers log => exact nothing log
  | fault has dispatchers producers log => exact nothing log
  | @begin _ op sinceMs untilMs a has turned =>
    refine ⟨x,v,[op],at_d,at_w,turned.log,?_⟩
    intro op' member
    rw [List.mem_singleton.mp member,at_stage,WorkerStage.operation?,has]
    rfl

section
variable [RandomSource σ]

/-- Watchers and reporters are neither there nor come to be there but by the main task. -/
theorem step_unwatched {ev : Event} (run : r.step ev = some next) (main : ev ≠ .turn .main)
    (watchers : r.watchers = []) : next.watchers = [] := by
  cases ev with
  | turn p =>
    cases p with
    | main => exact absurd rfl main
    | producer i => exact (moveProducer_beside run).2.2.trans watchers
    | worker d w =>
      obtain ⟨x,v,at_d,at_w,move⟩ := moveWorker_move run
      obtain ⟨z,after,serves⟩ := move.serves at_d at_w
      exact serves.watchers.trans watchers
    | watcher i =>
      obtain ⟨v,at_i,-⟩ := Option.bind_eq_some_iff.mp run
      rw [watchers] at at_i
      cases at_i
    | reporter i =>
      obtain ⟨t,t',-,-,-,-,same,-⟩ := moveReporter_some run
      exact same.trans watchers
  | outside i =>
    cases run
    have on_producer (j : Nat) (f : Producer σ → Producer σ) : (r.onProducer j f).watchers = r.watchers :=
      onProducer_elim (fun s => s.watchers = r.watchers) rfl fun _ _ => (placeProducer_beside r j _).2.2
    cases i with
    | offer j op => exact (on_producer j _).trans watchers
    | urge j => exact (on_producer j _).trans watchers
    | dismiss j => exact (on_producer j _).trans watchers
    | interrupt x =>
      show r.watchers.map _ = []
      rw [watchers]
      rfl
    | _ => exact watchers
  | pass ms =>
    cases run
    exact watchers

theorem LoadOnly.step {ev : Event} (only : LoadOnly n r) (run : r.step ev = some next) (main : ev ≠ .turn .main)
    (unoffered : ∀ i op, ev ≠ .outside (.offer i op)) : LoadOnly n next := by
  have named := step_names run main
  have putting := only.putting.step run main unoffered
  have log : ∃ begun, next.site.log = r.site.log ++ begun ∧ ∀ b ∈ begun, b.1 = 0 ∧ b.2.kind = .put := by
    rcases step_rests run main with rests | ⟨d,w,moved⟩
    · refine ⟨[],rests.log.trans (List.append_nil _).symm,?_⟩
      intro b member
      cases member
    · obtain ⟨x,v,begun,at_d,at_w,log,has⟩ := moveWorker_begins moved
      refine ⟨_,log,?_⟩
      intro b member
      obtain ⟨op,among,rfl⟩ := List.mem_map.mp member
      have held : op ∈ x.inHand := List.mem_filterMap.mpr ⟨v,List.mem_of_getElem? at_w,has op among⟩
      refine ⟨(only.alone d x.name (by rw [nameOf,at_d]; rfl)).1,?_⟩
      exact only.putting.dispatchers x (List.mem_of_getElem? at_d) op (List.mem_append_right _ held)
  obtain ⟨begun,log,puts⟩ := log
  have since := only.since
  refine ⟨?_,putting,?_,?_,step_unwatched run main only.watchers,(step_beside run main).2 only.reporters⟩
  · intro d name at_d
    exact only.alone d name ((named d).symm.trans at_d)
  · rw [log,List.length_append]
    omega
  · intro b member
    rw [log,List.drop_append_of_le_length since] at member
    rcases List.mem_append.mp member with old | new
    · exact only.begun b old
    · exact puts b new

/-- Where there are no watchers, nobody but the main task, the workers and what is outside reaches the store. -/
theorem step_site {ev : Event} (run : r.step ev = some next) (watchers : r.watchers = []) :
    ev = .turn .main ∨ (∃ d w, ev = .turn (.worker d w)) ∨ (∃ i, ev = .outside i) ∧ Connected r.site next.site ∨
      next.site = r.site := by
  cases ev with
  | turn p =>
    cases p with
    | main => exact .inl rfl
    | producer i =>
      obtain ⟨p,-,turn⟩ := moveProducer_turn run
      refine .inr (.inr (.inr ?_))
      cases turn with
      | send stage at_d told served room after =>
        rw [after,placeProducer_site]
        rfl
      | place sent after => rw [after,placeProducer_site]
      | enlist after =>
        rw [after]
        rfl
    | worker d w => exact .inr (.inl ⟨d,w,rfl⟩)
    | watcher i =>
      obtain ⟨v,at_i,-⟩ := Option.bind_eq_some_iff.mp run
      rw [watchers] at at_i
      cases at_i
    | reporter i =>
      obtain ⟨t,t',-,-,-,-,-,site⟩ := moveReporter_some run
      exact .inr (.inr (.inr site))
  | outside i =>
    cases run
    have on_producer (j : Nat) (f : Producer σ → Producer σ) : Connected r.site (r.onProducer j f).site := by
      refine onProducer_elim (fun s => Connected r.site s.site) ⟨rfl,rfl,rfl,rfl⟩ fun p _ => ?_
      rw [placeProducer_site]
      exact ⟨rfl,rfl,rfl,rfl⟩
    refine .inr (.inr (.inl ⟨⟨i,rfl⟩,?_⟩))
    cases i with
    | offer j op => exact on_producer j _
    | urge j => exact on_producer j _
    | dismiss j => exact on_producer j _
    | _ => exact ⟨rfl,rfl,rfl,rfl⟩
  | pass ms =>
    cases run
    exact .inr (.inr (.inr rfl))

end

/-! ### The turns of the main task -/

/-- The main task is where a bad definition can not be what it ends with any more. -/
def Past (r : Run σ) : Prop := ∃ c, r.course = some c ∧ c.phase.isBeyond

/-- The main task has gone on, and reached nothing but itself unless it is past every bad definition. -/
def Onward (n : Nat) (r next : Run σ) : Prop :=
  Past next ∨ ∃ c, next.course = some c ∧ Undertaking n next c.phase ∧ next.site = r.site

theorem LoadOnly.alike (only : LoadOnly n r) (dispatchers : next.dispatchers = r.dispatchers)
    (producers : next.producers = r.producers) (site : next.site = r.site) (watchers : next.watchers = r.watchers)
    (reporters : next.reporters = r.reporters) (counts : next.recorder.counts.calls = next.recorder.counts.put) :
    LoadOnly n next := by
  refine ⟨fun d name at_d => ?_,⟨?_,?_,counts⟩,?_,?_,watchers.trans only.watchers,reporters.trans only.reporters⟩
  · rw [nameOf,dispatchers] at at_d
    exact only.alone d name at_d
  · rw [producers]
    exact only.putting.producers
  · rw [dispatchers]
    exact only.putting.dispatchers
  · rw [site]
    exact only.since
  · rw [site]
    exact only.begun

/-- Ending with an error starts nothing. -/
theorem conclude_onward (only : LoadOnly n r) (gone : Deserted r) (c : Course σ) (e : RunError) :
    Onward n r (r.conclude c (.error e)) := by
  cases e with
  | definition bad =>
    have still : LoadOnly n (r.conclude c (.error (.definition bad))) :=
      only.alike rfl rfl rfl rfl rfl only.putting.counted
    exact .inr ⟨_,rfl,.refused gone still,rfl⟩
  | _ => exact .inl ⟨_,rfl,trivial⟩

section
variable [RandomSource σ]

/-- All that can be badly defined is read before the first of what follows the load is started. -/
theorem SteadyMove.onward (move : SteadyMove r next c) (only : LoadOnly n r) (gone : Deserted r) : Onward n r next := by
  have only : LoadOnly n { r with recorder := r.recorder.reset } := only.alike rfl rfl rfl rfl rfl rfl
  cases move with
  | skips unsteady after | crash steady after =>
    rw [after]
    exact .inl ⟨_,rfl,trivial⟩
  | refuse steady defined after =>
    rw [after]
    exact conclude_onward only gone _ _
  | opens steady defined shared move =>
    cases move with
    | crash planned after | opens planned after =>
      rw [after]
      exact .inl ⟨_,rfl,trivial⟩
    | refuse planned after =>
      rw [after]
      exact conclude_onward only gone _ _

omit [RandomSource σ] in
theorem beginLoad_onward (nobody : r.dispatchers = []) (only : LoadOnly n r) (c : Course σ) (total : Nat) :
    Onward n r (r.beginLoad c total) := by
  have first : r.nextDispatcher = 0 := by rw [nextDispatcher,nobody]; rfl
  have phase : Phase.loading (σ := σ) r.nextDispatcher r.nextProducer = .loading 0 r.nextProducer := by rw [first]
  refine .inr ⟨_,rfl,?_,rfl⟩
  show Undertaking n _ (.loading r.nextDispatcher r.nextProducer)
  rw [phase]
  refine .loading ⟨?_,⟨?_,?_,only.putting.counted⟩,only.since,only.begun,only.watchers,only.reporters⟩
  · intro d name named
    rcases nameOf_employ named with old | ⟨rfl,rfl⟩
    · exact only.alone d name old
    · exact ⟨first,rfl⟩
  · intro p member
    rcases List.mem_append.mp member with old | new
    · exact only.putting.producers p old
    · rw [List.mem_singleton.mp new]
      refine ⟨⟨_,rfl⟩,fun op ready => ?_⟩
      cases ready
  · intro x member
    rcases List.mem_append.mp member with old | new
    · exact only.putting.dispatchers x old
    · rw [List.mem_singleton.mp new]
      intro op held
      have nothing : (Dispatcher.start "load" c.options c.pool).inHand = [] := start_idle _ _ _ rfl
      rw [nothing] at held
      cases held

theorem Undertaking.main {phase : Phase σ} (undertaking : Undertaking n r phase) (goal : c.goal = .workload)
    (sane : Sane r) (move : MainMove r next c phase) : Onward n r next := by
  cases undertaking with
  | beginning nobody only =>
    cases move with
    | skipsLoad _ skips move =>
      refine move.onward only fun x member => ?_
      rw [nobody] at member
      cases member
    | begins _ loads after =>
      rw [after]
      exact beginLoad_onward nobody only c _
    | loads other | loadsNone other | dials other | watches other => cases goal.symm.trans other
  | loading only =>
    cases move with
    | broken at_i broken after =>
      rw [after]
      exact .inl ⟨_,rfl,trivial⟩
    | @unjoined d i e joined after =>
      obtain ⟨d,-,w,failed⟩ := dispatchersJoined_error joined
      rw [after]
      cases e with
      | definition bad => exact absurd failed (sane d w bad)
      | _ => exact .inl ⟨_,rfl,trivial⟩
    | goesOn done _ move =>
      have gone : Deserted r := fun x member => (Dispatcher.joined_ok (done.all only.alone x member)).1
      exact move.onward only gone
    | loadsOn done other | loaded done other => cases goal.symm.trans other
  | refused gone only => cases move

omit [RandomSource σ] in
theorem WaitMove.past {w : Wait} {result : Except StoreError Bool} (move : WaitMove r next c w result)
    (goal : c.goal = .workload) : Past next := by
  cases move with
  | tells other => cases goal.symm.trans other
  | reports after | fails after | winds _ after =>
    rw [after]
    exact ⟨_,rfl,trivial⟩

/-- What is past every bad definition stays there. -/
theorem Past.main {phase : Phase σ} (past : phase.isBeyond) (goal : c.goal = .workload) (sane : Sane r)
    (move : MainMove r next c phase) : Past next := by
  cases move with
  | skipsLoad | begins | loads | loadsNone | dials | watches | broken | unjoined | loadsOn | loaded | goesOn =>
    exact past.elim
  | unreplayed tried after | watching tried replays _ after | unstarted tried replays _ after
  | starts tried replays _ started after | connects connected after | guards stepped unsettled after
  | unreported after | keeps wound keeps after | reports wound ends after =>
    rw [after]
    exact ⟨_,rfl,trivial⟩
  | refused refused move => exact move.past goal
  | settles stepped settled move => exact move.past goal
  | @fails waited e failed after =>
    rw [after]
    cases e with
    | definition bad =>
      rcases failed with ⟨cause,-,same⟩ | wound
      · cases same
      · rcases woundDown_error wound with broken | ⟨d,w,failed⟩
        · cases broken
        · exact absurd failed (sane d w bad)
    | _ => exact ⟨_,rfl,trivial⟩

/-! ### Whole runs -/

omit [RandomSource σ] in
theorem befallen_beyond {x : Watch.Interruption} {phase : Phase σ} (past : phase.isBeyond) :
    (befallen x phase).isBeyond := by
  unfold befallen
  split
  · trivial
  · exact past

theorem Undertaking.beside {ev : Event} {phase : Phase σ} (undertaking : Undertaking n r phase)
    (run : r.step ev = some next) (main : ev ≠ .turn .main) (unoffered : ∀ i op, ev ≠ .outside (.offer i op)) :
    Undertaking n next phase := by
  cases undertaking with
  | beginning nobody only =>
    refine .beginning ?_ (only.step run main unoffered)
    refine List.eq_nil_iff_forall_not_mem.mpr fun x member => ?_
    obtain ⟨d,at_d⟩ := List.mem_iff_getElem?.mp member
    have named := step_names run main d
    rw [nameOf,at_d,nameOf,nobody] at named
    cases named
  | loading only => exact .loading (only.step run main unoffered)
  | refused gone only =>
    refine .refused ?_ (only.step run main unoffered)
    rcases step_rests run main with rests | ⟨d,w,moved⟩
    · exact rests.deserted gone
    · rw [gone.idle] at moved
      cases moved

/-- One step of a whole run: it is past every bad definition afterwards, or it was on the way to one and the main task
has left the store alone. -/
theorem Undertakes.step {ev : Event} (undertakes : Undertakes e n r) (run : r.step ev = some next)
    (unoffered : ∀ i op, ev ≠ .outside (.offer i op)) :
    Undertakes e n next ∧ (Past r → Past next) ∧ (Past next ∨ (ev = .turn .main → next.site = r.site)) := by
  obtain ⟨led,sane,c,course,stands⟩ := undertakes
  have still : Sane next := by
    intro d w bad failed
    rcases step_lapse led run failed with before | ⟨-,lapse⟩
    · exact sane d w bad before
    · exact lapse.undefined bad rfl
  have goal : c.goal = .workload := by
    obtain ⟨c',course',equipped⟩ := led
    cases course.symm.trans course'
    exact equipped.goal
  by_cases main : ev = .turn .main
  · subst main
    have onward : (Past r → Past next) ∧ Onward n r next := by
      rcases stands with past | undertaking
      · have past := Past.main past goal sane (moveMain_move course run)
        exact ⟨fun _ => past,.inl past⟩
      · refine ⟨?_,undertaking.main goal sane (moveMain_move course run)⟩
        rintro ⟨c',course',past⟩
        cases course.symm.trans course'
        generalize c.phase = phase at past undertaking
        cases undertaking <;> exact past.elim
    obtain ⟨keeps,⟨c',course',past⟩ | ⟨c',course',undertaking,site⟩⟩ := onward
    · exact ⟨⟨led.step run,still,c',course',.inl past⟩,keeps,.inl ⟨c',course',past⟩⟩
    · exact ⟨⟨led.step run,still,c',course',.inr undertaking⟩,keeps,.inr fun _ => site⟩
  · obtain ⟨phase,after,stays⟩ := step_course run main course
    refine ⟨⟨led.step run,still,_,after,?_⟩,?_,.inr fun same => absurd same main⟩
    · rcases stands with past | undertaking
      · left
        rcases stays with rfl | ⟨x,rfl⟩
        · exact past
        · exact befallen_beyond past
      · right
        have same : phase = c.phase := by
          rcases stays with rfl | ⟨x,rfl⟩
          · rfl
          · generalize c.phase = phase at undertaking
            cases undertaking <;> rfl
        show Undertaking n next phase
        rw [same]
        exact undertaking.beside run main unoffered
    · rintro ⟨c',course',past⟩
      cases course.symm.trans course'
      refine ⟨_,after,?_⟩
      rcases stays with rfl | ⟨x,rfl⟩
      · exact past
      · exact befallen_beyond past

theorem Undertakes.steps {events : List Event} (undertakes : Undertakes e n r) (run : r.steps events = some next)
    (unoffered : ∀ i op, .outside (.offer i op) ∉ events) : Undertakes e n next ∧ (Past r → Past next) := by
  refine steps_induction (fun events s => (∀ i op, .outside (.offer i op) ∉ events) → Undertakes e n s ∧
    (Past r → Past s)) (fun _ => ⟨undertakes,id⟩) ?_ run unoffered
  intro events s ev t _ before step unoffered
  obtain ⟨undertakes,past⟩ := before fun i op member => unoffered i op (List.mem_append_left _ member)
  obtain ⟨undertakes,further,-⟩ := undertakes.step step fun i op same => unoffered i op (by simp [same])
  exact ⟨undertakes,fun at_first => further (past at_first)⟩

omit [RandomSource σ] in
theorem Undertaking.only {phase : Phase σ} (undertaking : Undertaking n r phase) : LoadOnly n r := by
  cases undertaking with
  | beginning nobody only => exact only
  | loading only => exact only
  | refused gone only => exact only

omit [RandomSource σ] in
/-- Up to a bad definition there is nothing but the load, and no watch is open. -/
theorem Undertakes.unpast (undertakes : Undertakes e n r) (unpast : ¬Past r) : LoadOnly n r ∧ r.watchesOpen = 0 := by
  obtain ⟨c,course,past | undertaking⟩ := undertakes.stands
  · exact absurd ⟨c,course,past⟩ unpast
  · refine ⟨undertaking.only,?_⟩
    have unopened : r.sentinelOpen = false := by
      rw [sentinelOpen,course,Option.map_some]
      generalize c.phase = phase at undertaking
      cases undertaking <;> rfl
    rw [watchesOpen,undertaking.only.watchers,unopened]
    rfl

omit [RandomSource σ] in
/-- Where the main task stands when it has ended. -/
theorem phase_of_ending {x : Outcome RunError Finding} (ended : r.ending? = some x) : ∃ c, r.course = some c ∧
    ((∃ result, c.phase = .ended result ∧ x = ExceptT.mk (.ok result)) ∨
      ∃ f, c.phase = .crashed f ∧ x = Outcome.stop f) := by
  obtain ⟨c,course,ended⟩ := Option.bind_eq_some_iff.mp ended
  refine ⟨c,course,?_⟩
  unfold Course.ending? at ended
  split at ended
  · rename_i result phase
    exact .inl ⟨result,phase,(Option.some.inj ended).symm⟩
  · rename_i f phase
    exact .inr ⟨f,phase,(Option.some.inj ended).symm⟩
  · cases ended

omit [RandomSource σ] in
theorem course_of_ending (ended : r.ending? = some (ExceptT.mk (.ok (.error (.definition bad))))) :
    ∃ c, r.course = some c ∧ c.phase = .ended (.error (.definition bad)) := by
  obtain ⟨c,course,⟨result,phase,same⟩ | ⟨f,phase,same⟩⟩ := phase_of_ending ended
  · cases same
    exact ⟨c,course,phase⟩
  · cases same

omit [RandomSource σ] in
theorem not_past_of_ending (ended : r.ending? = some (ExceptT.mk (.ok (.error (.definition bad))))) : ¬Past r := by
  rintro ⟨c,course,past⟩
  obtain ⟨c',course',phase⟩ := course_of_ending ended
  cases course.symm.trans course'
  rw [phase] at past
  exact past

/-- Once the main task has ended with a bad definition, the store is left as it is. -/
theorem Undertakes.left {events : List Event} {ev : Event} {s t : Run σ} (undertakes : Undertakes e n r)
    (ended : r.ending? = some (ExceptT.mk (.ok (.error (.definition bad)))))
    (unoffered : ∀ i op, .outside (.offer i op) ∉ events) (run : r.steps events = some s) (step : s.step ev = some t) :
    (∃ i, ev = .outside i) ∨ t.site = s.site := by
  obtain ⟨c,course,phase⟩ := course_of_ending ended
  have refused : (∃ c, s.course = some c ∧ c.phase = .ended (.error (.definition bad))) ∧
      Undertaking n s (.ended (.error (.definition bad))) := by
    refine steps_induction (fun events s => (∀ i op, .outside (.offer i op) ∉ events) →
      (∃ c, s.course = some c ∧ c.phase = .ended (.error (.definition bad))) ∧
        Undertaking n s (.ended (.error (.definition bad)))) (fun _ => ⟨⟨c,course,phase⟩,?_⟩) ?_ run unoffered
    · obtain ⟨c',course',past | undertaking⟩ := undertakes.stands
      · exact absurd ⟨c',course',past⟩ (not_past_of_ending ended)
      · cases course.symm.trans course'
        rwa [phase] at undertaking
    · intro events s ev t _ before step unoffered
      obtain ⟨⟨c,course,phase⟩,undertaking⟩ := before fun i op member => unoffered i op (List.mem_append_left _ member)
      have main : ev ≠ .turn .main := by
        rintro rfl
        have moved : s.moveMain = some t := step
        rw [moveMain,course] at moved
        simp only [phase] at moved
        cases moved
      obtain ⟨phase',after,stays⟩ := step_course step main course
      refine ⟨⟨_,after,?_⟩,undertaking.beside step main fun i op same => unoffered i op (by simp [same])⟩
      rcases stays with rfl | ⟨x,rfl⟩
      · exact phase
      · show befallen x c.phase = _
        rw [phase]
        rfl
  obtain ⟨⟨c,course,phase⟩,undertaking⟩ := refused
  cases undertaking with
  | refused gone only =>
    rcases step_site step only.watchers with rfl | ⟨d,w,rfl⟩ | ⟨outside,-⟩ | same
    · have moved : s.moveMain = some t := step
      rw [moveMain,course] at moved
      simp only [phase] at moved
      cases moved
    · have moved : s.moveWorker d w = some t := step
      rw [gone.idle] at moved
      cases moved
    · exact .inl outside
    · exact .inr same

/-- The main task ends by its own turn. -/
theorem step_ending {ev : Event} {g : Goal} (led : Led e g r) (run : r.step ev = some next) (main : ev ≠ .turn .main) :
    next.ending? = r.ending? := by
  obtain ⟨c,course,-⟩ := led
  obtain ⟨phase,after,stays⟩ := step_course run main course
  rw [ending?,ending?,course,after]
  show Course.ending? { c with phase } = c.ending?
  rcases stays with rfl | ⟨x,rfl⟩
  · rfl
  · unfold befallen
    cases at_phase : c.phase <;> simp [Course.ending?,at_phase]

/-- Where a run has ended, its main task has had a turn by which it ended. -/
theorem ends_by_main {first : Run σ} {g : Goal} {events : List Event} {x : Outcome RunError Finding}
    (led : Led e g first) (unended : first.ending? = none) (run : first.steps events = some r)
    (ended : r.ending? = some x) : ∃ before after s t, events = before ++ .turn .main :: after ∧
      first.steps before = some s ∧ s.moveMain = some t ∧ t.ending? = some x ∧ t.steps after = some r := by
  refine (steps_induction (fun events r => Led e g r ∧ (r.ending? = some x → ∃ before after s t,
    events = before ++ .turn .main :: after ∧ first.steps before = some s ∧ s.moveMain = some t ∧
      t.ending? = some x ∧ t.steps after = some r)) ⟨led,fun ended => ?_⟩ ?_ run).2 ended
  · rw [unended] at ended
    cases ended
  · intro events r ev next run before step
    obtain ⟨led,before⟩ := before
    refine ⟨led.step step,fun ended => ?_⟩
    by_cases main : ev = .turn .main
    · subst main
      exact ⟨events,[],r,next,rfl,run,step,ended,rfl⟩
    · obtain ⟨earlier,after,s,t,rfl,at_s,moved,at_t,later⟩ := before ((step_ending led step main).symm.trans ended)
      refine ⟨earlier,after ++ [ev],s,t,by simp,at_s,moved,at_t,?_⟩
      rw [steps_concat,later]
      exact step

/-- What a run has done, in these steps, in which nothing but a load was started. -/
structure LoadedOnly (first : Run σ) (events : List Event) (r : Run σ) : Prop where
  /-- All along there is nothing but the load, which alone has begun operations, and no watch is open. -/
  only : ∀ before s, before <+: events → first.steps before = some s →
    LoadOnly first.site.begun.size s ∧ s.watchesOpen = 0
  /-- Only workers of the load reach the store, and what is outside, which leaves connections and operations alone. -/
  reaches : ∀ before ev s t, before ++ [ev] <+: events → first.steps before = some s → s.step ev = some t →
    (∃ w, ev = .turn (.worker 0 w)) ∨ (∃ i, ev = .outside i) ∧ Connected s.site t.site ∨ t.site = s.site
  /-- The main task ends when the load is over, and leaves the store as it is; so does all that is to come. -/
  left : ∃ before after s t, events = before ++ .turn .main :: after ∧ first.steps before = some s ∧
    s.moveMain = some t ∧ t.ending? = r.ending? ∧ Deserted t ∧ t.site = s.site ∧
    ∀ between ev u v, between ++ [ev] <+: after → t.steps between = some u → u.step ev = some v →
      (∃ i, ev = .outside i) ∨ v.site = u.site

omit [RandomSource σ] in
theorem undertakes_start (e : Engine) (options : DispatchOptions) (site : Site) (pool : Pool) (nowMs : Nat)
    (streams : Nat → σ) : Undertakes e site.begun.size
      (ofCourse site pool nowMs (Course.start e .workload options pool.size nowMs streams)) := by
  refine ⟨led_start e .workload options site pool nowMs streams,?_,_,rfl,.inr (.beginning rfl ?_)⟩
  · intro d w bad failed
    cases failed
  refine ⟨?_,⟨?_,?_,rfl⟩,?_,?_,rfl,rfl⟩
  · intro d name named
    cases named
  · intro p member
    cases member
  · intro x member
    cases member
  · exact Nat.le_of_eq (log_length site).symm
  · intro b member
    have nothing : site.log.drop site.begun.size = [] := List.drop_eq_nil_of_le (Nat.le_of_eq (log_length site))
    have member : b ∈ site.log.drop site.begun.size := member
    rw [nothing] at member
    cases member

/-- A whole run that ends with a bad definition has started nothing but its load, over every order of steps and whatever
the store answers. -/
theorem bad_definition_starts_nothing {options : DispatchOptions} {site : Site} {pool : Pool} {nowMs : Nat}
    {streams : Nat → σ} {events : List Event}
    (run : (ofCourse site pool nowMs (Course.start e .workload options pool.size nowMs streams)).steps events = some r)
    (unoffered : ∀ i op, .outside (.offer i op) ∉ events)
    (ended : r.ending? = some (ExceptT.mk (.ok (.error (.definition bad))))) :
    LoadedOnly (ofCourse site pool nowMs (Course.start e .workload options pool.size nowMs streams)) events r := by
  have start := undertakes_start e options site pool nowMs streams
  generalize at_first : ofCourse site pool nowMs (Course.start e .workload options pool.size nowMs streams) = first at *
  have size : first.site.begun.size = site.begun.size := by rw [← at_first]; rfl
  have unpast := not_past_of_ending ended
  -- a state that was past every bad definition would have led to another one
  have along {before : List Event} {s : Run σ} (part : before <+: events) (at_s : first.steps before = some s) :
      Undertakes e site.begun.size s ∧ ¬Past s := by
    obtain ⟨after,rfl⟩ := part
    have undertakes := (start.steps at_s fun i op member => unoffered i op (List.mem_append_left _ member)).1
    refine ⟨undertakes,fun past => unpast ?_⟩
    rw [steps_append,at_s] at run
    exact (undertakes.steps run fun i op member => unoffered i op (List.mem_append_right _ member)).2 past
  have outside {ev : Event} (member : ev ∈ events) (i : Nat) (op : Operation) : ev ≠ .outside (.offer i op) := by
    rintro rfl
    exact unoffered i op member
  refine ⟨?_,?_,?_⟩
  · intro before s part at_s
    obtain ⟨undertakes,unpast⟩ := along part at_s
    rw [size]
    exact undertakes.unpast unpast
  · intro before ev s t part at_s step
    obtain ⟨undertakes,unpast⟩ := along ((List.prefix_append before [ev]).trans part) at_s
    have at_t : first.steps (before ++ [ev]) = some t := by
      rw [steps_concat,at_s]
      exact step
    have only := (undertakes.unpast unpast).1
    rcases step_site step only.watchers with rfl | ⟨d,w,rfl⟩ | reached | same
    · have member := part.subset (List.mem_append_right before List.mem_cons_self)
      rcases (undertakes.step step (outside member)).2.2 with past | site
      · exact absurd past (along part at_t).2
      · exact .inr (.inr (site rfl))
    · obtain ⟨x,v,at_d,-⟩ := moveWorker_move step
      obtain ⟨rfl,-⟩ := only.alone d x.name (by rw [nameOf,at_d]; rfl)
      exact .inl ⟨w,rfl⟩
    · exact .inr (.inl reached)
    · exact .inr (.inr same)
  · have unended : first.ending? = none := by
      rw [← at_first]
      rfl
    obtain ⟨before,after,s,t,rfl,at_s,moved,at_t,later⟩ := ends_by_main start.led unended run ended
    have part : before ++ [.turn .main] <+: before ++ .turn .main :: after := ⟨after,by simp⟩
    have reached : first.steps (before ++ [.turn .main]) = some t := by
      rw [steps_concat,at_s]
      exact moved
    obtain ⟨undertakes,unpast⟩ := along part reached
    refine ⟨before,after,s,t,rfl,at_s,moved,at_t.trans ended.symm,?_,?_,?_⟩
    · obtain ⟨c,course,phase⟩ := course_of_ending at_t
      obtain ⟨c',course',past | undertaking⟩ := undertakes.stands
      · exact absurd ⟨c',course',past⟩ unpast
      · cases course.symm.trans course'
        rw [phase] at undertaking
        cases undertaking with
        | refused gone only => exact gone
    · have undertakes := (along (List.prefix_append before _) at_s).1
      have member : Event.turn .main ∈ before ++ .turn .main :: after :=
        List.mem_append_right before List.mem_cons_self
      have step : s.step (.turn .main) = some t := moved
      rcases (undertakes.step step (outside member)).2.2 with past | site
      · exact absurd past unpast
      · exact site rfl
    · intro between ev u v part at_u step
      refine undertakes.left at_t ?_ at_u step
      intro i op member
      refine unoffered i op (List.mem_append_right before (List.mem_cons_of_mem _ ?_))
      exact part.subset (List.mem_append_left [ev] member)

end

/-! ### A level that is too deep -/

/-- Settings of one pattern that ask to rebuild a level which it does not have. -/
def tooDeep (pattern : String) : Settings :=
  { Engine.plainly pattern with churn := { Settings.standard.churn with levelRate := some 0, level := 5 } }

/-- A key is loaded, and then the main task finds the level. -/
def loadThenEnd : List Event :=
  [.turn .main] ++ List.replicate 3 (.turn (.producer 0)) ++ errand 0 ++
  [.turn (.producer 0),.turn (.worker 0 0),.turn .main]

/-- Whether a run has ended with a bad definition, one operation having been begun and one key being there. -/
def hasRefused (r : Run Xoshiro) : Bool :=
  match r.ending?.map ExceptT.run with
  | some (.ok (.error (.definition _))) => r.site.memory.size == 1 && r.site.begun.size == 1
  | _ => false

private theorem refused_of_check {r : Run Xoshiro} (checked : r.hasRefused = true) : ∃ bad,
    r.ending? = some (ExceptT.mk (.ok (.error (.definition bad)))) ∧ r.site.memory.size = 1 ∧
      r.site.begun.size = 1 := by
  unfold hasRefused at checked
  split at checked
  · rename_i bad ended
    obtain ⟨ending,at_end,same⟩ := Option.map_eq_some_iff.mp ended
    simp only [Bool.and_eq_true,beq_iff_eq] at checked
    exact ⟨bad,at_end.trans (congrArg some same),checked⟩
  · cases checked

/-- One key is loaded, and the level that is asked for is refused. -/
theorem too_deep_starts_nothing : ∃ e r bad, Engine.new (tooDeep "/a;z") 1 = ExceptT.mk (.ok (.ok e)) ∧
    (ofEngine e .workload (Site.fresh .prompt .empty) (Pool.deal [0] 1) 0).steps loadThenEnd = some r ∧
    (∀ i op, .outside (.offer i op) ∉ loadThenEnd) ∧
    r.ending? = some (ExceptT.mk (.ok (.error (.definition bad)))) ∧
    (r.site.memory.size = 1 ∧ r.site.begun.size = 1) ∧
    LoadedOnly (ofEngine e .workload (Site.fresh .prompt .empty) (Pool.deal [0] 1) 0) loadThenEnd r := by
  have ran : ((Engine.new (tooDeep "/a;z") 1).run.toOption.bind Except.toOption).any (fun e =>
      ((ofEngine e .workload (Site.fresh .prompt .empty) (Pool.deal [0] 1) 0).steps loadThenEnd).any hasRefused) =
        true := by
    decide +kernel
  obtain ⟨e,accepted,ran⟩ := (Option.any_eq_true _ _).mp ran
  obtain ⟨r,run,refused⟩ := (Option.any_eq_true _ _).mp ran
  obtain ⟨bad,ended,one⟩ := refused_of_check refused
  have unoffered : ∀ i op, .outside (.offer i op) ∉ loadThenEnd := by simp [loadThenEnd,errand]
  exact ⟨e,r,bad,Engine.new_of_toOption accepted,run,unoffered,ended,one,
    bad_definition_starts_nothing run unoffered ended⟩

end Run

end Keyload
