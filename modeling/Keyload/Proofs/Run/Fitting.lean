import Keyload.Proofs.Run.Signalled

/-!
What the main task can rely on where it stands: the load that it waits for has its producer and there are no others, the
sentinel that it waits on has not settled, and every reporter that it waits for is told to end.
-/
namespace Keyload

namespace Run

variable {σ : Type}

/-- There are no producers but those of loads. -/
def LoadsOnly (r : Run σ) : Prop := ∀ p ∈ r.producers, p.work.isLoad = true

/-- What holds of a run where its main task stands at a phase. -/
def Fits (r : Run σ) : Phase σ → Prop
  | .beginning => LoadsOnly r
  | .loading _ i => i < r.producers.length ∧ LoadsOnly r
  | .guarding _ _ t => t.outcome? = none
  | .finishing _ => Called r
  | _ => True

/-- What the main task relies on where it stands does hold. -/
def Fitting (r : Run σ) : Prop := ∃ c, r.course = some c ∧ Fits r c.phase

variable {r next : Run σ} {c : Course σ} {w : Wait}

/-! ### The turns of the main task -/

/-- Stopping everything tells every reporter. -/
theorem Signalled.called (signalled : Signalled r) : Called r.stopAll := by
  intro t member running
  obtain ⟨raised,listens⟩ := signalled.listens t member running
  have told : r.stopAll.signals.list[t.signal]? = some ⟨true,true⟩ := Signals.fire_listening listens
  simp [Signals.isRaised,told]

theorem WaitMove.fitting {result : Except StoreError Bool} (move : WaitMove r next c w result)
    (called : Called r.stopAll) : Fitting next := by
  cases move with
  | reports after | fails after | tells goal after =>
    rw [after]
    exact ⟨_,rfl,trivial⟩
  | winds goal after =>
    rw [after]
    exact ⟨_,rfl,called⟩

theorem hangUp_called (called : Called r.stopAll) (id : Nat) (w : Wait) (result : Except StoreError Bool) :
    Called (r.hangUp id w result).stopAll := by
  unfold hangUp
  split
  · have told : Attends r.stopAll (stopAll (stopAll { r with site := r.site.close id })) := .of_same rfl rfl (.inr rfl)
    exact called.attends told
  · exact called

theorem beginLoad_fitting (loads : LoadsOnly r) (c : Course σ) (total : Nat) : Fitting (r.beginLoad c total) := by
  refine ⟨_,rfl,?_,fun p member => ?_⟩
  · show r.producers.length < (r.producers ++ [_]).length
    simp
  · rcases List.mem_append.mp member with old | new
    · exact loads p old
    · rw [List.mem_singleton.mp new]
      rfl

section
variable [RandomSource σ]

theorem OpenMove.fitting {p : Prepared} {clients : List Nat} {source : σ} (move : OpenMove r next c p clients source) :
    Fitting next := by
  cases move with
  | crash planned after | refuse planned after | opens planned after =>
    rw [after]
    exact ⟨_,rfl,trivial⟩

theorem SteadyMove.fitting (move : SteadyMove r next c) : Fitting next := by
  cases move with
  | skips unsteady after | crash steady after | refuse steady defined after =>
    rw [after]
    exact ⟨_,rfl,trivial⟩
  | opens steady defined shared move => exact move.fitting

theorem MainMove.fitting {phase : Phase σ} (move : MainMove r next c phase) (fits : Fits r phase)
    (signalled : Signalled r) : Fitting next := by
  cases move with
  | skipsLoad goal skips move => exact move.fitting
  | watches goal move => exact move.fitting
  | goesOn done goal move => exact move.fitting
  | begins goal loads after | loads goal some_ after =>
    rw [after]
    exact beginLoad_fitting fits c _
  | loadsOn done goal more after =>
    rw [after]
    exact beginLoad_fitting fits.2 _ _
  | loadsNone goal after | dials goal after | broken at_i broken after | unjoined joined after
  | loaded done goal last after | unreplayed tried after | watching tried replays goal after
  | unstarted tried replays goal after | starts tried replays goal started after | unreported after
  | fails failed after | keeps wound keeps after | reports wound ends after =>
    rw [after]
    exact ⟨_,rfl,trivial⟩
  | connects connected after =>
    rw [after]
    exact ⟨_,rfl,rfl⟩
  | refused refused move => exact move.fitting signalled.called
  | guards stepped unsettled after =>
    rw [after]
    exact ⟨_,rfl,unsettled⟩
  | @settles w id t t' site result stepped settled move =>
    have heard : Called (stopAll { r with site }) := signalled.called
    exact move.fitting (hangUp_called heard id w result)

theorem moveMain_fitting (fitting : Fitting r) (signalled : Signalled r) (run : r.moveMain = some next) :
    Fitting next := by
  obtain ⟨c,course,fits⟩ := fitting
  exact (moveMain_move course run).fitting fits signalled

/-! ### All steps -/

/-- What a run is that has come to a state by steps which leave the work of producers alone. -/
structure Orderly (r : Run σ) : Prop where
  lined : Lined r
  staffed : Staffed r
  signalled : Signalled r
  fitting : Fitting r

omit [RandomSource σ] in
theorem LoadsOnly.attends (loads : LoadsOnly r) (attends : Attends r next) : LoadsOnly next := by
  intro q member
  obtain ⟨p,among,alike⟩ := attends.alike q member
  exact alike.loads.trans (loads p among)

theorem Fitting.beside {ev : Event} (fitting : Fitting r) (run : r.step ev = some next) (main : ev ≠ .turn .main)
    (unoffered : ∀ i op, ev ≠ .outside (.offer i op)) : Fitting next := by
  obtain ⟨c,course,fits⟩ := fitting
  obtain ⟨phase,after,stays⟩ := step_course run main course
  have attends := step_attends run main unoffered
  refine ⟨_,after,?_⟩
  show Fits next phase
  have kept : Fits next c.phase := by
    have loads (loads : LoadsOnly r) : LoadsOnly next := by
      rcases attends with attends | ⟨j,rfl,producers⟩
      · exact loads.attends attends
      · intro p member
        exact loads p (producers ▸ member)
    generalize c.phase = there at fits
    cases there with
    | beginning => exact loads fits
    | loading d i =>
      refine ⟨?_,loads fits.2⟩
      rcases attends with attends | ⟨j,rfl,producers⟩
      · rw [attends.length]
        exact fits.1
      · rw [producers]
        exact fits.1
    | finishing waited =>
      rcases attends with attends | ⟨j,rfl,-⟩
      · exact Called.attends fits attends
      · exact Called.reporter fits run
    | _ => exact fits
  rcases stays with rfl | ⟨x,rfl⟩
  · exact kept
  · generalize c.phase = there at kept
    cases there with
    | guarding w id t =>
      have kept : t.outcome? = none := kept
      show (t.interrupt x).outcome? = none
      unfold Sentinel.interrupt
      split
      · rfl
      · exact kept
    | _ => exact kept

theorem Orderly.step {ev : Event} {e : Engine} {g : Goal} (orderly : Orderly r) (led : Led e g r)
    (run : r.step ev = some next) (unoffered : ∀ i op, ev ≠ .outside (.offer i op)) : Orderly next := by
  have lined := orderly.lined.step led run
  by_cases main : ev = .turn .main
  · subst main
    obtain ⟨c,course,equipped⟩ := led
    obtain ⟨deeds,-⟩ := moveMain_deeds course equipped run
    have kept : Staffed next ∧ Signalled next := by
      clear lined run
      induction deeds with
      | refl => exact ⟨orderly.staffed,orderly.signalled⟩
      | tail _ deed ih => exact ⟨deed.staffed ih.1,deed.signalled ih.2⟩
    exact ⟨lined,kept.1,kept.2,moveMain_fitting orderly.fitting orderly.signalled run⟩
  · have fitting := orderly.fitting.beside run main unoffered
    have names := step_names run main
    rcases step_attends run main unoffered with attends | ⟨i,rfl,producers⟩
    · exact ⟨lined,orderly.staffed.attends attends.alike names,orderly.signalled.attends attends,fitting⟩
    · refine ⟨lined,orderly.staffed.attends (fun q member => ?_) names,orderly.signalled.reporter run,fitting⟩
      exact ⟨q,producers ▸ member,.of_same rfl rfl rfl⟩

theorem Orderly.steps {events : List Event} {e : Engine} {g : Goal} (orderly : Orderly r) (led : Led e g r)
    (run : r.steps events = some next) (unoffered : ∀ i op, .outside (.offer i op) ∉ events) : Orderly next := by
  refine (steps_induction (fun events s => (∀ i op, .outside (.offer i op) ∉ events) → Orderly s ∧ Led e g s)
    (fun _ => ⟨orderly,led⟩) ?_ run unoffered).1
  intro events s ev t _ before step unoffered
  obtain ⟨orderly,led⟩ := before fun i op member => unoffered i op (List.mem_append_left _ member)
  refine ⟨orderly.step led step ?_,led.step step⟩
  rintro i op rfl
  exact unoffered i op (by simp)

omit [RandomSource σ] in
/-- A run begins so if nobody stands in line at its clients. -/
theorem orderly_start (e : Engine) (g : Goal) (options : DispatchOptions) (site : Site) {pool : Pool} (nowMs : Nat)
    (streams : Nat → σ) (free : ∀ c ∈ pool.clients, c.line = []) :
    Orderly (ofCourse site pool nowMs (Course.start e g options pool.size nowMs streams)) := by
  refine ⟨⟨?_,fun c member => ?_,fun i u stands => ?_⟩,?_,⟨?_,?_,?_,?_⟩,_,rfl,?_⟩
  · intro u o v at_u
    cases at_u
  · rw [free c member]
    exact List.nodup_nil
  · obtain ⟨c,at_c,among⟩ := queues_iff.mp stands
    rw [free c (List.mem_of_getElem? at_c)] at among
    cases among
  · intro p member
    cases member
  · intro p member
    cases member
  · intro t member
    cases member
  · exact List.nodup_nil
  · intro t member
    cases member
  · intro p member
    cases member

end

end Run

end Keyload
