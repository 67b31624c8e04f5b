import Keyload.Run.Step

/-!
The moves of the main task, each with the state that it leads to: it begins, waits for a load, for the watches to be
open, for a connection, for a key or for everything to wind down, and goes on from there or ends. Whatever the main task
keeps is shown on these moves (`moveMain_move`).
-/
namespace Keyload

namespace Run

variable {σ : Type}

/-- Whether whoever waits for a key is told to end. -/
def told (r : Run σ) : Wait → Bool
  | .testEnd => r.stopped
  | .keepAlive => r.shutDown

/-- The key that the main task waits for. -/
def waitKey (c : Course σ) : Wait → String
  | .testEnd => c.settings.lifecycle.testEndKey
  | .keepAlive => c.settings.lifecycle.doNotExitKey

/-- Add watchers on targets, and count them if there are any. -/
def watchTargets (r : Run σ) (withPrefix : Bool) (targets : List Watch.Target) : Run σ :=
  if targets.isEmpty then r else
    { r with
      recorder := r.recorder.onTally (·.setWatchers targets.length)
      watchers := r.watchers ++ targets.map fun t => Watch.Watcher.fresh t.key withPrefix }

/-- Add the reporter of intervals, if there are to be any. -/
def reportEvery (r : Run σ) (secs : Nat) : Run σ := if secs = 0 then r else r.addReporter secs

/-- Leave a connection on which a wait has ended; the end of the test stops everything at once. -/
def hangUp (r : Run σ) (id : Nat) (w : Wait) (result : Except StoreError Bool) : Run σ :=
  match w,result with
  | .testEnd,.ok true => stopAll { r with site := r.site.close id }
  | _,_ => { r with site := r.site.close id }

/-- The main task goes on with its sentinel, or without it when the wait is over. -/
def guarded (r : Run σ) (c : Course σ) (w : Wait) (id : Nat) (t : Sentinel) : Run σ :=
  match t.outcome? with
  | none => r.inPhase c (.guarding w id t)
  | some result =>
    let r := { r with site := r.site.close id }
    let r := match w,result with
      | .testEnd,.ok true => r.stopAll
      | _,_ => r
    r.endWait c w result

/-- The course of a main task that has made its summary. -/
def summarize (r : Run σ) (c : Course σ) : Course σ := { c with summary := some (r.report c "summary" c.steadyMs) }

variable {r next : Run σ} {c : Course σ}

/-! ### A wait for a key -/

/-- How the main task goes on when a wait for a key has ended. -/
inductive WaitMove (r next : Run σ) (c : Course σ) : Wait → Except StoreError Bool → Prop where
  | reports {seen : Bool} (after : next = r.conclude c (.ok (.reports c.ramp c.summary c.testEndSeen))) :
      WaitMove r next c .keepAlive (.ok seen)
  | fails {e : StoreError} (after : next = r.conclude c (.error (.store e))) : WaitMove r next c .keepAlive (.error e)
  | tells {result : Except StoreError Bool} (goal : c.goal = .testEnd)
      (after : next = r.conclude c ((result.map Finding.waited).mapError RunError.store)) :
      WaitMove r next c .testEnd result
  | winds {result : Except StoreError Bool} (goal : c.goal ≠ .testEnd)
      (after : next = r.stopAll.inPhase c (.finishing result)) : WaitMove r next c .testEnd result

theorem endWait_move (r : Run σ) (c : Course σ) (w : Wait) (result : Except StoreError Bool) :
    WaitMove r (r.endWait c w result) c w result := by
  cases w with
  | keepAlive =>
    cases result with
    | ok seen => exact .reports rfl
    | error e => exact .fails rfl
  | testEnd =>
    by_cases goal : c.goal = .testEnd
    · refine .tells goal ?_
      simp only [endWait,goal]
      cases result <;> rfl
    · refine .winds goal ?_
      unfold endWait
      split
      · contradiction
      · contradiction
      · rfl

theorem guard_eq (r : Run σ) (c : Course σ) (w : Wait) (id : Nat) (t : Sentinel) : r.guard c w id t =
    (t.step (r.told w) r.nowMs r.site).map fun (t,site) => { r with site }.guarded c w id t := by
  cases w with
  | testEnd =>
    simp only [guard,told]
    cases t.step r.stopped r.nowMs r.site with
    | none => rfl
    | some after =>
      obtain ⟨t,site⟩ := after
      simp only [Option.map_some,guarded]
      cases t.outcome? <;> rfl
  | keepAlive =>
    simp only [guard,told]
    cases t.step r.shutDown r.nowMs r.site with
    | none => rfl
    | some after =>
      obtain ⟨t,site⟩ := after
      simp only [Option.map_some,guarded]
      cases t.outcome? <;> rfl

/-- The main task waits on, or it goes on without the connection. -/
theorem guarded_move (r : Run σ) (c : Course σ) (w : Wait) (id : Nat) (t : Sentinel) :
    t.outcome? = none ∧ r.guarded c w id t = r.inPhase c (.guarding w id t) ∨
      ∃ result, t.outcome? = some result ∧ WaitMove (r.hangUp id w result) (r.guarded c w id t) c w result := by
  unfold guarded
  cases outcome : t.outcome? with
  | none => exact .inl ⟨rfl,rfl⟩
  | some result => exact .inr ⟨result,rfl,endWait_move _ c w result⟩

/-! ### What follows a load -/

section
variable [RandomSource σ]

/-- How the main task goes on to the watches that it plans on some clients. -/
inductive OpenMove (r next : Run σ) (c : Course σ) (p : Prepared) (clients : List Nat) (source : σ) : Prop where
  | crash {f : Fault} (planned : (c.planWatches clients).run source = .error f)
      (after : next = r.inPhase c (.crashed f))
  | refuse {e : RunError} {source' : σ} (planned : (c.planWatches clients).run source = .ok (.error e,source'))
      (after : next = r.conclude c (.error e))
  | opens {targets : List Watch.Target} {source' : σ}
      (planned : (c.planWatches clients).run source = .ok (.ok targets,source'))
      (after : next = (r.watchTargets c.settings.watches.withPrefix targets).inPhase c
        (.opening p targets clients source'))

theorem openWatches_move (r : Run σ) (c : Course σ) (p : Prepared) (clients : List Nat) (source : σ) :
    OpenMove r (r.openWatches c p clients source) c p clients source := by
  unfold openWatches
  cases planned : (c.planWatches clients).run source with
  | error f => exact .crash planned rfl
  | ok result =>
    obtain ⟨targets,source'⟩ := result
    cases targets with
    | error e => exact .refuse planned rfl
    | ok targets => exact .opens planned rfl

/-- How the main task goes on to what follows a load. All that can be badly defined is read before anything is
started. -/
inductive SteadyMove (r next : Run σ) (c : Course σ) : Prop where
  | skips (unsteady : c.settings.hasSteadyState = false)
      (after : next = r.conclude c (.ok (.reports c.ramp none false)))
  | crash {f : Fault} (steady : c.settings.hasSteadyState = true)
      (after : next = inPhase { r with recorder := r.recorder.reset } { c with steadyMs := r.nowMs } (.crashed f))
  | refuse {bad : DefinitionError} (steady : c.settings.hasSteadyState = true)
      (defined : c.defineActivities.run = .ok (.error bad))
      (after : next = conclude { r with recorder := r.recorder.reset } { c with steadyMs := r.nowMs }
        (.error (.definition bad)))
  | opens {p : Prepared} {clients : List Nat} (steady : c.settings.hasSteadyState = true)
      (defined : c.defineActivities.run = .ok (.ok p)) (shared : c.clientsOf p.split.watches = .ok clients)
      (opens : OpenMove { r with recorder := r.recorder.reset } next
        { c with steadyMs := r.nowMs, nextStream := c.nextStream + 1 } p clients (c.streams c.nextStream))

theorem enterSteady_move (r : Run σ) (c : Course σ) : SteadyMove r (r.enterSteady c) c := by
  unfold enterSteady
  split
  · rename_i skips
    exact .skips (by simpa using skips) rfl
  · rename_i goes_on
    have steady : c.settings.hasSteadyState = true := by simpa using goes_on
    have adapted : ((Course.defineActivities { c with steadyMs := r.nowMs }).adapt RunError.definition).run =
        c.defineActivities.run.map (Except.mapError RunError.definition) := rfl
    simp only [orEnd,adapted]
    cases defined : c.defineActivities.run with
    | error f => exact .crash steady rfl
    | ok result =>
      cases result with
      | error bad => exact .refuse steady defined rfl
      | ok p =>
        change SteadyMove r (orCrash _ _ (c.clientsOf p.split.watches) _) c
        cases shared : c.clientsOf p.split.watches with
        | error f => exact .crash steady rfl
        | ok clients => exact .opens steady defined shared (openWatches_move ..)

end

/-! ### Starting -/

/-- What starting an activity keeps is kept by starting several. -/
theorem startActivities_induction {activities : List (Churn.Activity × Option Nat × ClientRange)} {c' : Course σ}
    (holds : Run σ → Course σ → Prop) (start : holds r c)
    (kept : ∀ {s : Run σ} {d : Course σ} {a rate range clients}, (a,rate,range) ∈ activities → holds s d →
      d.clientsOf range = .ok clients → holds (s.startActivity d a rate clients).1 (s.startActivity d a rate clients).2)
    (run : r.startActivities c activities = .ok (next,c')) : holds next c' := by
  induction activities generalizing r c with
  | nil =>
    cases run
    exact start
  | cons activity rest ih =>
    obtain ⟨a,rate,range⟩ := activity
    rw [startActivities] at run
    cases shared : c.clientsOf range with
    | error f =>
      rw [shared] at run
      cases run
    | ok clients =>
      rw [shared] at run
      exact ih (kept List.mem_cons_self start shared) (fun member => kept (List.mem_cons_of_mem _ member)) run

/-- The producer of a replay, which has a stop signal of its own. -/
def replayer (r : Run σ) (d : Nat) (source : σ) (replay : Watch.Replay) : Producer σ :=
  { Producer.start d (.replay replay) source none with
    signal := some r.signals.size
    stage := .delayed (r.nowMs + replay.delayMs) }

/-- What starting a replay keeps is kept by starting several. -/
theorem startReplays_induction (replays : List Watch.Replay) (d : Nat) (source : σ) (holds : Run σ → Prop)
    (start : holds r)
    (kept : ∀ {s : Run σ} {replay}, holds s → holds (s.subscribe.assign (s.replayer d source replay))) :
    holds (r.startReplays d source replays) := by
  induction replays generalizing r with
  | nil => exact start
  | cons replay rest ih => exact ih (kept start)

section
variable [RandomSource σ] {d i : Nat}

/-- Replays are started on a dispatcher of their own, or there are to be none. -/
theorem replayTargets_some {targets : List Watch.Target} {clients : List Nat} {source : σ} {c' : Course σ}
    (run : r.replayTargets c targets clients source = .ok (next,c')) : next = r ∧ c' = c ∨ ∃ replays source',
      next = (r.employ "watch_replay" c.options clients).startReplays r.nextDispatcher source' replays ∧
        c' = { c with
          replays := (List.range replays.length).map (r.nextProducer + ·)
          replayDispatcher := some r.nextDispatcher } := by
  unfold replayTargets at run
  simp only at run
  split at run
  · cases run
    exact .inl ⟨rfl,rfl⟩
  · generalize (targets.mapM fun t => Watch.Replay.new t.key c.settings.watches.replayMs : Draw σ _) source =
      drawn at run
    cases drawn with
    | error f => cases run
    | ok drawn =>
      cases run
      exact .inr ⟨drawn.1,drawn.2,rfl,rfl⟩

/-! ### All moves -/

/-- The load of dispatcher `d` has been joined well, and so has its producer `p`. -/
structure LoadOver (r : Run σ) (d i : Nat) (p : Producer σ) : Prop where
  at_i : r.producers[i]? = some p
  unbroken : p.fault? = none
  ended : p.hasEnded = true
  joined : r.dispatchersJoined? [d] = some (.ok ())

/-- What the main task, whose course is `c`, can do when it has its turn, by where it stands. -/
inductive MainMove (r next : Run σ) (c : Course σ) : Phase σ → Prop where
  -- at its beginning
  | skipsLoad (goal : c.goal = .workload) (skips : c.settings.workload.skipInit = true) (move : SteadyMove r next c) :
      MainMove r next c .beginning
  | begins (goal : c.goal = .workload) (loads : c.settings.workload.skipInit = false)
      (after : next = r.beginLoad c c.settings.initialTotal) : MainMove r next c .beginning
  | loads {times total : Nat} (goal : c.goal = .loads times total) (some_ : times ≠ 0)
      (after : next = r.beginLoad c total) : MainMove r next c .beginning
  | loadsNone {total : Nat} (goal : c.goal = .loads 0 total) (after : next = r.conclude c (.ok (.loaded []))) :
      MainMove r next c .beginning
  | dials (goal : c.goal = .testEnd) (after : next = r.dial c .testEnd) : MainMove r next c .beginning
  | watches {split : ClientSplit} (goal : c.goal = .watches)
      (move : OpenMove r next { c with nextStream := c.nextStream + 1 } ⟨none,none,none,split⟩ c.pool
        (c.streams c.nextStream)) :
      MainMove r next c .beginning
  -- while it waits for a load
  | broken {d i : Nat} {p : Producer σ} {f : Fault} (at_i : r.producers[i]? = some p) (broken : p.fault? = some f)
      (after : next = r.inPhase c (.crashed f)) : MainMove r next c (.loading d i)
  | unjoined {d i : Nat} {e : RunError} (joined : r.dispatchersJoined? [d] = some (.error e))
      (after : next = r.conclude c (.error e)) : MainMove r next c (.loading d i)
  | loadsOn {d i times total : Nat} {p : Producer σ} (done : LoadOver r d i p) (goal : c.goal = .loads times total)
      (more : c.loaded.length + 1 < times)
      (after : next = r.beginLoad { c with loaded := c.loaded ++ [p.sent] } total) : MainMove r next c (.loading d i)
  | loaded {d i times total : Nat} {p : Producer σ} (done : LoadOver r d i p) (goal : c.goal = .loads times total)
      (last : times ≤ c.loaded.length + 1)
      (after : next = r.conclude { c with loaded := c.loaded ++ [p.sent] } (.ok (.loaded (c.loaded ++ [p.sent])))) :
      MainMove r next c (.loading d i)
  | goesOn {d i : Nat} {p : Producer σ} (done : LoadOver r d i p) (goal : ∀ times total, c.goal ≠ .loads times total)
      (move : SteadyMove r next { c with ramp := some (r.report c "ramp" c.startedMs) }) :
      MainMove r next c (.loading d i)
  -- once the watches were tried
  | unreplayed {p : Prepared} {targets : List Watch.Target} {clients : List Nat} {source : σ} {f : Fault}
      (tried : r.watchers.all (·.tried) = true) (after : next = r.inPhase c (.crashed f)) :
      MainMove r next c (.opening p targets clients source)
  | watching {p : Prepared} {targets : List Watch.Target} {clients : List Nat} {source : σ} {s : Run σ} {c' : Course σ}
      (tried : r.watchers.all (·.tried) = true) (replays : r.replayTargets c targets clients source = .ok (s,c'))
      (goal : c'.goal = .watches) (after : next = s.conclude c' (.ok .watching)) :
      MainMove r next c (.opening p targets clients source)
  | unstarted {p : Prepared} {targets : List Watch.Target} {clients : List Nat} {source : σ} {s : Run σ} {c' : Course σ}
      {f : Fault} (tried : r.watchers.all (·.tried) = true)
      (replays : r.replayTargets c targets clients source = .ok (s,c')) (goal : c'.goal ≠ .watches)
      (after : next = s.inPhase c' (.crashed f)) : MainMove r next c (.opening p targets clients source)
  | starts {p : Prepared} {targets : List Watch.Target} {clients : List Nat} {source : σ} {s t : Run σ}
      {c' c'' : Course σ} (tried : r.watchers.all (·.tried) = true)
      (replays : r.replayTargets c targets clients source = .ok (s,c')) (goal : c'.goal ≠ .watches)
      (started : s.startActivities c' (activitiesOf c'.settings p) = .ok (t,c''))
      (after : next = (t.reportEvery c''.settings.lifecycle.statsIntervalSecs).dial c'' .testEnd) :
      MainMove r next c (.opening p targets clients source)
  -- while it waits for a key
  | connects {w : Wait} {untilMs id : Nat} {a : Reaction} {site : Site}
      (connected : r.site.endConnect 0 a = (.ok id,site))
      (after : next = inPhase { r with site } c (.guarding w id (.on (waitKey c w)))) :
      MainMove r next c (.dialing w untilMs a)
  | refused {w : Wait} {untilMs : Nat} {a : Reaction} {e : StoreError} {site : Site}
      (refused : r.site.endConnect 0 a = (.error e,site)) (move : WaitMove { r with site } next c w (.error e)) :
      MainMove r next c (.dialing w untilMs a)
  | guards {w : Wait} {id : Nat} {t t' : Sentinel} {site : Site}
      (stepped : t.step (r.told w) r.nowMs r.site = some (t',site)) (unsettled : t'.outcome? = none)
      (after : next = inPhase { r with site } c (.guarding w id t')) : MainMove r next c (.guarding w id t)
  | settles {w : Wait} {id : Nat} {t t' : Sentinel} {site : Site} {result : Except StoreError Bool}
      (stepped : t.step (r.told w) r.nowMs r.site = some (t',site)) (settled : t'.outcome? = some result)
      (move : WaitMove (hangUp { r with site } id w result) next c w result) : MainMove r next c (.guarding w id t)
  -- once everything has wound down
  | unreported {waited : Except StoreError Bool} (after : next = r.conclude c (.error .taskFailed)) :
      MainMove r next c (.finishing waited)
  | fails {waited : Except StoreError Bool} {e : RunError}
      (failed : (∃ cause, waited = .error cause ∧ e = .store cause) ∨ r.woundDown? c = some (.error e))
      (after : next = r.conclude (r.summarize c) (.error e)) : MainMove r next c (.finishing waited)
  | keeps {seen : Bool} (wound : r.woundDown? c = some (.ok ())) (keeps : c.settings.lifecycle.doNotExit = true)
      (after : next = r.dial { r.summarize c with testEndSeen := seen } .keepAlive) :
      MainMove r next c (.finishing (.ok seen))
  | reports {seen : Bool} (wound : r.woundDown? c = some (.ok ())) (ends : c.settings.lifecycle.doNotExit = false)
      (after : next = r.conclude { r.summarize c with testEndSeen := seen }
        (.ok (.reports c.ramp (r.summarize c).summary seen))) : MainMove r next c (.finishing (.ok seen))

private theorem beginCourse_move (r : Run σ) (c : Course σ) : MainMove r (r.beginCourse c) c .beginning := by
  unfold beginCourse
  split
  · rename_i goal
    split
    · rename_i skips
      exact .skipsLoad goal skips (enterSteady_move r c)
    · rename_i loads
      exact .begins goal (by simpa using loads) rfl
  · rename_i times total goal
    split
    · rename_i none_
      subst none_
      exact .loadsNone goal rfl
    · rename_i some_
      exact .loads goal some_ rfl
  · rename_i goal
    exact .dials goal rfl
  · rename_i goal
    exact .watches goal (openWatches_move ..)

private theorem endLoad_move {p : Producer σ} (done : LoadOver r d i p) :
    MainMove r (r.endLoad c p.sent) c (.loading d i) := by
  unfold endLoad
  split
  · rename_i times total goal
    have length : (c.loaded ++ [p.sent]).length = c.loaded.length + 1 := List.length_append
    simp only [length]
    split
    · rename_i more
      exact .loadsOn done goal more rfl
    · rename_i last
      exact .loaded done goal (Nat.le_of_not_lt last) rfl
  · rename_i goal
    exact .goesOn done goal (enterSteady_move r _)

private theorem awaitLoad_move (run : r.awaitLoad c d i = some next) : MainMove r next c (.loading d i) := by
  obtain ⟨p,at_i,run⟩ := Option.bind_eq_some_iff.mp run
  cases broken : p.fault? with
  | some f =>
    simp only [broken] at run
    cases run
    exact .broken at_i broken rfl
  | none =>
    simp only [broken] at run
    split at run
    · rename_i ended
      obtain ⟨joined,at_join,run⟩ := Option.bind_eq_some_iff.mp run
      cases joined with
      | error e =>
        cases run
        exact .unjoined at_join rfl
      | ok _ =>
        cases run
        exact endLoad_move ⟨at_i,broken,ended,at_join⟩
    · cases run

private theorem endOpening_move (tried : r.watchers.all (·.tried) = true) (p : Prepared) (targets : List Watch.Target)
    (clients : List Nat) (source : σ) :
    MainMove r (r.endOpening c p targets clients source) c (.opening p targets clients source) := by
  unfold endOpening
  cases replays : r.replayTargets c targets clients source with
  | error f => exact .unreplayed tried rfl
  | ok after =>
    obtain ⟨s,c'⟩ := after
    simp only [orCrash]
    split
    · rename_i goal
      exact .watching tried replays goal rfl
    · rename_i goal
      cases started : s.startActivities c' (activitiesOf c'.settings p) with
      | error f => exact .unstarted tried replays goal rfl
      | ok after => exact .starts tried replays goal started rfl

private theorem endDial_move (r : Run σ) (c : Course σ) (w : Wait) (untilMs : Nat) (a : Reaction) :
    MainMove r (r.endDial c w a) c (.dialing w untilMs a) := by
  unfold endDial
  split
  · rename_i id site connected
    refine .connects connected ?_
    cases w <;> rfl
  · rename_i e site refused
    exact .refused refused (endWait_move _ c w _)

private theorem guard_move {w : Wait} {id : Nat} {t : Sentinel} (run : r.guard c w id t = some next) :
    MainMove r next c (.guarding w id t) := by
  rw [guard_eq] at run
  obtain ⟨⟨t',site⟩,stepped,rfl⟩ := Option.map_eq_some_iff.mp run
  rcases guarded_move { r with site } c w id t' with ⟨unsettled,same⟩ | ⟨result,settled,move⟩
  · exact .guards stepped unsettled same
  · exact .settles stepped settled move

private theorem finish_move {waited : Except StoreError Bool} (run : r.finish c waited = some next) :
    MainMove r next c (.finishing waited) := by
  obtain ⟨outcome,wound,run⟩ := Option.bind_eq_some_iff.mp run
  split at run
  · cases run
    exact .unreported rfl
  · split at run
    · cases run
    · cases run
      cases waited with
      | error cause => exact .fails (.inl ⟨cause,rfl,rfl⟩) rfl
      | ok seen =>
        cases outcome with
        | error e => exact .fails (.inr wound) rfl
        | ok _ =>
          dsimp only
          split
          · rename_i keeps
            exact .keeps wound keeps rfl
          · rename_i ends
            exact .reports wound (Bool.eq_false_iff.mpr ends) rfl

/-- The turn of the main task is one of its moves. -/
theorem moveMain_move (course : r.course = some c) (run : r.moveMain = some next) : MainMove r next c c.phase := by
  unfold moveMain at run
  rw [course] at run
  dsimp only at run
  cases phase : c.phase with
  | beginning =>
    simp only [phase] at run
    cases run
    exact beginCourse_move r c
  | loading d i =>
    simp only [phase] at run
    exact awaitLoad_move run
  | opening p targets clients source =>
    simp only [phase] at run
    split at run
    · rename_i tried
      cases run
      exact endOpening_move tried p targets clients source
    · cases run
  | dialing w untilMs a =>
    simp only [phase] at run
    split at run
    · cases run
      exact endDial_move r c w untilMs a
    · cases run
  | guarding w id t =>
    simp only [phase] at run
    exact guard_move run
  | finishing waited =>
    simp only [phase] at run
    exact finish_move run
  | ended result =>
    simp only [phase] at run
    cases run
  | crashed f =>
    simp only [phase] at run
    cases run

end

end Run

end Keyload
