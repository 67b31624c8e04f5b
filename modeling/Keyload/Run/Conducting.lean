import Keyload.Run.State

/-!
# How the main task goes on

The main task starts everything else and waits for it. What is badly defined is found before anything is
started. The end of the test stops the run, and so does an error while waiting for it; the reports come
only after everything has wound down.
-/
namespace Keyload.Run

variable {σ : Type}

/-- Change where the main task stands. -/
def inPhase (r : Run σ) (c : Course σ) (phase : Phase σ) : Run σ :=
  { r with course := some { c with phase } }

/-- The main task ends with a result. -/
def conclude (r : Run σ) (c : Course σ) (result : Except RunError Finding) : Run σ :=
  r.inPhase c (.ended result)

/-- Go on with a value, or crash. -/
def orCrash {α : Type} (r : Run σ) (c : Course σ) (x : Except Fault α) (next : α → Run σ) : Run σ :=
  match x with
  | .ok a => next a
  | .error f => r.inPhase c (.crashed f)

/-- Go on with a value, end with an error, or crash. -/
def orEnd {α : Type} (r : Run σ) (c : Course σ) (x : Outcome RunError α) (next : α → Run σ) :
    Run σ :=
  r.orCrash c x.run fun
    | .ok a => next a
    | .error e => r.conclude c (.error e)

/-- The report on the statistics since some time. -/
def report (r : Run σ) (c : Course σ) (label : String) (sinceMs : Nat) : Report :=
  Report.ofSnapshot label r.recorder.tally.snapshot ((r.nowMs - sinceMs) * Ticker.milli)
    c.engine.addressed

/-- Begin to connect in order to wait for a key. -/
def dial (r : Run σ) (c : Course σ) (w : Wait) : Run σ :=
  let (reaction, site) := r.site.beginConnect
  { r with site }.inPhase c (.dialing w (r.nowMs + reaction.delayMs) reaction)

/-- The wait for a key has ended. -/
def endWait (r : Run σ) (c : Course σ) (w : Wait) (result : Except StoreError Bool) : Run σ :=
  match w, c.goal with
  | .keepAlive, _ =>
    r.conclude c (match result with
      | .ok _ => .ok (.reports c.ramp c.summary c.testEndSeen)
      | .error e => .error (.store e))
  | .testEnd, .testEnd =>
    r.conclude c (match result with
      | .ok seen => .ok (.waited seen)
      | .error e => .error (.store e))
  | .testEnd, _ => r.stopAll.inPhase c (.finishing result)

/-- The connection to wait on is there, or not. -/
def endDial (r : Run σ) (c : Course σ) (w : Wait) (reaction : Reaction) : Run σ :=
  match r.site.endConnect 0 reaction with
  | (.ok id, site) =>
    let s := c.settings.lifecycle
    let key := match w with
      | .testEnd => s.testEndKey
      | .keepAlive => s.doNotExitKey
    { r with site }.inPhase c (.guarding w id (Sentinel.on key))
  | (.error e, site) => { r with site }.endWait c w (.error e)

/-- The next step of a sentinel; the end of the test stops everything at once. -/
def guard (r : Run σ) (c : Course σ) (w : Wait) (id : Nat) (s : Sentinel) : Option (Run σ) :=
  let stopped := match w with
    | .testEnd => r.stopped
    | .keepAlive => r.shutDown
  match s.step stopped r.nowMs r.site with
  | none => none
  | some (s, site) =>
    let r := { r with site }
    match s.outcome? with
    | none => some (r.inPhase c (.guarding w id s))
    | some result =>
      let r := { r with site := r.site.close id }
      let r := match w, result with
        | .testEnd, .ok true => r.stopAll
        | _, _ => r
      some (r.endWait c w result)

/-- Wind up the run once everything has wound down. -/
def finish (r : Run σ) (c : Course σ) (waited : Except StoreError Bool) : Option (Run σ) := do
  let outcome ← r.woundDown? c
  if r.reporters.any fun t => t.stage == .broken then some (r.conclude c (.error .taskFailed))
  else if r.reporters.any fun t => t.stage == .running then none
  else
    let c := { c with summary := some (r.report c "summary" c.steadyMs) }
    some (match waited, outcome with
      | .error e, _ => r.conclude c (.error (.store e))
      | _, .error e => r.conclude c (.error e)
      | .ok seen, .ok () =>
        let c := { c with testEndSeen := seen }
        if c.settings.lifecycle.doNotExit then r.dial c .keepAlive
        else r.conclude c (.ok (.reports c.ramp c.summary seen)))

/-- Begin a load: its dispatcher and the producer of its puts. -/
def beginLoad (r : Run σ) (c : Course σ) (total : Nat) : Run σ :=
  let (source, c) := c.takeStream
  let puts := Producer.start r.nextDispatcher (.load (c.engine.keySpace.keys total)) source
    (Ticker.ofRate c.settings.workload.putRate r.nowNs)
  ((r.employ "load" c.options c.pool).assign puts).inPhase c (.loading r.nextDispatcher r.nextProducer)

/-- Start an activity: its dispatcher and the producer of its steps. -/
def startActivity (r : Run σ) (c : Course σ) (a : Churn.Activity) (rate : Option Nat)
    (clients : List Nat) : Run σ × Course σ :=
  let (source, c) := c.takeStream
  let steps := Producer.start r.nextDispatcher (.activity a) source
    (Ticker.ofRate (rate.getD 0) r.nowNs)
  ((r.employ a.name c.options clients).assign steps,
    { c with activities := c.activities ++ [(r.nextDispatcher, r.nextProducer)] })

/-- Start the activities on their clients, one after the other. -/
def startActivities (r : Run σ) (c : Course σ) :
    List (Churn.Activity × Option Nat × ClientRange) → Except Fault (Run σ × Course σ)
  | [] => .ok (r, c)
  | (a, rate, range) :: rest => do
    let clients ← c.clientsOf range
    let (r, c) := r.startActivity c a rate clients
    startActivities r c rest

/-- The activities in the order in which they start. -/
def activitiesOf (s : Settings) (p : Prepared) : List (Churn.Activity × Option Nat × ClientRange) :=
  (p.level.map fun a => (.level a, s.churn.levelRate, p.split.levelChurn)).toList ++
  (p.value.map fun a => (.value a, s.churn.valueRate, p.split.valueChurn)).toList ++
  (p.reads.map fun a => (.read a, s.reads.rate, p.split.reads)).toList

/-- Start the replays of watched keys, each with a stop signal of its own. -/
def startReplays (r : Run σ) (d : Nat) (source : σ) : List Watch.Replay → Run σ
  | [] => r
  | replay :: rest =>
    let p := { Producer.start d (.replay replay) source none with
      signal := some r.signals.size
      stage := .delayed (r.nowMs + replay.delayMs) }
    startReplays (r.subscribe.assign p) d source rest

variable [RandomSource σ]

/-- Start the reads of the watched keys, if they are asked for. -/
def replayTargets (r : Run σ) (c : Course σ) (targets : List Watch.Target) (clients : List Nat)
    (source : σ) : Except Fault (Run σ × Course σ) := do
  let intervalMs := c.settings.watches.replayMs
  if targets.isEmpty ∨ intervalMs = 0 then .ok (r, c)
  else
    let draw : Draw σ (List Watch.Replay) :=
      targets.mapM fun t => Watch.Replay.new t.key intervalMs
    let (replays, source) ← draw source
    let d := r.nextDispatcher
    let first := r.nextProducer
    .ok ((r.employ "watch_replay" c.options clients).startReplays d source replays,
      { c with
        replays := (List.range replays.length).map (first + ·)
        replayDispatcher := some d })

/-- Open the watches of a plan. -/
def openWatches (r : Run σ) (c : Course σ) (p : Prepared) (clients : List Nat) (source : σ) :
    Run σ :=
  r.orCrash c ((c.planWatches clients).run source) fun
    | (.error e, _) => r.conclude c (.error e)
    | (.ok targets, source) =>
      let fresh := targets.map fun t => Watch.Watcher.fresh t.key c.settings.watches.withPrefix
      let r := if targets.isEmpty then r else
        { r with
          recorder := r.recorder.onTally (·.setWatchers targets.length)
          watchers := r.watchers ++ fresh }
      r.inPhase c (.opening p targets clients source)

/-- Start everything that follows the load. -/
def enterSteady (r : Run σ) (c : Course σ) : Run σ :=
  if !c.settings.hasSteadyState then r.conclude c (.ok (.reports c.ramp none false))
  else
    let r := { r with recorder := r.recorder.reset }
    let c := { c with steadyMs := r.nowMs }
    r.orEnd c (c.defineActivities.adapt .definition) fun p =>
      r.orCrash c (c.clientsOf p.split.watches) fun clients =>
        let (source, c) := c.takeStream
        r.openWatches c p clients source

/-- Go on once every watch was tried. -/
def endOpening (r : Run σ) (c : Course σ) (p : Prepared) (targets : List Watch.Target)
    (clients : List Nat) (source : σ) : Run σ :=
  r.orCrash c (r.replayTargets c targets clients source) fun (r, c) =>
    if c.goal = .watches then r.conclude c (.ok .watching)
    else
      r.orCrash c (r.startActivities c (activitiesOf c.settings p)) fun (r, c) =>
        let secs := c.settings.lifecycle.statsIntervalSecs
        let r := if secs = 0 then r else r.addReporter secs
        r.dial c .testEnd

/-- Go on after a load. -/
def endLoad (r : Run σ) (c : Course σ) (sent : Nat) : Run σ :=
  match c.goal with
  | .loads times total =>
    let c := { c with loaded := c.loaded ++ [sent] }
    if c.loaded.length < times then r.beginLoad c total
    else r.conclude c (.ok (.loaded c.loaded))
  | _ => r.enterSteady { c with ramp := some (r.report c "ramp" c.startedMs) }

/-- Wait for the end of a load. -/
def awaitLoad (r : Run σ) (c : Course σ) (d i : Nat) : Option (Run σ) := do
  let p ← r.producers[i]?
  match p.fault? with
  | some f => some (r.inPhase c (.crashed f))
  | none =>
    if p.hasEnded then
      match ← r.dispatchersJoined? [d] with
      | .ok () => some (r.endLoad c p.sent)
      | .error e => some (r.conclude c (.error e))
    else none

/-- Begin what the main task is to do. -/
def beginCourse (r : Run σ) (c : Course σ) : Run σ :=
  match c.goal with
  | .workload =>
    if c.settings.workload.skipInit then r.enterSteady c
    else r.beginLoad c c.settings.initialTotal
  | .loads times total =>
    if times = 0 then r.conclude c (.ok (.loaded [])) else r.beginLoad c total
  | .testEnd => r.dial c .testEnd
  | .watches =>
    let all : ClientRange := ⟨0, c.pool.length⟩
    let (source, c) := c.takeStream
    r.openWatches c ⟨none, none, none, ⟨all, all, all, all⟩⟩ c.pool source

/-- The next step of the main task, none while it has to wait. -/
def moveMain (r : Run σ) : Option (Run σ) :=
  match r.course with
  | none => none
  | some c =>
    match c.phase with
    | .beginning => some (r.beginCourse c)
    | .loading d i => r.awaitLoad c d i
    | .opening p targets clients source =>
      if r.watchers.all (·.tried) then some (r.endOpening c p targets clients source) else none
    | .dialing w untilMs reaction =>
      if untilMs ≤ r.nowMs then some (r.endDial c w reaction) else none
    | .guarding w id s => r.guard c w id s
    | .finishing waited => r.finish c waited
    | .ended _ => none
    | .crashed _ => none

end Keyload.Run
