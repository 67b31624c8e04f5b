import Keyload.Proofs.Run.Tallied
import Keyload.Proofs.Run.TestEnd

/-!
What the reports of a whole run tell. The load is reported when its dispatcher has been joined, and everything after it
is counted from nothing and reported when every other dispatcher has been joined, so that each report is made while
nothing is in progress. So each of them tells of the operations begun in its part of the run and of no others
(`reports_operations`).
-/
namespace Keyload

/-- What a report tells of operations. -/
def Report.counts (report : Report) : Counts :=
  ⟨report.put.calls,report.delete.calls,report.get.calls,report.prefixGet.calls,report.errors⟩

/-- Each of `n` operations is one of these calls or has failed, and the report tells how many have failed, in a word. -/
structure Report.Accounts (report : Report) (calls n : Nat) : Prop where
  failed : ∃ failed, n = calls + failed ∧ report.errors = failed % Word.limit
  total : n < Word.limit → n = calls + report.errors

theorem Report.accounts {report : Report} {n : Nat} (covers : report.counts.Covers n) :
    report.Accounts report.counts.calls n := by
  obtain ⟨failed,total,errors⟩ := covers
  refine ⟨⟨failed,total,errors⟩,fun small => ?_⟩
  have errors : report.errors = failed % Word.limit := errors
  rw [errors,Nat.mod_eq_of_lt (by omega)]
  exact total

namespace Run

variable {σ : Type}

/-- The dispatchers of what follows a load. -/
def steadyNames : List String := ["level_churn","value_churn","get_level","watch_replay"]

/-- How many operations dispatchers of these names have begun, the first `n` of the record apart. -/
def begunUnder (r : Run σ) (n : Nat) (names : List String) : Nat :=
  (r.site.log.drop n).countP fun b => (r.nameOf b.1).any names.contains

/-- The reports of a run tell of every operation that it has begun, when `n` had been begun before it. -/
structure Tells (s : Settings) (n : Nat) (r : Run σ) (ramp summary : Option Report) : Prop where
  load : s.workload.skipInit = false → ∃ report, ramp = some report ∧
    report.Accounts report.put.calls (r.begunUnder n ["load"])
  unloaded : s.workload.skipInit = true → ramp = none ∧ r.begunUnder n ["load"] = 0
  steady : s.hasSteadyState = true → ∃ report, summary = some report ∧
    report.Accounts (report.put.calls + report.delete.calls + report.get.calls + report.prefixGet.calls)
      (r.begunUnder n steadyNames)
  unsteady : s.hasSteadyState = false → summary = none ∧ r.begunUnder n steadyNames = 0
  whole : r.site.begun.size = n + r.begunUnder n ["load"] + r.begunUnder n steadyNames

/-- Nothing that follows a load has been started. -/
def Unstarted (r : Run σ) : Prop := ∀ d name, r.nameOf d = some name → name ∉ steadyNames

/-- The main task is to join every dispatcher of what follows the load. -/
def Registered (r : Run σ) (c : Course σ) : Prop :=
  ∀ d name, r.nameOf d = some name → name ∈ steadyNames → d ∈ c.activities.map Prod.fst ++ c.replayDispatcher.toList

/-- The operations from `n` to `m` are those of the load, and its report tells of them. -/
structure Ramped (s : Settings) (n m : Nat) (r : Run σ) (ramp : Option Report) : Prop where
  first : n ≤ m
  last : m ≤ r.site.log.length
  attributed : ∀ b ∈ (r.site.log.take m).drop n, r.nameOf b.1 = some "load"
  skipped : s.workload.skipInit = true → ramp = none ∧ m = n
  told : s.workload.skipInit = false →
    ∃ report, ramp = some report ∧ report.counts.Covers (m - n) ∧ report.counts.calls = report.put.calls

/-- The load is over and what follows it is counted. -/
structure Steady (n m : Nat) (r : Run σ) (c : Course σ) : Prop where
  steady : c.settings.hasSteadyState = true
  ramped : Ramped c.settings n m r c.ramp
  tallied : Tallied m steadyNames r

/-- Nothing goes on any more, and the reports tell of everything. -/
structure Reported (s : Settings) (n m : Nat) (r : Run σ) (ramp summary : Option Report) : Prop where
  ramped : Ramped s n m r ramp
  deserted : Deserted r
  attributed : ∀ b ∈ r.site.log.drop m, ∃ name ∈ steadyNames, r.nameOf b.1 = some name
  steady : s.hasSteadyState = true → ∃ report, summary = some report ∧ report.counts.Covers (r.site.log.length - m)
  unsteady : s.hasSteadyState = false → summary = none ∧ m = r.site.log.length

/-- Where the wait for a key stands, or what it led to. -/
inductive Follows (c : Course σ) : Wait → Phase σ → Prop where
  | dialing {w : Wait} {untilMs : Nat} {a : Reaction} : Follows c w (.dialing w untilMs a)
  | guarding {w : Wait} {id : Nat} {s : Sentinel} : Follows c w (.guarding w id s)
  | finishing {waited : Except StoreError Bool} : Follows c .testEnd (.finishing waited)
  | failed {e : RunError} : Follows c .keepAlive (.ended (.error e))
  | reported : Follows c .keepAlive (.ended (.ok (.reports c.ramp c.summary c.testEndSeen)))

/-- Where the main task of a whole run stands, when `n` operations had been begun before it. -/
inductive Reporting (n : Nat) (r : Run σ) (c : Course σ) : Prop where
  | beginning (phase : c.phase = .beginning) (dispatchers : r.dispatchers = []) (putting : Putting r)
      (log : r.site.log.length = n) (counts : r.recorder.counts = .zero) (ramp : c.ramp = none) : Reporting n r c
  | loading {i : Nat} (phase : c.phase = .loading 0 i) (loads : c.settings.workload.skipInit = false)
      (alone : ∀ d name, r.nameOf d = some name → d = 0 ∧ name = "load") (tallied : Tallied n ["load"] r)
      (putting : Putting r) : Reporting n r c
  | opening {m : Nat} {p : Prepared} {targets : List Watch.Target} {clients : List Nat} {source : σ}
      (phase : c.phase = .opening p targets clients source) (steady : Steady n m r c) (unstarted : Unstarted r) :
      Reporting n r c
  | awaiting {m : Nat} (phase : Follows c .testEnd c.phase) (steady : Steady n m r c) (registered : Registered r c) :
      Reporting n r c
  | unsteady {m : Nat} (phase : c.phase = .ended (.ok (.reports c.ramp none false)))
      (reported : Reported c.settings n m r c.ramp none) : Reporting n r c
  | reported {m : Nat} (phase : Follows c .keepAlive c.phase)
      (reported : Reported c.settings n m r c.ramp c.summary) : Reporting n r c
  | failed {e : RunError} (phase : c.phase = .ended (.error e)) : Reporting n r c
  | crashed {f : Fault} (phase : c.phase = .crashed f) : Reporting n r c

/-- A whole run of an engine, when `n` operations had been begun before it. -/
def Conducts (e : Engine) (n : Nat) (r : Run σ) : Prop :=
  ∃ c, r.course = some c ∧ c.goal = .workload ∧ c.engine = e ∧ Reporting n r c

variable {r next : Run σ} {c : Course σ} {e : Engine} {s : Settings} {n m d w : Nat} {ramp summary : Option Report}

/-! ### What keeps a report -/

theorem Extends.named (extends_ : Extends r next) {name : String} (named : r.nameOf d = some name) :
    next.nameOf d = some name := by
  obtain ⟨x,at_d,rfl⟩ := Option.map_eq_some_iff.mp named
  obtain ⟨y,at_y,-⟩ := extends_.quiet.dispatcher x at_d
  obtain ⟨more,same⟩ := extends_.dispatchers
  rw [nameOf,← same,List.getElem?_append_left (List.getElem?_eq_some_iff.mp at_d).1,at_d]
  rfl

theorem Ramped.keeps (ramped : Ramped s n m r ramp)
    (named : ∀ d name, r.nameOf d = some name → next.nameOf d = some name) (log : r.site.log <+: next.site.log) :
    Ramped s n m next ramp := by
  obtain ⟨more,same⟩ := log
  have last := ramped.last
  refine ⟨ramped.first,?_,fun b member => ?_,ramped.skipped,ramped.told⟩
  · rw [← same,List.length_append]
    omega
  · rw [← same,List.take_append_of_le_length last] at member
    exact named _ _ (ramped.attributed b member)

theorem Ramped.rests (ramped : Ramped s n m r ramp) (rests : Rests r next) : Ramped s n m next ramp :=
  ramped.keeps (fun d _ named => (rests.nameOf d).trans named) (rests.log ▸ List.prefix_rfl)

theorem Reported.rests (reported : Reported s n m r ramp summary) (rests : Rests r next) :
    Reported s n m next ramp summary := by
  refine ⟨reported.ramped.rests rests,rests.deserted reported.deserted,fun b member => ?_,?_,?_⟩
  · rw [rests.log] at member
    obtain ⟨name,among,named⟩ := reported.attributed b member
    exact ⟨name,among,(rests.nameOf b.1).trans named⟩
  · rw [rests.log]
    exact reported.steady
  · rw [rests.log]
    exact reported.unsteady

theorem Steady.rests (steady : Steady n m r c) (rests : Rests r next) : Steady n m next c :=
  ⟨steady.steady,steady.ramped.rests rests,steady.tallied.rests rests⟩

theorem Steady.worker (steady : Steady n m r c) (run : r.moveWorker d w = some next) : Steady n m next c := by
  obtain ⟨names,log⟩ := moveWorker_names run
  exact ⟨steady.steady,steady.ramped.keeps (fun d name named => (names d).trans named) log,steady.tallied.worker run⟩

theorem Follows.inPhase {w : Wait} {phase : Phase σ} (follows : Follows c w phase) (other : Phase σ) :
    Follows { c with phase := other } w phase := by
  cases follows with
  | dialing => exact .dialing
  | guarding => exact .guarding
  | finishing => exact .finishing
  | failed => exact .failed
  | reported => exact .reported

theorem Steady.inPhase (steady : Steady n m r c) (phase : Phase σ) : Steady n m r { c with phase } :=
  ⟨steady.steady,steady.ramped,steady.tallied⟩

theorem Unstarted.rests (unstarted : Unstarted r) (rests : Rests r next) : Unstarted next :=
  fun d name named => unstarted d name ((rests.nameOf d).symm.trans named)

theorem Registered.rests (registered : Registered r c) (rests : Rests r next) : Registered next c :=
  fun d name named => registered d name ((rests.nameOf d).symm.trans named)

theorem Unstarted.registered (unstarted : Unstarted r) (c : Course σ) : Registered r c :=
  fun d name named among => absurd among (unstarted d name named)

/-! ### The turns of the main task -/

theorem inPhase_rests (r : Run σ) (c : Course σ) (phase : Phase σ) : Rests r (r.inPhase c phase) := ⟨rfl,rfl,rfl⟩

theorem Conducts.inPhase (goal : c.goal = .workload) (engine : c.engine = e) {phase : Phase σ}
    (reporting : Reporting n (r.inPhase c phase) { c with phase }) : Conducts e n (r.inPhase c phase) :=
  ⟨_,rfl,goal,engine,reporting⟩

/-! The wait for a key -/

theorem WaitMove.follows {w : Wait} {result : Except StoreError Bool} (goal : c.goal = .workload)
    (move : WaitMove r next c w result) :
    Rests r next ∧ ∃ phase, next.course = some { c with phase } ∧ Follows c w phase := by
  cases move with
  | reports after =>
    rw [after]
    exact ⟨⟨rfl,rfl,rfl⟩,_,rfl,.reported⟩
  | fails after =>
    rw [after]
    exact ⟨⟨rfl,rfl,rfl⟩,_,rfl,.failed⟩
  | tells waits => cases goal.symm.trans waits
  | winds _ after =>
    rw [after]
    exact ⟨⟨rfl,rfl,rfl⟩,_,rfl,.finishing⟩

theorem hangUp_rests (r : Run σ) (id : Nat) (w : Wait) (result : Except StoreError Bool) :
    Rests r (r.hangUp id w result) := by
  unfold hangUp
  split <;> exact ⟨rfl,rfl,rfl⟩

/-! Joining -/

theorem joined_of_dispatchersJoined {ds : List Nat} (joined : r.dispatchersJoined? ds = some (.ok ())) :
    ∀ d ∈ ds, ∀ x, r.dispatchers[d]? = some x → x.joined? = some (.ok ()) := by
  induction ds with
  | nil => simp
  | cons d ds ih =>
    rw [dispatchersJoined?] at joined
    obtain ⟨one,at_one,joined⟩ := Option.bind_eq_some_iff.mp joined
    obtain ⟨others,at_others,joined⟩ := Option.bind_eq_some_iff.mp joined
    cases one with
    | error e => cases joined
    | ok _ =>
      cases joined
      rintro d' member x at_d
      rcases List.mem_cons.mp member with rfl | later
      · rwa [at_d] at at_one
      · exact ih at_others d' later x at_d

theorem joined_of_woundDown (wound : r.woundDown? c = some (.ok ())) :
    ∀ d ∈ c.activities.map Prod.fst ++ c.replayDispatcher.toList, ∀ x, r.dispatchers[d]? = some x →
      x.joined? = some (.ok ()) := by
  obtain ⟨produced,-,wound⟩ := Option.bind_eq_some_iff.mp wound
  cases produced with
  | error e => cases wound
  | ok _ =>
    obtain ⟨dispatched,activities,wound⟩ := Option.bind_eq_some_iff.mp wound
    obtain ⟨watched,closed,wound⟩ := Option.bind_eq_some_iff.mp wound
    cases watched with
    | error e => cases wound
    | ok _ =>
      cases wound
      have replays : r.dispatchersJoined? c.replayDispatcher.toList = some (.ok ()) := by
        unfold watchesClosed? at closed
        split at closed
        · obtain ⟨produced,-,closed⟩ := Option.bind_eq_some_iff.mp closed
          cases produced with
          | error e => cases closed
          | ok _ => exact closed
        · cases closed
      intro d member
      rcases List.mem_append.mp member with activity | replay
      · exact joined_of_dispatchersJoined activities d activity
      · exact joined_of_dispatchersJoined replays d replay

/-- When the load has been joined well, and nothing else is there, every dispatcher has been. -/
theorem LoadOver.all {i : Nat} {p : Producer σ} (done : LoadOver r 0 i p)
    (alone : ∀ d name, r.nameOf d = some name → d = 0 ∧ name = "load") :
    ∀ x ∈ r.dispatchers, x.joined? = some (.ok ()) := by
  intro x member
  obtain ⟨d,at_d⟩ := List.mem_iff_getElem?.mp member
  obtain ⟨rfl,-⟩ := alone d x.name (by rw [nameOf,at_d]; rfl)
  exact joined_of_dispatchersJoined done.joined 0 List.mem_cons_self x at_d

/-- Dispatchers that have ended well have nothing in progress, and what they began is counted. -/
theorem Tallied.joined {names : List String} (tallied : Tallied m names r)
    (joined : ∀ x ∈ r.dispatchers, x.name ∈ names → x.joined? = some (.ok ())) :
    Deserted r ∧ r.recorder.counts.Covers (r.site.log.length - m) := by
  have deserted : Deserted r := by
    intro x member
    cases served : x.isServed with
    | false => rfl
    | true =>
      have gone := (Dispatcher.joined_ok (joined x member (tallied.serving x member served))).1
      rw [served] at gone
      cases gone
  refine ⟨deserted,?_⟩
  obtain ⟨k,total,covers⟩ := tallied.counted fun x member among => (Dispatcher.joined_ok (joined x member among)).2.1
  have idle := deserted.inProgress_eq
  have length : r.site.log.length - m = k := by omega
  exact length ▸ covers

/-! Starting what follows the load -/

theorem nameOf_employ {name name' : String} {options : DispatchOptions} {clients : List Nat}
    (named : (r.employ name' options clients).nameOf d = some name) :
    r.nameOf d = some name ∨ d = r.nextDispatcher ∧ name = name' := by
  have named : (r.dispatchers ++ [Dispatcher.start name' options clients])[d]?.map Dispatcher.name = some name := named
  rcases Nat.lt_trichotomy d r.dispatchers.length with before | here | after
  · rw [List.getElem?_append_left before] at named
    exact .inl named
  · subst here
    rw [List.getElem?_append_right (Nat.le_refl _),Nat.sub_self] at named
    cases named
    exact .inr ⟨rfl,rfl⟩
  · rw [List.getElem?_eq_none (by simp; omega)] at named
    cases named

theorem start_idle (name : String) (options : DispatchOptions) (clients : List Nat) {α : Type}
    {f : WorkerStage → Option α} (waits : f .waiting = none) :
    ((Dispatcher.start name options clients).workers.filterMap fun w => f w.stage) = [] :=
  List.filterMap_eq_nil_iff.mpr fun w member => by
    obtain ⟨client,-,rfl⟩ := List.mem_map.mp member
    exact waits

theorem Tallied.employ {names : List String} {name : String} (tallied : Tallied m names r) (among : name ∈ names)
    (options : DispatchOptions) (clients : List Nat) : Tallied m names (r.employ name options clients) := by
  refine ⟨fun fine => ?_,tallied.since,fun x member served => ?_,fun b member => ?_⟩
  · obtain ⟨k,total,covers⟩ := tallied.counted fun x member => fine x (List.mem_append_left _ member)
    refine ⟨k,total.trans ?_,covers⟩
    have idle : (Dispatcher.start name options clients).running = [] := start_idle name options clients rfl
    simp [inProgress,Run.employ,idle]
  · rcases List.mem_append.mp member with old | new
    · exact tallied.serving x old served
    · rw [List.mem_singleton.mp new]
      exact among
  · obtain ⟨name,among,named⟩ := tallied.attributed b member
    exact ⟨name,among,(employ_extends r _ options clients).named named⟩

theorem Steady.employ {name : String} (steady : Steady n m r c) (among : name ∈ steadyNames) (options : DispatchOptions)
    (clients : List Nat) : Steady n m (r.employ name options clients) c :=
  ⟨steady.steady,steady.ramped.keeps (fun _ _ named => (employ_extends r _ options clients).named named)
    List.prefix_rfl,steady.tallied.employ among options clients⟩

theorem assign_rests (r : Run σ) (p : Producer σ) : Rests r (r.assign p) := ⟨rfl,rfl,rfl⟩

theorem startReplays_rests (replays : List Watch.Replay) (r : Run σ) (d : Nat) (source : σ) :
    Rests r (r.startReplays d source replays) :=
  startReplays_induction replays d source (Rests r) (.refl r) fun before => before.trans ⟨rfl,rfl,rfl⟩

/-- What the steps of starting keep: the dispatchers so far are registered. -/
structure Starting (n m : Nat) (e : Engine) (r : Run σ) (c : Course σ) : Prop where
  goal : c.goal = .workload
  engine : c.engine = e
  steady : Steady n m r c
  registered : Registered r c

theorem activity_name (a : Churn.Activity) : a.name ∈ steadyNames := by
  cases a <;> simp [Churn.Activity.name,steadyNames]

theorem Starting.activity (starting : Starting n m e r c) (a : Churn.Activity) (rate : Option Nat)
    (clients : List Nat) : Starting n m e (r.startActivity c a rate clients).1 (r.startActivity c a rate clients).2 := by
  let employed := r.employ a.name c.options clients
  have rests : Rests employed (r.startActivity c a rate clients).1 := assign_rests _ _
  have steady : Steady n m employed c := starting.steady.employ (activity_name a) c.options clients
  have started := steady.rests rests
  refine ⟨starting.goal,starting.engine,⟨started.steady,started.ramped,started.tallied⟩,fun d name named among => ?_⟩
  rw [rests.nameOf] at named
  show d ∈ (c.activities ++ [(r.nextDispatcher,r.nextProducer)]).map Prod.fst ++ c.replayDispatcher.toList
  rw [List.map_append]
  rcases nameOf_employ named with old | ⟨rfl,-⟩
  · have was := starting.registered d name old among
    simp only [List.mem_append] at was ⊢
    rcases was with activity | replay
    · exact .inl (.inl activity)
    · exact .inr replay
  · simp

theorem Starting.dial (starting : Starting n m e r c) (rests : Rests r next) : Conducts e n (next.dial c .testEnd) := by
  have dialed : Rests r (next.dial c .testEnd) := rests.trans ⟨rfl,rfl,rfl⟩
  exact .inPhase starting.goal starting.engine (.awaiting .dialing ((starting.steady.rests dialed).inPhase _)
    (starting.registered.rests dialed))

theorem Starting.activities {activities : List (Churn.Activity × Option Nat × ClientRange)} {c' : Course σ}
    (starting : Starting n m e r c) (run : r.startActivities c activities = .ok (next,c')) :
    Starting n m e next c' :=
  startActivities_induction (Starting n m e) starting (fun _ before _ => before.activity _ _ _) run

section
variable [RandomSource σ]

theorem Starting.replays {targets : List Watch.Target} {clients : List Nat} {source : σ} {c' : Course σ}
    (goal : c.goal = .workload) (engine : c.engine = e) (steady : Steady n m r c) (unstarted : Unstarted r)
    (run : r.replayTargets c targets clients source = .ok (next,c')) : Starting n m e next c' := by
  obtain ⟨rfl,rfl⟩ | ⟨replays,source',rfl,rfl⟩ := replayTargets_some run
  · exact ⟨goal,engine,steady,unstarted.registered _⟩
  · have rests := startReplays_rests replays (r.employ "watch_replay" c.options clients) r.nextDispatcher source'
    have started := (steady.employ (by simp [steadyNames]) c.options clients).rests rests
    refine ⟨goal,engine,⟨started.steady,started.ramped,started.tallied⟩,fun d name named among => ?_⟩
    rw [rests.nameOf] at named
    rcases nameOf_employ named with old | ⟨rfl,-⟩
    · exact absurd among (unstarted d name old)
    · exact List.mem_append_right _ List.mem_cons_self

omit [RandomSource σ] in
theorem watchTargets_rests (r : Run σ) (withPrefix : Bool) (targets : List Watch.Target) :
    Rests r (r.watchTargets withPrefix targets) := by
  unfold watchTargets
  split
  · exact .refl r
  · exact ⟨rfl,rfl,rfl⟩

theorem OpenMove.conducts {p : Prepared} {clients : List Nat} {source : σ} (move : OpenMove r next c p clients source)
    (goal : c.goal = .workload) (engine : c.engine = e) (steady : Steady n m r c) (unstarted : Unstarted r) :
    Conducts e n next := by
  cases move with
  | crash planned after =>
    rw [after]
    exact .inPhase goal engine (.crashed rfl)
  | refuse planned after =>
    rw [after]
    exact .inPhase goal engine (.failed rfl)
  | opens planned after =>
    have rests : Rests r next := by
      rw [after]
      exact (watchTargets_rests r _ _).trans (inPhase_rests _ c _)
    rw [after] at rests ⊢
    exact .inPhase goal engine (.opening rfl ((steady.rests rests).inPhase _) (unstarted.rests rests))

theorem SteadyMove.conducts (move : SteadyMove r next c) (goal : c.goal = .workload) (engine : c.engine = e)
    (ramped : Ramped c.settings n r.site.log.length r c.ramp) (deserted : Deserted r) (unstarted : Unstarted r) :
    Conducts e n next := by
  have nothing : r.site.log.drop r.site.log.length = [] := List.drop_length
  cases move with
  | skips unsteady after =>
    have rests := inPhase_rests r c (.ended (.ok (.reports c.ramp none false)))
    rw [after]
    refine .inPhase goal engine (.unsteady rfl ⟨ramped.rests rests,rests.deserted deserted,?_,?_,fun _ => ⟨rfl,rfl⟩⟩)
    · intro b member
      rw [rests.log,nothing] at member
      cases member
    · intro steady
      cases unsteady.symm.trans steady
  | crash steady after =>
    rw [after]
    exact .inPhase (c := { c with steadyMs := r.nowMs }) goal engine (.crashed rfl)
  | refuse steady defined after =>
    rw [after]
    exact .inPhase (c := { c with steadyMs := r.nowMs }) goal engine (.failed rfl)
  | opens steady defined shared move =>
    -- counting starts over between the join of the load and the first of what follows it
    have counted : Tallied r.site.log.length steadyNames { r with recorder := r.recorder.reset } := by
      refine ⟨fun _ => ⟨0,?_,Counts.covers_zero⟩,Nat.le_refl _,fun x member served => ?_,fun b member => ?_⟩
      · exact (Nat.add_zero _).symm.trans (congrArg _ deserted.inProgress_eq.symm)
      · cases (deserted x member).symm.trans served
      · cases nothing ▸ member
    exact move.conducts goal engine ⟨steady,ramped.keeps (fun _ _ => id) List.prefix_rfl,counted⟩ unstarted

/-- The report on the load is made when its workers are gone. -/
theorem LoadOver.conducts {i : Nat} {p : Producer σ} (done : LoadOver r 0 i p)
    (move : SteadyMove r next { c with ramp := some (r.report c "ramp" c.startedMs) }) (goal : c.goal = .workload)
    (engine : c.engine = e) (loads : c.settings.workload.skipInit = false)
    (alone : ∀ d name, r.nameOf d = some name → d = 0 ∧ name = "load") (tallied : Tallied n ["load"] r)
    (putting : Putting r) : Conducts e n next := by
  obtain ⟨deserted,covers⟩ := tallied.joined fun x member _ => done.all alone x member
  refine move.conducts goal engine ?_ deserted fun d name named => ?_
  · refine ⟨tallied.since,Nat.le_refl _,fun b member => ?_,fun skips => ?_,fun _ => ⟨_,rfl,covers,?_⟩⟩
    · rw [List.take_length] at member
      obtain ⟨name,among,named⟩ := tallied.attributed b member
      rw [List.mem_singleton.mp among] at named
      exact named
    · cases loads.symm.trans skips
    · exact putting.counted
  · rw [(alone d name named).2]
    decide

omit [RandomSource σ] in
theorem beginLoad_conducts {total : Nat} (goal : c.goal = .workload) (engine : c.engine = e)
    (loads : c.settings.workload.skipInit = false) (dispatchers : r.dispatchers = []) (putting : Putting r)
    (log : r.site.log.length = n) (counts : r.recorder.counts = .zero) : Conducts e n (r.beginLoad c total) := by
  have first : r.nextDispatcher = 0 := by rw [nextDispatcher,dispatchers]; rfl
  have tallied : Tallied n ["load"] r := by
    refine ⟨fun _ => ⟨0,?_,counts ▸ Counts.covers_zero⟩,Nat.le_of_eq log.symm,fun x member => ?_,fun b member => ?_⟩
    · rw [log,inProgress,dispatchers]
      rfl
    · rw [dispatchers] at member
      cases member
    · rw [List.drop_eq_nil_of_le (Nat.le_of_eq log)] at member
      cases member
  have employed := tallied.employ List.mem_cons_self c.options c.pool
  have rests : Rests (r.employ "load" c.options c.pool) (r.beginLoad c total) := ⟨rfl,rfl,rfl⟩
  refine ⟨_,rfl,goal,engine,.loading (congrArg (Phase.loading · r.nextProducer) first) loads (fun d name named => ?_)
    (employed.rests rests) ⟨fun p member => ?_,fun x member => ?_,?_⟩⟩
  · rw [rests.nameOf] at named
    rcases nameOf_employ named with old | ⟨rfl,rfl⟩
    · rw [nameOf,dispatchers] at old
      cases old
    · exact ⟨first,rfl⟩
  · rcases List.mem_append.mp member with old | new
    · exact putting.producers p old
    · rw [List.mem_singleton.mp new]
      exact ⟨⟨_,rfl⟩,fun op ready => by cases ready⟩
  · have member : x ∈ r.dispatchers ++ [_] := member
    rw [dispatchers] at member
    rw [List.mem_singleton.mp member]
    have nothing : (Dispatcher.start "load" c.options c.pool).inHand = [] := start_idle _ _ _ rfl
    intro op held
    rw [nothing] at held
    cases held
  · rw [rests.counts]
    exact (congrArg Counts.calls counts).trans (congrArg Counts.put counts).symm

theorem SteadyMove.conducts_first (move : SteadyMove r next c) (goal : c.goal = .workload) (engine : c.engine = e)
    (dispatchers : r.dispatchers = []) (log : r.site.log.length = n) (ramp : c.ramp = none)
    (skips : c.settings.workload.skipInit = true) : Conducts e n next := by
  refine move.conducts goal engine ?_ (fun x member => ?_) fun d name named => ?_
  · refine ⟨Nat.le_of_eq log.symm,Nat.le_refl _,fun b member => ?_,fun _ => ⟨ramp,log⟩,fun loads => ?_⟩
    · rw [List.take_length,List.drop_eq_nil_of_le (Nat.le_of_eq log)] at member
      cases member
    · cases loads.symm.trans skips
  · rw [dispatchers] at member
    cases member
  · rw [nameOf,dispatchers] at named
    cases named

omit [RandomSource σ] in
/-- The summary is made when the workers of every dispatcher that was started are gone. -/
theorem Steady.reported (steady : Steady n m r c) (registered : Registered r c)
    (wound : r.woundDown? c = some (.ok ())) : Reported c.settings n m r c.ramp (r.summarize c).summary := by
  have joined : ∀ x ∈ r.dispatchers, x.name ∈ steadyNames → x.joined? = some (.ok ()) := by
    intro x member among
    obtain ⟨d,at_d⟩ := List.mem_iff_getElem?.mp member
    exact joined_of_woundDown wound d (registered d x.name (by rw [nameOf,at_d]; rfl) among) x at_d
  obtain ⟨deserted,covers⟩ := steady.tallied.joined joined
  exact ⟨steady.ramped,deserted,steady.tallied.attributed,fun _ => ⟨_,rfl,covers⟩,
    fun unsteady => by cases unsteady.symm.trans steady.steady⟩

/-- While it waits for a key, the main task keeps to the wait and counts nothing. -/
theorem Follows.turn {w : Wait} {phase : Phase σ} (goal : c.goal = .workload) (follows : Follows c w phase)
    (move : MainMove r next c phase) : (∃ waited, phase = .finishing waited) ∨
      Rests r next ∧ ∃ phase, next.course = some { c with phase } ∧ Follows c w phase := by
  have elsewhere {s : Run σ} {result : Except StoreError Bool} (rests : Rests r s) (move : WaitMove s next c w result) :
      Rests r next ∧ ∃ phase, next.course = some { c with phase } ∧ Follows c w phase := by
    obtain ⟨moved,follows⟩ := move.follows goal
    exact ⟨rests.trans moved,follows⟩
  cases follows with
  | @dialing _ untilMs a =>
    have log := Site.log_of_begun (endConnect_site r.site 0 a).2
    cases move with
    | connects connected after =>
      rw [connected] at log
      rw [after]
      exact .inr ⟨⟨rfl,log,rfl⟩,_,rfl,.guarding⟩
    | @refused _ _ _ _ site refused move =>
      rw [refused] at log
      exact .inr (elsewhere (s := { r with site }) ⟨rfl,log,rfl⟩ move)
  | guarding =>
    cases move with
    | guards stepped unsettled after =>
      rw [after]
      exact .inr ⟨⟨rfl,Site.log_of_begun (sentinel_site stepped).2,rfl⟩,_,rfl,.guarding⟩
    | @settles _ _ _ _ site _ stepped settled move =>
      have heard : Rests r { r with site } := ⟨rfl,Site.log_of_begun (sentinel_site stepped).2,rfl⟩
      exact .inr (elsewhere (heard.trans (hangUp_rests _ _ _ _)) move)
  | @finishing waited => exact .inl ⟨waited,rfl⟩
  | failed => cases move
  | reported => cases move

theorem Conducts.main (conducts : Conducts e n r) (run : r.moveMain = some next) : Conducts e n next := by
  obtain ⟨c,course,goal,engine,reporting⟩ := conducts
  have move := moveMain_move course run
  cases reporting with
  | beginning phase dispatchers putting log counts ramp =>
    rw [phase] at move
    cases move with
    | skipsLoad _ skips move => exact move.conducts_first goal engine dispatchers log ramp skips
    | begins _ loads after =>
      rw [after]
      exact beginLoad_conducts goal engine loads dispatchers putting log counts
    | loads other | loadsNone other | dials other | watches other => cases goal.symm.trans other
  | loading phase loads alone tallied putting =>
    rw [phase] at move
    cases move with
    | broken at_i broken after =>
      rw [after]
      exact .inPhase goal engine (.crashed rfl)
    | unjoined joined after =>
      rw [after]
      exact .inPhase goal engine (.failed rfl)
    | goesOn done _ move => exact done.conducts move goal engine loads alone tallied putting
    | loadsOn done other | loaded done other => cases goal.symm.trans other
  | opening phase steady unstarted =>
    rw [phase] at move
    cases move with
    | unreplayed tried after =>
      rw [after]
      exact .inPhase goal engine (.crashed rfl)
    | watching tried replays watches =>
      cases (Starting.replays goal engine steady unstarted replays).goal.symm.trans watches
    | unstarted tried replays _ after =>
      have replays := Starting.replays goal engine steady unstarted replays
      rw [after]
      exact .inPhase replays.goal replays.engine (.crashed rfl)
    | @starts p targets clients source s t c' c'' tried replays _ started after =>
      have started := (Starting.replays goal engine steady unstarted replays).activities started
      rw [after]
      refine started.dial ?_
      unfold reportEvery
      split
      · exact .refl t
      · exact ⟨rfl,rfl,rfl⟩
  | awaiting follows steady registered =>
    rcases follows.turn goal move with ⟨waited,finishing⟩ | ⟨rests,phase,course,follows⟩
    · rw [finishing] at move
      cases move with
      | unreported after =>
        rw [after]
        exact .inPhase goal engine (.failed rfl)
      | fails failed after =>
        rw [after]
        exact .inPhase (c := r.summarize c) goal engine (.failed rfl)
      | @keeps seen wound _ after =>
        rw [after]
        exact .inPhase (c := { r.summarize c with testEndSeen := seen }) goal engine
          (.reported .dialing ((steady.reported registered wound).rests ⟨rfl,rfl,rfl⟩))
      | @reports seen wound _ after =>
        rw [after]
        exact .inPhase (c := { r.summarize c with testEndSeen := seen }) goal engine
          (.reported .reported ((steady.reported registered wound).rests ⟨rfl,rfl,rfl⟩))
    · exact ⟨_,course,goal,engine,.awaiting (follows.inPhase phase) ((steady.rests rests).inPhase phase)
        (registered.rests rests)⟩
  | reported follows reported =>
    rcases follows.turn goal move with ⟨waited,finishing⟩ | ⟨rests,phase,course,follows⟩
    · rw [finishing] at follows
      cases follows
    · exact ⟨_,course,goal,engine,.reported (follows.inPhase phase) (reported.rests rests)⟩
  | unsteady phase reported =>
    rw [phase] at move
    cases move
  | failed phase =>
    rw [phase] at move
    cases move
  | crashed phase =>
    rw [phase] at move
    cases move

/-! ### The steps of others -/

theorem ProducerTurn.course {i : Nat} {p : Producer σ} (turn : ProducerTurn r next i p) : next.course = r.course := by
  cases turn with
  | send stage at_d told served room after =>
    rw [after,placeProducer_course]
    rfl
  | place sent after => rw [after,placeProducer_course]
  | enlist after =>
    rw [after]
    rfl

theorem intervene_course (course : r.course = some c) (i : Intervention) :
    ∃ phase, (r.intervene i).course = some { c with phase } ∧
      (phase = c.phase ∨ ∃ x, phase = befallen x c.phase) := by
  have same {s : Run σ} (kept : s.course = r.course) : ∃ phase, s.course = some { c with phase } ∧
      (phase = c.phase ∨ ∃ x, phase = befallen x c.phase) := ⟨c.phase,kept.trans course,.inl rfl⟩
  have on_producer (j : Nat) (f : Producer σ → Producer σ) : (r.onProducer j f).course = r.course :=
    onProducer_elim (fun s => s.course = r.course) rfl fun _ _ => placeProducer_course r j _
  cases i with
  | interrupt x => exact ⟨_,interrupt_course course x,.inr ⟨x,rfl⟩⟩
  | offer j op => exact same (on_producer j _)
  | urge j => exact same (on_producer j _)
  | dismiss j => exact same (on_producer j _)
  | _ => exact same rfl

/-- The main task stays where it is while others go on, but for what befalls its watch. -/
theorem step_course {ev : Event} (run : r.step ev = some next) (main : ev ≠ .turn .main) (course : r.course = some c) :
    ∃ phase, next.course = some { c with phase } ∧ (phase = c.phase ∨ ∃ x, phase = befallen x c.phase) := by
  have same (kept : next.course = r.course) : ∃ phase, next.course = some { c with phase } ∧
      (phase = c.phase ∨ ∃ x, phase = befallen x c.phase) := ⟨c.phase,kept.trans course,.inl rfl⟩
  cases ev with
  | turn p =>
    cases p with
    | main => exact absurd rfl main
    | producer i =>
      obtain ⟨p,-,turn⟩ := moveProducer_turn run
      exact same turn.course
    | worker d w => exact same (moveWorker_course run)
    | watcher i => exact same (moveWatcher_aside run).course
    | reporter i => exact same (moveReporter_aside run).course
  | outside i =>
    cases run
    exact intervene_course course i
  | pass ms =>
    cases run
    exact same rfl

theorem Putting.step {ev : Event} (putting : Putting r) (run : r.step ev = some next) (main : ev ≠ .turn .main)
    (unoffered : ∀ i op, ev ≠ .outside (.offer i op)) : Putting next := by
  have aside (aside : Aside r next) : Putting next := putting.same aside.producers aside.dispatchers aside.counts
  cases ev with
  | turn p =>
    cases p with
    | main => exact absurd rfl main
    | producer i => exact putting.producer run
    | worker d w => exact putting.worker run
    | watcher i => exact aside (moveWatcher_aside run)
    | reporter i => exact aside (moveReporter_aside run)
  | outside i =>
    cases run
    exact putting.intervene fun j op same => unoffered j op (by rw [same])
  | pass ms =>
    cases run
    exact putting.same rfl rfl rfl

theorem step_names {ev : Event} (run : r.step ev = some next) (main : ev ≠ .turn .main) (d : Nat) :
    next.nameOf d = r.nameOf d := by
  rcases step_rests run main with rests | ⟨d',w,moved⟩
  · exact rests.nameOf d
  · exact (moveWorker_names moved).1 d

theorem Tallied.step {names : List String} {ev : Event} (tallied : Tallied m names r) (run : r.step ev = some next)
    (main : ev ≠ .turn .main) : Tallied m names next := by
  rcases step_rests run main with rests | ⟨d,w,moved⟩
  · exact tallied.rests rests
  · exact tallied.worker moved

theorem Steady.step {ev : Event} (steady : Steady n m r c) (run : r.step ev = some next) (main : ev ≠ .turn .main) :
    Steady n m next c := by
  rcases step_rests run main with rests | ⟨d,w,moved⟩
  · exact steady.rests rests
  · exact steady.worker moved

theorem Reported.step {ev : Event} (reported : Reported s n m r ramp summary) (run : r.step ev = some next)
    (main : ev ≠ .turn .main) : Reported s n m next ramp summary := by
  rcases step_rests run main with rests | ⟨d,w,moved⟩
  · exact reported.rests rests
  · cases reported.deserted.idle.symm.trans moved

omit [RandomSource σ] in
theorem Follows.befallen {w : Wait} {phase : Phase σ} (follows : Follows c w phase) (x : Watch.Interruption) :
    Follows c w (befallen x phase) := by
  cases follows with
  | dialing => exact .dialing
  | guarding => exact .guarding
  | finishing => exact .finishing
  | failed => exact .failed
  | reported => exact .reported

theorem Reporting.beside {ev : Event} (reporting : Reporting n r c) (run : r.step ev = some next)
    (main : ev ≠ .turn .main) (unoffered : ∀ i op, ev ≠ .outside (.offer i op)) {phase : Phase σ}
    (still : phase = c.phase ∨ ∃ x, phase = befallen x c.phase) : Reporting n next { c with phase } := by
  have fixed {there : Phase σ} (at_phase : c.phase = there) (settled : ∀ x, befallen x there = there) :
      phase = there := by
    rcases still with same | ⟨x,same⟩
    · exact same.trans at_phase
    · rw [same,at_phase,settled]
  have follows {w : Wait} (follows : Follows c w c.phase) : Follows { c with phase } w phase := by
    rcases still with rfl | ⟨x,rfl⟩
    · exact follows.inPhase _
    · exact (follows.befallen x).inPhase _
  have names := step_names run main
  cases reporting with
  | beginning at_phase dispatchers putting log counts ramp =>
    -- no dispatcher has been started, so there is no worker to move
    rcases step_rests run main with rests | ⟨d,w,moved⟩
    · have none_employed : next.dispatchers = [] :=
        List.map_eq_nil_iff.mp (rests.crews.trans (by rw [dispatchers]; rfl))
      exact .beginning (fixed at_phase fun _ => rfl) none_employed (putting.step run main unoffered)
        (rests.log ▸ log) (rests.counts.trans counts) ramp
    · have deserted : Deserted r := by
        rw [Deserted,dispatchers]
        simp
      cases deserted.idle.symm.trans moved
  | loading at_phase loads alone tallied putting =>
    exact .loading (fixed at_phase fun _ => rfl) loads
      (fun d name named => alone d name ((names d).symm.trans named))
      (tallied.step run main) (putting.step run main unoffered)
  | opening at_phase steady unstarted =>
    exact .opening (fixed at_phase fun _ => rfl) ((steady.step run main).inPhase phase)
      fun d name named => unstarted d name ((names d).symm.trans named)
  | awaiting at_phase steady registered =>
    exact .awaiting (follows at_phase) ((steady.step run main).inPhase phase)
      fun d name named => registered d name ((names d).symm.trans named)
  | reported at_phase reported => exact .reported (follows at_phase) (reported.step run main)
  | unsteady at_phase reported =>
    exact .unsteady (fixed at_phase fun _ => rfl) (reported.step run main)
  | failed at_phase => exact .failed (fixed at_phase fun _ => rfl)
  | crashed at_phase => exact .crashed (fixed at_phase fun _ => rfl)

theorem Conducts.step {ev : Event} (conducts : Conducts e n r) (run : r.step ev = some next)
    (unoffered : ∀ i op, ev ≠ .outside (.offer i op)) : Conducts e n next := by
  by_cases main : ev = .turn .main
  · subst main
    exact conducts.main run
  · obtain ⟨c,course,goal,engine,reporting⟩ := conducts
    obtain ⟨phase,after,still⟩ := step_course run main course
    exact ⟨_,after,goal,engine,reporting.beside run main unoffered still⟩

end

/-! ### The end of the run -/

theorem log_length (s : Site) : s.log.length = s.begun.size := by
  rw [Site.log,List.length_map,Array.length_toList]

theorem Conducts.ofCourse (e : Engine) (options : DispatchOptions) (site : Site) (pool : Pool) (nowMs : Nat)
    (streams : Nat → σ) : Conducts e site.begun.size
      (Run.ofCourse site pool nowMs (Course.start e .workload options pool.size nowMs streams)) := by
  refine ⟨_,rfl,rfl,rfl,.beginning rfl rfl ⟨fun p member => ?_,fun x member => ?_,rfl⟩ (log_length site) rfl rfl⟩
  · cases member
  · cases member

theorem Conducts.start (e : Engine) (site : Site) (pool : Pool) (nowMs : Nat) :
    Conducts e site.begun.size (ofEngine e .workload site pool nowMs) := .ofCourse e _ site pool nowMs e.stream

theorem Conducts.ended {seen : Bool} (conducts : Conducts e n r)
    (ended : r.ending? = some (ExceptT.mk (.ok (.ok (.reports ramp summary seen))))) :
    ∃ m, Reported e.settings n m r ramp summary := by
  obtain ⟨c,course,-,rfl,reporting⟩ := conducts
  rw [ending?,course,Option.bind_some,Course.ending?] at ended
  cases reporting with
  | beginning phase => rw [phase] at ended; cases ended
  | loading phase => rw [phase] at ended; cases ended
  | opening phase => rw [phase] at ended; cases ended
  | awaiting phase =>
    generalize c.phase = at_phase at phase ended
    cases phase <;> cases ended
  | @reported m phase reported =>
    generalize c.phase = at_phase at phase ended
    cases phase with
    | reported =>
      cases ended
      exact ⟨m,reported⟩
    | _ => cases ended
  | @unsteady m phase reported =>
    rw [phase] at ended
    cases ended
    exact ⟨m,reported⟩
  | failed phase => rw [phase] at ended; cases ended
  | crashed phase => rw [phase] at ended; cases ended

/-- The record from `n` on is what the load began and then what was begun after it. -/
theorem Reported.begunUnder (reported : Reported s n m r ramp summary) :
    r.begunUnder n ["load"] = m - n ∧ r.begunUnder n steadyNames = r.site.log.length - m := by
  have first := reported.ramped.first
  have last := reported.ramped.last
  have split : r.site.log.drop n = (r.site.log.take m).drop n ++ r.site.log.drop m := by
    have bound : n ≤ (r.site.log.take m).length := by
      rw [List.length_take]
      omega
    rw [← List.drop_append_of_le_length bound,List.take_append_drop]
  have loaded (names : List String) (b : Nat × Operation) (member : b ∈ (r.site.log.take m).drop n) :
      (r.nameOf b.1).any names.contains = names.contains "load" := by
    rw [reported.ramped.attributed b member]
    rfl
  have kept (names : List String) (b : Nat × Operation) (member : b ∈ r.site.log.drop m) :
      ∃ name ∈ steadyNames, (r.nameOf b.1).any names.contains = names.contains name := by
    obtain ⟨name,among,named⟩ := reported.attributed b member
    exact ⟨name,among,by rw [named]; rfl⟩
  rw [Run.begunUnder,Run.begunUnder,split,List.countP_append,List.countP_append]
  constructor
  · rw [List.countP_eq_length.mpr fun b member => (loaded _ b member).trans (by decide),
      List.countP_eq_zero.mpr fun b member => ?_,List.length_drop,List.length_take]
    · omega
    · obtain ⟨name,among,same⟩ := kept ["load"] b member
      rw [same]
      simp only [steadyNames,List.mem_cons,List.not_mem_nil,or_false] at among
      rcases among with rfl | rfl | rfl | rfl <;> decide
  · rw [List.countP_eq_zero.mpr fun b member => by rw [loaded _ b member]; decide,
      List.countP_eq_length.mpr fun b member => ?_,List.length_drop]
    · omega
    · obtain ⟨name,among,same⟩ := kept steadyNames b member
      rw [same]
      exact List.contains_iff_mem.mpr among

theorem Reported.tells (reported : Reported s n m r ramp summary) : Tells s n r ramp summary := by
  obtain ⟨loaded,kept⟩ := reported.begunUnder
  have first := reported.ramped.first
  have last := reported.ramped.last
  have length := log_length r.site
  constructor
  case load =>
    intro loads
    obtain ⟨report,told,covers,puts⟩ := reported.ramped.told loads
    rw [loaded]
    exact ⟨report,told,puts ▸ Report.accounts covers⟩
  case unloaded =>
    intro skips
    obtain ⟨absent,same⟩ := reported.ramped.skipped skips
    exact ⟨absent,by omega⟩
  case steady =>
    intro steady
    obtain ⟨report,told,covers⟩ := reported.steady steady
    rw [kept]
    exact ⟨report,told,Report.accounts covers⟩
  case unsteady =>
    intro unsteady
    obtain ⟨absent,same⟩ := reported.unsteady unsteady
    exact ⟨absent,by omega⟩
  case whole => omega

/-- The report of an interval changes nothing that other reports tell. -/
theorem moveReporter_report {i : Nat} (run : r.moveReporter i = some next) (c : Course σ) (label : String)
    (sinceMs : Nat) : next.site = r.site ∧ next.report c label sinceMs = r.report c label sinceMs := by
  obtain ⟨reporter,-,run⟩ := Option.bind_eq_some_iff.mp run
  split at run
  · split at run
    · cases run
      exact ⟨rfl,rfl⟩
    · split at run
      · cases run
        exact ⟨rfl,rfl⟩
      · cases run
  · cases run

section
variable {site : Site} {pool : Pool} {nowMs : Nat} {events : List Event} {r : Run Xoshiro} {seen : Bool}

/-- A whole run that ends well reports every operation once, over every order of steps and whatever the store answers:
the load in its own report, everything that follows it in the summary. The report of an interval takes nothing away. -/
theorem reports_operations (run : (ofEngine e .workload site pool nowMs).steps events = some r)
    (unoffered : ∀ i op, .outside (.offer i op) ∉ events)
    (ended : r.ending? = some (ExceptT.mk (.ok (.ok (.reports ramp summary seen))))) :
    Tells e.settings site.begun.size r ramp summary ∧
      ∀ (before after : Run Xoshiro) (i : Nat), before.moveReporter i = some after →
        ∀ c label sinceMs, after.site = before.site ∧ after.report c label sinceMs = before.report c label sinceMs := by
  have conducts : Conducts e site.begun.size r := by
    refine steps_induction (fun events r => (∀ i op, .outside (.offer i op) ∉ events) → Conducts e site.begun.size r)
      (fun _ => .start e site pool nowMs) ?_ run unoffered
    intro events r ev next _ conducts step unoffered
    refine (conducts fun i op member => unoffered i op (List.mem_append_left _ member)).step step fun i op same => ?_
    exact unoffered i op (by simp [same])
  obtain ⟨m,reported⟩ := conducts.ended ended
  exact ⟨reported.tells,fun _ _ _ moved => moveReporter_report moved⟩

end

/-! ### A whole run -/

/-- Settings of one pattern whose values are put anew and read, without a pause. -/
def busily (pattern : String) : Settings :=
  { Engine.plainly pattern with
    churn := { Settings.standard.churn with valueRate := some 0 }
    reads := { Settings.standard.reads with rate := some 0 } }

/-- A run on a store at which the second operation fails. -/
def reporting (e : Engine) : Run Xoshiro := ofEngine e .workload (Site.fresh wavering .empty) (Pool.deal [0] 1) 0

/-- A worker carries out one operation. -/
def errand (d : Nat) : List Event := List.replicate 3 (.turn (.worker d 0))

/-- A key is loaded, put anew and read; then the test ends. -/
def wholeRun (e : Engine) : List Event :=
  [.turn .main] ++ List.replicate 3 (.turn (.producer 0)) ++ errand 0 ++
  [.turn (.producer 0),.turn (.worker 0 0),.turn .main,.turn .main] ++
  List.replicate 3 (.turn (.producer 1)) ++ errand 1 ++ List.replicate 3 (.turn (.producer 2)) ++ errand 2 ++
  [.turn .main,.turn .main,telling e,.turn .main] ++
  List.replicate 2 (.turn (.producer 1)) ++ List.replicate 2 (.turn (.producer 2)) ++
  [.turn (.worker 1 0),.turn (.worker 2 0),.turn .main]

/-- Whether a run has ended well, and the reports of its load and of what followed come to what is wanted. -/
def hasReported (wanted : Report → Report → Bool) (r : Run Xoshiro) : Bool :=
  match r.ending?.map ExceptT.run with
  | some (.ok (.ok (.reports (some ramp) (some summary) true))) => wanted ramp summary
  | _ => false

private theorem reports_of_check {wanted : Report → Report → Bool} {r : Run Xoshiro}
    (checked : r.hasReported wanted = true) : ∃ ramp summary,
      r.ending? = some (ExceptT.mk (.ok (.ok (.reports (some ramp) (some summary) true)))) ∧
        wanted ramp summary = true := by
  unfold hasReported at checked
  split at checked
  · rename_i ramp summary ended
    obtain ⟨ending,at_end,same⟩ := Option.map_eq_some_iff.mp ended
    exact ⟨ramp,summary,at_end.trans (congrArg some same),checked⟩
  · cases checked

/-- One operation is loaded, and of the two that follow one fails. -/
theorem whole_run_reports : ∃ e r ramp summary, Engine.new (busily "/a;z") 1 = ExceptT.mk (.ok (.ok e)) ∧
    (reporting e).steps (wholeRun e) = some r ∧ (∀ i op, .outside (.offer i op) ∉ wholeRun e) ∧
    r.ending? = some (ExceptT.mk (.ok (.ok (.reports (some ramp) (some summary) true)))) ∧
    (ramp.put.calls = 1 ∧ ramp.errors = 0) ∧ (summary.get.calls = 1 ∧ summary.errors = 1) ∧
    Tells e.settings 0 r (some ramp) (some summary) ∧
      ∀ (before after : Run Xoshiro) (i : Nat), before.moveReporter i = some after →
        ∀ c label sinceMs, after.site = before.site ∧ after.report c label sinceMs = before.report c label sinceMs := by
  have ran : ((Engine.new (busily "/a;z") 1).run.toOption.bind Except.toOption).any (fun e =>
      ((reporting e).steps (wholeRun e)).any (hasReported fun ramp summary =>
        ramp.put.calls == 1 && ramp.errors == 0 && summary.get.calls == 1 && summary.errors == 1)) = true := by
    decide +kernel
  obtain ⟨e,accepted,ran⟩ := (Option.any_eq_true _ _).mp ran
  obtain ⟨r,run,reported⟩ := (Option.any_eq_true _ _).mp ran
  obtain ⟨ramp,summary,ended,wanted⟩ := reports_of_check reported
  simp only [Bool.and_eq_true,beq_iff_eq] at wanted
  obtain ⟨⟨⟨put,fine⟩,get⟩,failed⟩ := wanted
  have unoffered : ∀ i op, .outside (.offer i op) ∉ wholeRun e := by simp [wholeRun,errand,telling]
  exact ⟨e,r,ramp,summary,Engine.new_of_toOption accepted,run,unoffered,ended,⟨put,fine⟩,⟨get,failed⟩,
    reports_operations run unoffered ended⟩

end Run

end Keyload
