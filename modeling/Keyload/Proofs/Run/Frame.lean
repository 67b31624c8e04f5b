import Mathlib.Data.List.Induction
import Keyload.Proofs.Run.MainMoves
import Keyload.Proofs.Stats.Counted

/-!
What the steps of a run leave alone. The main task adds dispatchers and producers and never touches those that are
there, nor the contents of the store; watchers, reporters and the world outside leave the queues and the workers
alone; and a run that is told to end stays told.
-/
namespace Keyload

/-- The operations that were begun, each with the dispatcher of the worker that began it. -/
def Site.log (s : Site) : List (Nat × Operation) := s.begun.toList.map fun b => (b.dispatcher,b.operation)

/-- The operations that workers of a dispatcher have begun, in order. -/
def Site.begunBy (s : Site) (d : Nat) : List Operation := (s.log.filter fun b => b.1 == d).map Prod.snd

theorem Site.log_of_begun {s t : Site} (begun : t.begun = s.begun) : t.log = s.log := by
  rw [Site.log,Site.log,begun]

/-- Two dispatchers that differ at most in who stands in line. -/
structure Dispatcher.Alike (x y : Dispatcher) : Prop where
  queue : x.queue = y.queue
  workers : x.workers = y.workers
  capacity : x.capacity = y.capacity

namespace Run

variable {σ : Type}

/-- Everything that was there is still there, and the store and its record are as they were. -/
structure Extends (r next : Run σ) : Prop where
  memory : next.site.memory = r.site.memory
  begun : next.site.begun = r.site.begun
  dispatchers : r.dispatchers <+: next.dispatchers
  producers : r.producers <+: next.producers
  stopped : r.stopped = true → next.stopped = true

namespace Extends

theorem refl (r : Run σ) : Extends r r := ⟨rfl,rfl,List.prefix_rfl,List.prefix_rfl,id⟩

theorem trans {r s t : Run σ} (first : Extends r s) (then_ : Extends s t) : Extends r t :=
  ⟨then_.memory.trans first.memory,then_.begun.trans first.begun,first.dispatchers.trans then_.dispatchers,
    first.producers.trans then_.producers,fun h => then_.stopped (first.stopped h)⟩

end Extends

/-! ### The main task -/

theorem inPhase_extends (r : Run σ) (c : Course σ) (phase : Phase σ) : Extends r (r.inPhase c phase) :=
  ⟨rfl,rfl,List.prefix_rfl,List.prefix_rfl,id⟩

theorem dial_extends (r : Run σ) (c : Course σ) (w : Wait) : Extends r (r.dial c w) :=
  ⟨rfl,rfl,List.prefix_rfl,List.prefix_rfl,id⟩

theorem stopAll_extends (r : Run σ) : Extends r r.stopAll := ⟨rfl,rfl,List.prefix_rfl,List.prefix_rfl,fun _ => rfl⟩

theorem withSite_extends (r : Run σ) {site : Site} (memory : site.memory = r.site.memory)
    (begun : site.begun = r.site.begun) : Extends r { r with site } :=
  ⟨memory,begun,List.prefix_rfl,List.prefix_rfl,id⟩

theorem hangUp_extends (r : Run σ) (id : Nat) (w : Wait) (result : Except StoreError Bool) :
    Extends r (r.hangUp id w result) := by
  have closed : Extends r { r with site := r.site.close id } := withSite_extends r rfl rfl
  unfold hangUp
  split
  · exact closed.trans (stopAll_extends _)
  · exact closed

theorem employ_extends (r : Run σ) (name : String) (options : DispatchOptions) (clients : List Nat) :
    Extends r (r.employ name options clients) := ⟨rfl,rfl,List.prefix_append _ _,List.prefix_rfl,id⟩

theorem assign_extends (r : Run σ) (p : Producer σ) : Extends r (r.assign p) :=
  ⟨rfl,rfl,List.prefix_rfl,List.prefix_append _ _,id⟩

theorem beginLoad_extends (r : Run σ) (c : Course σ) (total : Nat) : Extends r (r.beginLoad c total) :=
  (Extends.trans (employ_extends r _ _ _) (assign_extends _ _)).trans (inPhase_extends _ _ _)

theorem reportEvery_extends (r : Run σ) (secs : Nat) : Extends r (r.reportEvery secs) := by
  unfold reportEvery
  split
  · exact .refl r
  · exact ⟨rfl,rfl,List.prefix_rfl,List.prefix_rfl,id⟩

theorem watchTargets_extends (r : Run σ) (withPrefix : Bool) (targets : List Watch.Target) :
    Extends r (r.watchTargets withPrefix targets) := by
  unfold watchTargets
  split
  · exact .refl r
  · exact ⟨rfl,rfl,List.prefix_rfl,List.prefix_rfl,id⟩

theorem startActivities_extends {activities : List (Churn.Activity × Option Nat × ClientRange)} {r next : Run σ}
    {c c' : Course σ} (run : r.startActivities c activities = .ok (next,c')) : Extends r next :=
  startActivities_induction (fun s _ => Extends r s) (.refl r)
    (fun _ before _ => before.trans ((employ_extends _ _ _ _).trans (assign_extends _ _))) run

theorem startReplays_extends (replays : List Watch.Replay) (r : Run σ) (d : Nat) (source : σ) :
    Extends r (r.startReplays d source replays) := by
  refine startReplays_induction replays d source (Extends r) (.refl r) fun {s} _ before => before.trans ?_
  have subscribed : Extends s s.subscribe := ⟨rfl,rfl,List.prefix_rfl,List.prefix_rfl,id⟩
  exact subscribed.trans (assign_extends _ _)

theorem endConnect_site (s : Site) (endpoint : Nat) (x : Reaction) :
    (s.endConnect endpoint x).2.memory = s.memory ∧ (s.endConnect endpoint x).2.begun = s.begun := by
  unfold Site.endConnect
  split
  · exact ⟨rfl,rfl⟩
  · exact ⟨rfl,rfl⟩

theorem watch_site (s : Site) (key : String) (withPrefix : Bool) :
    (s.watch key withPrefix).2.memory = s.memory ∧ (s.watch key withPrefix).2.begun = s.begun := by
  unfold Site.watch
  split
  · exact ⟨rfl,rfl⟩
  · exact ⟨rfl,rfl⟩

theorem sentinel_site {t t' : Sentinel} {stopped : Bool} {nowMs : Nat} {s s' : Site}
    (run : t.step stopped nowMs s = some (t',s')) : s'.memory = s.memory ∧ s'.begun = s.begun := by
  unfold Sentinel.step at run
  cases stage : t.stage with
  | opening =>
    obtain ⟨memory,begun⟩ := watch_site s t.key false
    simp only [stage] at run
    split at run
    · cases run
      exact ⟨rfl,rfl⟩
    · split at run
      · rename_i watched
        rw [watched] at memory begun
        cases run
        exact ⟨memory,begun⟩
      · rename_i watched
        rw [watched] at memory begun
        cases run
        exact ⟨memory,begun⟩
  | watching stream =>
    simp only [stage] at run
    split at run
    · cases run
      exact ⟨rfl,rfl⟩
    · obtain ⟨item,-,same⟩ := Option.map_eq_some_iff.mp run
      cases same
      exact ⟨rfl,rfl⟩
  | pausing untilMs =>
    simp only [stage] at run
    split at run
    · cases run
      exact ⟨rfl,rfl⟩
    · cases run
  | settled seen => simp only [stage] at run; cases run
  | failed e => simp only [stage] at run; cases run

theorem WaitMove.extends {r next : Run σ} {c : Course σ} {w : Wait} {result : Except StoreError Bool}
    (move : WaitMove r next c w result) : Extends r next := by
  cases move with
  | reports after | fails after | tells goal after =>
    rw [after]
    exact inPhase_extends r c _
  | winds goal after =>
    rw [after]
    exact (stopAll_extends r).trans (inPhase_extends _ c _)

section
variable [RandomSource σ] {r next : Run σ} {c : Course σ}

theorem replayTargets_extends {c' : Course σ} {targets : List Watch.Target} {clients : List Nat} {source : σ}
    (run : r.replayTargets c targets clients source = .ok (next,c')) : Extends r next := by
  obtain ⟨rfl,-⟩ | ⟨replays,source',rfl,-⟩ := replayTargets_some run
  · exact .refl _
  · exact (employ_extends r _ _ _).trans (startReplays_extends ..)

theorem OpenMove.extends {p : Prepared} {clients : List Nat} {source : σ} (move : OpenMove r next c p clients source) :
    Extends r next := by
  cases move with
  | crash planned after | refuse planned after =>
    rw [after]
    exact inPhase_extends r c _
  | opens planned after =>
    rw [after]
    exact (watchTargets_extends r _ _).trans (inPhase_extends _ c _)

theorem SteadyMove.extends (move : SteadyMove r next c) : Extends r next := by
  have reset : Extends r { r with recorder := r.recorder.reset } := ⟨rfl,rfl,List.prefix_rfl,List.prefix_rfl,id⟩
  cases move with
  | skips unsteady after =>
    rw [after]
    exact inPhase_extends r c _
  | crash steady after | refuse steady defined after =>
    rw [after]
    exact reset.trans (inPhase_extends _ _ _)
  | opens steady defined shared move => exact reset.trans move.extends

theorem MainMove.extends {phase : Phase σ} (move : MainMove r next c phase) : Extends r next := by
  cases move with
  | skipsLoad goal skips move => exact move.extends
  | watches goal move => exact move.extends
  | goesOn done goal move => exact move.extends
  | begins goal loads after | loads goal some_ after | loadsOn done goal more after =>
    rw [after]
    exact beginLoad_extends r _ _
  | dials goal after | keeps wound keeps after =>
    rw [after]
    exact dial_extends r _ _
  | loadsNone goal after | broken at_i broken after | unjoined joined after | loaded done goal last after
  | unreplayed tried after | unreported after | fails failed after | reports wound ends after =>
    rw [after]
    exact inPhase_extends r _ _
  | watching tried replays goal after | unstarted tried replays goal after =>
    rw [after]
    exact (replayTargets_extends replays).trans (inPhase_extends _ _ _)
  | starts tried replays goal started after =>
    rw [after]
    exact ((replayTargets_extends replays).trans (startActivities_extends started)).trans
      ((reportEvery_extends _ _).trans (dial_extends _ _ _))
  | connects connected after =>
    obtain ⟨memory,begun⟩ := endConnect_site r.site 0 ‹_›
    rw [connected] at memory begun
    rw [after]
    exact (withSite_extends r memory begun).trans (inPhase_extends _ c _)
  | refused refused move =>
    obtain ⟨memory,begun⟩ := endConnect_site r.site 0 ‹_›
    rw [refused] at memory begun
    exact (withSite_extends r memory begun).trans move.extends
  | guards stepped unsettled after =>
    obtain ⟨memory,begun⟩ := sentinel_site stepped
    rw [after]
    exact (withSite_extends r memory begun).trans (inPhase_extends _ c _)
  | settles stepped settled move =>
    obtain ⟨memory,begun⟩ := sentinel_site stepped
    exact ((withSite_extends r memory begun).trans (hangUp_extends _ _ _ _)).trans move.extends

theorem moveMain_extends (run : r.moveMain = some next) : Extends r next := by
  cases course : r.course with
  | none =>
    rw [moveMain,course] at run
    cases run
  | some c => exact (moveMain_move course run).extends

end

variable {r next : Run σ} {d : Nat}

/-! ### Steps that leave a dispatcher alone -/

/-- A step after which the queue and the workers of a dispatcher are as before. -/
structure Quiet (d : Nat) (r next : Run σ) : Prop where
  dispatcher : ∀ x, r.dispatchers[d]? = some x → ∃ y, next.dispatchers[d]? = some y ∧ y.Alike x
  begun : next.site.begunBy d = r.site.begunBy d

theorem Quiet.trans {s : Run σ} (first : Quiet d r next) (then_ : Quiet d next s) : Quiet d r s := by
  refine ⟨fun x at_d => ?_,then_.begun.trans first.begun⟩
  obtain ⟨y,at_y,queue,workers,capacity⟩ := first.dispatcher x at_d
  obtain ⟨z,at_z,queue',workers',capacity'⟩ := then_.dispatcher y at_y
  exact ⟨z,at_z,queue'.trans queue,workers'.trans workers,capacity'.trans capacity⟩

theorem begunBy_of_begun {s t : Site} (begun : t.begun = s.begun) (d : Nat) : t.begunBy d = s.begunBy d := by
  rw [Site.begunBy,Site.begunBy,Site.log_of_begun begun]

theorem quiet_of_same (dispatchers : next.dispatchers = r.dispatchers) (begun : next.site.begun = r.site.begun) :
    Quiet d r next :=
  ⟨fun x at_d => ⟨x,by rw [dispatchers]; exact at_d,rfl,rfl,rfl⟩,begunBy_of_begun begun d⟩

theorem Extends.quiet (extends_ : Extends r next) : Quiet d r next := by
  refine ⟨fun x at_d => ⟨x,?_,rfl,rfl,rfl⟩,begunBy_of_begun extends_.begun d⟩
  obtain ⟨more,same⟩ := extends_.dispatchers
  rw [← same,List.getElem?_append_left (List.getElem?_eq_some_iff.mp at_d).1]
  exact at_d

theorem onDispatcher_quiet (r : Run σ) (d' : Nat) {f : Dispatcher → Dispatcher} (alike : ∀ x, (f x).Alike x) :
    Quiet d r (r.onDispatcher d' f) := by
  refine ⟨fun x at_d => ?_,rfl⟩
  show ∃ y, (r.dispatchers.modify d' f)[d]? = some y ∧ _
  rw [List.getElem?_modify,at_d]
  by_cases same : d' = d
  · exact ⟨f x,by simp [same],alike x⟩
  · exact ⟨x,by simp [same],rfl,rfl,rfl⟩

theorem enlist_alike (x : Dispatcher) (i : Nat) : (x.enlist i).Alike x := ⟨rfl,rfl,rfl⟩

theorem giveUp_alike (x : Dispatcher) (i : Nat) : (x.giveUp i).Alike x := ⟨rfl,rfl,rfl⟩

theorem placeProducer_quiet (r : Run σ) (i : Nat) (p : Producer σ) : Quiet d r (r.placeProducer i p) := by
  unfold placeProducer
  simp only
  split
  · have quiet := onDispatcher_quiet (d := d) { r with producers := r.producers.set i p } p.dispatcher
      (giveUp_alike · i)
    exact ⟨quiet.dispatcher,quiet.begun⟩
  · exact quiet_of_same rfl rfl

theorem placeProducer_producers (r : Run σ) (i : Nat) (p : Producer σ) :
    (r.placeProducer i p).producers = r.producers.set i p := by
  unfold placeProducer
  simp only
  split <;> rfl

theorem placeProducer_site (r : Run σ) (i : Nat) (p : Producer σ) : (r.placeProducer i p).site = r.site := by
  unfold placeProducer
  simp only
  split <;> rfl

theorem placeProducer_stopped (r : Run σ) (i : Nat) (p : Producer σ) : (r.placeProducer i p).stopped = r.stopped := by
  unfold placeProducer
  simp only
  split <;> rfl

theorem placeProducer_course (r : Run σ) (i : Nat) (p : Producer σ) : (r.placeProducer i p).course = r.course := by
  unfold placeProducer
  simp only
  split <;> rfl

theorem watcher_site {w w' : Watch.Watcher} {event : Watch.WatcherEvent} {stopped : Bool} {s s' : Site}
    (run : w.step stopped s = some (w',event,s')) : s'.memory = s.memory ∧ s'.begun = s.begun := by
  unfold Watch.Watcher.step at run
  split at run
  · cases run
  · obtain ⟨memory,begun⟩ := watch_site s w.key w.withPrefix
    unfold Watch.Watcher.attempt at run
    split at run
    · rename_i watched
      rw [watched] at memory begun
      cases run
      exact ⟨memory,begun⟩
    · rename_i watched
      rw [watched] at memory begun
      cases run
      exact ⟨memory,begun⟩
  · split at run
    · cases run
      exact ⟨rfl,rfl⟩
    · split at run
      · cases run
      · cases run
        exact ⟨rfl,rfl⟩
      · cases run
        exact ⟨rfl,rfl⟩

/-- What the step of a watcher or a reporter leaves as it was. -/
structure Aside (r next : Run σ) : Prop where
  memory : next.site.memory = r.site.memory
  begun : next.site.begun = r.site.begun
  dispatchers : next.dispatchers = r.dispatchers
  producers : next.producers = r.producers
  stopped : next.stopped = r.stopped
  course : next.course = r.course
  counts : next.recorder.counts = r.recorder.counts

theorem moveWatcher_aside {i : Nat} (run : r.moveWatcher i = some next) : Aside r next := by
  obtain ⟨w,-,run⟩ := Option.bind_eq_some_iff.mp run
  obtain ⟨⟨w',event,site⟩,stepped,run⟩ := Option.bind_eq_some_iff.mp run
  obtain ⟨memory,begun⟩ := watcher_site stepped
  cases run
  unfold noteWatcher
  split
  · exact ⟨memory,begun,rfl,rfl,rfl,rfl,rfl⟩
  · exact ⟨memory,begun,rfl,rfl,rfl,rfl,rfl⟩
  · split
    · exact ⟨memory,begun,rfl,rfl,rfl,rfl,rfl⟩
    · exact ⟨memory,begun,rfl,rfl,rfl,rfl,rfl⟩

theorem moveReporter_aside {i : Nat} (run : r.moveReporter i = some next) : Aside r next := by
  obtain ⟨t,-,run⟩ := Option.bind_eq_some_iff.mp run
  split at run
  · split at run
    · cases run
      exact ⟨rfl,rfl,rfl,rfl,rfl,rfl,rfl⟩
    · split at run
      · cases run
        exact ⟨rfl,rfl,rfl,rfl,rfl,rfl,rfl⟩
      · cases run
  · cases run

/-- Changing a producer puts it in its place anew, or does nothing. -/
theorem onProducer_elim {i : Nat} {f : Producer σ → Producer σ} (holds : Run σ → Prop) (same : holds r)
    (placed : ∀ p, r.producers[i]? = some p → holds (r.placeProducer i (f p))) : holds (r.onProducer i f) := by
  unfold onProducer
  split
  · exact placed _ ‹_›
  · exact same

theorem onProducer_quiet (r : Run σ) (i : Nat) (f : Producer σ → Producer σ) : Quiet d r (r.onProducer i f) :=
  onProducer_elim (Quiet d r) (quiet_of_same rfl rfl) fun _ _ => placeProducer_quiet r i _

theorem intervene_quiet [RandomSource σ] (r : Run σ) (i : Intervention) : Quiet d r (r.intervene i) := by
  cases i with
  | offer i op => exact onProducer_quiet r i _
  | urge i => exact onProducer_quiet r i _
  | dismiss i => exact onProducer_quiet r i _
  | _ => exact quiet_of_same rfl rfl

theorem onProducer_stopped (r : Run σ) (i : Nat) (f : Producer σ → Producer σ) :
    (r.onProducer i f).stopped = r.stopped :=
  onProducer_elim (fun s => s.stopped = r.stopped) rfl fun _ _ => placeProducer_stopped r i _

theorem intervene_stopped [RandomSource σ] (r : Run σ) (i : Intervention) (told : r.stopped = true) :
    (r.intervene i).stopped = true := by
  cases i with
  | offer i op => exact (onProducer_stopped r i _).trans told
  | urge i => exact (onProducer_stopped r i _).trans told
  | dismiss i => exact (onProducer_stopped r i _).trans told
  | cancel => rfl
  | stop => rfl
  | shutDown => rfl
  | _ => exact told

/-! ### Several steps -/

section
variable [RandomSource σ]

/-- Several steps, one after the other, if they are possible. -/
def steps (r : Run σ) (events : List Event) : Option (Run σ) := events.foldlM step r

theorem steps_append (r : Run σ) (before after : List Event) :
    r.steps (before ++ after) = (r.steps before).bind (·.steps after) := List.foldlM_append

theorem steps_cons (r : Run σ) (e : Event) (events : List Event) :
    r.steps (e :: events) = (r.step e).bind (·.steps events) := List.foldlM_cons

theorem steps_concat (r : Run σ) (events : List Event) (e : Event) :
    r.steps (events ++ [e]) = (r.steps events).bind (·.step e) := by
  rw [steps_append]
  congr
  funext s
  rw [steps_cons]
  exact Option.bind_fun_some _

/-- What holds at first and is kept by every step holds in every state that is reached. -/
theorem steps_induction {first : Run σ} (holds : List Event → Run σ → Prop) (start : holds [] first)
    (kept : ∀ {events r e next}, first.steps events = some r → holds events r → r.step e = some next →
      holds (events ++ [e]) next) {events : List Event} {r : Run σ} (run : first.steps events = some r) :
    holds events r := by
  induction events using List.reverseRecOn generalizing r with
  | nil =>
    cases run
    exact start
  | append_singleton events e ih =>
    rw [steps_concat] at run
    obtain ⟨s,before,run⟩ := Option.bind_eq_some_iff.mp run
    exact kept before (ih before) run

end

end Run

end Keyload
