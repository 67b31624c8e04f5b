import Mathlib.Logic.Relation
import Keyload.Proofs.Run.Reports
import Keyload.Proofs.Run.WorkerMoves

/-!
What the main task does to a run, taken apart into deeds: it hires a dispatcher, assigns a producer to it, adds watchers
or a reporter, stops everything, or changes what is its own. Producers are only assigned work that comes from the key
space of the engine. An invariant that every deed keeps is kept by every turn of the main task (`moveMain_deeds`).
-/
namespace Keyload

open Churn in
/-- Work that comes from a key space; only what reads may come from elsewhere. -/
inductive Work.From (ks : KeySpace) : Work → Prop where
  | load (total : Nat) : From ks (.load (ks.keys total))
  | value {a : ValueChurn} (defined : ValueChurn.new ks = ExceptT.mk (.ok (.ok a))) : From ks (.activity (.value a))
  | level {a : LevelChurn} {level pct : Nat} (defined : LevelChurn.new ks level pct = ExceptT.mk (.ok (.ok a))) :
      From ks (.activity (.level a))
  | read (a : LevelRead) : From ks (.activity (.read a))
  | replay (a : Watch.Replay) : From ks (.replay a)

/-- Activities that are defined for a key space. -/
structure Prepared.From (ks : KeySpace) (p : Prepared) : Prop where
  value : ∀ a, p.value = some a → Churn.ValueChurn.new ks = ExceptT.mk (.ok (.ok a))
  level : ∀ a, p.level = some a → ∃ level pct, Churn.LevelChurn.new ks level pct = ExceptT.mk (.ok (.ok a))

/-- Whether the main task still has something to start. -/
def Phase.starts {σ : Type} : Phase σ → Bool
  | .beginning | .loading .. | .opening .. => true
  | _ => false

namespace Run

variable {σ : Type}

/-- A producer that is assigned to a dispatcher of a run before there are reporters. -/
structure Assigned (ks : KeySpace) (r : Run σ) (p : Producer σ) : Prop where
  work : p.work.From ks
  dispatcher : p.dispatcher < r.dispatchers.length
  fresh : p.stage = .choosing ∨ ∃ untilMs, p.stage = .delayed untilMs
  signal : ∀ k, p.signal = some k → k < r.signals.size
  unreported : r.reporters = []

/-- One thing that the main task does. -/
inductive Deed (ks : KeySpace) (r : Run σ) : Run σ → Prop where
  | course (c : Course σ) : Deed ks r { r with course := some c }
  | site {site : Site} (memory : site.memory = r.site.memory) (begun : site.begun = r.site.begun) :
      Deed ks r { r with site }
  | recorder (recorder : Recorder) : Deed ks r { r with recorder }
  | stopAll : Deed ks r r.stopAll
  | watch (more : List Watch.Watcher) : Deed ks r { r with watchers := r.watchers ++ more }
  | employ (name : String) (options : DispatchOptions) {clients : List Nat}
      (inside : ∀ i ∈ clients, i < r.clients.length) : Deed ks r (r.employ name options clients)
  | subscribe : Deed ks r r.subscribe
  | assign {p : Producer σ} (assigned : Assigned ks r p) : Deed ks r (r.assign p)
  | report (secs : Nat) : Deed ks r (r.addReporter secs)

/-- Several deeds, one after the other. -/
abbrev Deeds (ks : KeySpace) : Run σ → Run σ → Prop := Relation.ReflTransGen (Deed ks)

/-- The main task of `r` has what it needs: clients that exist, and activities defined for the key space. -/
structure Equipped (e : Engine) (g : Goal) (r : Run σ) (c : Course σ) : Prop where
  engine : c.engine = e
  goal : c.goal = g
  pool : ∀ i ∈ c.pool, i < r.clients.length
  prepared : ∀ p targets clients source, c.phase = .opening p targets clients source →
    p.From e.keySpace ∧ ∀ i ∈ clients, i < r.clients.length
  unreported : c.phase.starts = true → r.reporters = []

/-- A run has a main task, which has what it needs. -/
def Led (e : Engine) (g : Goal) (r : Run σ) : Prop := ∃ c, r.course = some c ∧ Equipped e g r c

/-- Deeds have led to a run whose main task has what it needs. -/
def Does (e : Engine) (g : Goal) (r next : Run σ) : Prop := Deeds e.keySpace r next ∧ Led e g next

variable {r next : Run σ} {c : Course σ} {ks : KeySpace} {e : Engine} {g : Goal}

theorem Does.after {s : Run σ} (first : Deeds e.keySpace r s) (does : Does e g s next) : Does e g r next :=
  ⟨first.trans does.1,does.2⟩

/-! ### Steps that start nothing -/

/-- The main task goes to a phase from which it starts nothing. -/
theorem Equipped.inPhase (equipped : Equipped e g r c) {phase : Phase σ} (done : phase.starts = false) :
    Does e g r (r.inPhase c phase) := by
  refine ⟨.single (.course _),_,rfl,equipped.engine,equipped.goal,equipped.pool,?_,?_⟩
  · intro p targets clients source same
    have same : phase = _ := same
    rw [same] at done
    cases done
  · intro starts
    have starts : phase.starts = true := starts
    rw [done] at starts
    cases starts

theorem Equipped.alike {c' : Course σ} (equipped : Equipped e g r c) (clients : next.clients = r.clients)
    (reporters : next.reporters = r.reporters) (engine : c'.engine = c.engine) (goal : c'.goal = c.goal)
    (pool : c'.pool = c.pool)
    (phase : c'.phase = c.phase) : Equipped e g next c' := by
  refine ⟨engine.trans equipped.engine,goal.trans equipped.goal,?_,?_,?_⟩
  · rw [pool,clients]
    exact equipped.pool
  · rw [phase,clients]
    exact equipped.prepared
  · rw [phase,reporters]
    exact equipped.unreported

theorem stopAll_does (equipped : Equipped e g r c) {phase : Phase σ} (done : phase.starts = false) :
    Does e g r (r.stopAll.inPhase c phase) := by
  have stopped : Equipped e g r.stopAll c := equipped.alike rfl rfl rfl rfl rfl rfl
  exact (stopped.inPhase done).after (.single .stopAll)

theorem dial_does (equipped : Equipped e g r c) (w : Wait) : Does e g r (r.dial c w) := by
  have dialed : Equipped e g { r with site := r.site.beginConnect.2 } c := equipped.alike rfl rfl rfl rfl rfl rfl
  refine Does.after (s := { r with site := r.site.beginConnect.2 }) (.single (.site rfl rfl)) (dialed.inPhase ?_)
  rfl

theorem WaitMove.does {w : Wait} {result : Except StoreError Bool} (move : WaitMove r next c w result)
    (equipped : Equipped e g r c) : Does e g r next := by
  cases move with
  | reports after | fails after | tells goal after =>
    rw [after]
    exact equipped.inPhase rfl
  | winds goal after =>
    rw [after]
    exact stopAll_does equipped rfl

/-- Closing a connection, and the end of the test, are deeds. -/
theorem hangUp_does (equipped : Equipped e g r c) (id : Nat) (w : Wait) (result : Except StoreError Bool) :
    Deeds e.keySpace r (r.hangUp id w result) ∧ Equipped e g (r.hangUp id w result) c := by
  have closed : Equipped e g { r with site := r.site.close id } c := equipped.alike rfl rfl rfl rfl rfl rfl
  have closes : Deeds e.keySpace r { r with site := r.site.close id } := .single (.site rfl rfl)
  unfold hangUp
  split
  · exact ⟨closes.tail .stopAll,closed.alike rfl rfl rfl rfl rfl rfl⟩
  · exact ⟨closes,closed⟩

/-! ### Steps that start something -/

theorem beginLoad_does (equipped : Equipped e g r c) (unreported : r.reporters = []) (total : Nat) :
    Does e g r (r.beginLoad c total) := by
  have employs : Deed e.keySpace r (r.employ "load" c.options c.pool) := .employ _ _ equipped.pool
  have assigned : Assigned e.keySpace (r.employ "load" c.options c.pool) (Producer.start r.nextDispatcher
      (.load (c.engine.keySpace.keys total)) c.takeStream.1 (Ticker.ofRate c.settings.workload.putRate r.nowNs)) := by
    refine ⟨?_,?_,.inl rfl,?_,unreported⟩
    · rw [← equipped.engine]
      exact .load total
    · simp [Producer.start,Run.employ,nextDispatcher]
    · intro k listens
      cases listens
  refine ⟨((Relation.ReflTransGen.single employs).tail (.assign assigned)).tail (.course _),_,rfl,equipped.engine,
    equipped.goal,equipped.pool,?_,fun _ => unreported⟩
  intro p targets clients source same
  cases same

/-- What the steps of starting need. -/
structure Staffing (e : Engine) (g : Goal) (r : Run σ) (c : Course σ) : Prop where
  engine : c.engine = e
  goal : c.goal = g
  pool : ∀ i ∈ c.pool, i < r.clients.length
  unreported : r.reporters = []

/-- What starting needs is what the main task needs where it starts nothing more. -/
theorem Staffing.inPhase (staffing : Staffing e g r c) {phase : Phase σ} (done : phase.starts = false) :
    Does e g r (r.inPhase c phase) := by
  refine ⟨.single (.course _),_,rfl,staffing.engine,staffing.goal,staffing.pool,?_,fun _ => staffing.unreported⟩
  intro p targets clients source same
  have same : phase = _ := same
  rw [same] at done
  cases done

theorem clientsOf_inside {range : ClientRange} {clients : List Nat} (run : c.clientsOf range = .ok clients) :
    ∀ i ∈ clients, i ∈ c.pool := by
  unfold Course.clientsOf at run
  split at run
  · cases run
    intro i member
    exact List.mem_of_mem_drop (List.mem_of_mem_take member)
  · cases run

theorem startActivity_does (staffing : Staffing e g r c) {a : Churn.Activity} (comes : (Work.activity a).From e.keySpace)
    (rate : Option Nat) {clients : List Nat} (inside : ∀ i ∈ clients, i ∈ c.pool) :
    Deeds e.keySpace r (r.startActivity c a rate clients).1 ∧
      Staffing e g (r.startActivity c a rate clients).1 (r.startActivity c a rate clients).2 := by
  have employs : Deed e.keySpace r (r.employ a.name c.options clients) := .employ _ _ fun i member =>
    staffing.pool i (inside i member)
  have assigned : Assigned e.keySpace (r.employ a.name c.options clients) (Producer.start r.nextDispatcher (.activity a)
      c.takeStream.1 (Ticker.ofRate (rate.getD 0) r.nowNs)) := by
    refine ⟨comes,?_,.inl rfl,?_,staffing.unreported⟩
    · simp [Producer.start,Run.employ,nextDispatcher]
    · intro k listens
      cases listens
  exact ⟨(Relation.ReflTransGen.single employs).tail (.assign assigned),staffing.engine,staffing.goal,staffing.pool,
    staffing.unreported⟩

theorem startActivities_does {activities : List (Churn.Activity × Option Nat × ClientRange)} {c' : Course σ}
    (staffing : Staffing e g r c) (come : ∀ a ∈ activities, (Work.activity a.1).From e.keySpace)
    (run : r.startActivities c activities = .ok (next,c')) : Deeds e.keySpace r next ∧ Staffing e g next c' := by
  refine startActivities_induction (fun s d => Deeds e.keySpace r s ∧ Staffing e g s d) ⟨.refl,staffing⟩ ?_ run
  rintro s d a rate range clients member ⟨deeds,staffing⟩ shared
  obtain ⟨more,started⟩ := startActivity_does staffing (come _ member) rate (clientsOf_inside shared)
  exact ⟨deeds.trans more,started⟩

theorem activitiesOf_from {s : Settings} {p : Prepared} (prepared : p.From ks) :
    ∀ a ∈ activitiesOf s p, (Work.activity a.1).From ks := by
  intro a member
  simp only [activitiesOf,List.mem_append,Option.mem_toList,Option.map_eq_some_iff] at member
  rcases member with (⟨level,defined,rfl⟩ | ⟨value,defined,rfl⟩) | ⟨read,defined,rfl⟩
  · obtain ⟨_,_,new⟩ := prepared.level level defined
    exact .level new
  · exact .value (prepared.value value defined)
  · exact .read read

theorem startReplays_does (ks : KeySpace) (replays : List Watch.Replay) {d : Nat} (source : σ)
    (here : d < r.dispatchers.length) (unreported : r.reporters = []) :
    Deeds ks r (r.startReplays d source replays) ∧ (r.startReplays d source replays).reporters = [] ∧
      (r.startReplays d source replays).clients = r.clients := by
  have started := startReplays_induction replays d source (fun s => Deeds ks r s ∧ d < s.dispatchers.length ∧
    s.reporters = [] ∧ s.clients = r.clients) ⟨.refl,here,unreported,rfl⟩ ?_
  · exact ⟨started.1,started.2.2⟩
  rintro s replay ⟨deeds,here,unreported,clients⟩
  have assigned : Assigned ks s.subscribe (s.replayer d source replay) := by
    refine ⟨.replay replay,here,.inr ⟨_,rfl⟩,?_,unreported⟩
    intro k listens
    cases listens
    simp [Run.subscribe,Signals.subscribe,Signals.size]
  exact ⟨(deeds.tail .subscribe).tail (.assign assigned),here,unreported,clients⟩

/-! ### Definitions -/

private theorem defined_of_mapM {α β : Type} {wanted : Option α} {f : α → Outcome DefinitionError β} {got : Option β}
    (run : (wanted.mapM f).run = .ok (.ok got)) {b : β} (defined : got = some b) :
    ∃ a, (f a).run = .ok (.ok b) := by
  subst defined
  cases wanted with
  | none => cases run
  | some a =>
    have run : (f a >>= fun b => pure (some b)).run = .ok (.ok (some b)) := by
      rw [← run,Option.mapM_some]
      rfl
    obtain ⟨b',defined,same⟩ := Outcome.bind_ok run
    cases same
    exact ⟨a,defined⟩

/-- Activities are defined for the key space of the engine. -/
theorem defineActivities_from {p : Prepared} (run : c.defineActivities.run = .ok (.ok p)) :
    p.From c.engine.keySpace := by
  obtain ⟨value,values,run⟩ := Outcome.bind_ok run
  obtain ⟨level,levels,run⟩ := Outcome.bind_ok run
  obtain ⟨reads,-,run⟩ := Outcome.bind_ok run
  cases run
  constructor
  · intro a defined
    obtain ⟨rate,new⟩ := defined_of_mapM values defined
    exact new
  · intro a defined
    obtain ⟨rate,new⟩ := defined_of_mapM levels defined
    exact ⟨_,_,new⟩

section
variable [RandomSource σ]

theorem replayTargets_does {targets : List Watch.Target} {clients : List Nat} {source : σ} {c' : Course σ}
    (staffing : Staffing e g r c) (inside : ∀ i ∈ clients, i < r.clients.length)
    (run : r.replayTargets c targets clients source = .ok (next,c')) :
    Deeds e.keySpace r next ∧ Staffing e g next c' := by
  obtain ⟨rfl,rfl⟩ | ⟨replays,source',rfl,rfl⟩ := replayTargets_some run
  · exact ⟨.refl,staffing⟩
  · have employs : Deed e.keySpace r (r.employ "watch_replay" c.options clients) := .employ _ _ inside
    have here : r.nextDispatcher < (r.employ "watch_replay" c.options clients).dispatchers.length := by
      simp [Run.employ,nextDispatcher]
    obtain ⟨deeds,unreported,same⟩ := startReplays_does e.keySpace replays source' here staffing.unreported
    refine ⟨(Relation.ReflTransGen.single employs).trans deeds,staffing.engine,staffing.goal,?_,unreported⟩
    rw [same]
    exact staffing.pool

theorem OpenMove.does {p : Prepared} {clients : List Nat} {source : σ} (move : OpenMove r next c p clients source)
    (equipped : Equipped e g r c) (unreported : r.reporters = []) (prepared : p.From e.keySpace)
    (inside : ∀ i ∈ clients, i < r.clients.length) : Does e g r next := by
  cases move with
  | crash planned after | refuse planned after =>
    rw [after]
    exact equipped.inPhase rfl
  | @opens targets source' planned after =>
    have opens {s : Run σ} (clients_same : s.clients = r.clients) (reporters : s.reporters = r.reporters) :
        Does e g s (s.inPhase c (.opening p targets clients source')) := by
      refine ⟨.single (.course _),_,rfl,equipped.engine,equipped.goal,clients_same ▸ equipped.pool,?_,fun _ => ?_⟩
      · intro p' targets' clients' source' same
        cases same
        exact ⟨prepared,clients_same ▸ inside⟩
      · exact reporters.trans unreported
    rw [after]
    unfold watchTargets
    split
    · exact opens rfl rfl
    · have watches : Deeds e.keySpace r _ := (Relation.ReflTransGen.single
        (Deed.recorder (r.recorder.onTally (·.setWatchers targets.length)))).tail
          (.watch (targets.map fun t => .fresh t.key c.settings.watches.withPrefix))
      refine Does.after watches (opens ?_ ?_)
      · rfl
      · rfl

theorem SteadyMove.does (move : SteadyMove r next c) (equipped : Equipped e g r c) (unreported : r.reporters = []) :
    Does e g r next := by
  have resets : Deeds e.keySpace r { r with recorder := r.recorder.reset } := .single (.recorder _)
  have begins (k : Nat) : Equipped e g { r with recorder := r.recorder.reset }
      { c with steadyMs := r.nowMs, nextStream := k } := equipped.alike rfl rfl rfl rfl rfl rfl
  cases move with
  | skips unsteady after =>
    rw [after]
    exact equipped.inPhase rfl
  | crash steady after | refuse steady defined after =>
    rw [after]
    exact ((begins c.nextStream).inPhase rfl).after resets
  | opens steady defined shared move =>
    have prepared := defineActivities_from defined
    rw [equipped.engine] at prepared
    refine (move.does (begins _) unreported prepared ?_).after resets
    exact fun i member => equipped.pool i (clientsOf_inside shared i member)

/-- A move of the main task is made of deeds, and it still has what it needs. -/
theorem MainMove.does (move : MainMove r next c c.phase) (equipped : Equipped e g r c) : Does e g r next := by
  generalize at_phase : c.phase = phase at move
  have unreported (starts : phase.starts = true) : r.reporters = [] := equipped.unreported (at_phase ▸ starts)
  have replayed {p targets clients source s c'} (opening : phase = .opening p targets clients source)
      (replays : r.replayTargets c targets clients source = .ok (s,c')) :
      Deeds e.keySpace r s ∧ Staffing e g s c' :=
    replayTargets_does ⟨equipped.engine,equipped.goal,equipped.pool,unreported (opening ▸ rfl)⟩
      (equipped.prepared p targets clients source (at_phase.trans opening)).2 replays
  cases move with
  | skipsLoad goal skips move => exact move.does equipped (unreported rfl)
  | watches goal move =>
    refine move.does (equipped.alike rfl rfl rfl rfl rfl rfl) (unreported rfl) ⟨?_,?_⟩ equipped.pool
    · intro a defined
      cases defined
    · intro a defined
      cases defined
  | goesOn done goal move => exact move.does (equipped.alike rfl rfl rfl rfl rfl rfl) (unreported rfl)
  | begins goal loads after | loads goal some_ after =>
    rw [after]
    exact beginLoad_does equipped (unreported rfl) _
  | @loadsOn d i times total p done goal more after =>
    have noted : Equipped e g r { c with loaded := c.loaded ++ [p.sent] } := equipped.alike rfl rfl rfl rfl rfl rfl
    rw [after]
    exact beginLoad_does noted (unreported rfl) total
  | dials goal after =>
    rw [after]
    exact dial_does equipped .testEnd
  | loadsNone goal after | broken at_i broken after | unjoined joined after | unreplayed tried after
  | unreported after =>
    rw [after]
    exact equipped.inPhase rfl
  | @loaded d i times total p done goal last after =>
    have noted : Equipped e g r { c with loaded := c.loaded ++ [p.sent] } := equipped.alike rfl rfl rfl rfl rfl rfl
    rw [after]
    exact noted.inPhase rfl
  | watching tried replays goal after | unstarted tried replays goal after =>
    obtain ⟨deeds,staffing⟩ := replayed rfl replays
    rw [after]
    exact (staffing.inPhase rfl).after deeds
  | @starts p targets clients source s t c' c'' tried replays goal started after =>
    have prepared := (equipped.prepared p targets clients source at_phase).1
    obtain ⟨deeds,staffing⟩ := replayed rfl replays
    obtain ⟨more,staffing⟩ := startActivities_does staffing (activitiesOf_from prepared) started
    rw [after]
    refine Does.after (deeds.trans more) ?_
    have dials {s : Run σ} (clients : s.clients = t.clients) : Does e g s (s.dial c'' .testEnd) := by
      refine ⟨(Relation.ReflTransGen.single (.site rfl rfl)).tail (.course _),_,rfl,staffing.engine,staffing.goal,
        clients ▸ staffing.pool,?_,?_⟩
      · intro p targets clients source same
        cases same
      · intro starts
        cases starts
    unfold reportEvery
    split
    · exact dials rfl
    · exact (dials (s := t.addReporter _) rfl).after (.single (.report _))
  | @connects w untilMs id a site connected after =>
    obtain ⟨memory,begun⟩ := endConnect_site r.site 0 a
    rw [connected] at memory begun
    have there : Equipped e g { r with site } c := equipped.alike rfl rfl rfl rfl rfl rfl
    rw [after]
    exact (there.inPhase rfl).after (.single (.site memory begun))
  | @refused w untilMs a cause site refused move =>
    obtain ⟨memory,begun⟩ := endConnect_site r.site 0 a
    rw [refused] at memory begun
    exact (move.does (equipped.alike rfl rfl rfl rfl rfl rfl)).after (.single (.site memory begun))
  | @guards w id t t' site stepped unsettled after =>
    obtain ⟨memory,begun⟩ := sentinel_site stepped
    have there : Equipped e g { r with site } c := equipped.alike rfl rfl rfl rfl rfl rfl
    rw [after]
    exact (there.inPhase rfl).after (.single (.site memory begun))
  | @settles w id t t' site result stepped settled move =>
    obtain ⟨memory,begun⟩ := sentinel_site stepped
    have heard : Equipped e g { r with site } c := equipped.alike rfl rfl rfl rfl rfl rfl
    obtain ⟨deeds,left⟩ := hangUp_does heard id w result
    exact ((move.does left).after deeds).after (.single (.site memory begun))
  | fails failed after =>
    have told : Equipped e g r (r.summarize c) := equipped.alike rfl rfl rfl rfl rfl rfl
    rw [after]
    exact told.inPhase rfl
  | @keeps seen wound keeps after =>
    have noted : Equipped e g r { r.summarize c with testEndSeen := seen } := equipped.alike rfl rfl rfl rfl rfl rfl
    rw [after]
    exact dial_does noted .keepAlive
  | @reports seen wound ends after =>
    have noted : Equipped e g r { r.summarize c with testEndSeen := seen } := equipped.alike rfl rfl rfl rfl rfl rfl
    rw [after]
    exact noted.inPhase rfl

/-- A turn of the main task is made of deeds, and it still has what it needs. -/
theorem moveMain_deeds (course : r.course = some c) (equipped : Equipped e g r c) (run : r.moveMain = some next) :
    Does e g r next := (moveMain_move course run).does equipped

/-! ### The steps of others -/

omit [RandomSource σ] in
theorem LineMove.length {clients after : List Client} {v : Worker} {u : ClientUser} {every : Nat} {stage : WorkerStage}
    (moved : LineMove clients after v u every stage) : after.length = clients.length := by
  cases moved with
  | apart same => rw [same]
  | joins at_c set => rw [set,List.length_set]
  | leaves at_c set => rw [set,List.length_set]

omit [RandomSource σ] in
theorem placeProducer_beside (r : Run σ) (i : Nat) (p : Producer σ) :
    (r.placeProducer i p).clients = r.clients ∧ (r.placeProducer i p).reporters = r.reporters ∧
      (r.placeProducer i p).watchers = r.watchers := by
  unfold placeProducer
  dsimp only
  split <;> exact ⟨rfl,rfl,rfl⟩

theorem intervene_beside (r : Run σ) (i : Intervention) :
    (r.intervene i).clients = r.clients ∧ (r.intervene i).reporters = r.reporters := by
  have on_producer (j : Nat) (f : Producer σ → Producer σ) :
      (r.onProducer j f).clients = r.clients ∧ (r.onProducer j f).reporters = r.reporters := by
    refine onProducer_elim (fun s => s.clients = r.clients ∧ s.reporters = r.reporters) ⟨rfl,rfl⟩ fun p _ => ?_
    exact ⟨(placeProducer_beside r j _).1,(placeProducer_beside r j _).2.1⟩
  cases i with
  | offer j op => exact on_producer j _
  | urge j => exact on_producer j _
  | dismiss j => exact on_producer j _
  | _ => exact ⟨rfl,rfl⟩

theorem moveProducer_beside {i : Nat} (run : r.moveProducer i = some next) :
    next.clients = r.clients ∧ next.reporters = r.reporters ∧ next.watchers = r.watchers := by
  obtain ⟨p,-,turn⟩ := moveProducer_turn run
  cases turn with
  | send stage at_d told served room after =>
    rw [after]
    exact placeProducer_beside _ i _
  | place sent after =>
    rw [after]
    exact placeProducer_beside r i _
  | enlist after =>
    rw [after]
    exact ⟨rfl,rfl,rfl⟩

omit [RandomSource σ] in
theorem moveWatcher_beside {i : Nat} (run : r.moveWatcher i = some next) :
    next.clients = r.clients ∧ next.reporters = r.reporters ∧ next.signals = r.signals := by
  obtain ⟨w,-,run⟩ := Option.bind_eq_some_iff.mp run
  obtain ⟨⟨w',event,site⟩,-,run⟩ := Option.bind_eq_some_iff.mp run
  cases run
  unfold noteWatcher
  split
  · exact ⟨rfl,rfl,rfl⟩
  · exact ⟨rfl,rfl,rfl⟩
  · split <;> exact ⟨rfl,rfl,rfl⟩

omit [RandomSource σ] in
theorem moveReporter_some {i : Nat} (run : r.moveReporter i = some next) :
    ∃ t t', r.reporters[i]? = some t ∧ t.stage = .running ∧ next.reporters = r.reporters.set i t' ∧
      next.clients = r.clients ∧ next.watchers = r.watchers ∧ next.site = r.site := by
  obtain ⟨t,at_i,run⟩ := Option.bind_eq_some_iff.mp run
  split at run
  · rename_i running
    split at run
    · cases run
      exact ⟨t,_,at_i,running,rfl,rfl,rfl,rfl⟩
    · split at run
      · cases run
        exact ⟨t,_,at_i,running,rfl,rfl,rfl,rfl⟩
      · cases run
  · cases run

/-- Nobody but the main task gives a run clients or its first reporter. -/
theorem step_beside {ev : Event} (run : r.step ev = some next) (main : ev ≠ .turn .main) :
    next.clients.length = r.clients.length ∧ (r.reporters = [] → next.reporters = []) := by
  cases ev with
  | turn p =>
    cases p with
    | main => exact absurd rfl main
    | producer i =>
      obtain ⟨clients,reporters,-⟩ := moveProducer_beside run
      exact ⟨by rw [clients],fun nobody => reporters.trans nobody⟩
    | worker d w =>
      obtain ⟨x,v,at_d,at_w,move⟩ := moveWorker_move run
      obtain ⟨z,after,serves⟩ := move.serves at_d at_w
      exact ⟨serves.line.length,fun nobody => serves.reporters.trans nobody⟩
    | watcher i =>
      obtain ⟨clients,reporters,-⟩ := moveWatcher_beside run
      exact ⟨by rw [clients],fun nobody => reporters.trans nobody⟩
    | reporter i =>
      obtain ⟨t,t',at_i,-,-,clients,-⟩ := moveReporter_some run
      refine ⟨by rw [clients],fun nobody => ?_⟩
      rw [nobody] at at_i
      cases at_i
  | outside i =>
    cases run
    obtain ⟨clients,reporters⟩ := intervene_beside r i
    exact ⟨by rw [clients],fun nobody => reporters.trans nobody⟩
  | pass ms =>
    cases run
    exact ⟨rfl,id⟩

theorem Led.step {ev : Event} (led : Led e g r) (run : r.step ev = some next) : Led e g next := by
  obtain ⟨c,course,equipped⟩ := led
  by_cases main : ev = .turn .main
  · subst main
    exact (moveMain_deeds course equipped run).2
  · obtain ⟨clients,reporters⟩ := step_beside run main
    obtain ⟨phase,after,still⟩ := step_course run main course
    have opening {p targets places source} (same : phase = .opening p targets places source) :
        c.phase = .opening p targets places source := by
      rcases still with rfl | ⟨x,rfl⟩
      · exact same
      · cases at_phase : c.phase <;> simp_all [befallen]
    have starts (same : phase.starts = true) : c.phase.starts = true := by
      rcases still with rfl | ⟨x,rfl⟩
      · exact same
      · cases at_phase : c.phase <;> simp_all [befallen,Phase.starts]
    refine ⟨_,after,equipped.engine,equipped.goal,?_,?_,fun begins => reporters (equipped.unreported (starts begins))⟩
    · rw [clients]
      exact equipped.pool
    · intro p targets places source same
      rw [clients]
      exact equipped.prepared p targets places source (opening same)

omit [RandomSource σ] in
theorem led_start (e : Engine) (g : Goal) (options : DispatchOptions) (site : Site) (pool : Pool) (nowMs : Nat)
    (streams : Nat → σ) : Led e g (ofCourse site pool nowMs (Course.start e g options pool.size nowMs streams)) := by
  refine ⟨_,rfl,rfl,rfl,fun i member => List.mem_range.mp member,?_,fun _ => rfl⟩
  intro p targets clients source same
  cases same

end

end Run

end Keyload
