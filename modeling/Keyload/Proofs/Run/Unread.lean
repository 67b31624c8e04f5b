import Keyload.Proofs.Run.Deeds
import Keyload.Proofs.Run.Fickle
import Keyload.Proofs.Store.Renewal

/-!
What steps do that read nothing from a watch. Watchers are added by the main task alone, once, before it waits for them;
what is counted of watches changes with them. Connections are numbered as they are opened: the main task opens one of
its own to wait for a key, and workers renew those of their clients.
-/
namespace Keyload

/-- What is counted of watches: the events over the lifetime, the watchers planned and those lost. -/
def Tally.watched (t : Tally) : Nat × Nat × Nat := (t.watchEvents.lifetime,t.watchersConfigured,t.watchersLost)

/-- How often a connection was closed. -/
def Site.closings (s : Site) (id : Nat) : Nat := s.history.toList.count (.closed id)

/-- Whether the main task has not come to the watches. -/
def Phase.begins {σ : Type} : Phase σ → Bool
  | .beginning | .loading .. => true
  | _ => false

/-- Whether the main task waits for the watches to be opened. -/
def Phase.isOpening {σ : Type} : Phase σ → Bool
  | .opening .. => true
  | _ => false

/-- Whether the main task has the watches behind it and does not read from a watch itself. -/
def Phase.isAway {σ : Type} : Phase σ → Bool
  | .dialing .. | .finishing _ | .ended _ | .crashed _ => true
  | _ => false

namespace Run

variable {σ : Type} {r s next : Run σ} {c : Course σ}

/-! ### The main task -/

/-- The watchers, what is counted and the connections are as they were. -/
structure Spares (r next : Run σ) : Prop where
  watchers : next.watchers = r.watchers
  recorder : next.recorder = r.recorder
  clients : next.clients = r.clients
  closings : ∀ id, next.site.closings id = r.site.closings id
  issued : next.site.issued = r.site.issued

namespace Spares

theorem refl (r : Run σ) : Spares r r := ⟨rfl,rfl,rfl,fun _ => rfl,rfl⟩

theorem trans (first : Spares r s) (then_ : Spares s next) : Spares r next :=
  ⟨then_.watchers.trans first.watchers,then_.recorder.trans first.recorder,then_.clients.trans first.clients,
    fun id => (then_.closings id).trans (first.closings id),then_.issued.trans first.issued⟩

end Spares

theorem inPhase_spares (r : Run σ) (c : Course σ) (phase : Phase σ) : Spares r (r.inPhase c phase) :=
  ⟨rfl,rfl,rfl,fun _ => rfl,rfl⟩

theorem stopAll_spares (r : Run σ) : Spares r r.stopAll := ⟨rfl,rfl,rfl,fun _ => rfl,rfl⟩

theorem hangUp_spares (r : Run σ) (id : Nat) (w : Wait) (result : Except StoreError Bool) :
    Spares { r with site := r.site.close id } (r.hangUp id w result) := by
  unfold hangUp
  split
  · exact stopAll_spares _
  · exact .refl _

/-- The main task has gone on to a phase of some sort and spared everything else. -/
def Lands (sort : Phase σ → Bool) (r next : Run σ) : Prop :=
  ∃ c, next.course = some c ∧ sort c.phase = true ∧ Spares r next

theorem Spares.lands {sort : Phase σ → Bool} (spares : Spares r s) (lands : Lands sort s next) : Lands sort r next := by
  obtain ⟨c,course,phase,spared⟩ := lands
  exact ⟨c,course,phase,spares.trans spared⟩

theorem inPhase_lands {sort : Phase σ → Bool} (r : Run σ) (c : Course σ) {phase : Phase σ} (right : sort phase = true) :
    Lands sort r (r.inPhase c phase) :=
  ⟨_,rfl,right,inPhase_spares r c phase⟩

theorem dial_lands (r : Run σ) (c : Course σ) (w : Wait) : Lands Phase.isAway r (r.dial c w) :=
  ⟨_,rfl,rfl,rfl,rfl,rfl,fun _ => rfl,rfl⟩

theorem WaitMove.lands {w : Wait} {result : Except StoreError Bool} (move : WaitMove r next c w result) :
    Lands Phase.isAway r next := by
  cases move with
  | reports after | fails after | tells goal after =>
    rw [after]
    exact inPhase_lands r c rfl
  | winds goal after =>
    rw [after]
    exact (stopAll_spares r).lands (inPhase_lands r.stopAll c rfl)

theorem beginLoad_lands (r : Run σ) (c : Course σ) (total : Nat) : Lands Phase.begins r (r.beginLoad c total) :=
  ⟨_,rfl,rfl,rfl,rfl,rfl,fun _ => rfl,rfl⟩

theorem startActivities_spares {activities : List (Churn.Activity × Option Nat × ClientRange)} {c' : Course σ}
    (run : r.startActivities c activities = .ok (next,c')) : Spares r next :=
  startActivities_induction (fun s _ => Spares r s) (.refl r)
    (fun _ before _ => before.trans ⟨rfl,rfl,rfl,fun _ => rfl,rfl⟩) run

theorem replayTargets_spares [RandomSource σ] {targets : List Watch.Target} {clients : List Nat} {source : σ}
    {c' : Course σ} (run : r.replayTargets c targets clients source = .ok (next,c')) : Spares r next := by
  obtain ⟨rfl,-⟩ | ⟨replays,source',rfl,-⟩ := replayTargets_some run
  · exact .refl _
  · have employed : Spares r (r.employ "watch_replay" c.options clients) := ⟨rfl,rfl,rfl,fun _ => rfl,rfl⟩
    exact startReplays_induction replays _ source' (Spares r) employed fun before =>
      before.trans ⟨rfl,rfl,rfl,fun _ => rfl,rfl⟩

theorem reportEvery_spares (r : Run σ) (secs : Nat) : Spares r (r.reportEvery secs) := by
  unfold reportEvery
  split
  · exact .refl r
  · exact ⟨rfl,rfl,rfl,fun _ => rfl,rfl⟩

/-- The main task has come to watches on these keys, or has none to open; a tally that was empty counts them alone. -/
structure Opens (r next : Run σ) (keys : List String) (withPrefix : Bool) (phase : Phase σ) : Prop where
  watchers : next.watchers = r.watchers ++ keys.map (Watch.Watcher.fresh · withPrefix)
  watched : r.recorder.tally.watched = (0,0,0) → next.recorder.tally.watched = (0,keys.length,0)
  clients : next.clients = r.clients
  closings : ∀ id, next.site.closings id = r.site.closings id
  issued : next.site.issued = r.site.issued
  opening : phase.isOpening = true ∨ keys = [] ∧ (phase.isAway = true ∨ phase.begins = true)

/-- The main task has come to its watches. -/
def Prepares (r next : Run σ) : Prop :=
  ∃ c keys withPrefix, next.course = some c ∧ Opens r next keys withPrefix c.phase

theorem Lands.prepares {sort : Phase σ → Bool} (lands : Lands sort r next)
    (right : ∀ phase, sort phase = true → phase.isAway = true ∨ phase.begins = true) : Prepares r next := by
  obtain ⟨c,course,phase,spares⟩ := lands
  refine ⟨c,[],false,course,by rw [spares.watchers]; simp,?_,spares.clients,spares.closings,spares.issued,
    .inr ⟨rfl,right _ phase⟩⟩
  rw [spares.recorder]
  exact id

theorem inPhase_prepares (r : Run σ) (c : Course σ) {phase : Phase σ} (away : phase.isAway = true) :
    Prepares r (r.inPhase c phase) :=
  (inPhase_lands r c away).prepares fun _ => .inl

section
variable [RandomSource σ]

theorem OpenMove.prepares {p : Prepared} {clients : List Nat} {source : σ} (move : OpenMove r next c p clients source) :
    Prepares r next := by
  cases move with
  | crash planned after | refuse planned after =>
    rw [after]
    exact inPhase_prepares r c rfl
  | @opens targets source' planned after =>
    rw [after]
    refine ⟨_,targets.map Watch.Target.key,c.settings.watches.withPrefix,rfl,?_,?_,?_,?_,?_,.inl rfl⟩
    · cases targets <;> simp [inPhase,watchTargets]
    · intro none_counted
      have events : r.recorder.tally.watchEvents.lifetime = 0 := congrArg Prod.fst none_counted
      cases targets with
      | nil => exact none_counted
      | cons t targets =>
        simp [inPhase,watchTargets,Recorder.onTally,Tally.watched,Tally.setWatchers,events]
    · cases targets <;> rfl
    · cases targets <;> exact fun _ => rfl
    · cases targets <;> rfl

theorem SteadyMove.prepares (move : SteadyMove r next c) : Prepares r next := by
  have resets (prepares : Prepares { r with recorder := r.recorder.reset } next) : Prepares r next := by
    obtain ⟨c',keys,withPrefix,course,opens⟩ := prepares
    exact ⟨c',keys,withPrefix,course,opens.watchers,fun _ => opens.watched rfl,opens.clients,opens.closings,
      opens.issued,opens.opening⟩
  cases move with
  | skips unsteady after =>
    rw [after]
    exact inPhase_prepares r c rfl
  | crash steady after | refuse steady defined after =>
    subst after
    exact resets (inPhase_prepares _ _ rfl)
  | opens steady defined shared move => exact resets move.prepares

end

/-- The main task has opened a connection of its own and waits for a key there. -/
structure Connects (r next : Run σ) (c : Course σ) (w : Wait) : Prop where
  course : next.course = some { c with phase := .guarding w r.site.issued (.on (waitKey c w)) }
  watchers : next.watchers = r.watchers
  recorder : next.recorder = r.recorder
  clients : next.clients = r.clients
  closings : ∀ id, next.site.closings id = r.site.closings id
  issued : next.site.issued = r.site.issued + 1

theorem closings_push {s : Site} {x : ConnectionEvent} {id : Nat} (other : x ≠ .closed id) :
    Site.closings { s with history := s.history.push x } id = s.closings id := by
  simp [Site.closings,List.count_append,other]

/-- What a turn of the main task is that reads nothing from a watch. -/
inductive MainTurn (r next : Run σ) (c : Course σ) : Prop where
  | prepares (begins : c.phase.begins = true) (prepares : Prepares r next)
  | lands (past : c.phase.begins = false) (tried : c.phase.isOpening = true → r.watchers.all (·.tried) = true)
      (lands : Lands Phase.isAway r next)
  | connects {w : Wait} {untilMs : Nat} {x : Reaction} (dials : c.phase = .dialing w untilMs x)
      (connects : Connects r next c w)

theorem moveMain_turn [RandomSource σ] (course : r.course = some c) (unread : r.guarding? = none)
    (run : r.moveMain = some next) : MainTurn r next c := by
  have move := moveMain_move course run
  generalize phase : c.phase = there at move
  have prepares (begins : there.begins = true) (prepares : Prepares r next) : MainTurn r next c :=
    .prepares (phase ▸ begins) prepares
  have lands (past : there.begins = false) (tried : there.isOpening = true → r.watchers.all (·.tried) = true)
      (lands : Lands Phase.isAway r next) : MainTurn r next c := .lands (phase ▸ past) (phase ▸ tried) lands
  cases move with
  | skipsLoad goal skips move => exact prepares rfl move.prepares
  | watches goal move => exact prepares rfl move.prepares
  | goesOn done goal move => exact prepares rfl move.prepares
  | begins goal loads after | loads goal some_ after | loadsOn done goal more after =>
    subst after
    exact prepares rfl ((beginLoad_lands r _ _).prepares fun _ => .inr)
  | dials goal after =>
    subst after
    exact prepares rfl ((dial_lands r c _).prepares fun _ => .inl)
  | loadsNone goal after | broken at_i broken after | unjoined joined after | loaded done goal last after =>
    subst after
    exact prepares rfl (inPhase_prepares r _ rfl)
  | unreplayed tried after =>
    subst after
    exact lands rfl (fun _ => tried) (inPhase_lands r c rfl)
  | watching tried replays goal after | unstarted tried replays goal after =>
    subst after
    exact lands rfl (fun _ => tried) ((replayTargets_spares replays).lands (inPhase_lands _ _ rfl))
  | starts tried replays goal started after =>
    subst after
    refine lands rfl (fun _ => tried) (Spares.lands ?_ (dial_lands _ _ _))
    exact ((replayTargets_spares replays).trans (startActivities_spares started)).trans (reportEvery_spares _ _)
  | @connects w untilMs id x site connected after =>
    obtain ⟨delayMs,failure⟩ := x
    cases failure with
    | some e => cases connected
    | none =>
      cases connected
      rw [after]
      exact .connects phase ⟨rfl,rfl,rfl,rfl,fun _ => closings_push (by simp),rfl⟩
  | @refused w untilMs x e site refused move =>
    obtain ⟨delayMs,failure⟩ := x
    cases failure with
    | none => cases refused
    | some e =>
      cases refused
      refine lands rfl (fun opening => by cases opening) (Spares.lands ?_ move.lands)
      exact ⟨rfl,rfl,rfl,fun _ => closings_push (by simp),rfl⟩
  | guards | settles =>
    rw [guarding?,course,Option.bind_some,phase] at unread
    cases unread
  | unreported after | fails failed after | reports wound ends after =>
    subst after
    exact lands rfl (fun opening => by cases opening) (inPhase_lands r _ rfl)
  | keeps wound keeps after =>
    subst after
    exact lands rfl (fun opening => by cases opening) (dial_lands r _ _)

/-! ### Everybody else -/

/-- Connections are opened under new numbers, and none is closed but one that a client has. -/
structure Renews (r next : Run σ) : Prop where
  clients : ∀ c ∈ next.clients, (∃ before ∈ r.clients, c.connection = before.connection) ∨
    c.connection = r.site.issued ∧ next.site.issued = r.site.issued + 1
  closings : ∀ id, next.site.closings id = r.site.closings id ∨ ∃ c ∈ r.clients, c.connection = id
  issued : r.site.issued ≤ next.site.issued

theorem renews_of_same (clients : next.clients = r.clients) (history : next.site.history = r.site.history)
    (issued : next.site.issued = r.site.issued) : Renews r next := by
  refine ⟨fun c member => .inl ⟨c,clients ▸ member,rfl⟩,fun id => .inl ?_,Nat.le_of_eq issued.symm⟩
  rw [Site.closings,history]
  rfl

/-- A client was changed, but not its connection. -/
theorem clients_set {clients : List Client} {i : Nat} {before after : Client} (at_i : clients[i]? = some before)
    (same : after.connection = before.connection) :
    ∀ c ∈ clients.set i after, ∃ old ∈ clients, c.connection = old.connection := by
  intro c member
  rcases List.mem_or_eq_of_mem_set member with old | rfl
  · exact ⟨c,old,rfl⟩
  · exact ⟨before,List.mem_of_getElem? at_i,same⟩

/-- What the turn of a worker or a producer does to connections and to what is counted of watches. -/
structure Labours (r next : Run σ) : Prop where
  renews : Renews r next
  watchers : next.watchers = r.watchers
  watched : next.recorder.tally.watched = r.recorder.tally.watched

theorem operation_watched {a b : Recorder} {kind : Kind} {nanos keys bytes : Nat}
    (run : a.operation kind nanos keys bytes = .ok b) : b.tally.watched = a.tally.watched := by
  obtain ⟨tally,counted,same⟩ := Except.ok_of_bind run
  cases same
  cases kind with
  | put | delete | get | prefixGet =>
    obtain ⟨_,-,same⟩ := Except.ok_of_bind counted
    cases same
    rfl

theorem answer_watched {a b : Recorder} {answer : Answer} {nanos : Nat} {fullRead : Bool}
    (run : a.answer answer nanos fullRead = .ok b) : b.tally.watched = a.tally.watched := by
  cases answer <;> exact operation_watched run

theorem reconnect_watched {a b : Recorder} {nanos : Nat} (run : a.reconnect nanos = .ok b) :
    b.tally.watched = a.tally.watched := by
  obtain ⟨tally,counted,same⟩ := Except.ok_of_bind run
  cases same
  obtain ⟨_,-,same⟩ := Except.ok_of_bind counted
  cases same
  rfl

theorem labours_of_same (clients : next.clients = r.clients) (history : next.site.history = r.site.history)
    (issued : next.site.issued = r.site.issued) (watchers : next.watchers = r.watchers)
    (watched : next.recorder.tally.watched = r.recorder.tally.watched) : Labours r next :=
  ⟨renews_of_same clients history issued,watchers,watched⟩

variable {d w i : Nat} {op : Operation}

theorem claim_labours {every : Nat} (run : r.claim d w i every op = some next) : Labours r next := by
  unfold claim at run
  cases at_i : r.clients[i]? with
  | none =>
    simp only [at_i] at run
    cases run
  | some c =>
    simp only [at_i] at run
    -- the client gets another place in line or is used once more, and keeps its connection
    have kept {next : Run σ} {after : Client} (clients : next.clients = r.clients.set i after)
        (same : after.connection = c.connection) (history : next.site.history = r.site.history)
        (issued : next.site.issued = r.site.issued) (watchers : next.watchers = r.watchers)
        (recorder : next.recorder = r.recorder) : Labours r next := by
      refine ⟨⟨fun c member => .inl ?_,fun id => .inl ?_,Nat.le_of_eq issued.symm⟩,watchers,by rw [recorder]⟩
      · exact clients_set at_i same c (clients ▸ member)
      · rw [Site.closings,history]
        rfl
    split at run
    · cases run
      exact labours_of_same rfl rfl rfl rfl rfl
    · split at run
      · split at run
        · cases run
        · cases run
          exact kept rfl (SharedClient.enter_connection c _) rfl rfl rfl rfl
      · split at run
        · cases run
          refine ⟨⟨fun c' member => .inl ?_,fun id => ?_,Nat.le_refl _⟩,rfl,rfl⟩
          · exact clients_set at_i (SharedClient.enter_connection c _) c' member
          · by_cases same : c.connection = id
            · exact .inr ⟨c,List.mem_of_getElem? at_i,same⟩
            · exact .inl (closings_push (by simpa using same))
        · cases run
          exact kept rfl rfl rfl rfl rfl rfl

theorem endRenewal_labours {sinceMs : Nat} {x : Reaction} (run : r.endRenewal d w i op sinceMs x = some next) :
    Labours r next := by
  unfold endRenewal at run
  cases at_i : r.clients[i]? with
  | none =>
    simp only [at_i] at run
    cases run
  | some c =>
    obtain ⟨delayMs,failure⟩ := x
    simp only [at_i,Client.endRenewal,Site.endConnect] at run
    cases failure with
    | none =>
      -- the client has the connection that was just opened, whatever comes of counting that
      have renewed {next : Run σ} {after : Client} (clients : next.clients = r.clients.set i after)
          (new : after.connection = r.site.issued)
          (history : next.site.history = r.site.history.push (.opened c.endpoint r.site.issued))
          (issued : next.site.issued = r.site.issued + 1) : Renews r next := by
        refine ⟨fun c' member => ?_,fun id => .inl ?_,by omega⟩
        · rcases List.mem_or_eq_of_mem_set (clients ▸ member) with old | rfl
          · exact .inl ⟨c',old,rfl⟩
          · exact .inr ⟨new,issued⟩
        · rw [Site.closings,history]
          exact closings_push (s := r.site) (by simp)
      cases counted : r.recorder.reconnect ((r.nowMs - sinceMs) * Ticker.milli) with
      | error f =>
        simp only [counted] at run
        cases run
        exact ⟨renewed rfl rfl rfl rfl,rfl,rfl⟩
      | ok recorder =>
        simp only [counted] at run
        cases run
        exact ⟨renewed rfl rfl rfl rfl,rfl,reconnect_watched counted⟩
    | some cause =>
      cases run
      refine ⟨⟨fun c' member => .inl (clients_set at_i (by rfl) c' member),fun id => .inl ?_,Nat.le_refl _⟩,rfl,rfl⟩
      exact closings_push (by simp)

theorem endOperation_labours {s : Run σ} {fullRead : Bool} {sinceMs : Nat} {result : Except StoreError Answer}
    (clients : s.clients = r.clients) (history : s.site.history = r.site.history)
    (issued : s.site.issued = r.site.issued) (watchers : s.watchers = r.watchers) (recorder : s.recorder = r.recorder) :
    Labours r (s.endOperation d w fullRead op sinceMs result) := by
  unfold endOperation
  cases result with
  | error e => exact labours_of_same clients history issued watchers (by rw [← recorder]; rfl)
  | ok answer =>
    cases counted : s.recorder.answer answer ((s.nowMs - sinceMs) * Ticker.milli) fullRead with
    | error f =>
      simp only [counted]
      exact labours_of_same clients history issued watchers (by rw [← recorder]; rfl)
    | ok after =>
      simp only [counted]
      exact labours_of_same clients history issued watchers (recorder ▸ answer_watched counted)

theorem moveWorker_labours (run : r.moveWorker d w = some next) : Labours r next := by
  obtain ⟨x,-,run⟩ := Option.bind_eq_some_iff.mp run
  obtain ⟨v,-,run⟩ := Option.bind_eq_some_iff.mp run
  cases stage : v.stage with
  | waiting =>
    simp only [stage] at run
    split at run
    · cases run
      exact labours_of_same rfl rfl rfl rfl rfl
    · split at run
      · cases run
        exact labours_of_same rfl rfl rfl rfl rfl
      · split at run
        · cases run
          exact labours_of_same rfl rfl rfl rfl rfl
        · cases run
  | claiming op =>
    simp only [stage] at run
    exact claim_labours run
  | renewing op sinceMs untilMs x =>
    simp only [stage] at run
    split at run
    · exact endRenewal_labours run
    · cases run
  | executing op sinceMs untilMs x =>
    simp only [stage] at run
    split at run
    · cases run
      have site : (r.site.endOperation op x).2.history = r.site.history ∧
          (r.site.endOperation op x).2.issued = r.site.issued := by
        unfold Site.endOperation
        split <;> exact ⟨rfl,rfl⟩
      exact endOperation_labours rfl site.1 site.2 rfl rfl
    · split at run
      · cases run
      · split at run
        · cases run
          exact endOperation_labours rfl rfl rfl rfl rfl
        · cases run
  | ended failure =>
    simp only [stage] at run
    cases run

theorem placeProducer_labours (r : Run σ) (i : Nat) (p : Producer σ) : Labours r (r.placeProducer i p) := by
  unfold placeProducer
  dsimp only
  split <;> exact labours_of_same rfl rfl rfl rfl rfl

/-- What a step that is not the main task's does to connections and watchers, if it reads nothing from a watch. -/
structure Beside (r next : Run σ) : Prop where
  renews : Renews r next
  watchers : next.watchers = r.watchers ∨ ∃ x, next.watchers = r.watchers.map (·.interrupt x)
  watched : next.recorder.tally.watched = r.recorder.tally.watched

theorem Labours.beside (labours : Labours r next) : Beside r next :=
  ⟨labours.renews,.inl labours.watchers,labours.watched⟩

section
variable [RandomSource σ]

theorem moveProducer_labours (run : r.moveProducer i = some next) : Labours r next := by
  obtain ⟨p,-,turn⟩ := moveProducer_turn run
  cases turn with
  | @send op subtree x stage at_d told served room after =>
    subst after
    have placed := placeProducer_labours (r.onDispatcher p.dispatcher (·.accept i op)) i (p.proceed subtree)
    exact ⟨⟨placed.renews.clients,placed.renews.closings,placed.renews.issued⟩,placed.watchers,placed.watched⟩
  | place sent after =>
    subst after
    exact placeProducer_labours r i _
  | enlist after =>
    subst after
    exact labours_of_same rfl rfl rfl rfl rfl

theorem intervene_unread (r : Run σ) (x : Intervention) : Beside r (r.intervene x) := by
  have on_producer (j : Nat) (f : Producer σ → Producer σ) : Beside r (r.onProducer j f) :=
    onProducer_elim (Beside r) ⟨renews_of_same rfl rfl rfl,.inl rfl,rfl⟩ fun p _ => (placeProducer_labours r j _).beside
  cases x with
  | offer j op => exact on_producer j _
  | urge j => exact on_producer j _
  | dismiss j => exact on_producer j _
  | interrupt x => exact ⟨renews_of_same rfl rfl rfl,.inr ⟨x,rfl⟩,rfl⟩
  | _ => exact ⟨renews_of_same rfl rfl rfl,.inl rfl,rfl⟩

theorem step_unread {ev : Event} (run : r.step ev = some next) (unread : r.reads ev = false)
    (main : ev ≠ .turn .main) : Beside r next := by
  cases ev with
  | turn p =>
    cases p with
    | main => exact absurd rfl main
    | producer i => exact (moveProducer_labours run).beside
    | worker d w => exact (moveWorker_labours run).beside
    | watcher i => cases unread
    | reporter i =>
      obtain ⟨t,-,run⟩ := Option.bind_eq_some_iff.mp run
      split at run
      · split at run
        · cases run
          exact ⟨renews_of_same rfl rfl rfl,.inl rfl,rfl⟩
        · split at run
          · cases run
            exact ⟨renews_of_same rfl rfl rfl,.inl rfl,rfl⟩
          · cases run
      · cases run
  | outside x =>
    cases run
    exact intervene_unread r x
  | pass ms =>
    cases run
    exact ⟨renews_of_same rfl rfl rfl,.inl rfl,rfl⟩

end

end Run

end Keyload
