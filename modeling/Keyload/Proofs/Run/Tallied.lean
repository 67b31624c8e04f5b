import Keyload.Proofs.Run.Alone

/-!
What was begun and what is counted. A worker that begins an operation has it in progress until it ends it, and then
counts it as a call or as an error; nobody else begins, ends or counts anything. So as long as no worker fails, the
operations begun are those that were counted and those in progress, whatever the order of the steps. While nothing but
puts is sent, nothing but puts is counted.
-/
namespace Keyload

/-- What a step of a producer leaves of a dispatcher. -/
def Dispatcher.crew (x : Dispatcher) : String × List Worker := (x.name,x.workers)

/-- The operation that a producer has ready. -/
def ProducerStage.operation? : ProducerStage → Option Operation
  | .pacing held => held
  | .sending op _ => some op
  | _ => none

/-- A producer that loads keys and has nothing but a put ready. -/
structure Producer.Loads {σ : Type} (p : Producer σ) : Prop where
  work : ∃ keys, p.work = .load keys
  ready : ∀ op, p.stage.operation? = some op → op.kind = .put

/-- Nothing but puts waits or is carried out. -/
def Dispatcher.Puts (x : Dispatcher) : Prop := ∀ op ∈ x.queue ++ x.inHand, op.kind = .put

namespace Run

variable {σ : Type}

/-- The name of a dispatcher. -/
def nameOf (r : Run σ) (d : Nat) : Option String := r.dispatchers[d]?.map Dispatcher.name

/-- The number of operations that are being carried out. -/
def inProgress (r : Run σ) : Nat := (r.dispatchers.flatMap Dispatcher.running).length

/-- No worker of a dispatcher of these names has failed. -/
def Unfailed (names : List String) (r : Run σ) : Prop := ∀ x ∈ r.dispatchers, x.name ∈ names → x.failures = []

/-- No worker is left. -/
def Deserted (r : Run σ) : Prop := ∀ x ∈ r.dispatchers, x.isServed = false

/-- Since `m` operations had been begun, dispatchers of these names alone have begun operations, and where none of
their workers has failed each operation is counted or in progress. -/
structure Tallied (m : Nat) (names : List String) (r : Run σ) : Prop where
  counted : Unfailed names r → ∃ n, r.site.log.length = m + n + r.inProgress ∧ r.recorder.counts.Covers n
  since : m ≤ r.site.log.length
  serving : ∀ x ∈ r.dispatchers, x.isServed = true → x.name ∈ names
  attributed : ∀ b ∈ r.site.log.drop m, ∃ name ∈ names, r.nameOf b.1 = some name

/-- Every producer is one of `Q`, and every operation that waits or is carried out is one of `P`. -/
structure Carries (Q : Producer σ → Prop) (P : Operation → Prop) (r : Run σ) : Prop where
  producers : ∀ p ∈ r.producers, Q p
  dispatchers : ∀ x ∈ r.dispatchers, ∀ op ∈ x.queue ++ x.inHand, P op

/-- Nothing but puts is sent, waits, is carried out or was counted. -/
structure Putting (r : Run σ) : Prop where
  producers : ∀ p ∈ r.producers, p.Loads
  dispatchers : ∀ x ∈ r.dispatchers, x.Puts
  counted : r.recorder.counts.calls = r.recorder.counts.put

/-- A step that begins nothing, ends nothing and counts no operation. -/
structure Rests (r next : Run σ) : Prop where
  crews : next.dispatchers.map Dispatcher.crew = r.dispatchers.map Dispatcher.crew
  log : next.site.log = r.site.log
  counts : next.recorder.counts = r.recorder.counts

variable {r next : Run σ} {m : Nat} {names : List String} {x y : Dispatcher} {d w i : Nat}

/-! ### Steps that begin and end nothing -/

namespace Rests

theorem refl (r : Run σ) : Rests r r := ⟨rfl,rfl,rfl⟩

theorem trans {r s t : Run σ} (first : Rests r s) (then_ : Rests s t) : Rests r t :=
  ⟨then_.crews.trans first.crews,then_.log.trans first.log,then_.counts.trans first.counts⟩

theorem nameOf (rests : Rests r next) (d : Nat) : next.nameOf d = r.nameOf d := by
  have same (s : Run σ) : s.nameOf d = (s.dispatchers.map Dispatcher.crew)[d]?.map Prod.fst := by
    rw [List.getElem?_map,Option.map_map]
    rfl
  rw [same,same,rests.crews]

theorem inProgress (rests : Rests r next) : next.inProgress = r.inProgress := by
  have same (s : Run σ) : s.inProgress = ((s.dispatchers.map Dispatcher.crew).flatMap fun c =>
      c.2.filterMap fun w => w.stage.running?).length := by
    rw [List.flatMap_map]
    rfl
  rw [same,same,rests.crews]

theorem mem (rests : Rests r next) (member : y ∈ next.dispatchers) :
    ∃ x ∈ r.dispatchers, x.name = y.name ∧ x.workers = y.workers := by
  have crewed := List.mem_map_of_mem (f := Dispatcher.crew) member
  rw [rests.crews] at crewed
  obtain ⟨x,member,same⟩ := List.mem_map.mp crewed
  exact ⟨x,member,congrArg Prod.fst same,congrArg Prod.snd same⟩

theorem symm (rests : Rests r next) : Rests next r := ⟨rests.crews.symm,rests.log.symm,rests.counts.symm⟩

theorem deserted (rests : Rests r next) (deserted : Deserted r) : Deserted next := by
  intro y member
  obtain ⟨x,at_x,-,workers⟩ := rests.mem member
  have gone := deserted x at_x
  rwa [Dispatcher.isServed,workers] at gone

theorem unfailed (rests : Rests r next) (fine : Unfailed names r) : Unfailed names next := by
  intro y member named
  obtain ⟨x,at_x,name,workers⟩ := rests.mem member
  have none_failed := fine x at_x (name ▸ named)
  rwa [Dispatcher.failures,workers] at none_failed

end Rests

theorem Tallied.rests (tallied : Tallied m names r) (rests : Rests r next) : Tallied m names next := by
  refine ⟨fun fine => ?_,?_,fun y member served => ?_,fun b member => ?_⟩
  · obtain ⟨n,total,covers⟩ := tallied.counted (rests.symm.unfailed fine)
    exact ⟨n,by rw [rests.log,rests.inProgress,total],rests.counts ▸ covers⟩
  · rw [rests.log]
    exact tallied.since
  · obtain ⟨x,at_x,name,workers⟩ := rests.mem member
    rw [← name]
    exact tallied.serving x at_x (by rw [Dispatcher.isServed,workers]; exact served)
  · rw [rests.log] at member
    obtain ⟨name,among,named⟩ := tallied.attributed b member
    exact ⟨name,among,(rests.nameOf b.1).trans named⟩

/-- What a change of a dispatcher leaves as it is in each of them. -/
theorem onDispatcher_map {β : Type} {g : Dispatcher → β} (r : Run σ) (d : Nat) {f : Dispatcher → Dispatcher}
    (same : ∀ x, g (f x) = g x) : (r.onDispatcher d f).dispatchers.map g = r.dispatchers.map g := by
  show (r.dispatchers.modify d f).map _ = _
  refine List.ext_getElem? fun i => ?_
  rw [List.getElem?_map,List.getElem?_map,List.getElem?_modify]
  cases r.dispatchers[i]? with
  | none => rfl
  | some x =>
    by_cases here : d = i
    · simp [here,same]
    · simp [here]

theorem onDispatcher_rests (r : Run σ) (d : Nat) {f : Dispatcher → Dispatcher} (same : ∀ x, (f x).crew = x.crew) :
    Rests r (r.onDispatcher d f) := ⟨onDispatcher_map r d same,rfl,rfl⟩

theorem placeProducer_rests (r : Run σ) (i : Nat) (p : Producer σ) : Rests r (r.placeProducer i p) := by
  unfold placeProducer
  simp only
  split
  · exact ⟨onDispatcher_map _ p.dispatcher fun _ => rfl,rfl,rfl⟩
  · exact ⟨rfl,rfl,rfl⟩

theorem onProducer_rests (r : Run σ) (i : Nat) (f : Producer σ → Producer σ) : Rests r (r.onProducer i f) :=
  onProducer_elim (Rests r) (.refl r) fun _ _ => placeProducer_rests r i _

theorem Aside.rests (aside : Aside r next) : Rests r next :=
  ⟨by rw [aside.dispatchers],Site.log_of_begun aside.begun,aside.counts⟩

section
variable [RandomSource σ]

theorem ProducerTurn.rests {p : Producer σ} (turn : ProducerTurn r next i p) : Rests r next := by
  cases turn with
  | send stage at_d told served room after =>
    rw [after]
    refine Rests.trans ?_ (placeProducer_rests _ i _)
    exact onDispatcher_rests r _ fun _ => rfl
  | place sent after =>
    rw [after]
    exact placeProducer_rests r i _
  | enlist after =>
    rw [after]
    exact onDispatcher_rests r _ fun _ => rfl

theorem intervene_rests (r : Run σ) (i : Intervention) : Rests r (r.intervene i) := by
  cases i with
  | offer i op => exact onProducer_rests r i _
  | urge i => exact onProducer_rests r i _
  | dismiss i => exact onProducer_rests r i _
  | _ => exact ⟨rfl,rfl,rfl⟩

/-- A step of anybody but the main task is a turn of a worker, or begins and ends nothing. -/
theorem step_rests {e : Event} (run : r.step e = some next) (main : e ≠ .turn .main) :
    Rests r next ∨ ∃ d w, r.moveWorker d w = some next := by
  cases e with
  | turn p =>
    cases p with
    | main => exact absurd rfl main
    | producer i =>
      obtain ⟨p,-,turn⟩ := moveProducer_turn run
      exact .inl turn.rests
    | worker d w => exact .inr ⟨d,w,run⟩
    | watcher i => exact .inl (moveWatcher_aside run).rests
    | reporter i => exact .inl (moveReporter_aside run).rests
  | outside i =>
    cases run
    exact .inl (intervene_rests r i)
  | pass ms =>
    cases run
    exact .inl ⟨rfl,rfl,rfl⟩

end

/-! ### The turns of workers -/

/-- Where no worker is left, none has a turn. -/
theorem Deserted.idle (deserted : Deserted r) : r.moveWorker d w = none := by
  refine Option.eq_none_iff_forall_ne_some.mpr fun next run => ?_
  obtain ⟨x,worker,at_d,at_w,turn⟩ := moveWorker_turn run
  have gone := deserted x (List.mem_of_getElem? at_d)
  rw [Dispatcher.served_of_active at_w turn.active] at gone
  cases gone

theorem Deserted.inProgress_eq (deserted : Deserted r) : r.inProgress = 0 := by
  refine List.length_eq_zero_iff.mpr (List.flatMap_eq_nil_iff.mpr fun x at_x => ?_)
  refine List.filterMap_eq_nil_iff.mpr fun w at_w => ?_
  have gone := List.any_eq_false.mp (deserted x at_x) w at_w
  obtain ⟨client,stage⟩ := w
  cases stage with
  | executing op sinceMs untilMs a => simp [Worker.hasEnded] at gone
  | _ => rfl

theorem nameOf_set (at_d : r.dispatchers[d]? = some x) (dispatchers : next.dispatchers = r.dispatchers.set d y)
    (name : y.name = x.name) (d' : Nat) : next.nameOf d' = r.nameOf d' := by
  rw [nameOf,nameOf,dispatchers]
  by_cases here : d = d'
  · subst here
    rw [List.getElem?_set_self (List.getElem?_eq_some_iff.mp at_d).1,at_d]
    exact congrArg some name
  · rw [List.getElem?_set_ne here]

theorem inProgress_set (at_d : r.dispatchers[d]? = some x) (dispatchers : next.dispatchers = r.dispatchers.set d y) :
    next.inProgress + x.running.length = r.inProgress + y.running.length := by
  obtain ⟨inside,rfl⟩ := List.getElem?_eq_some_iff.mp at_d
  have before := ((List.getElem_cons_eraseIdx_perm inside).symm.flatMap_right Dispatcher.running).length_eq
  have after := ((List.set_perm_cons_eraseIdx inside y).flatMap_right Dispatcher.running).length_eq
  rw [List.flatMap_cons,List.length_append] at before after
  rw [inProgress,inProgress,dispatchers]
  omega

/-- The names of dispatchers stay, and what a worker begins is added to the record. -/
theorem moveWorker_names (run : r.moveWorker d w = some next) :
    (∀ d', next.nameOf d' = r.nameOf d') ∧ r.site.log <+: next.site.log := by
  obtain ⟨x,worker,z,after,begun,ended,at_d,-,-,advances⟩ := moveWorker_advances run
  exact ⟨nameOf_set at_d advances.dispatchers advances.name,_,advances.log.symm⟩

theorem moveWorker_course (run : r.moveWorker d w = some next) : next.course = r.course := by
  obtain ⟨x,worker,z,after,begun,ended,-,-,-,advances⟩ := moveWorker_advances run
  exact advances.course

/-- Where an operation that has ended is counted or leaves a failure, what is counted covers it too. -/
theorem Counted.covers {before after : WorkerStage} {n ended : Nat} (counted : Counted r next before after ended)
    (well : after.failure? = none) (covers : r.recorder.counts.Covers n) :
    next.recorder.counts.Covers (n + ended) := by
  cases counted with
  | nothing counts => exact counts ▸ covers
  | ended has counts =>
    rcases counts with success | failure
    · rw [success]
      exact covers.succeed _
    · rw [failure]
      exact covers.fail
  | fault failed => exact absurd well failed

namespace Advances

variable {z : Dispatcher} {worker : Worker} {after : WorkerStage} {begun : List Operation} {ended : Nat}

theorem inProgress (advances : Advances r next d w x z worker.stage after begun ended)
    (at_d : r.dispatchers[d]? = some x) (at_w : x.workers[w]? = some worker) :
    next.inProgress + ended = r.inProgress + begun.length := by
  have moved := Dispatcher.place_moved (advances.workers ▸ at_w : z.workers[w]? = some worker) after
  have total := inProgress_set at_d advances.dispatchers
  have running := moved.filterMap WorkerStage.running?
  rw [advances.workers] at running
  have was := running.1.length_eq
  have is := running.2.length_eq
  have hands := advances.hands
  rw [List.length_append] at was is
  simp only [Dispatcher.running] at total
  omega

/-- A worker that goes on without a failure leaves no failure behind that was not there. -/
theorem unfailed (advances : Advances r next d w x z worker.stage after begun ended)
    (at_d : r.dispatchers[d]? = some x) (at_w : x.workers[w]? = some worker)
    (active : ∀ failure, worker.stage ≠ .ended failure) (named : x.name ∈ names) (fine : Unfailed names next) :
    after.failure? = none ∧ Unfailed names r := by
  have moved := Dispatcher.place_moved (advances.workers ▸ at_w : z.workers[w]? = some worker) after
  obtain ⟨inside,rfl⟩ := List.getElem?_eq_some_iff.mp at_d
  have at_y : z.place w after ∈ next.dispatchers := by
    rw [advances.dispatchers]
    exact List.mem_set inside _
  have name : (z.place w after).name = r.dispatchers[d].name := advances.name
  have clean : ((z.place w after).workers.filterMap fun w => w.stage.failure?) = [] := fine _ at_y (name ▸ named)
  have failures := moved.filterMap WorkerStage.failure?
  rw [advances.workers,clean] at failures
  obtain ⟨well,others⟩ := List.append_eq_nil_iff.mp (List.nil_perm.mp failures.2)
  have before : worker.stage.failure? = none := by
    cases stage : worker.stage with
    | ended failure => exact absurd stage (active failure)
    | _ => rfl
  refine ⟨by simpa using well,fun v member among => ?_⟩
  obtain ⟨i,at_i,rfl⟩ := List.mem_iff_getElem.mp member
  -- in dispatcher `d` all other workers stay as they are, and the one that moves had not ended
  by_cases here : d = i
  · subst here
    rw [before,others] at failures
    exact failures.1.eq_nil
  · refine fine _ ?_ among
    rw [advances.dispatchers]
    exact List.mem_iff_getElem.mpr ⟨i,by simpa using at_i,List.getElem_set_ne here _⟩

end Advances

theorem Tallied.worker (tallied : Tallied m names r) (run : r.moveWorker d w = some next) : Tallied m names next := by
  obtain ⟨x,worker,z,after,begun,ended,at_d,at_w,active,advances⟩ := moveWorker_advances run
  have named : x.name ∈ names :=
    tallied.serving x (List.mem_of_getElem? at_d) (Dispatcher.served_of_active at_w active)
  have same : ∀ d', next.nameOf d' = r.nameOf d' := nameOf_set at_d advances.dispatchers advances.name
  have progress := advances.inProgress at_d at_w
  have length : next.site.log.length = r.site.log.length + begun.length := by rw [advances.log]; simp
  have since := tallied.since
  refine ⟨fun fine => ?_,by omega,fun v member served => ?_,fun b member => ?_⟩
  · obtain ⟨well,fine⟩ := advances.unfailed at_d at_w active named fine
    obtain ⟨n,total,covers⟩ := tallied.counted fine
    exact ⟨n + ended,by omega,advances.counted.covers well covers⟩
  · rw [advances.dispatchers] at member
    rcases List.mem_or_eq_of_mem_set member with old | rfl
    · exact tallied.serving v old served
    · exact (show (z.place w after).name = x.name from advances.name) ▸ named
  · rw [advances.log,List.drop_append_of_le_length since] at member
    rcases List.mem_append.mp member with old | new
    · obtain ⟨name,among,was⟩ := tallied.attributed b old
      exact ⟨name,among,(same b.1).trans was⟩
    · obtain ⟨op,-,rfl⟩ := List.mem_map.mp new
      exact ⟨x.name,named,(same d).trans (by rw [nameOf,at_d]; rfl)⟩

/-! ### What producers and dispatchers carry -/

theorem mem_inHand_place {stage : WorkerStage} {op : Operation} (member : op ∈ (x.place w stage).inHand) :
    op ∈ x.inHand ∨ stage.operation? = some op := by
  obtain ⟨v,at_v,has⟩ := List.mem_filterMap.mp member
  rcases mem_place at_v with old | new
  · exact .inl (List.mem_filterMap.mpr ⟨v,old,has⟩)
  · exact .inr (new ▸ has)

namespace Carries

variable {Q : Producer σ → Prop} {P : Operation → Prop}

theorem same (carries : Carries Q P r) (producers : next.producers = r.producers)
    (dispatchers : next.dispatchers = r.dispatchers) : Carries Q P next :=
  ⟨producers ▸ carries.producers,dispatchers ▸ carries.dispatchers⟩

theorem onDispatcher (carries : Carries Q P r) (d : Nat) {f : Dispatcher → Dispatcher}
    (keeps : ∀ x, (∀ op ∈ x.queue ++ x.inHand, P op) → ∀ op ∈ (f x).queue ++ (f x).inHand, P op) :
    Carries Q P (r.onDispatcher d f) := by
  refine ⟨carries.producers,fun y member => ?_⟩
  have member : y ∈ r.dispatchers.modify d f := member
  obtain ⟨i,inside,rfl⟩ := List.mem_iff_getElem.mp member
  have at_i : i < r.dispatchers.length := by simpa using inside
  have before := carries.dispatchers _ (List.getElem_mem at_i)
  rw [List.getElem_modify]
  split
  · exact keeps _ before
  · exact before

theorem placeProducer (carries : Carries Q P r) (i : Nat) {p : Producer σ} (good : Q p) :
    Carries Q P (r.placeProducer i p) := by
  have placed : Carries Q P { r with producers := r.producers.set i p } := by
    refine ⟨fun q member => ?_,carries.dispatchers⟩
    rcases List.mem_or_eq_of_mem_set member with old | rfl
    · exact carries.producers q old
    · exact good
  unfold Run.placeProducer
  simp only
  split
  · have left := placed.onDispatcher p.dispatcher (f := (·.giveUp i)) fun _ keeps => keeps
    exact left.same rfl rfl
  · exact placed

/-- An operation is accepted. -/
theorem accept (carries : Carries Q P r) (d i : Nat) {op : Operation} (good : P op) :
    Carries Q P (r.onDispatcher d (·.accept i op)) := by
  refine carries.onDispatcher d fun x keeps op' member => ?_
  simp only [Dispatcher.accept,List.append_assoc,List.mem_append,List.mem_singleton] at member
  rcases member with waits | rfl | held
  · exact keeps op' (List.mem_append_left _ waits)
  · exact good
  · exact keeps op' (List.mem_append_right _ held)

/-- A worker carries what it has, or takes what waits. -/
theorem worker (carries : Carries Q P r) (run : r.moveWorker d w = some next) : Carries Q P next := by
  obtain ⟨x,worker,z,after,begun,ended,at_d,at_w,-,advances⟩ := moveWorker_advances run
  have keeps := carries.dispatchers x (List.mem_of_getElem? at_d)
  refine ⟨advances.producers ▸ carries.producers,fun y member => ?_⟩
  rw [advances.dispatchers] at member
  rcases List.mem_or_eq_of_mem_set member with old | rfl
  · exact carries.dispatchers y old
  · intro op held
    rcases List.mem_append.mp held with waits | placed
    · exact keeps op (List.mem_append_left _ (advances.queue waits))
    · rcases mem_inHand_place placed with old | new
      · have same : z.inHand = x.inHand := by rw [Dispatcher.inHand,advances.workers]; rfl
        exact keeps op (List.mem_append_right _ (same ▸ old))
      · rcases advances.has op new with waited | held
        · exact keeps op (List.mem_append_left _ waited)
        · exact keeps op (List.mem_append_right _ (List.mem_filterMap.mpr ⟨worker,List.mem_of_getElem? at_w,held⟩))

end Carries

/-! ### Nothing but puts -/

namespace Putting

theorem same (putting : Putting r) (producers : next.producers = r.producers)
    (dispatchers : next.dispatchers = r.dispatchers) (counts : next.recorder.counts = r.recorder.counts) :
    Putting next :=
  ⟨producers ▸ putting.producers,dispatchers ▸ putting.dispatchers,counts ▸ putting.counted⟩

theorem carries (putting : Putting r) : Carries Producer.Loads (·.kind = .put) r :=
  ⟨putting.producers,putting.dispatchers⟩

theorem of_carries (putting : Putting r) (carries : Carries Producer.Loads (·.kind = .put) next)
    (counts : next.recorder.counts = r.recorder.counts) : Putting next :=
  ⟨carries.producers,carries.dispatchers,counts ▸ putting.counted⟩

theorem placeProducer (putting : Putting r) (i : Nat) {p : Producer σ} (loads : p.Loads) :
    Putting (r.placeProducer i p) :=
  putting.of_carries (putting.carries.placeProducer i loads) (placeProducer_rests r i p).counts

end Putting

theorem loads_inStage {p : Producer σ} (loads : p.Loads) {stage : ProducerStage}
    (ready : ∀ op, stage.operation? = some op → op.kind = .put) : (p.inStage stage).Loads := ⟨loads.work,ready⟩

section
variable [RandomSource σ]

theorem choose_loads {p q : Producer σ} (loads : p.Loads) (run : p.choose = some q) : q.Loads := by
  obtain ⟨keys,work⟩ := loads.work
  simp only [Producer.choose,work] at run
  cases run
  unfold Producer.drawing
  split
  · rename_i drawn source _
    obtain ⟨entry,rest⟩ := drawn
    cases entry with
    | some e => exact ⟨⟨rest,rfl⟩,fun op held => by cases held; rfl⟩
    | none => exact ⟨⟨rest,rfl⟩,fun op held => by cases held⟩
  · exact loads_inStage loads fun op held => by cases held

theorem beginStep_loads {p : Producer σ} (loads : p.Loads) {held : Option Operation}
    (puts : ∀ op, held = some op → op.kind = .put) : (p.beginStep held).Loads := by
  cases held with
  | some op =>
    exact loads_inStage loads fun op' ready => by
      cases ready
      exact puts op rfl
  | none =>
    obtain ⟨keys,work⟩ := loads.work
    simp only [Producer.beginStep,work]
    exact loads_inStage loads fun op ready => by cases ready

theorem proceed_loads {p : Producer σ} (loads : p.Loads) (subtree : Option Cursor) : (p.proceed subtree).Loads := by
  obtain ⟨keys,work⟩ := loads.work
  unfold Producer.proceed
  simp only
  split
  · rename_i activity
    cases work.symm.trans activity
  · exact ⟨loads.work,fun op ready => by cases ready⟩

theorem Putting.producer (putting : Putting r) (run : r.moveProducer i = some next) : Putting next := by
  obtain ⟨p,at_i,run⟩ := Option.bind_eq_some_iff.mp run
  obtain ⟨x,-,run⟩ := Option.bind_eq_some_iff.mp run
  have loads := putting.producers p (List.mem_of_getElem? at_i)
  have ends : Putting (r.placeProducer i (p.inStage .ended)) :=
    putting.placeProducer i (loads_inStage loads fun op ready => by cases ready)
  cases stage : p.stage with
  | delayed untilMs =>
    simp only [stage] at run
    split at run
    · cases run
      exact ends
    · split at run
      · cases run
        obtain ⟨keys,work⟩ := loads.work
        simp only [Producer.wake,work]
        exact putting.placeProducer i (loads_inStage loads fun op ready => by cases ready)
      · cases run
  | choosing =>
    simp only [stage] at run
    obtain ⟨q,chosen,rfl⟩ := Option.map_eq_some_iff.mp run
    exact putting.placeProducer i (choose_loads loads chosen)
  | pacing held =>
    simp only [stage] at run
    split at run
    · cases run
      exact ends
    · split at run
      · cases run
        have ticked : (p.tick r.nowMs).Loads := ⟨loads.work,loads.ready⟩
        exact putting.placeProducer i (beginStep_loads ticked fun op at_op => loads.ready op (by rw [stage,at_op]; rfl))
      · cases run
  | sending op subtree =>
    simp only [stage] at run
    unfold send at run
    split at run
    · cases run
      exact ends
    · split at run
      · cases run
        have accepted := putting.carries.accept p.dispatcher i (loads.ready op (by rw [stage]; rfl))
        exact Putting.placeProducer (putting.of_carries accepted rfl) i (proceed_loads loads subtree)
      · split at run
        · cases run
        · cases run
          exact putting.of_carries (putting.carries.onDispatcher p.dispatcher fun _ puts => puts) rfl
  | ended =>
    simp only [stage] at run
    cases run
  | broken f =>
    simp only [stage] at run
    cases run

theorem Putting.intervene (putting : Putting r) {i : Intervention} (unoffered : ∀ j op, i ≠ .offer j op) :
    Putting (r.intervene i) := by
  have on_producer (j : Nat) {f : Producer σ → Producer σ} (keeps : ∀ p, p.Loads → (f p).Loads) :
      Putting (r.onProducer j f) :=
    onProducer_elim Putting putting fun p at_j =>
      putting.placeProducer j (keeps p (putting.producers p (List.mem_of_getElem? at_j)))
  cases i with
  | offer j op => exact absurd rfl (unoffered j op)
  | urge j =>
    refine on_producer j fun p loads => ?_
    have allowed : Producer.Loads { p with allowance := some 1 } := ⟨loads.work,loads.ready⟩
    exact beginStep_loads allowed fun op none_held => by cases none_held
  | dismiss j => exact on_producer j fun p loads => loads_inStage loads fun op ready => by cases ready
  | _ => exact putting.same rfl rfl rfl

end

theorem Putting.worker (putting : Putting r) (run : r.moveWorker d w = some next) : Putting next := by
  have carries := putting.carries.worker run
  obtain ⟨x,worker,z,after,begun,ended,at_d,at_w,-,advances⟩ := moveWorker_advances run
  have in_hand {op : Operation} (held : worker.stage.operation? = some op) : op.kind = .put :=
    putting.dispatchers x (List.mem_of_getElem? at_d) op
      (List.mem_append_right _ (List.mem_filterMap.mpr ⟨worker,List.mem_of_getElem? at_w,held⟩))
  refine ⟨carries.producers,carries.dispatchers,?_⟩
  cases advances.counted with
  | nothing counts =>
    rw [counts]
    exact putting.counted
  | ended has counts =>
    rcases counts with success | failure
    · rw [success,in_hand (operation_of_running has),Counts.succeed_calls,putting.counted]
      rfl
    · rw [failure]
      exact putting.counted
  | fault failed counts =>
    rw [counts]
    exact putting.counted

end Run

end Keyload
