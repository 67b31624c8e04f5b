import Mathlib.Data.List.Count
import Keyload.Proofs.Run.Conservation
import Keyload.Proofs.Run.WorkerMoves

/-!
Which worker has which operation of a dispatcher. A roster notes, turn by turn, what was accepted and what each worker
took, finished and dropped. Through every order of steps, also in a run that is told to end, all of it is in balance
with the queue and the workers, and a worker that drops an operation has ended with that.
-/
namespace Keyload

/-- What has become of the operations of a dispatcher, with the place of the worker that had each. -/
structure Roster where
  accepted : List Operation
  taken : List (Nat × Operation)
  finished : List (Nat × Operation)
  dropped : List (Nat × Operation)

namespace Roster

/-- Nothing has happened. -/
def empty : Roster := ⟨[],[],[],[]⟩

/-- Go on with what was noted of a turn of worker `w`. -/
def add (b : Roster) (w : Nat) (l : Ledger) : Roster where
  accepted := b.accepted ++ l.accepted
  taken := b.taken ++ l.taken.map (w,·)
  finished := b.finished ++ l.finished.map (w,·)
  dropped := b.dropped ++ l.dropped.map (w,·)

instance : Append Roster where
  append a b := ⟨a.accepted ++ b.accepted,a.taken ++ b.taken,a.finished ++ b.finished,a.dropped ++ b.dropped⟩

@[simp] theorem append_accepted (a b : Roster) : (a ++ b).accepted = a.accepted ++ b.accepted := rfl

@[simp] theorem append_taken (a b : Roster) : (a ++ b).taken = a.taken ++ b.taken := rfl

@[simp] theorem append_finished (a b : Roster) : (a ++ b).finished = a.finished ++ b.finished := rfl

@[simp] theorem append_dropped (a b : Roster) : (a ++ b).dropped = a.dropped ++ b.dropped := rfl

@[simp] theorem empty_append (a : Roster) : empty ++ a = a := rfl

theorem append_assoc (a b c : Roster) : a ++ b ++ c = a ++ (b ++ c) := by
  cases a
  exact (mk.injEq ..).mpr ⟨List.append_assoc ..,List.append_assoc ..,List.append_assoc ..,List.append_assoc ..⟩

theorem append_empty (a : Roster) : a ++ empty = a := by
  cases a
  exact (mk.injEq ..).mpr ⟨List.append_nil _,List.append_nil _,List.append_nil _,List.append_nil _⟩

theorem append_add (a b : Roster) (w : Nat) (l : Ledger) : a ++ b.add w l = (a ++ b).add w l := by
  simp only [add,append_accepted,append_taken,append_finished,append_dropped,List.append_assoc]
  rfl

end Roster

/-- The place of the worker whose turn it is. -/
def Event.worker : Event → Nat
  | .turn (.worker _ w) => w
  | _ => 0

namespace Dispatcher

/-- The operations that workers have, with their places. -/
def hands (x : Dispatcher) : List (Nat × Operation) :=
  x.workers.zipIdx.filterMap fun p => p.1.stage.operation?.map (p.2,·)

section
variable {α β : Type} (f : α → Option β) (l : List α)

theorem picked_concat (a : α) : ((l ++ [a]).zipIdx.filterMap fun p => (f p.1).map (p.2,·)) =
    (l.zipIdx.filterMap fun p => (f p.1).map (p.2,·)) ++ (f a).toList.map (l.length,·) := by
  rw [List.zipIdx_append,List.filterMap_append]
  cases picked : f a <;> simp [picked]

/-- Among what is picked from a list, with the places, each entry comes once. -/
theorem count_picked [DecidableEq β] (i : Nat) (b : β) :
    (l.zipIdx.filterMap fun p => (f p.1).map (p.2,·)).count (i,b) = if l[i]?.bind f = some b then 1 else 0 := by
  induction l using List.reverseRecOn with
  | nil => simp
  | append_singleton l a ih =>
    rw [picked_concat,List.count_append,ih]
    rcases Nat.lt_trichotomy i l.length with before | rfl | after
    · rw [List.getElem?_append_left before]
      cases f a <;> simp [Nat.ne_of_gt before]
    · cases picked : f a <;> simp [picked,List.count_singleton]
    · have beyond : (l ++ [a])[i]? = none := by simp; omega
      have none_yet : l[i]? = none := by simp; omega
      cases f a <;> simp [beyond,none_yet,Nat.ne_of_lt after]

theorem map_snd_picked : (l.zipIdx.filterMap fun p => (f p.1).map (p.2,·)).map Prod.snd = l.filterMap f := by
  induction l using List.reverseRecOn with
  | nil => rfl
  | append_singleton l a ih =>
    rw [picked_concat,List.map_append,ih,List.filterMap_append]
    cases picked : f a <;> simp [picked]

theorem nodup_picked : ((l.zipIdx.filterMap fun p => (f p.1).map (p.2,·)).map Prod.fst).Nodup := by
  have part : ∀ places : List (α × Nat),
      ((places.filterMap fun p => (f p.1).map (p.2,·)).map Prod.fst).Sublist (places.map Prod.snd) := by
    intro places
    induction places with
    | nil => exact .slnil
    | cons place places ih =>
      obtain ⟨a,i⟩ := place
      cases picked : f a with
      | none => simpa [picked] using ih.cons i
      | some b => simpa [picked] using ih.cons_cons i
  refine (part l.zipIdx).nodup ?_
  rw [List.zipIdx_map_snd]
  exact List.nodup_range'

end

variable {x y : Dispatcher}

theorem hands_map (x : Dispatcher) : x.hands.map Prod.snd = x.inHand :=
  map_snd_picked (fun v : Worker => v.stage.operation?) x.workers

/-- A worker has one operation at most. -/
theorem hands_nodup (x : Dispatcher) : (x.hands.map Prod.fst).Nodup :=
  nodup_picked (fun v : Worker => v.stage.operation?) x.workers

theorem count_hands (x : Dispatcher) (w : Nat) (op : Operation) :
    x.hands.count (w,op) = if x.workers[w]?.bind (·.stage.operation?) = some op then 1 else 0 :=
  count_picked (fun v : Worker => v.stage.operation?) x.workers w op

theorem hands_of_workers (workers : y.workers = x.workers) : y.hands = x.hands := by rw [hands,workers]; rfl

/-- The operation of a worker is begun or not. -/
theorem inHand_perm (x : Dispatcher) : x.inHand.Perm (x.running ++ x.pending) := by
  unfold inHand running pending
  induction x.workers with
  | nil => rfl
  | cons v rest ih =>
    obtain ⟨client,stage⟩ := v
    cases stage with
    | claiming op => exact (ih.cons op).trans List.perm_middle.symm
    | renewing op sinceMs untilMs a => exact (ih.cons op).trans List.perm_middle.symm
    | executing op sinceMs untilMs a => exact ih.cons op
    | waiting => exact ih
    | ended failure => exact ih

/-- A worker goes to another stage, and what it has changes for what it had. -/
theorem hands_place {w : Nat} {v : Worker} (at_w : x.workers[w]? = some v) (after : WorkerStage)
    {taken given : List Operation} (turn : v.stage.operation?.toList ++ taken = given ++ after.operation?.toList) :
    (x.hands ++ taken.map (w,·)).Perm (given.map (w,·) ++ (x.place w after).hands) := by
  refine List.perm_iff_count.mpr fun (i,op) => ?_
  have workers : (x.place w after).workers[i]? = if i = w then some { v with stage := after } else x.workers[i]? := by
    show (x.workers.modify w _)[i]? = _
    by_cases here : i = w
    · subst here
      simp [at_w]
    · simp [here,Ne.symm here]
  rw [List.count_append,List.count_append,count_hands,count_hands,workers]
  by_cases here : i = w
  · subst here
    have counts := congrArg (List.count op) turn
    rw [List.count_append,List.count_append] at counts
    have mapped (ops : List Operation) : (ops.map (i,·)).count (i,op) = ops.count op :=
      List.count_map_of_injective _ _ (fun _ _ same => (Prod.mk.inj same).2) _
    have one (o : Option Operation) : (if o = some op then 1 else 0) = o.toList.count op := by
      cases o <;> simp [List.count_singleton]
    rw [if_pos rfl,mapped,mapped,at_w,Option.bind_some,Option.bind_some,one,one]
    exact counts
  · have elsewhere (ops : List Operation) : (ops.map (w,·)).count (i,op) = 0 := by
      refine List.count_eq_zero.mpr fun member => ?_
      obtain ⟨_,-,same⟩ := List.mem_map.mp member
      exact here (Prod.mk.inj same).1.symm
    rw [if_neg here,elsewhere,elsewhere]
    omega

end Dispatcher

/-! ### The turn of a worker -/

/-- What is noted of the turn of a worker, by its stages before and after. -/
def turnLedger (before after : WorkerStage) : Ledger := Ledger.empty.noteStages (some before) (some after)

/-- How a worker gets from one stage to another in its turn: it takes and begins these operations. -/
structure Passage (before after : WorkerStage) (taken begun : List Operation) : Prop where
  accepted : (turnLedger before after).accepted = []
  takes : (turnLedger before after).taken = taken
  hands : before.operation?.toList ++ taken =
    (turnLedger before after).finished ++ (turnLedger before after).dropped ++ after.operation?.toList
  carried : before.running?.toList ++ begun = (turnLedger before after).finished ++ after.running?.toList
  active : ∀ e, before ≠ .ended e
  dropped : (turnLedger before after).dropped ≠ [] → before.running? = none ∧ ∃ e, after = .ended (some e)
  few : (turnLedger before after).dropped.length ≤ 1

namespace Passage

variable {op : Operation} {stage after : WorkerStage}

theorem quit : Passage .waiting (.ended none) [] [] := by
  constructor <;> simp [turnLedger,Ledger.noteStages,Ledger.empty,WorkerStage.operation?,WorkerStage.pending?,
    WorkerStage.running?]

theorem take (op : Operation) : Passage .waiting (.claiming op) [op] [] := by
  constructor <;> simp [turnLedger,Ledger.noteStages,Ledger.empty,WorkerStage.operation?,WorkerStage.pending?,
    WorkerStage.running?]

/-- A worker that has an operation and has not begun it makes sure of its client. -/
theorem go_on (op : Operation) (still : after.pending? = some op) : Passage (.claiming op) after [] [] := by
  cases after with
  | claiming _ | renewing _ _ _ _ =>
    cases still
    constructor <;> simp [turnLedger,Ledger.noteStages,Ledger.empty,WorkerStage.operation?,WorkerStage.pending?,
      WorkerStage.running?]
  | _ => cases still

theorem begins (has : stage.pending? = some op) (begun : after.running? = some op) : Passage stage after [] [op] := by
  obtain ⟨_,_,_,rfl⟩ := Run.running_cases begun
  cases stage with
  | claiming _ | renewing _ _ _ _ =>
    cases has
    constructor <;> simp [turnLedger,Ledger.noteStages,Ledger.empty,WorkerStage.operation?,WorkerStage.pending?,
      WorkerStage.running?]
  | _ => cases has

theorem loses (has : stage.pending? = some op) (e : RunError) : Passage stage (.ended (some e)) [] [] := by
  cases stage with
  | claiming _ | renewing _ _ _ _ =>
    constructor <;> simp [turnLedger,Ledger.noteStages,Ledger.empty,WorkerStage.operation?,WorkerStage.pending?,
      WorkerStage.running?]
  | _ => cases has

theorem finishes (has : stage.running? = some op) (rests : after = .waiting ∨ ∃ failure, after = .ended failure) :
    Passage stage after [] [] := by
  obtain ⟨_,_,_,rfl⟩ := Run.running_cases has
  rcases rests with rfl | ⟨failure,rfl⟩ <;> constructor <;> simp [turnLedger,Ledger.noteStages,Ledger.empty,
    WorkerStage.operation?,WorkerStage.pending?,WorkerStage.running?]

end Passage

namespace Run

variable {σ : Type} {r next : Run σ} {d w : Nat} {x y : Dispatcher} {v : Worker}

/-- What the turn of worker `w`, which is `v`, comes to: it goes to the stage `after`, its dispatcher `x` becomes `y`,
and it takes and begins some operations. -/
structure Passes (r next : Run σ) (d w : Nat) (x y : Dispatcher) (v : Worker) (after : WorkerStage)
    (taken begun : List Operation) : Prop extends Passage v.stage after taken begun where
  dispatchers : next.dispatchers = r.dispatchers.set d y
  workers : y.workers = (x.place w after).workers
  log : next.site.log = r.site.log ++ begun.map fun op => (d,op)
  queue : x.queue = taken ++ y.queue
  told : r.stopped = true → taken = []

/-- A worker that is told to end takes no operation. -/
theorem waiting_quits (at_d : r.dispatchers[d]? = some x) (at_w : x.workers[w]? = some v) (waits : v.stage = .waiting)
    (told : r.stopped = true) : r.moveWorker d w = some (r.retire d w none) := by
  simp [moveWorker,at_d,at_w,waits,told]

theorem moveWorker_passes (run : r.moveWorker d w = some next) : ∃ x v y after taken begun,
    r.dispatchers[d]? = some x ∧ x.workers[w]? = some v ∧ Passes r next d w x y v after taken begun := by
  obtain ⟨x,v,at_d,at_w,turn⟩ := moveWorker_turn run
  obtain ⟨i,stage⟩ := v
  have silent {t : Site} (log : t.log = r.site.log) :
      t.log = r.site.log ++ ([] : List Operation).map fun op => (d,op) := log.trans (List.append_nil _).symm
  cases turn with
  | quit idle turned =>
    exact ⟨x,_,_,_,_,_,at_d,at_w,.quit,turned.dispatchers,rfl,turned.log,rfl,fun _ => rfl⟩
  | @take op queue oldest turned first =>
    refine ⟨x,_,_,_,_,_,at_d,at_w,.take op,turned.dispatchers,rfl,turned.log,oldest,fun told => ?_⟩
    -- told to end, the worker would have quit
    have quits := run.symm.trans (waiting_quits at_d at_w rfl told)
    have at_y : next.dispatchers[d]? = some ({ x with queue, turns := x.turns.tail }.place w (.claiming op)) := by
      rw [turned.dispatchers]
      exact List.getElem?_set_self (List.getElem?_eq_some_iff.mp at_d).1
    have claims := stageOf_at at_y (placed_worker at_w (.claiming op))
    rw [Option.some.inj quits] at claims
    simp [stageOf,retire,onDispatcher,Dispatcher.retire,Dispatcher.place,at_d,at_w] at claims
  | @enter op turned =>
    exact ⟨x,_,_,_,_,_,at_d,at_w,.go_on op rfl,turned.dispatchers,by rw [place_same at_w],turned.log,rfl,fun _ => rfl⟩
  | @renew op sinceMs untilMs a turned =>
    exact ⟨x,_,_,_,_,_,at_d,at_w,.go_on op rfl,turned.dispatchers,rfl,turned.log,rfl,fun _ => rfl⟩
  | begin has turned =>
    exact ⟨x,_,_,_,_,_,at_d,at_w,.begins has rfl,turned.dispatchers,rfl,turned.log,rfl,fun _ => rfl⟩
  | crash has turned =>
    exact ⟨x,_,_,_,_,_,at_d,at_w,.loses has _,turned.dispatchers,rfl,turned.log,rfl,fun _ => rfl⟩
  | disconnect stops has dispatchers course producers log counts =>
    exact ⟨x,_,_,_,_,_,at_d,at_w,.loses has _,dispatchers,rfl,silent log,rfl,fun _ => rfl⟩
  | finish has dispatchers producers log stopped course counted =>
    exact ⟨x,_,_,_,_,_,at_d,at_w,.finishes has (.inl rfl),dispatchers,rfl,silent log,rfl,fun _ => rfl⟩
  | fault has dispatchers producers log stopped course answered uncounted =>
    exact ⟨x,_,_,_,_,_,at_d,at_w,.finishes has (.inr ⟨_,rfl⟩),dispatchers,rfl,silent log,rfl,fun _ => rfl⟩

/-! ### What a step adds -/

/-- What a step comes to for dispatcher `d`, which was `x` and is `y`, with what it adds to a roster and what it
begins. -/
structure Shift (d : Nat) (r next : Run σ) (x y : Dispatcher) (w : Nat) (l : Ledger) (begun : List Operation) :
    Prop where
  at_d : next.dispatchers[d]? = some y
  since : next.site.begunBy d = r.site.begunBy d ++ begun
  queue : x.queue ++ l.accepted = l.taken ++ y.queue
  hands : (x.hands ++ l.taken.map (w,·)).Perm (l.finished.map (w,·) ++ y.hands ++ l.dropped.map (w,·))
  carried : (x.running ++ begun).Perm (l.finished ++ y.running)
  stays : ∀ (u : Nat) (v : Worker), x.workers[u]? = some v → v.hasEnded = true → y.workers[u]? = some v
  /-- Who drops an operation ends with that. -/
  ends : l.dropped ≠ [] → (∃ v : Worker, x.workers[w]? = some v ∧ v.hasEnded = false) ∧
    ∃ (v : Worker) (e : RunError), y.workers[w]? = some v ∧ v.stage = .ended (some e)
  few : l.dropped.length ≤ 1
  /-- A run that is told to end accepts nothing and hands nothing out. -/
  told : r.stopped = true → l.accepted = [] ∧ l.taken = []

variable {l : Ledger}

theorem Quiet.shift (quiet : Quiet d r next) (at_d : r.dispatchers[d]? = some x) (w : Nat) :
    ∃ y, Shift d r next x y w .empty [] := by
  obtain ⟨y,at_y,queue,workers,-⟩ := quiet.dispatcher x at_d
  have running : y.running = x.running := by rw [Dispatcher.running,workers]; rfl
  refine ⟨y,at_y,quiet.begun.trans (List.append_nil _).symm,?_,?_,?_,fun u v at_u _ => workers ▸ at_u,
    fun some => absurd rfl some,Nat.zero_le _,fun _ => ⟨rfl,rfl⟩⟩
  · rw [queue]
    exact List.append_nil _
  · rw [Dispatcher.hands_of_workers workers]
    simp [Ledger.empty]
  · rw [running]
    simp [Ledger.empty]

/-- The turn of a worker of the dispatcher itself. -/
theorem Passes.shift {after : WorkerStage} {taken begun : List Operation}
    (passes : Passes r next d w x y v after taken begun) (at_d : r.dispatchers[d]? = some x)
    (at_w : x.workers[w]? = some v) : Shift d r next x y w (note d r (.turn (.worker d w)) next .empty) begun := by
  have at_y : next.dispatchers[d]? = some y := by
    rw [passes.dispatchers]
    exact List.getElem?_set_self (List.getElem?_eq_some_iff.mp at_d).1
  have worker_at : y.workers[w]? = some { v with stage := after } := by
    rw [passes.workers]
    exact placed_worker at_w after
  have noted : note d r (.turn (.worker d w)) next .empty = (turnLedger v.stage after).noteCounts r.recorder
      next.recorder := by
    rw [note,if_pos rfl,stageOf_at at_d at_w,stageOf_at at_y worker_at,turnLedger]
  have running : y.running = (x.place w after).running := by rw [Dispatcher.running,passes.workers]; rfl
  have active : v.hasEnded = false := Worker.hasEnded_of_active passes.active
  rw [noted]
  refine ⟨at_y,begunBy_append passes.log,?_,?_,?_,fun u v' at_u ended => ?_,fun some => ?_,passes.few,fun told => ?_⟩
  · show x.queue ++ (turnLedger v.stage after).accepted = (turnLedger v.stage after).taken ++ y.queue
    rw [passes.accepted,passes.takes,List.append_nil]
    exact passes.queue
  · show (x.hands ++ (turnLedger v.stage after).taken.map (w,·)).Perm ((turnLedger v.stage after).finished.map (w,·) ++
      y.hands ++ (turnLedger v.stage after).dropped.map (w,·))
    have placed := Dispatcher.hands_place at_w after passes.hands
    rw [List.map_append,List.append_assoc] at placed
    rw [passes.takes,Dispatcher.hands_of_workers passes.workers,List.append_assoc]
    exact placed.trans (List.perm_append_comm.append_left _)
  · have moved := (Dispatcher.place_moved at_w after).filterMap WorkerStage.running?
    rw [running]
    refine List.perm_iff_count.mpr fun op => ?_
    have was := List.perm_iff_count.mp moved.1 op
    have is := List.perm_iff_count.mp moved.2 op
    have has := congrArg (List.count op) passes.carried
    show (x.running ++ begun).count op = ((turnLedger v.stage after).finished ++ (x.place w after).running).count op
    simp only [Dispatcher.running,List.count_append] at *
    omega
  · rw [passes.workers]
    by_cases here : u = w
    · subst here
      cases at_w.symm.trans at_u
      rw [active] at ended
      cases ended
    · show (x.workers.modify w _)[u]? = _
      rw [List.getElem?_modify_ne _ _ (Ne.symm here)]
      exact at_u
  · obtain ⟨-,e,fails⟩ := passes.dropped some
    exact ⟨⟨v,at_w,active⟩,_,e,worker_at,fails⟩
  · exact ⟨passes.accepted,passes.takes.trans (passes.told told)⟩

/-- The turn of a worker of another dispatcher. -/
theorem Passes.quiet {d' : Nat} {after : WorkerStage} {taken begun : List Operation}
    (passes : Passes r next d' w x y v after taken begun) (other : d' ≠ d) : Quiet d r next := by
  refine ⟨fun x at_d => ⟨x,?_,rfl,rfl,rfl⟩,?_⟩
  · rw [passes.dispatchers,List.getElem?_set_ne other]
    exact at_d
  · rw [Site.begunBy,Site.begunBy,passes.log,List.filter_append,List.map_append]
    simp [other]

section
variable [RandomSource σ]

private theorem ProducerTurn.shift {i : Nat} {p : Producer σ} (turn : ProducerTurn r next i p)
    (at_i : r.producers[i]? = some p) (at_d : r.dispatchers[d]? = some x) (w : Nat) :
    ∃ y, Shift d r next x y w (note d r (.turn (.producer i)) next .empty) [] := by
  have inside := (List.getElem?_eq_some_iff.mp at_i).1
  cases turn with
  | @send op subtree x' stage at_x told served room after =>
    have at_q : next.producers[i]? = some (p.proceed subtree) := by
      rw [after,placeProducer_producers]
      exact List.getElem?_set_self inside
    by_cases mine : p.dispatcher = d
    · subst mine
      cases at_x.symm.trans at_d
      rw [note_sent at_i at_q stage rfl (proceed_sent p subtree)]
      have at_accept : (r.onDispatcher p.dispatcher (·.accept i op)).dispatchers[p.dispatcher]? =
          some (x.accept i op) := by
        show (r.dispatchers.modify p.dispatcher _)[p.dispatcher]? = _
        rw [List.getElem?_modify,at_d]
        simp
      obtain ⟨y,at_y,queue,workers,-⟩ := (placeProducer_quiet _ i (p.proceed subtree)).dispatcher _ at_accept
      have begun := (placeProducer_quiet (d := p.dispatcher) (r.onDispatcher p.dispatcher (·.accept i op)) i
        (p.proceed subtree)).begun
      have running : y.running = x.running := by rw [Dispatcher.running,workers]; rfl
      rw [← after] at at_y begun
      refine ⟨y,at_y,begun.trans (List.append_nil _).symm,queue.symm,?_,?_,fun u v at_u _ => workers ▸ at_u,
        fun some => absurd rfl some,Nat.zero_le _,fun ends => ?_⟩
      · rw [Dispatcher.hands_of_workers (x := x) workers]
        simp [Ledger.empty]
      · rw [running]
        simp [Ledger.empty]
      · rw [told] at ends
        cases ends
    · have noted : note d r (.turn (.producer i)) next .empty = .empty := by
        simp only [note,Ledger.noteProducer,at_i,at_q,stage]
        rw [if_neg fun h => mine h.1]
      have quiet : Quiet d r (r.onDispatcher p.dispatcher (·.accept i op)) := by
        refine ⟨fun x at_d => ⟨x,?_,rfl,rfl,rfl⟩,rfl⟩
        show (r.dispatchers.modify p.dispatcher _)[d]? = _
        rw [List.getElem?_modify,at_d]
        simp [mine]
      rw [noted,after]
      exact (quiet.trans (placeProducer_quiet _ i _)).shift at_d w
  | @place q sent after =>
    have at_q : next.producers[i]? = some q := by
      rw [after,placeProducer_producers]
      exact List.getElem?_set_self inside
    rw [note_unsent at_i at_q sent,after]
    exact (placeProducer_quiet r i q).shift at_d w
  | enlist after =>
    rw [note_unsent at_i (by rw [after]; exact at_i) rfl,after]
    exact (onDispatcher_quiet r p.dispatcher fun x => enlist_alike x i).shift at_d w

/-- Every step comes to something for a dispatcher, whoever takes it. -/
theorem step_shift {e : Event} (run : r.step e = some next) (at_d : r.dispatchers[d]? = some x) :
    ∃ y begun, Shift d r next x y e.worker (note d r e next .empty) begun := by
  have quietly (quiet : Quiet d r next) (noted : note d r e next .empty = .empty) :
      ∃ y begun, Shift d r next x y e.worker (note d r e next .empty) begun := by
    obtain ⟨y,shift⟩ := quiet.shift at_d e.worker
    rw [noted]
    exact ⟨y,[],shift⟩
  cases e with
  | turn p =>
    cases p with
    | main => exact quietly (moveMain_extends run).quiet rfl
    | producer i =>
      obtain ⟨p,at_i,turn⟩ := moveProducer_turn run
      obtain ⟨y,shift⟩ := turn.shift at_i at_d 0
      exact ⟨y,[],shift⟩
    | worker d' w =>
      obtain ⟨x',v,y,after,taken,begun,at_d',at_w,passes⟩ := moveWorker_passes run
      by_cases mine : d' = d
      · subst mine
        cases at_d'.symm.trans at_d
        exact ⟨y,begun,passes.shift at_d at_w⟩
      · exact quietly (passes.quiet mine) (by rw [note,if_neg mine])
    | watcher i =>
      have aside := moveWatcher_aside run
      exact quietly (quiet_of_same aside.dispatchers aside.begun) rfl
    | reporter i =>
      have aside := moveReporter_aside run
      exact quietly (quiet_of_same aside.dispatchers aside.begun) rfl
  | outside i =>
    cases run
    exact quietly (intervene_quiet r i) rfl
  | pass ms =>
    cases run
    exact quietly (quiet_of_same rfl rfl) rfl

end

end Run

/-! ### Whole runs -/

/-- A roster agrees with a dispatcher that was `first` and is `x`, and with what was begun meanwhile. -/
structure Roster.Agrees (first : Dispatcher) (b : Roster) (x : Dispatcher) (begun : List Operation) : Prop where
  /-- The queue is served in order. -/
  queue : first.queue ++ b.accepted = b.taken.map Prod.snd ++ x.queue
  hands : (first.hands ++ b.taken).Perm (b.finished ++ x.hands ++ b.dropped)
  carried : (first.running ++ begun).Perm (b.finished.map Prod.snd ++ x.running)
  /-- Who has dropped an operation has ended with that. -/
  gone : ∀ p ∈ b.dropped, ∃ (v : Worker) (e : RunError), x.workers[p.1]? = some v ∧ v.stage = .ended (some e)
  once : (b.dropped.map Prod.fst).Nodup

namespace Roster.Agrees

variable {σ : Type} {first x y : Dispatcher} {b : Roster} {begun more : List Operation} {r next : Run σ} {d w : Nat}
  {l : Ledger}

theorem start (first : Dispatcher) : Agrees first .empty first [] := by
  refine ⟨List.append_nil _,?_,?_,fun _ member => (nomatch member),.nil⟩
  · simp [Roster.empty]
  · simp [Roster.empty]

theorem shift (agrees : Agrees first b x begun) (shift : Run.Shift d r next x y w l more) :
    Agrees first (b.add w l) y (begun ++ more) := by
  have stays {p : Nat × Operation} (member : p ∈ b.dropped) :
      ∃ (v : Worker) (e : RunError), y.workers[p.1]? = some v ∧ v.stage = .ended (some e) := by
    obtain ⟨v,e,at_u,stage⟩ := agrees.gone p member
    exact ⟨v,e,shift.stays _ v at_u (Worker.hasEnded_iff.mpr ⟨_,stage⟩),stage⟩
  refine ⟨?_,?_,?_,fun p member => ?_,?_⟩
  · simp only [add,List.map_append,List.map_map,Function.comp_def,List.map_id']
    rw [← List.append_assoc,agrees.queue,List.append_assoc,shift.queue,List.append_assoc]
  · refine List.perm_iff_count.mpr fun a => ?_
    have was := List.perm_iff_count.mp agrees.hands a
    have has := List.perm_iff_count.mp shift.hands a
    simp only [add,List.count_append] at *
    omega
  · refine List.perm_iff_count.mpr fun op => ?_
    have was := List.perm_iff_count.mp agrees.carried op
    have has := List.perm_iff_count.mp shift.carried op
    simp only [add,List.map_append,List.map_map,Function.comp_def,List.map_id',List.count_append] at *
    omega
  · rcases List.mem_append.mp member with old | new
    · exact stays old
    · obtain ⟨op,dropped,rfl⟩ := List.mem_map.mp new
      exact (shift.ends (List.ne_nil_of_mem dropped)).2
  · simp only [add,List.map_append,List.map_map,Function.comp_def,List.map_const']
    refine List.nodup_append.mpr ⟨agrees.once,?_,?_⟩
    · have few := shift.few
      refine List.nodup_replicate.mpr few
    · rintro u earlier u' now rfl
      obtain ⟨some,rfl⟩ := List.mem_replicate.mp now
      -- who has dropped one before has ended, and drops no other
      obtain ⟨⟨v,at_w,active⟩,-⟩ := shift.ends fun nothing => some (by rw [nothing]; rfl)
      obtain ⟨p,member,same⟩ := List.mem_map.mp earlier
      obtain ⟨v',e,at_w',stage⟩ := agrees.gone p member
      rw [same] at at_w'
      cases at_w.symm.trans at_w'
      rw [Worker.hasEnded_iff.mpr ⟨_,stage⟩] at active
      cases active

end Roster.Agrees

namespace Run

variable {σ : Type} [RandomSource σ] {r s next : Run σ} {d : Nat} {first : Dispatcher} {events more : List Event}

/-- What becomes of the operations of dispatcher `d` in these steps. -/
def roster (d : Nat) (r : Run σ) : List Event → Roster
  | [] => .empty
  | e :: events =>
    match r.step e with
    | some next => Roster.empty.add e.worker (note d r e next .empty) ++ next.roster d events
    | none => .empty

theorem roster_cons {e : Event} (run : r.step e = some next) (events : List Event) :
    r.roster d (e :: events) = Roster.empty.add e.worker (note d r e next .empty) ++ next.roster d events := by
  rw [roster,run]

theorem roster_append (run : r.steps events = some s) (more : List Event) :
    r.roster d (events ++ more) = r.roster d events ++ s.roster d more := by
  induction events generalizing r with
  | nil =>
    cases run
    exact (Roster.empty_append _).symm
  | cons e events ih =>
    rw [steps_cons] at run
    obtain ⟨next,step,run⟩ := Option.bind_eq_some_iff.mp run
    rw [List.cons_append,roster_cons step,roster_cons step,ih run,Roster.append_assoc]

theorem roster_concat {e : Event} (run : r.steps events = some s) (step : s.step e = some next) :
    r.roster d (events ++ [e]) = (r.roster d events).add e.worker (note d s e next .empty) := by
  rw [roster_append run,roster_cons step,roster,Roster.append_empty,Roster.append_add,Roster.append_empty]

/-- Through every order of steps the roster of a dispatcher agrees with its queue and its workers. -/
theorem roster_agrees (at_d : r.dispatchers[d]? = some first) (run : r.steps events = some s) :
    ∃ x begun, s.dispatchers[d]? = some x ∧ s.site.begunBy d = r.site.begunBy d ++ begun ∧
      (r.roster d events).Agrees first x begun := by
  refine steps_induction (fun events s => ∃ x begun, s.dispatchers[d]? = some x ∧
    s.site.begunBy d = r.site.begunBy d ++ begun ∧ (r.roster d events).Agrees first x begun)
    ⟨first,[],at_d,(List.append_nil _).symm,.start first⟩ ?_ run
  rintro events s e next earlier ⟨x,begun,at_x,since,agrees⟩ step
  obtain ⟨y,more,shift⟩ := step_shift step at_x
  refine ⟨y,begun ++ more,shift.at_d,?_,?_⟩
  · rw [shift.since,since,List.append_assoc]
  · rw [roster_concat earlier step]
    exact agrees.shift shift

/-- A run that is told to end accepts no operation and hands none out. -/
theorem roster_told (at_d : r.dispatchers[d]? = some first) (told : r.stopped = true) (run : r.steps events = some s) :
    (r.roster d events).accepted = [] ∧ (r.roster d events).taken = [] := by
  refine (steps_induction (fun events s => s.stopped = true ∧ (∃ x, s.dispatchers[d]? = some x) ∧
    (r.roster d events).accepted = [] ∧ (r.roster d events).taken = []) ⟨told,⟨first,at_d⟩,rfl,rfl⟩ ?_ run).2.2
  rintro events s e next earlier ⟨told,⟨x,at_x⟩,accepted,taken⟩ step
  obtain ⟨y,more,shift⟩ := step_shift step at_x
  obtain ⟨nothing,none_taken⟩ := shift.told told
  rw [roster_concat earlier step]
  refine ⟨step_stopped step told,⟨y,shift.at_d⟩,?_,?_⟩
  · rw [Roster.add,accepted,nothing]
    rfl
  · rw [Roster.add,taken,none_taken]
    rfl

end Run

end Keyload
