import Keyload.Proofs.Run.Deeds

/-!
What a join tells. A dispatcher that is joined with an error has a worker that failed with it, and a worker that has
failed did so in a turn of its own. So what the main task ends with after everything was joined comes from a worker,
unless a background task broke.
-/
namespace Keyload

theorem Dispatcher.joined_error {x : Dispatcher} {e : RunError} (joined : x.joined? = some (.error e)) :
    ∃ (w : Nat) (v : Worker), x.workers[w]? = some v ∧ v.stage = .ended (some e) := by
  unfold joined? at joined
  split at joined
  · cases joined
  · split at joined
    · rename_i e' failed
      cases joined
      obtain ⟨v,member,failure⟩ := List.exists_of_findSome?_eq_some failed
      obtain ⟨w,at_w⟩ := List.mem_iff_getElem?.mp member
      refine ⟨w,v,at_w,?_⟩
      unfold Worker.failure? at failure
      split at failure
      · rename_i stage
        rw [stage,failure]
      · cases failure
    · cases joined

namespace Run

variable {σ : Type} {r next : Run σ} {c : Course σ} {ks : KeySpace} {d w d' w' : Nat} {x z : Dispatcher} {v : Worker}
  {e : RunError} {stage after : WorkerStage}

/-! ### Errors of joins -/

theorem producersEnded_error {ps : List Nat} (ended : r.producersEnded? ps = some (.error e)) : e = .taskFailed := by
  induction ps with
  | nil => cases ended
  | cons i ps ih =>
    unfold producersEnded? at ended
    split at ended
    · exact ih ended
    · split at ended
      · cases ended
        rfl
      · split at ended
        · exact ih ended
        · cases ended

theorem dispatchersJoined_error {ds : List Nat} (joined : r.dispatchersJoined? ds = some (.error e)) :
    ∃ d ∈ ds, ∃ w, r.stageOf d w = some (.ended (some e)) := by
  induction ds with
  | nil => cases joined
  | cons d ds ih =>
    rw [dispatchersJoined?] at joined
    obtain ⟨one,at_one,joined⟩ := Option.bind_eq_some_iff.mp joined
    obtain ⟨others,at_others,joined⟩ := Option.bind_eq_some_iff.mp joined
    cases one with
    | error e' =>
      cases joined
      cases at_d : r.dispatchers[d]? with
      | none =>
        rw [at_d] at at_one
        cases at_one
      | some x =>
        rw [at_d] at at_one
        obtain ⟨w,v,at_w,failed⟩ := Dispatcher.joined_error at_one
        exact ⟨d,List.mem_cons_self,w,by rw [stageOf_at at_d at_w,failed]⟩
    | ok _ =>
      cases joined
      obtain ⟨d',member,failed⟩ := ih at_others
      exact ⟨d',List.mem_cons_of_mem d member,failed⟩

/-- Everything has wound down with an error of a worker, or of a task that broke. -/
theorem woundDown_error (wound : r.woundDown? c = some (.error e)) :
    e = .taskFailed ∨ ∃ d w, r.stageOf d w = some (.ended (some e)) := by
  obtain ⟨produced,at_produced,wound⟩ := Option.bind_eq_some_iff.mp wound
  cases produced with
  | error e' =>
    cases wound
    exact .inl (producersEnded_error at_produced)
  | ok _ =>
    obtain ⟨dispatched,at_dispatched,wound⟩ := Option.bind_eq_some_iff.mp wound
    obtain ⟨watched,closed,wound⟩ := Option.bind_eq_some_iff.mp wound
    cases watched with
    | error e' =>
      cases wound
      unfold watchesClosed? at closed
      split at closed
      · obtain ⟨produced,at_produced,closed⟩ := Option.bind_eq_some_iff.mp closed
        cases produced with
        | error e'' =>
          cases closed
          exact .inl (producersEnded_error at_produced)
        | ok _ =>
          obtain ⟨d,-,w,failed⟩ := dispatchersJoined_error closed
          exact .inr ⟨d,w,failed⟩
      · cases closed
    | ok _ =>
      cases wound
      obtain ⟨d,-,w,failed⟩ := dispatchersJoined_error at_dispatched
      exact .inr ⟨d,w,failed⟩

/-! ### Where workers stand -/

/-- A worker, and how it is to carry out its operations. -/
def workerAt (r : Run σ) (u : ClientUser) : Option (DispatchOptions × Worker) :=
  r.dispatchers[u.dispatcher]?.bind fun x => x.workers[u.worker]?.map fun v => (x.options,v)

theorem stageOf_crews (r : Run σ) (d w : Nat) :
    r.stageOf d w = (r.dispatchers.map Dispatcher.crew)[d]?.bind fun c => c.2[w]?.map Worker.stage := by
  unfold stageOf
  rw [List.getElem?_map]
  cases r.dispatchers[d]? with
  | none => rfl
  | some x => cases at_w : x.workers[w]? <;> simp [Dispatcher.crew,at_w]

theorem Rests.stageOf (rests : Rests r next) (d w : Nat) : next.stageOf d w = r.stageOf d w := by
  rw [stageOf_crews,stageOf_crews,rests.crews]

theorem stageOf_workerAt (r : Run σ) (d w : Nat) : r.stageOf d w = (r.workerAt ⟨d,w⟩).map fun m => m.2.stage := by
  unfold stageOf workerAt
  cases r.dispatchers[d]? with
  | none => rfl
  | some x => cases at_w : x.workers[w]? <;> simp [at_w]

theorem workerAt_at (at_d : r.dispatchers[d]? = some x) (at_w : x.workers[w]? = some v) :
    r.workerAt ⟨d,w⟩ = some (x.options,v) := by
  simp [workerAt,at_d,at_w]

/-- A worker's turn leaves all other workers as they are. -/
theorem Serves.workerAt (serves : Serves r next d w x z v after) (at_d : r.dispatchers[d]? = some x)
    (at_w : x.workers[w]? = some v) (u : ClientUser) :
    next.workerAt u = if u = ⟨d,w⟩ then some (x.options,{ v with stage := after }) else r.workerAt u := by
  have inside := (List.getElem?_eq_some_iff.mp at_d).1
  by_cases here : u.dispatcher = d
  · have at_next : next.dispatchers[d]? = some (z.place w after) := by
      rw [serves.dispatchers,List.getElem?_set]
      simp [inside]
    split_ifs with own
    · subst own
      rw [workerAt_at at_next (placed_worker (serves.workers ▸ at_w) after)]
      exact congrArg (fun options => some (options,_)) serves.options
    · have apart : w ≠ u.worker := fun same => own (by rw [← here,same])
      have same : (z.place w after).workers[u.worker]? = x.workers[u.worker]? := by
        show (z.workers.modify w _)[u.worker]? = _
        rw [List.getElem?_modify,serves.workers]
        simp [apart]
      have options : (z.place w after).options = x.options := serves.options
      simp only [Run.workerAt,here,at_next,at_d,Option.bind_some,same,options]
  · have same : next.dispatchers[u.dispatcher]? = r.dispatchers[u.dispatcher]? := by
      rw [serves.dispatchers,List.getElem?_set_ne (Ne.symm here)]
    rw [if_neg fun own => here (by rw [own]),Run.workerAt,Run.workerAt,same]

/-- A worker's turn leaves all other workers where they are. -/
theorem Serves.stageOf (serves : Serves r next d w x z v after) (at_d : r.dispatchers[d]? = some x)
    (at_w : x.workers[w]? = some v) (d' w' : Nat) :
    next.stageOf d' w' = if d' = d ∧ w' = w then some after else r.stageOf d' w' := by
  rw [stageOf_workerAt,stageOf_workerAt,serves.workerAt at_d at_w]
  by_cases own : d' = d ∧ w' = w
  · rw [if_pos own,if_pos (by rw [own.1,own.2])]
    rfl
  · rw [if_neg own,if_neg fun same => own (by simpa using same)]

/-- A worker that a deed brings about waits. -/
theorem Deed.stageOf (deed : Deed ks r next) (stands : next.stageOf d w = some stage) :
    r.stageOf d w = some stage ∨ stage = .waiting := by
  cases deed with
  | employ name options inside =>
    obtain ⟨x,at_d,stands⟩ := Option.bind_eq_some_iff.mp stands
    obtain ⟨v,at_w,stands⟩ := Option.bind_eq_some_iff.mp stands
    cases stands
    have at_d : (r.dispatchers ++ [Dispatcher.start name options _])[d]? = some x := at_d
    by_cases old : d < r.dispatchers.length
    · rw [List.getElem?_append_left old] at at_d
      exact .inl (stageOf_at at_d at_w)
    · have new := List.mem_of_getElem? (List.getElem?_append_right (Nat.le_of_not_lt old) ▸ at_d)
      rw [List.mem_singleton.mp new] at at_w
      obtain ⟨client,-,rfl⟩ := List.mem_map.mp (List.mem_of_getElem? at_w)
      exact .inr rfl
  | _ => exact .inl stands

theorem Deeds.stageOf (deeds : Deeds ks r next) (stands : next.stageOf d w = some stage) :
    r.stageOf d w = some stage ∨ stage = .waiting := by
  induction deeds with
  | refl => exact .inl stands
  | tail _ deed ih =>
    rcases deed.stageOf stands with before | new
    · exact ih before
    · exact .inr new

section
variable [RandomSource σ]

/-- A worker fails by its own turn, or had failed before. -/
theorem step_lapse {eng : Engine} {g : Goal} {ev : Event} (led : Led eng g r) (run : r.step ev = some next)
    (failed : next.stageOf d w = some (.ended (some e))) :
    r.stageOf d w = some (.ended (some e)) ∨ ev = .turn (.worker d w) ∧ Lapse r next d w e := by
  have rests (rests : Rests r next) : r.stageOf d w = some (.ended (some e)) := (rests.stageOf d w).symm.trans failed
  cases ev with
  | turn p =>
    cases p with
    | main =>
      obtain ⟨c,course,equipped⟩ := led
      obtain ⟨deeds,-⟩ := moveMain_deeds course equipped run
      rcases deeds.stageOf failed with before | new
      · exact .inl before
      · cases new
    | producer i =>
      obtain ⟨p,-,turn⟩ := moveProducer_turn run
      exact .inl (rests turn.rests)
    | worker d₁ w₁ =>
      obtain ⟨x,v,at_d,at_w,move⟩ := moveWorker_move run
      obtain ⟨z,after,serves⟩ := move.serves at_d at_w
      rw [serves.stageOf at_d at_w] at failed
      split at failed
      · rename_i own
        obtain ⟨rfl,rfl⟩ := own
        cases failed
        exact .inr ⟨rfl,serves.lapse e rfl⟩
      · exact .inl failed
    | watcher i => exact .inl (rests (moveWatcher_aside run).rests)
    | reporter i => exact .inl (rests (moveReporter_aside run).rests)
  | outside i =>
    cases run
    exact .inl (rests (intervene_rests r i))
  | pass ms =>
    cases run
    exact .inl (rests ⟨rfl,rfl,rfl⟩)

end

end Run

end Keyload
