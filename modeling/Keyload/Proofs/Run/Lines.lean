import Keyload.Proofs.Run.Joins

/-!
The lines at the clients. Nobody stands there twice, and whoever stands there is a worker that uses the client and has
an operation to begin. So the first in a line can go on after some time, and as long as a run that is told to end has
workers left, one of them can; and each turn of a worker brings it nearer to its end.
-/
namespace Keyload

/-- Whether a user stands in line at a client. -/
def queues (clients : List Client) (i : Nat) (u : ClientUser) : Bool := clients[i]?.any fun c => c.line.contains u

/-- The turns that worker `u` has left at most in a run that is told to end. -/
def Worker.left (v : Worker) (clients : List Client) (u : ClientUser) : Nat :=
  match v.stage with
  | .claiming _ => if queues clients v.client u then 4 else 5
  | stage => stage.ahead

/-- A dispatcher's workers, and how they are to carry out operations. -/
def Dispatcher.staff (x : Dispatcher) : DispatchOptions × List Worker := (x.options,x.workers)

namespace Run

variable {σ : Type}

/-- The lines at the clients of a run. -/
structure Lined (r : Run σ) : Prop where
  inside : ∀ u o v, r.workerAt u = some (o,v) → v.client < r.clients.length
  once : ∀ c ∈ r.clients, c.line.Nodup
  queued : ∀ i u, queues r.clients i u = true → ∃ o v, r.workerAt u = some (o,v) ∧ v.client = i ∧
    v.stage.pending? ≠ none ∧ o.reconnectEvery ≠ 0

variable {r next : Run σ} {ks : KeySpace} {d w i every : Nat} {x : Dispatcher} {v : Worker} {u u' : ClientUser}
  {clients after : List Client} {stage : WorkerStage} {o : DispatchOptions}

/-! ### Who stands in line -/

theorem queues_iff : queues clients i u = true ↔ ∃ c, clients[i]? = some c ∧ u ∈ c.line := by
  simp [queues,Option.any_eq_true]

theorem queues_set {c : Client} (inside : i < clients.length) (i' : Nat) :
    queues (clients.set i c) i' u = if i' = i then c.line.contains u else queues clients i' u := by
  unfold queues
  split_ifs with here
  · subst here
    simp [inside]
  · rw [List.getElem?_set_ne (Ne.symm here)]

/-- Nobody else's place in a line changes. -/
theorem LineMove.queues_other (moved : LineMove clients after v u every stage) (other : u' ≠ u) (i : Nat) :
    queues after i u' = queues clients i u' := by
  have at_client {c c' : Client} (at_c : clients[v.client]? = some c) (set : after = clients.set v.client c')
      (line : u' ∈ c'.line ↔ u' ∈ c.line) : queues after i u' = queues clients i u' := by
    rw [set,queues_set (List.getElem?_eq_some_iff.mp at_c).1]
    split_ifs with here
    · subst here
      rw [queues,at_c,Bool.eq_iff_iff]
      simpa using line
    · rfl
  cases moved with
  | apart same => rw [same]
  | @joins c c' at_c set line =>
    refine at_client at_c set ?_
    rw [line,Client.enter]
    split_ifs
    · rfl
    · simp [other]
  | @leaves c c' at_c set line =>
    refine at_client at_c set ?_
    rw [line]
    exact List.mem_erase_of_ne other

theorem LineMove.once (moved : LineMove clients after v u every stage) (once : ∀ c ∈ clients, c.line.Nodup) :
    ∀ c ∈ after, c.line.Nodup := by
  intro c' member
  cases moved with
  | apart same => exact once c' (same ▸ member)
  | @joins c c'' at_c set line =>
    rw [set] at member
    rcases List.mem_or_eq_of_mem_set member with old | rfl
    · exact once c' old
    · rw [line,Client.enter]
      have before := once c (List.mem_of_getElem? at_c)
      split_ifs with inside
      · exact before
      · refine List.nodup_append.mpr ⟨before,by simp,?_⟩
        intro u₁ first u₂ second
        rw [List.mem_singleton.mp second]
        rintro rfl
        exact inside (by simpa using first)
  | @leaves c c'' at_c set line =>
    rw [set] at member
    rcases List.mem_or_eq_of_mem_set member with old | rfl
    · exact once c' old
    · rw [line]
      exact (once c (List.mem_of_getElem? at_c)).erase u

/-- A worker stands in line at its own client or not at all. -/
theorem LineMove.queues_own (moved : LineMove clients after v u every stage) (once : ∀ c ∈ clients, c.line.Nodup)
    (before : ∀ i, queues clients i u = true → v.client = i ∧ v.stage.pending? ≠ none ∧ every ≠ 0)
    (stands : queues after i u = true) : v.client = i ∧ stage.pending? ≠ none ∧ every ≠ 0 := by
  cases moved with
  | apart same out =>
    rw [same] at stands
    obtain ⟨-,pending,counted⟩ := before i stands
    rcases out with idle | uncounted
    · exact absurd idle pending
    · exact absurd uncounted counted
  | @joins c c' at_c set line pending counted =>
    refine ⟨?_,pending,counted⟩
    by_contra elsewhere
    rw [set,queues_set (List.getElem?_eq_some_iff.mp at_c).1,if_neg (Ne.symm elsewhere)] at stands
    exact elsewhere (before i stands).1
  | @leaves c c' at_c set line idle =>
    rw [set,queues_set (List.getElem?_eq_some_iff.mp at_c).1] at stands
    split_ifs at stands with here
    · rw [line] at stands
      have member : u ∈ c.line.erase u := by simpa using stands
      exact absurd member (once c (List.mem_of_getElem? at_c)).not_mem_erase
    · exact absurd (before i stands).1.symm here

/-! ### What keeps the lines -/

theorem Lined.same (lined : Lined r) (workers : ∀ u, next.workerAt u = r.workerAt u)
    (clients : next.clients = r.clients) : Lined next := by
  refine ⟨fun u o v at_u => ?_,?_,fun i u stands => ?_⟩
  · rw [clients]
    exact lined.inside u o v (workers u ▸ at_u)
  · rw [clients]
    exact lined.once
  · rw [clients] at stands
    rw [workers]
    exact lined.queued i u stands

theorem Lined.worker (lined : Lined r) (run : r.moveWorker d w = some next) : Lined next := by
  obtain ⟨x,v,at_d,at_w,move⟩ := moveWorker_move run
  obtain ⟨z,stage,serves⟩ := move.serves at_d at_w
  have own := workerAt_at at_d at_w
  refine ⟨fun u o v' at_u => ?_,serves.line.once lined.once,fun i u stands => ?_⟩
  · rw [serves.line.length]
    rw [serves.workerAt at_d at_w] at at_u
    split_ifs at at_u with same
    · cases at_u
      exact lined.inside ⟨d,w⟩ _ v own
    · exact lined.inside u o v' at_u
  · rw [serves.workerAt at_d at_w]
    split_ifs with same
    · subst same
      refine ⟨_,_,rfl,serves.line.queues_own lined.once (fun i stands => ?_) stands⟩
      obtain ⟨o,v',at_u,at_client,pending,counted⟩ := lined.queued i _ stands
      cases own.symm.trans at_u
      exact ⟨at_client,pending,counted⟩
    · exact lined.queued i u ((serves.line.queues_other same i).symm.trans stands)

/-- The workers that are there stay. -/
theorem Deed.workerAt (deed : Deed ks r next) {m : DispatchOptions × Worker} (at_u : r.workerAt u = some m) :
    next.workerAt u = some m := by
  cases deed with
  | @employ name options places inside =>
    obtain ⟨x,at_d,at_w⟩ := Option.bind_eq_some_iff.mp at_u
    have at_d : (r.employ name options places).dispatchers[u.dispatcher]? = some x :=
      (List.getElem?_append_left (List.getElem?_eq_some_iff.mp at_d).1).trans at_d
    exact Option.bind_eq_some_iff.mpr ⟨x,at_d,at_w⟩
  | _ => exact at_u

theorem Deeds.same_clients (deeds : Deeds ks r next) : next.clients = r.clients := by
  induction deeds with
  | refl => rfl
  | tail _ deed ih =>
    rw [← ih]
    cases deed <;> rfl

theorem Deeds.workerAt (deeds : Deeds ks r next) {m : DispatchOptions × Worker}
    (at_u : r.workerAt u = some m) : next.workerAt u = some m := by
  induction deeds with
  | refl => exact at_u
  | tail _ deed ih => exact deed.workerAt ih

theorem Lined.deed (lined : Lined r) (deed : Deed ks r next) : Lined next := by
  have stays {u : ClientUser} {m : DispatchOptions × Worker} (at_u : r.workerAt u = some m) := deed.workerAt at_u
  cases deed with
  | @employ name options places inside =>
    refine ⟨fun u o v at_u => ?_,lined.once,fun i u stands => ?_⟩
    · obtain ⟨x,at_d,at_w⟩ := Option.bind_eq_some_iff.mp at_u
      have at_d : (r.dispatchers ++ [Dispatcher.start name options places])[u.dispatcher]? = some x := at_d
      by_cases old : u.dispatcher < r.dispatchers.length
      · rw [List.getElem?_append_left old] at at_d
        exact lined.inside u o v (Option.bind_eq_some_iff.mpr ⟨x,at_d,at_w⟩)
      · have new := List.mem_of_getElem? (List.getElem?_append_right (Nat.le_of_not_lt old) ▸ at_d)
        rw [List.mem_singleton.mp new] at at_w
        obtain ⟨v',at_w,same⟩ := Option.map_eq_some_iff.mp at_w
        cases same
        obtain ⟨client,member,rfl⟩ := List.mem_map.mp (List.mem_of_getElem? at_w)
        exact inside client member
    · obtain ⟨o,v,at_u,rest⟩ := lined.queued i u stands
      exact ⟨o,v,stays at_u,rest⟩
  | _ => exact lined.same (fun _ => rfl) rfl

theorem Lined.deeds (lined : Lined r) (deeds : Deeds ks r next) : Lined next := by
  induction deeds with
  | refl => exact lined
  | tail _ deed ih => exact ih.deed deed

/-! ### The steps of others -/

theorem workerAt_of_staff (same : next.dispatchers.map Dispatcher.staff = r.dispatchers.map Dispatcher.staff)
    (u : ClientUser) : next.workerAt u = r.workerAt u := by
  have staffed (s : Run σ) : s.workerAt u =
      (s.dispatchers.map Dispatcher.staff)[u.dispatcher]?.bind fun m => m.2[u.worker]?.map fun v => (m.1,v) := by
    rw [List.getElem?_map,workerAt,Option.bind_map]
    rfl
  rw [staffed,staffed,same]

theorem placeProducer_staff (r : Run σ) (i : Nat) (p : Producer σ) :
    (r.placeProducer i p).dispatchers.map Dispatcher.staff = r.dispatchers.map Dispatcher.staff := by
  unfold placeProducer
  dsimp only
  split
  · exact onDispatcher_map r p.dispatcher fun _ => rfl
  · rfl

section
variable [RandomSource σ]

/-- Nobody but the main task and the workers themselves touches a worker or a client. -/
theorem step_staff {ev : Event} (run : r.step ev = some next) (main : ev ≠ .turn .main)
    (workers : ∀ d w, ev ≠ .turn (.worker d w)) :
    next.dispatchers.map Dispatcher.staff = r.dispatchers.map Dispatcher.staff ∧ next.clients = r.clients := by
  cases ev with
  | turn p =>
    cases p with
    | main => exact absurd rfl main
    | worker d w => exact absurd rfl (workers d w)
    | producer i =>
      refine ⟨?_,(moveProducer_beside run).1⟩
      obtain ⟨p,-,turn⟩ := moveProducer_turn run
      cases turn with
      | send stage at_d told served room after =>
        rw [after,placeProducer_staff]
        exact onDispatcher_map r p.dispatcher fun _ => rfl
      | place sent after => rw [after,placeProducer_staff]
      | enlist after =>
        rw [after]
        exact onDispatcher_map r p.dispatcher fun _ => rfl
    | watcher i => exact ⟨by rw [(moveWatcher_aside run).dispatchers],(moveWatcher_beside run).1⟩
    | reporter i =>
      obtain ⟨t,t',-,-,-,clients,-⟩ := moveReporter_some run
      exact ⟨by rw [(moveReporter_aside run).dispatchers],clients⟩
  | outside i =>
    cases run
    refine ⟨?_,(intervene_beside r i).1⟩
    have on_producer (j : Nat) (f : Producer σ → Producer σ) :
        (r.onProducer j f).dispatchers.map Dispatcher.staff = r.dispatchers.map Dispatcher.staff :=
      onProducer_elim (fun s => s.dispatchers.map Dispatcher.staff = r.dispatchers.map Dispatcher.staff) rfl
        fun _ _ => placeProducer_staff r j _
    cases i with
    | offer j op => exact on_producer j _
    | urge j => exact on_producer j _
    | dismiss j => exact on_producer j _
    | _ => rfl
  | pass ms =>
    cases run
    exact ⟨rfl,rfl⟩

/-- Whoever has a turn, the main task apart, keeps the lines. -/
theorem Lined.beside {ev : Event} (lined : Lined r) (run : r.step ev = some next) (main : ev ≠ .turn .main) :
    Lined next := by
  by_cases worker : ∃ d w, ev = .turn (.worker d w)
  · obtain ⟨d,w,rfl⟩ := worker
    exact lined.worker run
  · obtain ⟨staff,clients⟩ := step_staff run main fun d w same => worker ⟨d,w,same⟩
    exact lined.same (workerAt_of_staff staff) clients

theorem Lined.step {ev : Event} {e : Engine} {g : Goal} (lined : Lined r) (led : Led e g r)
    (run : r.step ev = some next) : Lined next := by
  by_cases main : ev = .turn .main
  · subst main
    obtain ⟨c,course,equipped⟩ := led
    exact lined.deeds (moveMain_deeds course equipped run).1
  · exact lined.beside run main

end

/-! ### Workers of a run that is told to end -/

/-- The turns that a worker has left at most. -/
def workerLeft (r : Run σ) (u : ClientUser) : Nat := (r.workerAt u).elim 0 fun m => m.2.left r.clients u

theorem ahead_le (stage : WorkerStage) : stage.ahead ≤ 4 := by
  cases stage <;> simp [WorkerStage.ahead]

theorem ahead_le_left (v : Worker) (clients : List Client) (u : ClientUser) : v.stage.ahead ≤ v.left clients u := by
  unfold Worker.left
  split
  · rename_i op stage
    rw [stage]
    split_ifs <;> simp [WorkerStage.ahead]
  · exact Nat.le_refl _

/-- The turn of a worker takes from what is left to it, and from nobody else. -/
theorem moveWorker_left (told : r.stopped = true) (run : r.moveWorker d w = some next) :
    next.workerLeft ⟨d,w⟩ < r.workerLeft ⟨d,w⟩ ∧ ∀ u ≠ ⟨d,w⟩, next.workerLeft u = r.workerLeft u := by
  obtain ⟨x,v,at_d,at_w,move⟩ := moveWorker_move run
  obtain ⟨z,after,serves⟩ := move.serves at_d at_w
  have before := workerAt_at at_d at_w
  constructor
  · have since : next.workerAt ⟨d,w⟩ = some (x.options,{ v with stage := after }) := by
      rw [serves.workerAt at_d at_w,if_pos rfl]
    rw [workerLeft,workerLeft,before,since]
    show Worker.left _ next.clients _ < v.left r.clients _
    rcases serves.nears told with fewer | ⟨rfl,joins⟩
    · refine Nat.lt_of_lt_of_le ?_ (ahead_le_left v r.clients ⟨d,w⟩)
      -- nobody gets nearer to its end by claiming a client
      have most : v.stage.ahead ≤ 4 := ahead_le v.stage
      cases after with
      | claiming op =>
        have four : (4 : Nat) < v.stage.ahead := fewer
        omega
      | _ => exact fewer
    · obtain ⟨op,claims⟩ := joins.claims
      obtain ⟨c,at_c,absent⟩ := joins.absent
      obtain ⟨c',at_c',present⟩ := joins.present
      have out : queues r.clients v.client ⟨d,w⟩ = false := by
        rw [← Bool.not_eq_true,queues_iff]
        rintro ⟨c₁,at_c₁,among⟩
        cases at_c.symm.trans at_c₁
        exact absent among
      have in_line : queues next.clients v.client ⟨d,w⟩ = true := queues_iff.mpr ⟨c',at_c',present⟩
      simp [Worker.left,claims,out,in_line]
  · intro u other
    have same : next.workerAt u = r.workerAt u := by rw [serves.workerAt at_d at_w,if_neg other]
    rw [workerLeft,workerLeft,same]
    cases r.workerAt u with
    | none => rfl
    | some m =>
      show m.2.left next.clients u = m.2.left r.clients u
      unfold Worker.left
      split
      · rw [serves.line.queues_other other]
      · rfl

/-- As long as a worker is left, one of them goes on after some time. -/
theorem Lined.goes_on (lined : Lined r) (told : r.stopped = true) (at_u : r.workerAt u = some (o,v))
    (active : v.hasEnded = false) : ∃ ms d w next, (r.pass ms).moveWorker d w = some next := by
  have found {u : ClientUser} {o : DispatchOptions} {v : Worker} (at_u : r.workerAt u = some (o,v)) :
      ∃ x, r.dispatchers[u.dispatcher]? = some x ∧ x.workers[u.worker]? = some v := by
    obtain ⟨x,at_d,at_w⟩ := Option.bind_eq_some_iff.mp at_u
    obtain ⟨v',at_w,same⟩ := Option.map_eq_some_iff.mp at_w
    cases same
    exact ⟨x,at_d,at_w⟩
  obtain ⟨x,at_d,at_w⟩ := found at_u
  cases has : v.stage.operation? with
  | none =>
    have waits : v.stage = .waiting := Worker.waits_of_idle active has
    have later : (r.pass 0).dispatchers[u.dispatcher]? = some x := at_d
    have ends : (r.pass 0).stopped = true := told
    refine ⟨0,u.dispatcher,u.worker,Option.isSome_iff_exists.mp ?_⟩
    simp [moveWorker,later,at_w,waits,ends]
  | some op =>
    obtain ⟨c,at_c⟩ : ∃ c, r.clients[v.client]? = some c := ⟨_,List.getElem?_eq_getElem (lined.inside u o v at_u)⟩
    by_cases free : ∀ op, v.stage = .claiming op → x.options.reconnectEvery = 0 ∨ ⟨u.dispatcher,u.worker⟩ ∉ c.line ∨
        c.line.head? = some ⟨u.dispatcher,u.worker⟩
    · obtain ⟨ms,next,run⟩ := moveWorker_carries_on at_d at_w has at_c free
      exact ⟨ms,_,_,next,run⟩
    · -- who stands behind others waits for the first of them
      push Not at free
      obtain ⟨op',claims,counted,among,behind⟩ := free
      cases line : c.line with
      | nil =>
        rw [line] at among
        cases among
      | cons first others =>
        have stands : queues r.clients v.client first = true := queues_iff.mpr ⟨c,at_c,by rw [line]; simp⟩
        obtain ⟨o',v',at_first,same,pending,-⟩ := lined.queued v.client first stands
        obtain ⟨x',at_d',at_w'⟩ := found at_first
        obtain ⟨op'',has'⟩ := Option.ne_none_iff_exists'.mp pending
        have carries : v'.stage.operation? = some op'' := by rw [WorkerStage.operation?,has']; rfl
        obtain ⟨ms,next,run⟩ := moveWorker_carries_on at_d' at_w' carries (same ▸ at_c) fun _ _ =>
          .inr (.inr (by rw [line]; rfl))
        exact ⟨ms,_,_,next,run⟩

end Run

end Keyload
