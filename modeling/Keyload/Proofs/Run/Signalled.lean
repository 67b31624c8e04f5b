import Keyload.Proofs.Run.Lines
import Keyload.Proofs.Run.ProducerMoves

/-!
Who listens to the stop signals. Each signal has one holder, which is the one to drop it; a reporter that runs listens
to its own until it ends. So when everything is stopped, every reporter is told. Producers keep their dispatcher, and
work of their own is never used up before they end.
-/
namespace Keyload

namespace Signals

variable {s : Signals} {k : Nat}

theorem drop_size (s : Signals) (i : Nat) : (s.drop i).size = s.size := by simp [drop,size]

theorem fire_size (s : Signals) : s.fire.2.size = s.size := by simp [fire,size]

theorem subscribe_size (s : Signals) : s.subscribe.size = s.size + 1 := by simp [subscribe,size]

theorem drop_other {i : Nat} (other : k ≠ i) : (s.drop i).list[k]? = s.list[k]? := by
  show (s.list.modify i _)[k]? = _
  rw [List.getElem?_modify]
  simp [Ne.symm other]

theorem subscribe_old (inside : k < s.size) : s.subscribe.list[k]? = s.list[k]? := List.getElem?_append_left inside

theorem subscribe_new (s : Signals) : s.subscribe.list[s.size]? = some ⟨true,false⟩ := by simp [subscribe,size]

/-- Firing reaches whoever listens. -/
theorem fire_listening {raised : Bool} (at_k : s.list[k]? = some ⟨true,raised⟩) :
    s.fire.2.list[k]? = some ⟨true,true⟩ := by
  simp [fire,at_k]

theorem isRaised_drop (s : Signals) (i k : Nat) : (s.drop i).isRaised k = s.isRaised k := by
  show Option.any _ (s.list.modify i _)[k]? = Option.any _ s.list[k]?
  rw [List.getElem?_modify]
  cases s.list[k]? with
  | none => rfl
  | some x => by_cases here : i = k <;> simp [here]

theorem isRaised_fire (raised : s.isRaised k = true) : s.fire.2.isRaised k = true := by
  simp only [isRaised,Option.any_eq_true] at raised ⊢
  obtain ⟨x,at_k,up⟩ := raised
  refine ⟨if x.listening then { x with raised := true } else x,by simp [fire,at_k],?_⟩
  split_ifs
  · rfl
  · exact up

end Signals

namespace Reporter

-- the reporter is taken apart so that its pace is not compared
theorem tick_signal (t : Reporter) (nowMs : Nat) : (t.tick nowMs).signal = t.signal := by
  obtain ⟨signal,ticker,stage⟩ := t
  show (Reporter.tick ⟨signal,ticker,stage⟩ nowMs).signal = signal
  rfl

theorem tick_stage (t : Reporter) (nowMs : Nat) : (t.tick nowMs).stage = t.stage := by
  obtain ⟨signal,ticker,stage⟩ := t
  show (Reporter.tick ⟨signal,ticker,stage⟩ nowMs).stage = stage
  rfl

end Reporter

namespace Run

variable {σ : Type}

/-- Each signal has one holder, and reporters that run listen to theirs. -/
structure Signalled (r : Run σ) : Prop where
  held : ∀ p ∈ r.producers, ∀ k, p.signal = some k → k < r.signals.size ∧ ∀ t ∈ r.reporters, t.signal ≠ k
  inside : ∀ t ∈ r.reporters, t.signal < r.signals.size
  apart : (r.reporters.map Reporter.signal).Nodup
  listens : ∀ t ∈ r.reporters, t.stage = .running → ∃ raised, r.signals.list[t.signal]? = some ⟨true,raised⟩

/-- Every reporter that runs is told to end. -/
def Called (r : Run σ) : Prop := ∀ t ∈ r.reporters, t.stage = .running → r.signals.isRaised t.signal = true

/-- Every producer has its dispatcher, and work of its own. -/
def Staffed (r : Run σ) : Prop :=
  ∀ p ∈ r.producers, (∃ name, r.nameOf p.dispatcher = some name) ∧ ∀ ops, p.work ≠ .given ops

variable {r next : Run σ} {ks : KeySpace} {d w i : Nat}

/-! ### Producers -/

theorem placeProducer_signals (r : Run σ) (i : Nat) (q : Producer σ) :
    (r.placeProducer i q).signals = r.signals ∨
      ∃ k, q.signal = some k ∧ (r.placeProducer i q).signals = r.signals.drop k := by
  unfold placeProducer
  dsimp only
  split
  · cases signal : q.signal with
    | none => exact .inl rfl
    | some k => exact .inr ⟨k,rfl,rfl⟩
  · exact .inl rfl

/-- What a step leaves as it is of the producers and the reporters, and of the signals that they hold. -/
structure Attends (r next : Run σ) : Prop where
  length : next.producers.length = r.producers.length
  alike : ∀ q ∈ next.producers, ∃ p ∈ r.producers, p.Alike q
  reporters : next.reporters = r.reporters
  signals : next.signals = r.signals ∨ next.signals = r.signals.fire.2 ∨
    ∃ p ∈ r.producers, ∃ k, p.signal = some k ∧ next.signals = r.signals.drop k

namespace Attends

theorem of_same (producers : next.producers = r.producers) (reporters : next.reporters = r.reporters)
    (signals : next.signals = r.signals ∨ next.signals = r.signals.fire.2) : Attends r next := by
  refine ⟨by rw [producers],fun q member => ⟨q,producers ▸ member,.of_same rfl rfl rfl⟩,reporters,?_⟩
  rcases signals with same | fired
  · exact .inl same
  · exact .inr (.inl fired)

/-- A producer goes on that keeps its dispatcher, its signal and the kind of its work. -/
theorem placed {s : Run σ} {p q : Producer σ} (at_i : r.producers[i]? = some p) (producers : s.producers = r.producers)
    (reporters : s.reporters = r.reporters) (signals : s.signals = r.signals) (alike : p.Alike q) :
    Attends r (s.placeProducer i q) := by
  have member := List.mem_of_getElem? at_i
  refine ⟨?_,fun q' among => ?_,(placeProducer_beside s i q).2.1.trans reporters,?_⟩
  · rw [placeProducer_producers,producers,List.length_set]
  · rw [placeProducer_producers,producers] at among
    rcases List.mem_or_eq_of_mem_set among with old | rfl
    · exact ⟨q',old,.of_same rfl rfl rfl⟩
    · exact ⟨p,member,alike⟩
  · rcases placeProducer_signals s i q with same | ⟨k,holds,dropped⟩
    · exact .inl (same.trans signals)
    · exact .inr (.inr ⟨p,member,k,alike.signal.symm.trans holds,signals ▸ dropped⟩)

end Attends

section
variable [RandomSource σ]

theorem moveProducer_attends (run : r.moveProducer i = some next) : Attends r next := by
  obtain ⟨p,x,at_i,-,move⟩ := moveProducer_move run
  cases move with
  | goes goes after =>
    rw [after]
    exact .placed at_i rfl rfl rfl (.goes goes)
  | sends stage told after =>
    rw [after]
    exact .placed (s := r.onDispatcher p.dispatcher _) at_i rfl rfl rfl (.proceed p _)
  | enlists told after =>
    rw [after]
    exact .of_same rfl rfl (.inl rfl)

theorem intervene_attends (r : Run σ) {x : Intervention} (unoffered : ∀ i op, x ≠ .offer i op) :
    Attends r (r.intervene x) := by
  have on_producer (j : Nat) {f : Producer σ → Producer σ} (alike : ∀ p : Producer σ, p.Alike (f p)) :
      Attends r (r.onProducer j f) :=
    onProducer_elim (Attends r) (.of_same rfl rfl (.inl rfl)) fun p at_j => .placed at_j rfl rfl rfl (alike p)
  cases x with
  | offer j op => exact absurd rfl (unoffered j op)
  | urge j =>
    refine on_producer j fun p => ?_
    have allowed : p.Alike { p with allowance := some 1 } := .of_same rfl rfl rfl
    exact allowed.trans (.beginStep _ none)
  | dismiss j => exact on_producer j fun p => .of_same rfl rfl rfl
  | fire => exact .of_same rfl rfl (.inr rfl)
  | stop => exact .of_same rfl rfl (.inr rfl)
  | shutDown => exact .of_same rfl rfl (.inr rfl)
  | _ => exact .of_same rfl rfl (.inl rfl)

/-- What a turn of reporter `t` is: it is told and ends, or it goes on. -/
inductive ReporterMove (r next : Run σ) (i : Nat) (t : Reporter) : Prop where
  | ends (raised : r.signals.isRaised t.signal = true)
      (reporters : next.reporters = r.reporters.set i { t with stage := .ended })
      (signals : next.signals = r.signals.drop t.signal) : ReporterMove r next i t
  | ticks (unheard : r.signals.isRaised t.signal ≠ true)
      (reporters : next.reporters = r.reporters.set i (t.tick r.nowMs)) (signals : next.signals = r.signals) :
      ReporterMove r next i t

omit [RandomSource σ] in
theorem moveReporter_move (run : r.moveReporter i = some next) :
    ∃ t, r.reporters[i]? = some t ∧ t.stage = .running ∧ ReporterMove r next i t := by
  obtain ⟨t,at_i,run⟩ := Option.bind_eq_some_iff.mp run
  split at run
  · rename_i running
    split at run
    · rename_i raised
      cases run
      exact ⟨t,at_i,running,.ends raised rfl rfl⟩
    · rename_i unheard
      split at run
      · cases run
        exact ⟨t,at_i,running,.ticks unheard rfl rfl⟩
      · cases run
  · cases run

/-- Nobody but the main task adds producers or reporters, and nobody but a reporter changes one. -/
theorem step_attends {ev : Event} (run : r.step ev = some next) (main : ev ≠ .turn .main)
    (unoffered : ∀ i op, ev ≠ .outside (.offer i op)) :
    Attends r next ∨ ∃ i, ev = .turn (.reporter i) ∧ next.producers = r.producers := by
  cases ev with
  | turn p =>
    cases p with
    | main => exact absurd rfl main
    | producer i => exact .inl (moveProducer_attends run)
    | worker d w =>
      obtain ⟨x,v,at_d,at_w,move⟩ := moveWorker_move run
      obtain ⟨z,after,serves⟩ := move.serves at_d at_w
      exact .inl (.of_same serves.producers serves.reporters (.inl serves.signals))
    | watcher i =>
      obtain ⟨-,reporters,signals⟩ := moveWatcher_beside run
      exact .inl (.of_same (moveWatcher_aside run).producers reporters (.inl signals))
    | reporter i => exact .inr ⟨i,rfl,(moveReporter_aside run).producers⟩
  | outside x =>
    cases run
    exact .inl (intervene_attends r fun i op same => unoffered i op (by rw [same]))
  | pass ms =>
    cases run
    exact .inl (.of_same rfl rfl (.inl rfl))

end

/-! ### What keeps producers and signals -/

theorem Staffed.attends (staffed : Staffed r) (alike : ∀ q ∈ next.producers, ∃ p ∈ r.producers, p.Alike q)
    (names : ∀ d, next.nameOf d = r.nameOf d) : Staffed next := by
  intro q member
  obtain ⟨p,among,alike⟩ := alike q member
  obtain ⟨⟨name,named⟩,own⟩ := staffed p among
  refine ⟨⟨name,?_⟩,alike.own own⟩
  rw [alike.dispatcher,names]
  exact named

theorem Deed.staffed (staffed : Staffed r) (deed : Deed ks r next) : Staffed next := by
  cases deed with
  | employ name options inside =>
    intro p member
    obtain ⟨⟨name',named⟩,own⟩ := staffed p member
    exact ⟨⟨name',(employ_extends r name options _).named named⟩,own⟩
  | @assign q assigned =>
    intro p member
    rcases List.mem_append.mp member with old | new
    · exact staffed p old
    · rw [List.mem_singleton.mp new]
      constructor
      · obtain ⟨x,at_d⟩ : ∃ x, r.dispatchers[q.dispatcher]? = some x := ⟨_,List.getElem?_eq_getElem assigned.dispatcher⟩
        exact ⟨x.name,congrArg (Option.map Dispatcher.name) at_d⟩
      · intro ops given
        have from_ := assigned.work
        rw [given] at from_
        cases from_
  | _ => exact staffed

theorem Called.attends (called : Called r) (attends : Attends r next) : Called next := by
  intro t member running
  rw [attends.reporters] at member
  have raised := called t member running
  rcases attends.signals with same | fired | ⟨p,-,k,-,dropped⟩
  · rwa [same]
  · rw [fired]
    exact Signals.isRaised_fire raised
  · rwa [dropped,Signals.isRaised_drop]

theorem Called.reporter (called : Called r) (run : r.moveReporter i = some next) : Called next := by
  obtain ⟨t,at_i,running,move⟩ := moveReporter_move run
  intro t' member running'
  cases move with
  | ends raised reporters signals =>
    rw [reporters] at member
    rw [signals,Signals.isRaised_drop]
    rcases List.mem_or_eq_of_mem_set member with old | rfl
    · exact called t' old running'
    · exact raised
  | ticks unheard reporters signals =>
    rw [reporters] at member
    rw [signals]
    rcases List.mem_or_eq_of_mem_set member with old | same
    · exact called t' old running'
    · rw [same,Reporter.tick_signal]
      exact called t (List.mem_of_getElem? at_i) running

theorem Signalled.attends (signalled : Signalled r) (attends : Attends r next) : Signalled next := by
  have size : next.signals.size = r.signals.size := by
    rcases attends.signals with same | fired | ⟨p,-,k,-,dropped⟩
    · rw [same]
    · rw [fired,Signals.fire_size]
    · rw [dropped,Signals.drop_size]
  refine ⟨fun q member k holds => ?_,?_,?_,?_⟩
  · obtain ⟨p,among,alike⟩ := attends.alike q member
    rw [size,attends.reporters]
    exact signalled.held p among k (alike.signal.symm.trans holds)
  · rw [size,attends.reporters]
    exact signalled.inside
  · rw [attends.reporters]
    exact signalled.apart
  · rw [attends.reporters]
    intro t member running
    obtain ⟨raised,listens⟩ := signalled.listens t member running
    rcases attends.signals with same | fired | ⟨p,among,k,holds,dropped⟩
    · exact ⟨raised,by rw [same]; exact listens⟩
    · exact ⟨true,by rw [fired]; exact Signals.fire_listening listens⟩
    · refine ⟨raised,?_⟩
      rw [dropped,Signals.drop_other ((signalled.held p among k holds).2 t member)]
      exact listens

theorem Signalled.reporter (signalled : Signalled r) (run : r.moveReporter i = some next) : Signalled next := by
  obtain ⟨t,at_i,running,move⟩ := moveReporter_move run
  have producers : next.producers = r.producers := (moveReporter_aside run).producers
  -- the reporter keeps its signal, and drops none but its own
  obtain ⟨t',reporters,signal,size,signals⟩ : ∃ t', next.reporters = r.reporters.set i t' ∧ t'.signal = t.signal ∧
      next.signals.size = r.signals.size ∧ (t'.stage = .running ∧ next.signals = r.signals ∨
        t'.stage = .ended ∧ next.signals = r.signals.drop t.signal) := by
    cases move with
    | ends raised reporters signals =>
      exact ⟨_,reporters,rfl,by rw [signals,Signals.drop_size],.inr ⟨rfl,signals⟩⟩
    | ticks unheard reporters signals =>
      exact ⟨_,reporters,t.tick_signal _,by rw [signals],.inl ⟨(t.tick_stage _).trans running,signals⟩⟩
  have found : ∀ t'' ∈ next.reporters, t'' = t' ∨ t'' ∈ r.reporters ∧ t''.signal ≠ t.signal := by
    intro t'' member
    obtain ⟨j,at_j⟩ := List.mem_iff_getElem?.mp (reporters ▸ member)
    by_cases here : i = j
    · subst here
      rw [List.getElem?_set_self (List.getElem?_eq_some_iff.mp at_i).1] at at_j
      exact .inl (Option.some.inj at_j).symm
    · rw [List.getElem?_set_ne here] at at_j
      refine .inr ⟨List.mem_of_getElem? at_j,fun same => here ?_⟩
      have inside : i < (r.reporters.map Reporter.signal).length := by
        simpa using (List.getElem?_eq_some_iff.mp at_i).1
      exact (List.getElem?_inj inside signalled.apart).mp (by simp [at_i,at_j,same])
  have was {t'' : Reporter} (member : t'' ∈ next.reporters) : ∃ t₀ ∈ r.reporters, t₀.signal = t''.signal := by
    rcases found t'' member with rfl | ⟨old,-⟩
    · exact ⟨t,List.mem_of_getElem? at_i,signal.symm⟩
    · exact ⟨t'',old,rfl⟩
  refine ⟨fun p among k holds => ?_,fun t'' member => ?_,?_,fun t'' member runs => ?_⟩
  · rw [producers] at among
    obtain ⟨known,apart⟩ := signalled.held p among k holds
    refine ⟨size ▸ known,fun t'' member => ?_⟩
    obtain ⟨t₀,old,same⟩ := was member
    exact same ▸ apart t₀ old
  · obtain ⟨t₀,old,same⟩ := was member
    rw [size,← same]
    exact signalled.inside t₀ old
  · have same : next.reporters.map Reporter.signal = r.reporters.map Reporter.signal := by
      rw [reporters,List.map_set,signal]
      exact set_same (by simp [at_i])
    rw [same]
    exact signalled.apart
  · rcases found t'' member with rfl | ⟨old,apart⟩
    · rcases signals with ⟨-,same⟩ | ⟨ended,-⟩
      · rw [same,signal]
        exact signalled.listens t (List.mem_of_getElem? at_i) running
      · cases ended.symm.trans runs
    · obtain ⟨raised,listens⟩ := signalled.listens t'' old runs
      refine ⟨raised,?_⟩
      rcases signals with ⟨-,same⟩ | ⟨-,dropped⟩
      · rw [same]
        exact listens
      · rw [dropped,Signals.drop_other apart]
        exact listens

/-- A signal that is handed out is nobody's yet. -/
theorem Signalled.subscribe (signalled : Signalled r) : Signalled r.subscribe := by
  have size : r.subscribe.signals.size = r.signals.size + 1 := Signals.subscribe_size r.signals
  refine ⟨fun p member k holds => ?_,fun t member => ?_,signalled.apart,fun t member running => ?_⟩
  · obtain ⟨known,apart⟩ := signalled.held p member k holds
    exact ⟨by omega,apart⟩
  · have known := signalled.inside t member
    omega
  · obtain ⟨raised,listens⟩ := signalled.listens t member running
    exact ⟨raised,(Signals.subscribe_old (signalled.inside t member)).trans listens⟩

theorem Signalled.report (signalled : Signalled r) (secs : Nat) : Signalled (r.addReporter secs) := by
  have subscribed := signalled.subscribe
  have new {t : Reporter} (member : t ∈ (r.addReporter secs).reporters) :
      t ∈ r.reporters ∨ t.signal = r.signals.size := by
    rcases List.mem_append.mp member with old | last
    · exact .inl old
    · rw [List.mem_singleton.mp last]
      exact .inr rfl
  refine ⟨fun p among k holds => ?_,fun t member => ?_,?_,fun t member running => ?_⟩
  · obtain ⟨known,apart⟩ := signalled.held p among k holds
    refine ⟨(subscribed.held p among k holds).1,fun t member => ?_⟩
    rcases new member with old | last
    · exact apart t old
    · omega
  · rcases new member with old | last
    · exact subscribed.inside t old
    · rw [last]
      show _ < r.signals.subscribe.size
      rw [Signals.subscribe_size]
      omega
  · show ((r.reporters ++ [_]).map Reporter.signal).Nodup
    rw [List.map_append]
    refine List.nodup_append.mpr ⟨signalled.apart,by simp,?_⟩
    intro k first k' last
    obtain ⟨t,member,rfl⟩ := List.mem_map.mp first
    have known := signalled.inside t member
    have fresh : k' = r.signals.size := List.mem_singleton.mp last
    omega
  · rcases new member with old | last
    · exact subscribed.listens t old running
    · exact ⟨false,by rw [last]; exact Signals.subscribe_new r.signals⟩

theorem Deed.signalled (signalled : Signalled r) (deed : Deed ks r next) : Signalled next := by
  cases deed with
  | stopAll => exact signalled.attends (.of_same rfl rfl (.inr rfl))
  | subscribe => exact signalled.subscribe
  | @assign q assigned =>
    refine ⟨fun p member k holds => ?_,signalled.inside,signalled.apart,signalled.listens⟩
    rcases List.mem_append.mp member with old | new
    · exact signalled.held p old k holds
    · rw [List.mem_singleton.mp new] at holds
      refine ⟨assigned.signal k holds,fun t reports => ?_⟩
      have reports : t ∈ r.reporters := reports
      rw [assigned.unreported] at reports
      cases reports
  | report secs => exact signalled.report secs
  | _ => exact signalled.attends (.of_same rfl rfl (.inl rfl))

end Run

end Keyload
