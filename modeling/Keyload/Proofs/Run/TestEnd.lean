import Keyload.Proofs.Run.FilledEngine
import Keyload.Proofs.Watch.Notices

/-!
Waiting for the end of the test. The main task keeps a watch on the key and opens it again where the store cancels it
or it breaks off, from the place that the history has come to by then. So the wait ends where the awaited value is
written while the watch is listening, and a write at any other time is never noticed (`test_end_noticed`).
-/
namespace Keyload

/-- Whether the run goes on and every watch is opened. -/
def Intervention.isGentle : Intervention → Bool
  | .refuseWatches _ => false
  | .cancel => false
  | .stop => false
  | .shutDown => false
  | _ => true

def Event.isGentle : Event → Bool
  | .outside i => i.isGentle
  | _ => true

/-- Whether open watches break off. -/
def Event.breaks : Event → Bool
  | .outside (.interrupt i) => i != .quiet
  | _ => false

namespace Run
open Sentinel (tells isAwaited)

variable {σ : Type}

/-- The history of the store. -/
def feed (r : Run σ) : Feed := r.site.memory.feed

/-- The open watch of a main task that waits for the end of the test. -/
def endWatch? (r : Run σ) : Option Watch.Stream :=
  match r.course.map Course.phase with
  | some (.guarding .testEnd _ ⟨_,.watching s⟩) => some s
  | _ => none

/-- The result of a wait that saw the end of the test. -/
def sawEnd : Outcome RunError Finding := ExceptT.mk (.ok (.ok (.waited true)))

/-- Where the wait for the end of the test stands, and whether the run was told to end. -/
inductive EndPhase (key : String) (feed : Feed) : Phase σ → Bool → Prop where
  | beginning : EndPhase key feed .beginning false
  | dialing {untilMs : Nat} {x : Reaction} : EndPhase key feed (.dialing .testEnd untilMs x) false
  | opening {id : Nat} : EndPhase key feed (.guarding .testEnd id ⟨key,.opening⟩) false
  | watching {id : Nat} {s : Watch.Stream} (watches : Feed.Watches s.watching key)
      (inside : s.watching.place ≤ feed.size) : EndPhase key feed (.guarding .testEnd id ⟨key,.watching s⟩) false
  | pausing {id untilMs : Nat} : EndPhase key feed (.guarding .testEnd id ⟨key,.pausing untilMs⟩) false
  | refused {e : RunError} : EndPhase key feed (.ended (.error e)) false
  | seen : EndPhase key feed (.ended (.ok (.waited true))) true

/-- A run of which nothing else takes part than a main task that waits for the end of the test. -/
structure Waits (key : String) (r : Run σ) (c : Course σ) : Prop where
  course : r.course = some c
  goal : c.goal = .testEnd
  key_eq : c.settings.lifecycle.testEndKey = key
  phase : EndPhase key r.feed c.phase r.stopped
  refusing : r.site.refusing = 0
  dispatchers : r.dispatchers = []
  producers : r.producers = []
  watchers : r.watchers = []
  reporters : r.reporters = []

/-- What a turn of the main task comes to. -/
inductive WaitTurn (key : String) (feed : Feed) (nowMs : Nat) : Phase σ → Phase σ → Bool → Prop where
  | dials {untilMs : Nat} {x : Reaction} : WaitTurn key feed nowMs .beginning (.dialing .testEnd untilMs x) false
  | connects {untilMs id : Nat} {x : Reaction} :
      WaitTurn key feed nowMs (.dialing .testEnd untilMs x) (.guarding .testEnd id ⟨key,.opening⟩) false
  | refused {untilMs : Nat} {x : Reaction} {e : RunError} :
      WaitTurn key feed nowMs (.dialing .testEnd untilMs x) (.ended (.error e)) false
  | opens {id : Nat} : WaitTurn key feed nowMs (.guarding .testEnd id ⟨key,.opening⟩)
      (.guarding .testEnd id ⟨key,.watching (.opened (feed.watch key false))⟩) false
  | reads {id : Nat} {s t : Watch.Stream} {item : Option Watch.Item} (read : s.next feed = some (item,t))
      (unheard : Sentinel.after nowMs t item ≠ .settled true) :
      WaitTurn key feed nowMs (.guarding .testEnd id ⟨key,.watching s⟩)
        (.guarding .testEnd id ⟨key,Sentinel.after nowMs t item⟩) false
  | hears {id : Nat} {s t : Watch.Stream} {item : Option Watch.Item} (read : s.next feed = some (item,t))
      (heard : Sentinel.after nowMs t item = .settled true) :
      WaitTurn key feed nowMs (.guarding .testEnd id ⟨key,.watching s⟩) (.ended (.ok (.waited true))) true
  | resumes {id untilMs : Nat} : WaitTurn key feed nowMs (.guarding .testEnd id ⟨key,.pausing untilMs⟩)
      (.guarding .testEnd id ⟨key,.opening⟩) false

/-- What the steps of a wait leave as it was. -/
structure Apart (r next : Run σ) : Prop where
  refusing : next.site.refusing = r.site.refusing
  dispatchers : next.dispatchers = r.dispatchers
  producers : next.producers = r.producers
  watchers : next.watchers = r.watchers
  reporters : next.reporters = r.reporters

/-- What an interruption does to the main task. -/
def befallen (i : Watch.Interruption) : Phase σ → Phase σ
  | .guarding w id s => .guarding w id (s.interrupt i)
  | phase => phase

/-- What a gentle step comes to. -/
inductive WaitStep (key : String) (r next : Run σ) (before after : Phase σ) : Event → Prop where
  | main (turn : WaitTurn key r.feed r.nowMs before after next.stopped) (feed : next.feed = r.feed) :
      WaitStep key r next before after (.turn .main)
  | befalls {i : Watch.Interruption} (phase : after = befallen i before) (feed : next.feed = r.feed) :
      WaitStep key r next before after (.outside (.interrupt i))
  | elsewhere {e : Event} (phase : after = before) (goes : r.feed.Goes key next.feed) :
      WaitStep key r next before after e

/-! ### The turns of the main task -/

section
variable {key : String} {r next : Run σ} {c : Course σ}

theorem step_opening (key : String) (nowMs : Nat) {s : Site} (refusing : s.refusing = 0) :
    Sentinel.step ⟨key,.opening⟩ false nowMs s =
      some (⟨key,.watching (.opened (s.memory.feed.watch key false))⟩,s) := by
  simp [Sentinel.step,Site.watch,refusing,Memory.watch]

theorem guard_goes_on {id : Nat} {s s' : Sentinel} {site : Site}
    (stepped : s.step r.stopped r.nowMs r.site = some (s',site)) (unsettled : s'.outcome? = none) :
    r.guard c .testEnd id s = some ({ r with site }.inPhase c (.guarding .testEnd id s')) := by
  simp only [guard,stepped,unsettled]

theorem guard_hears {id : Nat} {s s' : Sentinel} {site : Site} (goal : c.goal = .testEnd)
    (stepped : s.step r.stopped r.nowMs r.site = some (s',site)) (heard : s'.outcome? = some (.ok true)) :
    r.guard c .testEnd id s = some ({ r with site := site.close id }.stopAll.conclude c (.ok (.waited true))) := by
  simp only [guard,stepped,heard,endWait,goal]

/-- An item of the watch ends the wait or leaves the sentinel waiting. -/
theorem outcome_after (key : String) (nowMs : Nat) (t : Watch.Stream) (item : Option Watch.Item) :
    Sentinel.outcome? ⟨key,Sentinel.after nowMs t item⟩ =
      if Sentinel.after nowMs t item = .settled true then some (.ok true) else none := by
  unfold Sentinel.after
  split
  · rfl
  · split <;> rfl
  all_goals rfl

theorem WaitTurn.endPhase {feed : Feed} {nowMs : Nat} {before after : Phase σ} {told stopped : Bool}
    (turn : WaitTurn key feed nowMs before after told) (phase : EndPhase key feed before stopped) :
    EndPhase key feed after told := by
  cases turn with
  | dials => exact .dialing
  | connects => exact .opening
  | refused => exact .refused
  | opens => exact .watching ⟨rfl,rfl⟩ (Nat.le_refl _)
  | @reads id s t item read unheard =>
    cases phase with
    | watching watches inside =>
      obtain ⟨watches,inside⟩ := Watch.Stream.next_inside read watches inside
      rcases Sentinel.after_cases nowMs t item with goes_on | again | paused | settled
      · exact goes_on ▸ .watching watches inside
      · exact again ▸ .opening
      · exact paused ▸ .pausing
      · exact absurd settled unheard
  | hears => exact .seen
  | resumes => exact .opening

theorem EndPhase.grows {feed later : Feed} {phase : Phase σ} {stopped : Bool} (before : EndPhase key feed phase stopped)
    (grows : feed.Grows later) : EndPhase key later phase stopped := by
  cases before with
  | watching watches inside => exact .watching watches (Nat.le_trans inside grows.size_le)
  | beginning => exact .beginning
  | dialing => exact .dialing
  | opening => exact .opening
  | pausing => exact .pausing
  | refused => exact .refused
  | seen => exact .seen

theorem EndPhase.befallen {feed : Feed} {phase : Phase σ} {stopped : Bool} (before : EndPhase key feed phase stopped)
    (i : Watch.Interruption) : EndPhase key feed (befallen i phase) stopped := by
  cases before with
  | watching watches inside => exact .watching watches inside
  | beginning => exact .beginning
  | dialing => exact .dialing
  | opening => exact .opening
  | pausing => exact .pausing
  | refused => exact .refused
  | seen => exact .seen

theorem interrupt_course (course : r.course = some c) (i : Watch.Interruption) :
    (r.interrupt i).course = some { c with phase := befallen i c.phase } := by
  obtain ⟨_,_,_,_,_,_,_,_,_,_,_,_,_,_,_,phase⟩ := c
  simp only [interrupt,course,Option.map_some]
  cases phase <;> rfl

theorem Waits.after (waits : Waits key r c) {phase : Phase σ} (course : next.course = some { c with phase })
    (ends : EndPhase key next.feed phase next.stopped) (apart : Apart r next) : Waits key next { c with phase } :=
  ⟨course,waits.goal,waits.key_eq,ends,apart.refusing.trans waits.refusing,apart.dispatchers.trans waits.dispatchers,
    apart.producers.trans waits.producers,apart.watchers.trans waits.watchers,apart.reporters.trans waits.reporters⟩

theorem Waits.elsewhere (waits : Waits key r c) (next : Run σ) (course : next.course = r.course)
    (stopped : next.stopped = r.stopped) (goes : r.feed.Goes key next.feed) (apart : Apart r next) (e : Event) :
    ∃ phase, Waits key next { c with phase } ∧ WaitStep key r next c.phase phase e :=
  ⟨c.phase,waits.after (course.trans waits.course) (stopped ▸ waits.phase.grows goes.grows) apart,.elsewhere rfl goes⟩

variable [RandomSource σ]

omit [RandomSource σ] in
theorem Waits.untold (waits : Waits key r c) {id : Nat} {s : Watch.Stream}
    (phase : c.phase = .guarding .testEnd id ⟨key,.watching s⟩) : r.stopped = false := by
  have ends := waits.phase
  rw [phase] at ends
  generalize r.stopped = stopped at ends
  cases ends
  rfl

/-- The turn of a main task whose watch has something to read. -/
theorem Waits.reads (waits : Waits key r c) {id : Nat} {s t : Watch.Stream} {item : Option Watch.Item}
    (phase : c.phase = .guarding .testEnd id ⟨key,.watching s⟩) (read : s.next r.feed = some (item,t)) :
    r.moveMain = some (if Sentinel.after r.nowMs t item = .settled true then
        { r with site := r.site.close id }.stopAll.conclude c (.ok (.waited true))
      else r.inPhase c (.guarding .testEnd id ⟨key,Sentinel.after r.nowMs t item⟩)) := by
  have told := waits.untold phase
  have stepped : Sentinel.step ⟨key,.watching s⟩ r.stopped r.nowMs r.site =
      some (⟨key,Sentinel.after r.nowMs t item⟩,r.site) := by
    have read : s.next r.site.memory.feed = some (item,t) := read
    simp [Sentinel.step,told,read]
  have outcome := outcome_after key r.nowMs t item
  simp only [moveMain,waits.course,phase]
  split
  · rename_i heard
    rw [if_pos heard] at outcome
    exact guard_hears waits.goal stepped outcome
  · rename_i unheard
    rw [if_neg unheard] at outcome
    exact guard_goes_on stepped outcome

theorem Waits.main (waits : Waits key r c) (run : r.moveMain = some next) :
    ∃ phase, WaitTurn key r.feed r.nowMs c.phase phase next.stopped ∧ next.course = some { c with phase } ∧
      next.feed = r.feed ∧ Apart r next := by
  have phase := waits.phase
  generalize told : r.stopped = stopped at phase
  generalize at_phase : c.phase = before at phase
  cases phase with
  | beginning =>
    simp only [moveMain,waits.course,at_phase,beginCourse,waits.goal] at run
    cases run
    exact ⟨_,told ▸ .dials,rfl,rfl,⟨rfl,rfl,rfl,rfl,rfl⟩⟩
  | @dialing untilMs x =>
    simp only [moveMain,waits.course,at_phase] at run
    split at run
    · cases run
      cases failure : x.failure with
      | none =>
        simp only [endDial,Site.endConnect,failure]
        exact ⟨_,waits.key_eq ▸ told ▸ .connects,rfl,rfl,⟨rfl,rfl,rfl,rfl,rfl⟩⟩
      | some e =>
        have ended : r.endDial c .testEnd x =
            { r with site := { r.site with history := r.site.history.push (.refused 0) } }.conclude c
              (.error (.store e)) := by
          simp only [endDial,Site.endConnect,failure,endWait,waits.goal]
        rw [ended]
        exact ⟨_,told ▸ .refused,rfl,rfl,⟨rfl,rfl,rfl,rfl,rfl⟩⟩
    · cases run
  | opening =>
    have stepped := step_opening key r.nowMs waits.refusing
    rw [← told] at stepped
    simp only [moveMain,waits.course,at_phase,guard_goes_on stepped rfl] at run
    cases run
    exact ⟨_,told ▸ .opens,rfl,rfl,⟨rfl,rfl,rfl,rfl,rfl⟩⟩
  | @watching id s _ _ =>
    cases read : s.next r.feed with
    | none =>
      have read : s.next r.site.memory.feed = none := read
      simp only [moveMain,waits.course,at_phase,guard,Sentinel.step,told,read] at run
      cases run
    | some found =>
      obtain ⟨item,t⟩ := found
      rw [waits.reads at_phase read] at run
      cases run
      split
      · rename_i heard
        exact ⟨_,.hears read heard,rfl,rfl,⟨rfl,rfl,rfl,rfl,rfl⟩⟩
      · rename_i unheard
        exact ⟨_,told ▸ .reads read unheard,rfl,rfl,⟨rfl,rfl,rfl,rfl,rfl⟩⟩
  | @pausing id untilMs =>
    by_cases due : untilMs ≤ r.nowMs
    · have stepped : Sentinel.step ⟨key,.pausing untilMs⟩ r.stopped r.nowMs r.site = some (⟨key,.opening⟩,r.site) := by
        simp [Sentinel.step,due]
      simp only [moveMain,waits.course,at_phase,guard_goes_on stepped rfl] at run
      cases run
      exact ⟨_,told ▸ .resumes,rfl,rfl,⟨rfl,rfl,rfl,rfl,rfl⟩⟩
    · simp only [moveMain,waits.course,at_phase,guard,Sentinel.step,if_neg due] at run
      cases run
  | refused =>
    simp only [moveMain,waits.course,at_phase] at run
    cases run
  | seen =>
    simp only [moveMain,waits.course,at_phase] at run
    cases run

/-! ### All steps -/

theorem Waits.intervene (waits : Waits key r c) {i : Intervention} (gentle : i.isGentle = true) :
    ∃ phase, Waits key (r.intervene i) { c with phase } ∧
      WaitStep key r (r.intervene i) c.phase phase (.outside i) := by
  have reached : ∀ f : Memory → Memory, r.feed.Goes key (f r.site.memory).feed →
      ∃ phase, Waits key (r.onMemory f) { c with phase } ∧ WaitStep key r (r.onMemory f) c.phase phase (.outside i) :=
    fun f goes => waits.elsewhere (r.onMemory f) rfl rfl goes ⟨rfl,rfl,rfl,rfl,rfl⟩ _
  have untouched : r.feed.Goes key r.feed := .inr (.refl _ _)
  have no_producer : ∀ j f, r.onProducer j f = r := by
    intro j f
    simp [onProducer,waits.producers]
  cases i with
  | write other value => exact reached (·.write other value) (Feed.push_goes _ _ _)
  | execute op => exact reached (fun m => (m.execute op).2) (Memory.execute_goes _ _ op)
  | failPuts n => exact reached (·.failPuts n) untouched
  | cancelWatches => exact reached (·.cancelWatches) (Feed.push_goes _ _ _)
  | interrupt i =>
    have watchers : (r.interrupt i).watchers = r.watchers := by simp [interrupt,waits.watchers]
    exact ⟨_,waits.after (interrupt_course waits.course i) (waits.phase.befallen i) ⟨rfl,rfl,rfl,watchers,rfl⟩,
      .befalls rfl rfl⟩
  | fire => exact waits.elsewhere { r with signals := r.signals.fire.2 } rfl rfl untouched ⟨rfl,rfl,rfl,rfl,rfl⟩ _
  | offer j op =>
    have same : r.intervene (.offer j op) = r := no_producer j _
    rw [same]
    exact waits.elsewhere r rfl rfl untouched ⟨rfl,rfl,rfl,rfl,rfl⟩ _
  | urge j =>
    have same : r.intervene (.urge j) = r := no_producer j _
    rw [same]
    exact waits.elsewhere r rfl rfl untouched ⟨rfl,rfl,rfl,rfl,rfl⟩ _
  | dismiss j =>
    have same : r.intervene (.dismiss j) = r := no_producer j _
    rw [same]
    exact waits.elsewhere r rfl rfl untouched ⟨rfl,rfl,rfl,rfl,rfl⟩ _
  | refuseWatches n => cases gentle
  | cancel => cases gentle
  | stop => cases gentle
  | shutDown => cases gentle

theorem Waits.step (waits : Waits key r c) {e : Event} (gentle : e.isGentle = true) (run : r.step e = some next) :
    ∃ phase, Waits key next { c with phase } ∧ WaitStep key r next c.phase phase e := by
  cases e with
  | outside i =>
    cases run
    exact waits.intervene gentle
  | pass ms =>
    cases run
    exact waits.elsewhere (r.pass ms) rfl rfl (.inr (.refl _ _)) ⟨rfl,rfl,rfl,rfl,rfl⟩ _
  | turn p =>
    cases p with
    | main =>
      obtain ⟨phase,turn,course,feed,apart⟩ := waits.main run
      exact ⟨phase,waits.after course (feed ▸ turn.endPhase waits.phase) apart,.main turn feed⟩
    | producer i => simp [Run.step,move,moveProducer,waits.producers] at run
    | worker d w => simp [Run.step,move,moveWorker,waits.dispatchers] at run
    | watcher i => simp [Run.step,move,moveWatcher,waits.watchers] at run
    | reporter i => simp [Run.step,move,moveReporter,waits.reporters] at run

/-! ### What is told while the watch listens -/

/-- The wait has seen the end of the test, or its watch is going to read the notice `k`, which tells it. -/
inductive Owed (key : String) (feed : Feed) (k : Nat) : Phase σ → Prop where
  | seen : Owed key feed k (.ended (.ok (.waited true)))
  | owes {id : Nat} {s : Watch.Stream} (owes : s.Owes key feed k) :
      Owed key feed k (.guarding .testEnd id ⟨key,.watching s⟩)

omit [RandomSource σ] in
theorem WaitStep.owed {before after : Phase σ} {e : Event} {k : Nat} (step : WaitStep key r next before after e)
    (owed : Owed key r.feed k before) (whole : e.breaks = false) (recent : next.feed.size ≤ k + Feed.capacity) :
    Owed key next.feed k after := by
  cases step with
  | main turn feed =>
    rw [feed]
    generalize next.stopped = told at turn
    cases owed with
    | seen => cases turn
    | @owes id s owes =>
      obtain ⟨es,t,read,heard⟩ := owes.next
      cases turn with
      | hears => exact .seen
      | reads read' unheard =>
        cases read.symm.trans read'
        rcases heard with awaited | ⟨owes,-⟩
        · exact absurd (by rw [Sentinel.after,if_pos awaited]) unheard
        · by_cases awaited : es.any isAwaited = true
          · exact absurd (by rw [Sentinel.after,if_pos awaited]) unheard
          · rw [Sentinel.after,if_neg awaited]
            exact .owes owes
  | @befalls i phase feed =>
    rw [feed,phase]
    have quiet : i = .quiet := by simpa [Event.breaks] using whole
    cases owed with
    | seen => exact .seen
    | owes owes => exact quiet ▸ .owes owes.quiet
  | elsewhere phase goes =>
    rw [phase]
    cases owed with
    | seen => exact .seen
    | owes owes => exact .owes (owes.grows goes.grows recent)

/-- A wait whose watch is going to read the notice is over after some turns of its own. -/
theorem Waits.ends {k : Nat} (waits : Waits key r c) (owed : Owed key r.feed k c.phase) :
    ∃ n u, r.steps (List.replicate n (.turn .main)) = some u ∧ u.ending? = some sawEnd := by
  generalize at_phase : c.phase = phase at owed
  cases owed with
  | seen =>
    refine ⟨0,r,rfl,?_⟩
    rw [ending?,waits.course,Option.bind_some,Course.ending?,at_phase]
    rfl
  | @owes id s owes =>
    -- every turn takes the watch closer to the notice, or ends the wait before
    induction left : s.before k using Nat.strongRecOn generalizing r c s with
    | ind m ih =>
      obtain ⟨es,t,read,heard⟩ := owes.next
      have moved := waits.reads at_phase read
      by_cases awaited : es.any isAwaited = true
      · have settled : Sentinel.after r.nowMs t (some (.update (.events es))) = .settled true := by
          rw [Sentinel.after,if_pos awaited]
        rw [if_pos settled] at moved
        refine ⟨1,_,(steps_cons r _ []).trans (by rw [Run.step,move,moved]; rfl),rfl⟩
      · obtain ⟨owes,less⟩ := heard.resolve_left awaited
        have goes_on : Sentinel.after r.nowMs t (some (.update (.events es))) = .watching t := by
          rw [Sentinel.after,if_neg awaited]
        rw [goes_on,if_neg (by simp)] at moved
        obtain ⟨phase,turn,course,feed,apart⟩ := waits.main moved
        have after := waits.after course (feed ▸ turn.endPhase waits.phase) apart
        cases course
        obtain ⟨n,u,run,ended⟩ := ih _ (left ▸ less) after owes rfl rfl
        refine ⟨n + 1,u,?_,ended⟩
        rw [List.replicate_succ,steps_cons,Run.step,move,moved]
        exact run

/-! ### What is told at any other time -/

/-- The wait has not seen the end of the test, and its watch is not going to read it. -/
structure Unheard (key : String) (feed : Feed) (phase : Phase σ) : Prop where
  unseen : ∀ finding, phase ≠ .ended (.ok finding)
  deaf : ∀ id s, phase = .guarding .testEnd id ⟨key,.watching s⟩ → s.Deaf key feed

omit [RandomSource σ] in
theorem WaitTurn.unheard {feed : Feed} {nowMs : Nat} {before after : Phase σ} {told stopped : Bool}
    (turn : WaitTurn key feed nowMs before after told) (phase : EndPhase key feed before stopped)
    (unheard : Unheard key feed before) : Unheard key feed after := by
  cases turn with
  | dials => exact ⟨by simp,by simp⟩
  | connects => exact ⟨by simp,by simp⟩
  | refused => exact ⟨by simp,by simp⟩
  | resumes => exact ⟨by simp,by simp⟩
  | opens =>
    refine ⟨by simp,?_⟩
    intro id s opened
    cases opened
    refine .inr fun j beyond => ?_
    have beyond : feed.size ≤ j := beyond
    simp [Array.getElem?_eq_none beyond]
  | @reads id s t item read _ =>
    cases phase with
    | watching watches inside =>
      refine ⟨by simp,?_⟩
      intro id' s' still
      rcases (unheard.deaf id s rfl).next watches read nowMs with ⟨goes_on,deaf⟩ | again | paused
      · rw [goes_on] at still
        cases still
        exact deaf
      · rw [again] at still
        cases still
      · rw [paused] at still
        cases still
  | @hears id s t item read heard =>
    cases phase with
    | watching watches inside =>
      rcases (unheard.deaf id s rfl).next watches read nowMs with ⟨goes_on,-⟩ | again | paused
      · cases goes_on.symm.trans heard
      · cases again.symm.trans heard
      · cases paused.symm.trans heard

omit [RandomSource σ] in
/-- A step leaves the wait unheard, unless it tells a watch that is open. -/
theorem WaitStep.unheard {before after : Phase σ} {e : Event} {stopped : Bool}
    (step : WaitStep key r next before after e) (phase : EndPhase key r.feed before stopped)
    (unheard : Unheard key r.feed before) :
    Unheard key next.feed after ∨ next.feed = r.feed.push (tells key) ∧
      ∃ id s, before = .guarding .testEnd id ⟨key,.watching s⟩ ∧ s.Unbroken := by
  cases step with
  | main turn feed => exact .inl (feed ▸ turn.unheard phase unheard)
  | @befalls i same feed =>
    subst same
    rw [feed]
    refine .inl ⟨?_,?_⟩
    · intro finding ended
      cases phase with
      | seen => exact unheard.unseen _ rfl
      | refused => cases ended
      | _ => cases ended
    · intro id s watching
      cases phase with
      | watching => cases watching; exact (unheard.deaf _ _ rfl).interrupt i
      | _ => cases watching
  | elsewhere same goes =>
    subst same
    by_cases deaf : ∀ id s, after = .guarding .testEnd id ⟨key,.watching s⟩ → s.Deaf key next.feed
    · exact .inl ⟨unheard.unseen,deaf⟩
    · simp only [not_forall] at deaf
      obtain ⟨id,s,watching,hears⟩ := deaf
      rcases not_or.mp hears with ⟨whole,told⟩
      refine .inr ⟨?_,id,s,watching,not_not.mp whole⟩
      rcases goes with told_now | silent
      · exact told_now
      · refine absurd ?_ told
        intro j from_
        by_cases known : j < r.feed.size
        · rw [silent.grows.same j known]
          exact (unheard.deaf id s watching).resolve_left whole j from_
        · exact silent.untold j (Nat.not_lt.mp known)

/-! ### The whole wait -/

omit [RandomSource σ] in
theorem WaitStep.grows {before after : Phase σ} {e : Event} (step : WaitStep key r next before after e) :
    r.feed.Grows next.feed := by
  cases step with
  | main turn feed => exact feed ▸ .refl _
  | befalls phase feed => exact feed ▸ .refl _
  | elsewhere phase goes => exact goes.grows

omit [RandomSource σ] in
theorem Waits.endWatch (waits : Waits key r c) {s : Watch.Stream} :
    r.endWatch? = some s ↔ ∃ id, c.phase = .guarding .testEnd id ⟨key,.watching s⟩ := by
  have phase := waits.phase
  unfold endWatch?
  rw [waits.course,Option.map_some]
  generalize c.phase = at_phase at phase
  generalize r.stopped = stopped at phase
  cases phase <;> simp

theorem Waits.steps (waits : Waits key r c) {events : List Event} (gentle : ∀ e ∈ events, e.isGentle = true)
    (run : r.steps events = some next) : ∃ c, Waits key next c := by
  refine steps_induction (fun events s => (∀ e ∈ events, e.isGentle = true) → ∃ c, Waits key s c)
    (fun _ => ⟨c,waits⟩) ?_ run gentle
  intro events s e t _ ih run gentle
  obtain ⟨c,waits⟩ := ih fun e member => gentle e (List.mem_append_left _ member)
  obtain ⟨phase,waits,-⟩ := waits.step (gentle e (by simp)) run
  exact ⟨_,waits⟩

theorem Waits.steps_owed {k : Nat} (waits : Waits key r c) (owed : Owed key r.feed k c.phase) {events : List Event}
    (gentle : ∀ e ∈ events, e.isGentle = true ∧ e.breaks = false) (run : r.steps events = some next)
    (recent : next.feed.size ≤ k + Feed.capacity) : ∃ c, Waits key next c ∧ Owed key next.feed k c.phase := by
  have kept : ∃ c, Waits key next c ∧ (next.feed.size ≤ k + Feed.capacity → Owed key next.feed k c.phase) := by
    refine steps_induction (fun events s => (∀ e ∈ events, e.isGentle = true ∧ e.breaks = false) →
      ∃ c, Waits key s c ∧ (s.feed.size ≤ k + Feed.capacity → Owed key s.feed k c.phase))
      (fun _ => ⟨c,waits,fun _ => owed⟩) ?_ run gentle
    intro events s e t _ ih run gentle
    obtain ⟨c,waits,owed⟩ := ih fun e member => gentle e (List.mem_append_left _ member)
    obtain ⟨soft,whole⟩ := gentle e (by simp)
    obtain ⟨phase,waits,step⟩ := waits.step soft run
    exact ⟨_,waits,fun recent => step.owed (owed (Nat.le_trans step.grows.size_le recent)) whole recent⟩
  obtain ⟨c,waits,owed⟩ := kept
  exact ⟨c,waits,owed recent⟩

theorem Waits.told (waits : Waits key r c) {e : Event} (gentle : e.isGentle = true) (run : r.step e = some next)
    (told : next.feed = r.feed.push (tells key)) {s : Watch.Stream} (opened : r.endWatch? = some s)
    (listens : s.Listens r.feed) : ∃ c, Waits key next c ∧ Owed key next.feed r.feed.size c.phase := by
  obtain ⟨id,at_phase⟩ := waits.endWatch.mp opened
  obtain ⟨phase,after,step⟩ := waits.step gentle run
  refine ⟨_,after,?_⟩
  have unmoved : next.feed ≠ r.feed := fun same => by
    have sizes := congrArg Array.size (told.symm.trans same)
    simp at sizes
  cases step with
  | main turn feed => exact absurd feed unmoved
  | befalls _ feed => exact absurd feed unmoved
  | elsewhere same =>
    have inside := waits.phase
    rw [at_phase] at inside
    generalize r.stopped = stopped at inside
    cases inside with
    | watching watches inside =>
      rw [told]
      show Owed key _ _ phase
      rw [same,at_phase]
      exact .owes (listens.told watches inside)

omit [RandomSource σ] in
theorem Unheard.unfinished (waits : Waits key r c) (unheard : Unheard key r.feed c.phase) :
    r.ending? ≠ some sawEnd := by
  have phase := waits.phase
  have unseen := unheard.unseen
  rw [ending?,waits.course,Option.bind_some,Course.ending?]
  generalize c.phase = at_phase at phase unseen
  generalize r.stopped = stopped at phase
  cases phase with
  | seen => exact absurd rfl (unseen _)
  | refused => intro ended; cases ended
  | _ => intro ended; cases ended

/-- The step `x` after the events `before` writes the awaited value while the watch `w` is open. -/
structure Told (first : Run σ) (key : String) (before : List Event) (x : Event) (r next : Run σ) (w : Watch.Stream) :
    Prop where
  reached : first.steps before = some r
  opened : r.endWatch? = some w
  step : r.step x = some next
  told : next.feed = r.feed.push (tells key)

end

section
variable {e : Engine} {site : Site} {pool : Pool} {nowMs : Nat}

theorem ofEngine_waits (e : Engine) (pool : Pool) (nowMs : Nat) (refusing : site.refusing = 0) :
    ∃ c, Waits e.settings.lifecycle.testEndKey (ofEngine e .testEnd site pool nowMs) c ∧ c.phase = .beginning :=
  ⟨_,⟨rfl,rfl,rfl,.beginning,refusing,rfl,rfl,rfl,rfl⟩,rfl⟩

/-- The awaited value is written where the watch listens, and is read once the main task has had some turns. -/
theorem sawEnd_of_told (refusing : site.refusing = 0) {before after : List Event} {x : Event} {r s t : Run Xoshiro}
    {w : Watch.Stream} (gentle : ∀ y ∈ before ++ x :: after, y.isGentle = true) (whole : ∀ y ∈ after, y.breaks = false)
    (told : Told (ofEngine e .testEnd site pool nowMs) e.settings.lifecycle.testEndKey before x r s w)
    (listens : w.Listens r.feed) (later : s.steps after = some t) (recent : t.feed.size < s.feed.size + Feed.capacity) :
    ∃ n u, t.steps (List.replicate n (.turn .main)) = some u ∧ u.ending? = some sawEnd := by
  have gentle_before : ∀ y ∈ before, y.isGentle = true := fun y member => gentle y (List.mem_append_left _ member)
  have gentle_after : ∀ y ∈ x :: after, y.isGentle = true := fun y member => gentle y (List.mem_append_right _ member)
  obtain ⟨c,begins,-⟩ := ofEngine_waits e pool nowMs refusing
  obtain ⟨c,waits⟩ := begins.steps gentle_before told.reached
  obtain ⟨c,waits,owed⟩ := waits.told (gentle_after x List.mem_cons_self) told.step told.told told.opened listens
  have size : s.feed.size = r.feed.size + 1 := by rw [told.told,Array.size_push]
  obtain ⟨c,waits,owed⟩ := waits.steps_owed owed
    (fun y member => ⟨gentle_after y (List.mem_cons_of_mem x member),whole y member⟩) later (by omega)
  exact waits.ends owed

/-- A wait that saw the end of the test was told while its watch was open. -/
theorem told_of_sawEnd (refusing : site.refusing = 0) {events : List Event} {r : Run Xoshiro}
    (gentle : ∀ y ∈ events, y.isGentle = true) (run : (ofEngine e .testEnd site pool nowMs).steps events = some r)
    (ended : r.ending? = some sawEnd) : ∃ before x after s t w, events = before ++ x :: after ∧ w.Unbroken ∧
      Told (ofEngine e .testEnd site pool nowMs) e.settings.lifecycle.testEndKey before x s t w := by
  let key := e.settings.lifecycle.testEndKey
  let first := ofEngine e .testEnd site pool nowMs
  have kept : (∃ before x after s t w, events = before ++ x :: after ∧ w.Unbroken ∧ Told first key before x s t w) ∨
      ∃ c, Waits key r c ∧ Unheard key r.feed c.phase := by
    refine steps_induction (fun events r => (∀ y ∈ events, y.isGentle = true) →
      (∃ before x after s t w, events = before ++ x :: after ∧ w.Unbroken ∧ Told first key before x s t w) ∨
        ∃ c, Waits key r c ∧ Unheard key r.feed c.phase) ?_ ?_ run gentle
    · intro _
      obtain ⟨c,waits,beginning⟩ := ofEngine_waits e pool nowMs refusing
      exact .inr ⟨c,waits,by simp [beginning],by simp [beginning]⟩
    · intro events r y next reached ih run gentle
      rcases ih fun z member => gentle z (List.mem_append_left _ member) with
        ⟨before,x,after,s,t,w,rfl,told⟩ | ⟨c,waits,unheard⟩
      · exact .inl ⟨before,x,after ++ [y],s,t,w,by simp,told⟩
      · obtain ⟨phase,after,step⟩ := waits.step (gentle y (by simp)) run
        rcases step.unheard waits.phase unheard with still | ⟨told,id,s,watching,unbroken⟩
        · exact .inr ⟨_,after,still⟩
        · have opened := waits.endWatch.mpr ⟨id,watching⟩
          exact .inl ⟨events,y,[],r,next,s,rfl,unbroken,reached,opened,run,told⟩
  rcases kept with told | ⟨c,waits,unheard⟩
  · exact told
  · exact absurd ended (unheard.unfinished waits)

/-- The wait for the end of the test, whatever else happens to the store and to its watch. Where the awaited value is
written while the watch listens, and the watch neither breaks off nor falls behind before it has read on, some turns of
the main task are all that is missing until the wait has seen it; and a wait that has seen it was told while its watch
was open. -/
theorem test_end_noticed (refusing : site.refusing = 0) :
    (∀ before x after r s t w, (∀ y ∈ before ++ x :: after, y.isGentle = true) → (∀ y ∈ after, y.breaks = false) →
      Told (ofEngine e .testEnd site pool nowMs) e.settings.lifecycle.testEndKey before x r s w → w.Listens r.feed →
        s.steps after = some t → t.feed.size < s.feed.size + Feed.capacity →
          ∃ n u, t.steps (List.replicate n (.turn .main)) = some u ∧ u.ending? = some sawEnd) ∧
    ∀ events r, (∀ y ∈ events, y.isGentle = true) → (ofEngine e .testEnd site pool nowMs).steps events = some r →
      r.ending? = some sawEnd → ∃ before x after s t w, events = before ++ x :: after ∧ w.Unbroken ∧
        Told (ofEngine e .testEnd site pool nowMs) e.settings.lifecycle.testEndKey before x s t w := by
  constructor
  · intro before x after r s t w gentle whole told listens later recent
    exact sawEnd_of_told refusing gentle whole told listens later recent
  · intro events r gentle run ended
    exact told_of_sawEnd refusing gentle run ended

/-! ### Fixed waits -/

/-- A wait on a store that never delays or fails. -/
def waiting (e : Engine) : Run Xoshiro := ofEngine e .testEnd (.fresh .prompt .empty) (Pool.deal [0] 1) 0

/-- Connects and opens the watch. -/
def listening : List Event := [.turn .main,.turn .main,.turn .main]

/-- The awaited value is written. -/
def telling (e : Engine) : Event := .outside (.write e.settings.lifecycle.testEndKey Sentinel.awaited)

/-- The watch ends, and the value is written during the pause. -/
def missedInPause (e : Engine) : List Event :=
  listening ++ [.outside (.interrupt .ended),.turn .main,telling e,.pass 1000,.turn .main,.turn .main]

/-- The watch is cancelled, and the value is written before it is opened again. -/
def missedOnCancel (e : Engine) : List Event :=
  listening ++ [.outside .cancelWatches,telling e,.turn .main,.turn .main]

/-- Nothing goes on by itself any more. -/
def Idle (r : Run Xoshiro) : Prop := ∀ ms p, (r.pass ms).move p = none

/-- A wait whose watch is open and has read everything goes on waiting for ever. -/
theorem Waits.idle {key : String} {r : Run Xoshiro} {c : Course Xoshiro} (waits : Waits key r c) {w : Watching}
    (opened : r.endWatch? = some ⟨w,[]⟩) (read : r.feed.size ≤ w.place) : r.Idle ∧ r.ending? = none := by
  obtain ⟨id,phase⟩ := waits.endWatch.mp opened
  constructor
  · intro ms p
    cases p with
    | producer i => simp [move,moveProducer,pass,waits.producers]
    | worker d i => simp [move,moveWorker,pass,waits.dispatchers]
    | watcher i => simp [move,moveWatcher,pass,waits.watchers]
    | reporter i => simp [move,moveReporter,pass,waits.reporters]
    | main =>
      have told := waits.untold phase
      have nothing : Watch.Stream.next ⟨w,[]⟩ r.site.memory.feed = none :=
        (Watch.Stream.next_unbefallen w r.feed).trans (if_neg (Nat.not_lt.mpr read))
      simp [move,moveMain,pass,waits.course,phase,guard,Sentinel.step,told,nothing]
  · rw [ending?,waits.course,Option.bind_some,Course.ending?,phase]

/-- After its watch was opened the awaited value is written, and the wait goes on for ever. -/
structure Misses (e : Engine) (events : List Event) : Prop where
  gentle : ∀ y ∈ events, y.isGentle = true
  opened : ∃ r w, (waiting e).steps listening = some r ∧ r.endWatch? = some w
  told : ∃ before after, events = listening ++ before ++ telling e :: after
  idle : ∃ r, (waiting e).steps events = some r ∧ r.Idle ∧ r.ending? = none

set_option maxRecDepth 20000 in
theorem misses (e : Engine) : Misses e (missedInPause e) ∧ Misses e (missedOnCancel e) := by
  have refusing : (Site.fresh .prompt .empty).refusing = 0 := rfl
  obtain ⟨c,begins,-⟩ := ofEngine_waits e (Pool.deal [0] 1) 0 refusing
  have opened : ∃ r w, (waiting e).steps listening = some r ∧ r.endWatch? = some w := ⟨_,_,rfl,rfl⟩
  constructor
  · have gentle : ∀ y ∈ missedInPause e, y.isGentle = true := by
      simp [missedInPause,listening,telling,Event.isGentle,Intervention.isGentle]
    have run : (waiting e).steps (missedInPause e) = some _ := rfl
    obtain ⟨c,waits⟩ := begins.steps gentle run
    exact ⟨gentle,opened,⟨[.outside (.interrupt .ended),.turn .main],_,rfl⟩,_,run,waits.idle rfl (Nat.le_refl 1)⟩
  · have gentle : ∀ y ∈ missedOnCancel e, y.isGentle = true := by
      simp [missedOnCancel,listening,telling,Event.isGentle,Intervention.isGentle]
    have run : (waiting e).steps (missedOnCancel e) = some _ := rfl
    obtain ⟨c,waits⟩ := begins.steps gentle run
    exact ⟨gentle,opened,⟨[.outside .cancelWatches],_,rfl⟩,_,run,waits.idle rfl (Nat.le_refl 2)⟩

theorem plainly_accepted : ∃ e, Engine.new (Engine.plainly "/a;z") 1 = ExceptT.mk (.ok (.ok e)) := by
  have accepted : ((Engine.new (Engine.plainly "/a;z") 1).run.toOption.bind Except.toOption).isSome = true := by
    decide +kernel
  obtain ⟨e,found⟩ := Option.isSome_iff_exists.mp accepted
  exact ⟨e,Engine.new_of_toOption found⟩

/-- The value is written as soon as the watch is open. -/
theorem test_end_heard : (Site.fresh .prompt .empty).refusing = 0 ∧
    ∃ e, Engine.new (Engine.plainly "/a;z") 1 = ExceptT.mk (.ok (.ok e)) ∧
      ∃ t n u, (waiting e).steps (listening ++ [telling e]) = some t ∧
        t.steps (List.replicate n (.turn .main)) = some u ∧ u.ending? = some sawEnd := by
  have refusing : (Site.fresh .prompt .empty).refusing = 0 := rfl
  obtain ⟨e,accepted⟩ := plainly_accepted
  have run : (waiting e).steps listening = some _ := rfl
  have told : Told (waiting e) e.settings.lifecycle.testEndKey listening (telling e) _ _ _ := ⟨run,rfl,rfl,rfl⟩
  have gentle : ∀ y ∈ listening ++ telling e :: [], y.isGentle = true := by
    simp [listening,telling,Event.isGentle,Intervention.isGentle]
  have listens : Watch.Stream.Listens (.opened (Feed.watch #[] e.settings.lifecycle.testEndKey false)) #[] :=
    ⟨by simp [Watch.Stream.Unbroken,Watch.Stream.opened],by simp⟩
  obtain ⟨n,u,seen,ended⟩ := (test_end_noticed refusing).1 listening (telling e) [] _ _ _ _ gentle (by simp) told
    listens rfl (Nat.lt_add_of_pos_right (by decide))
  exact ⟨refusing,e,accepted,_,n,u,rfl,seen,ended⟩

/-- Written at the wrong time, the value is never noticed. -/
theorem test_end_missed : ∃ e, Engine.new (Engine.plainly "/a;z") 1 = ExceptT.mk (.ok (.ok e)) ∧
    Misses e (missedInPause e) ∧ Misses e (missedOnCancel e) := by
  obtain ⟨e,accepted⟩ := plainly_accepted
  exact ⟨e,accepted,misses e⟩

end

end Run

end Keyload
