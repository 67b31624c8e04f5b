import Keyload.Proofs.Run.Frame

/-!
Runs at a store that may do anything. Whoever reads from such a store, a watcher or a sentinel, may get any answer when
it opens a watch and any items from it, whatever the others get; everything else goes on as in any run. What comes to
the readers is written down in order. Every run is one at such a store (`steps_noted`).
-/
namespace Keyload

/-- Opening a watch changes nothing but how many are still to be refused. -/
theorem Site.watch_refusing (s : Site) (key : String) (withPrefix : Bool) :
    (s.watch key withPrefix).2 = { s with refusing := (s.watch key withPrefix).2.refusing } := by
  unfold watch
  split <;> rfl

namespace Watch

/-- What comes to a reader. -/
inductive Reading where
  /-- It asked for a watch and was answered. -/
  | opened (key : String) (withPrefix : Bool) (result : Except StoreError Watching)
  /-- Its watch yielded an item. -/
  | item (x : Item) (rest : Stream)
  /-- Its watch was read without an item. -/
  | nothing (rest : Stream)
  /-- It found that it is told to end. -/
  | told
  /-- Its pause is over. -/
  | woken

namespace Watcher

/-- What the answer to an attempt to open the watch leads to. -/
def answered (w : Watcher) : Except StoreError Watching → Watcher × WatcherEvent
  | .ok watching =>
    ({ w with
        tried := true
        established := w.established || !w.tried
        stage := .watching (Stream.opened watching) },.none)
  | .error _ => ({ w with tried := true, stage := .ended },.lost)

theorem attempt_eq (w : Watcher) (s : Site) : w.attempt s =
    ((w.answered (s.watch w.key w.withPrefix).1).1,(w.answered (s.watch w.key w.withPrefix).1).2,
      (s.watch w.key w.withPrefix).2) := by
  unfold attempt answered
  obtain ⟨result,site⟩ := s.watch w.key w.withPrefix
  cases result <;> rfl

/-- Where a reading takes a watcher, if it can come to the watcher where it stands. -/
def read (w : Watcher) (stopped : Bool) : Reading → Option (Watcher × WatcherEvent)
  | .opened key withPrefix result =>
    if w.stage = .opening ∧ key = w.key ∧ withPrefix = w.withPrefix then some (w.answered result) else none
  | .item x rest => if w.isOpen ∧ ¬ stopped then some (w.handle rest x) else none
  | .nothing rest => if w.isOpen ∧ ¬ stopped then some ({ w with stage := .watching rest },.none) else none
  | .told => if w.isOpen ∧ stopped then some ({ w with stage := .ended },.none) else none
  | .woken => none

/-- The step of a watcher is a reading. -/
theorem step_read {w w' : Watcher} {stopped : Bool} {s s' : Site} {event : WatcherEvent}
    (run : w.step stopped s = some (w',event,s')) :
    s' = { s with refusing := s'.refusing } ∧ ∃ x, w.read stopped x = some (w',event) := by
  unfold step at run
  cases stage : w.stage with
  | ended =>
    simp only [stage] at run
    cases run
  | opening =>
    simp only [stage,attempt_eq] at run
    cases run
    exact ⟨s.watch_refusing _ _,.opened w.key w.withPrefix (s.watch w.key w.withPrefix).1,by simp [read,stage]⟩
  | watching stream =>
    have open_ : w.isOpen = true := by simp [isOpen,stage]
    simp only [stage] at run
    split at run
    · rename_i told
      cases run
      exact ⟨rfl,.told,by simp [read,open_,told]⟩
    · rename_i untold
      split at run
      · cases run
      · rename_i rest _
        cases run
        exact ⟨rfl,.nothing rest,by simp [read,open_,untold]⟩
      · rename_i item rest _
        cases run
        exact ⟨rfl,.item item rest,by simp [read,open_,untold]⟩

end Watcher

end Watch

namespace Sentinel

/-- Where a reading takes a sentinel, if it can come to the sentinel where it stands. -/
def read (t : Sentinel) (stopped : Bool) (nowMs : Nat) : Watch.Reading → Option Sentinel
  | .opened key withPrefix result =>
    if t.stage = .opening ∧ ¬ stopped ∧ key = t.key ∧ withPrefix = false then
      some { t with stage := match result with
        | .ok w => .watching (Watch.Stream.opened w)
        | .error e => .failed e }
    else none
  | .item x rest => if t.isOpen ∧ ¬ stopped then some { t with stage := after nowMs rest (some x) } else none
  | .nothing rest => if t.isOpen ∧ ¬ stopped then some { t with stage := after nowMs rest none } else none
  | .told => if (t.stage = .opening ∨ t.isOpen) ∧ stopped then some { t with stage := .settled false } else none
  | .woken =>
    match t.stage with
    | .pausing untilMs => if untilMs ≤ nowMs then some { t with stage := .opening } else none
    | _ => none

/-- The step of a sentinel is a reading. -/
theorem step_read {t t' : Sentinel} {stopped : Bool} {nowMs : Nat} {s s' : Site}
    (run : t.step stopped nowMs s = some (t',s')) :
    s' = { s with refusing := s'.refusing } ∧ ∃ x, t.read stopped nowMs x = some t' := by
  unfold step at run
  cases stage : t.stage with
  | opening =>
    simp only [stage] at run
    split at run
    · rename_i told
      cases run
      exact ⟨rfl,.told,by simp [read,stage,told]⟩
    · rename_i untold
      have refusing := s.watch_refusing t.key false
      split at run
      · rename_i w _ opened
        rw [opened] at refusing
        cases run
        exact ⟨refusing,.opened t.key false (.ok w),by simp [read,stage,untold]⟩
      · rename_i e _ refused
        rw [refused] at refusing
        cases run
        exact ⟨refusing,.opened t.key false (.error e),by simp [read,stage,untold]⟩
  | watching stream =>
    have open_ : t.isOpen = true := by simp [isOpen,stage]
    simp only [stage] at run
    split at run
    · rename_i told
      cases run
      exact ⟨rfl,.told,by simp [read,open_,told]⟩
    · rename_i untold
      obtain ⟨⟨item,rest⟩,-,same⟩ := Option.map_eq_some_iff.mp run
      cases same
      cases item with
      | none => exact ⟨rfl,.nothing rest,by simp [read,open_,untold]⟩
      | some item => exact ⟨rfl,.item item rest,by simp [read,open_,untold]⟩
  | pausing untilMs =>
    simp only [stage] at run
    split at run
    · rename_i due
      cases run
      exact ⟨rfl,.woken,by simp [read,stage,due]⟩
    · cases run
  | settled seen =>
    simp only [stage] at run
    cases run
  | failed e =>
    simp only [stage] at run
    cases run

end Sentinel

/-- Who reads from the store. -/
inductive Reader where
  | watcher (i : Nat)
  | sentinel (w : Wait)
  deriving DecidableEq

/-- What came to a reader, and whether the run was stopped by then. -/
structure Note where
  reader : Reader
  stopped : Bool
  reading : Watch.Reading

/-- What was written down of readers, oldest first. -/
abbrev Journal := List Note

/-- What may happen at a store that may do anything. -/
inductive Happening where
  /-- A step that reads nothing from a watch. -/
  | step (e : Event)
  | read (reader : Reader) (x : Watch.Reading)
  /-- The contents are others at once, and so are the watches still to be refused. -/
  | store (memory : Memory) (refusing : Nat)

namespace Run

variable {σ : Type}

/-- The sentinel of the main task: on what it waits, and on which connection. -/
def guarding? (r : Run σ) : Option (Course σ × Wait × Nat × Sentinel) :=
  r.course.bind fun c =>
    match c.phase with
    | .guarding w id t => some (c,w,id,t)
    | _ => none

/-- Whether a step reads from a watch. -/
def reads (r : Run σ) : Event → Bool
  | .turn (.watcher _) => true
  | .turn .main => r.guarding?.isSome
  | _ => false

/-- Something comes to a reader, if it can. -/
def hear (r : Run σ) (x : Watch.Reading) : Reader → Option (Run σ)
  | .watcher i => do
    let w ← r.watchers[i]?
    let (w,event) ← w.read r.stopped x
    some ({ r with watchers := r.watchers.set i w }.noteWatcher event)
  | .sentinel w => do
    let (c,w',id,t) ← r.guarding?
    if w' = w then (t.read (r.told w) r.nowMs x).map (r.guarded c w id) else none

theorem guarding_phase {r : Run σ} {c : Course σ} {w : Wait} {id : Nat} {t : Sentinel}
    (guards : r.guarding? = some (c,w,id,t)) : r.course = some c ∧ c.phase = .guarding w id t := by
  obtain ⟨c',course,guards⟩ := Option.bind_eq_some_iff.mp guards
  split at guards
  · rename_i phase
    cases guards
    exact ⟨course,phase⟩
  · cases guards

/-- To take note of a watcher is to count. -/
theorem noteWatcher_eq (r : Run σ) (event : Watch.WatcherEvent) :
    ∃ recorder, r.noteWatcher event = { r with recorder } := by
  unfold noteWatcher
  split
  · exact ⟨_,rfl⟩
  · exact ⟨_,rfl⟩
  · split <;> exact ⟨_,rfl⟩

theorem hear_watcher {r next : Run σ} {i : Nat} {x : Watch.Reading} (run : r.hear x (.watcher i) = some next) :
    ∃ w w' event, r.watchers[i]? = some w ∧ w.read r.stopped x = some (w',event) ∧
      next = { r with watchers := r.watchers.set i w' }.noteWatcher event := by
  obtain ⟨w,at_i,run⟩ := Option.bind_eq_some_iff.mp run
  obtain ⟨⟨w',event⟩,read,run⟩ := Option.bind_eq_some_iff.mp run
  cases run
  exact ⟨w,w',event,at_i,read,rfl⟩

theorem hear_sentinel {r next : Run σ} {w : Wait} {x : Watch.Reading} (run : r.hear x (.sentinel w) = some next) :
    ∃ c id t t', r.course = some c ∧ c.phase = .guarding w id t ∧ t.read (r.told w) r.nowMs x = some t' ∧
      next = r.guarded c w id t' := by
  obtain ⟨⟨c,w',id,t⟩,guards,run⟩ := Option.bind_eq_some_iff.mp run
  obtain ⟨course,phase⟩ := guarding_phase guards
  by_cases own : w' = w
  · subst own
    simp only [if_true] at run
    obtain ⟨t',read,rfl⟩ := Option.map_eq_some_iff.mp run
    exact ⟨c,id,t,t',course,phase,read,rfl⟩
  · simp only [if_neg own] at run
    cases run

/-- The contents of the store are others, and so are the watches still to be refused. -/
def changeStore (r : Run σ) (memory : Memory) (refusing : Nat) : Run σ :=
  { r with site := { r.site with memory, refusing } }

theorem withSite_refusing {r : Run σ} {site : Site} (same : site = { r.site with refusing := site.refusing }) :
    { r with site } = r.changeStore r.site.memory site.refusing := by
  rw [changeStore,← same]

theorem moveWatcher_hear {r next : Run σ} {i : Nat} (run : r.moveWatcher i = some next) :
    ∃ refusing x, (r.changeStore r.site.memory refusing).hear x (.watcher i) = some next := by
  obtain ⟨w,at_i,run⟩ := Option.bind_eq_some_iff.mp run
  obtain ⟨⟨w',event,site⟩,stepped,run⟩ := Option.bind_eq_some_iff.mp run
  obtain ⟨same,x,read⟩ := Watch.Watcher.step_read stepped
  refine ⟨site.refusing,x,?_⟩
  rw [← withSite_refusing same]
  simpa [hear,at_i,read] using run

theorem guard_hear {r next : Run σ} {c : Course σ} {w : Wait} {id : Nat} {t : Sentinel}
    (guards : r.guarding? = some (c,w,id,t)) (run : r.guard c w id t = some next) :
    ∃ refusing x, (r.changeStore r.site.memory refusing).hear x (.sentinel w) = some next := by
  rw [guard_eq] at run
  obtain ⟨⟨t',site⟩,stepped,rfl⟩ := Option.map_eq_some_iff.mp run
  obtain ⟨same,x,read⟩ := Sentinel.step_read stepped
  refine ⟨site.refusing,x,?_⟩
  rw [← withSite_refusing same]
  have guards : Run.guarding? { r with site } = some (c,w,id,t) := guards
  have read : t.read (Run.told { r with site } w) r.nowMs x = some t' := by
    cases w <;> exact read
  simp [hear,guards,read]

variable [RandomSource σ]

/-- Something happens, if it can, and is written down if it came to a reader. -/
def happen (r : Run σ) : Happening → Option (Journal × Run σ)
  | .step e => if r.reads e then none else (r.step e).map ([],·)
  | .read reader x => (r.hear x reader).map ([⟨reader,r.stopped,x⟩],·)
  | .store memory refusing => some ([],r.changeStore memory refusing)

/-- Things happen one after the other and lead to a run; what came to readers on the way was written down. -/
inductive Noted (first : Run σ) : Journal → Run σ → Prop where
  | start : Noted first [] first
  | happens {notes more : Journal} {r next : Run σ} {h : Happening} :
      Noted first notes r → r.happen h = some (more,next) → Noted first (notes ++ more) next

variable {first r next : Run σ} {notes more : Journal}

theorem Noted.trans (before : Noted first notes r) (later : Noted r more next) : Noted first (notes ++ more) next := by
  induction later with
  | start => simpa using before
  | happens _ run ih =>
    rw [← List.append_assoc]
    exact ih.happens run

/-! ### Every run is one at such a store -/

/-- A step of a run is made of things that may happen at a store that may do anything. -/
theorem step_noted {e : Event} (run : r.step e = some next) : ∃ notes, Noted r notes next := by
  have heard {refusing : Nat} {x : Watch.Reading} {reader : Reader}
      (heard : (r.changeStore r.site.memory refusing).hear x reader = some next) : ∃ notes, Noted r notes next :=
    ⟨_,(Noted.start.happens (h := .store r.site.memory refusing) rfl).happens (h := .read reader x)
      (by rw [happen,heard]; rfl)⟩
  by_cases reads : r.reads e = true
  · unfold Run.reads at reads
    split at reads
    · obtain ⟨refusing,x,hears⟩ := moveWatcher_hear run
      exact heard hears
    · obtain ⟨⟨c,w,id,t⟩,guards⟩ := Option.isSome_iff_exists.mp reads
      obtain ⟨course,phase⟩ := guarding_phase guards
      have run : r.moveMain = some next := run
      simp only [moveMain,course,phase] at run
      obtain ⟨refusing,x,hears⟩ := guard_hear guards run
      exact heard hears
    · cases reads
  · exact ⟨_,Noted.start.happens (h := .step e) (by rw [happen,if_neg reads,run]; rfl)⟩

/-- Every run is one at a store that may do anything. -/
theorem steps_noted {events : List Event} (run : first.steps events = some r) : ∃ notes, Noted first notes r := by
  refine steps_induction (fun _ r => ∃ notes, Noted first notes r) ⟨[],.start⟩ ?_ run
  rintro _ _ _ _ - ⟨notes,noted⟩ step
  obtain ⟨more,later⟩ := step_noted step
  exact ⟨_,noted.trans later⟩

end Run

end Keyload
