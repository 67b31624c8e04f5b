import Keyload.Proofs.Run.FilledEngine
import Keyload.Proofs.Run.Unread
import Keyload.Proofs.Run.Unstuck

/-!
How watches are accounted for. Whatever the store does to the watchers and in whatever order, what is counted of them
is told by what came to them: who was opened and who has ended, how often watches were cancelled, and how many events
arrived. A watcher is lost when it ends before the run is stopped; stopping ends the others and loses none.
-/
namespace Keyload

namespace Watch.Reading

/-- Whether a watcher ends with a reading. -/
def ends : Reading → Bool
  | .opened _ _ (.error _) => true
  | .item (.failed _) _ => true
  | .item .ended _ => true
  | .told => true
  | _ => false

/-- Whether a watch was opened. -/
def opens : Reading → Bool
  | .opened _ _ (.ok _) => true
  | _ => false

/-- Whether a watch was cancelled. -/
def cancels : Reading → Bool
  | .item (.update (.canceled _)) _ => true
  | _ => false

/-- The number of events that arrived together. -/
def events : Reading → Nat
  | .item (.update (.events es)) _ => es.length
  | _ => 0

end Watch.Reading

namespace Journal

/-- What came to one watcher. -/
def own (notes : Journal) (i : Nat) : Journal := notes.filter (·.reader = .watcher i)

/-- A watcher has made its first attempt to open. -/
def started (notes : Journal) (i : Nat) : Bool := !(notes.own i).isEmpty

/-- The first attempt of a watcher succeeded. -/
def established (notes : Journal) (i : Nat) : Bool := (notes.own i).head?.any (·.reading.opens)

/-- A watcher has ended. -/
def ended (notes : Journal) (i : Nat) : Bool := (notes.own i).any (·.reading.ends)

/-- A watcher has ended before the run was stopped. -/
def lost (notes : Journal) (i : Nat) : Bool := (notes.own i).any fun note => note.reading.ends && !note.stopped

/-- What came to watchers. -/
def watched (notes : Journal) : Journal := notes.filter fun note => match note.reader with
  | .watcher _ => true
  | .sentinel _ => false

/-- How often a watch was cancelled. -/
def cancels (notes : Journal) : Nat := notes.watched.countP (·.reading.cancels)

/-- The number of events that arrived. -/
def events (notes : Journal) : Nat := (notes.watched.map (·.reading.events)).sum

end Journal

namespace Watch.Watcher

/-- What a reading does to a watcher. -/
inductive Reads (w : Watcher) : Bool → Reading → Watcher → WatcherEvent → Prop where
  | opens {stopped : Bool} (watching : Watching) (stage : w.stage = .opening) :
      Reads w stopped (.opened w.key w.withPrefix (.ok watching))
        { w with
          tried := true
          established := w.established || !w.tried
          stage := .watching (.opened watching) } .none
  | refused {stopped : Bool} (e : StoreError) (stage : w.stage = .opening) :
      Reads w stopped (.opened w.key w.withPrefix (.error e)) { w with tried := true, stage := .ended } .lost
  | events (es : List WatchEvent) (rest : Stream) (open_ : w.isOpen = true) :
      Reads w false (.item (.update (.events es)) rest) { w with stage := .watching rest }
        (if es.isEmpty then .none else .received es.length)
  | canceled (reason : String) (rest : Stream) (open_ : w.isOpen = true) :
      Reads w false (.item (.update (.canceled reason)) rest)
        { w with reacquired := w.reacquired + 1, stage := .opening } .none
  | breaks {x : Item} (rest : Stream) (broken : x = .ended ∨ ∃ e, x = .failed e) (open_ : w.isOpen = true) :
      Reads w false (.item x rest) { w with stage := .ended } .lost
  | nothing (rest : Stream) (open_ : w.isOpen = true) :
      Reads w false (.nothing rest) { w with stage := .watching rest } .none
  | told (open_ : w.isOpen = true) : Reads w true .told { w with stage := .ended } .none

variable {w w' : Watcher} {stopped : Bool} {x : Reading} {event : WatcherEvent} {own : Journal}

theorem read_reads (run : w.read stopped x = some (w',event)) : w.Reads stopped x w' event := by
  cases x with
  | opened key withPrefix result =>
    simp only [read,Option.ite_none_right_eq_some,Option.some.injEq] at run
    obtain ⟨⟨stage,rfl,rfl⟩,same⟩ := run
    cases result with
    | ok watching =>
      cases same
      exact .opens watching stage
    | error e =>
      cases same
      exact .refused e stage
  | item x rest =>
    simp only [read,Option.ite_none_right_eq_some,Option.some.injEq,Bool.not_eq_true] at run
    obtain ⟨⟨open_,rfl⟩,same⟩ := run
    cases x with
    | update u =>
      cases u with
      | events es =>
        cases same
        exact .events es rest open_
      | canceled reason =>
        cases same
        exact .canceled reason rest open_
    | failed e =>
      cases same
      exact .breaks rest (.inr ⟨e,rfl⟩) open_
    | ended =>
      cases same
      exact .breaks rest (.inl rfl) open_
  | nothing rest =>
    simp only [read,Option.ite_none_right_eq_some,Option.some.injEq,Bool.not_eq_true] at run
    obtain ⟨⟨open_,rfl⟩,same⟩ := run
    cases same
    exact .nothing rest open_
  | told =>
    simp only [read,Option.ite_none_right_eq_some,Option.some.injEq] at run
    obtain ⟨⟨open_,rfl⟩,same⟩ := run
    cases same
    exact .told open_
  | woken => cases run

theorem Reads.reacquired (reads : w.Reads stopped x w' event) :
    w'.reacquired = w.reacquired + if x.cancels then 1 else 0 := by
  cases reads with
  | breaks rest broken open_ => rcases broken with rfl | ⟨e,rfl⟩ <;> rfl
  | _ => rfl

theorem Reads.established (reads : w.Reads stopped x w' event) :
    w'.established = (w.established || !w.tried && x.opens) := by
  cases reads with
  | opens => simp [Reading.opens]
  | _ => simp [Reading.opens]

theorem Reads.alive (reads : w.Reads stopped x w' event) : w.stage ≠ .ended := by
  intro ended
  cases reads with
  | opens _ stage | refused _ stage => simp [stage] at ended
  | events _ _ open_ | canceled _ _ open_ | breaks _ _ open_ | nothing _ open_ | told open_ =>
    simp [isOpen,ended] at open_

theorem Reads.ended (reads : w.Reads stopped x w' event) : w'.stage = .ended ↔ x.ends = true := by
  cases reads with
  | breaks _ broken _ => rcases broken with rfl | ⟨e,rfl⟩ <;> simp [Reading.ends]
  | _ => simp [Reading.ends]

theorem Reads.left (reads : w.Reads stopped x w' event) (told : stopped = true) : w'.stage.left < w.stage.left := by
  cases reads with
  | opens _ stage | refused _ stage => simp [stage,WatcherStage.left]
  | events | canceled | breaks | nothing => cases told
  | told open_ =>
    cases stage : w.stage with
    | watching s => simp [WatcherStage.left]
    | opening | ended => simp [isOpen,stage] at open_

/-- Only a watcher that has tried to open its watch gets anything but an answer to that. -/
theorem Reads.tried (reads : w.Reads stopped x w' event) (tried : w.stage = .opening ∨ w.tried = true) :
    w'.tried = true := by
  cases reads with
  | opens | refused => rfl
  | events _ _ open_ | canceled _ _ open_ | breaks _ _ open_ | nothing _ open_ | told open_ =>
    refine tried.resolve_left fun opening => ?_
    simp [isOpen,opening] at open_

/-- A watcher stands where what came to it has led. -/
structure Recalls (w : Watcher) (own : Journal) : Prop where
  opening : own = [] → w.stage = .opening
  tried : w.tried = !own.isEmpty
  established : w.established = own.head?.any (·.reading.opens)
  ended : w.stage = .ended ↔ own.any (·.reading.ends) = true
  /-- How much came to it after the run was stopped. -/
  spent : own.countP (·.stopped) + w.stage.left ≤ 2

/-- A reading takes a watcher on from where it stands. -/
theorem Recalls.read (recalls : w.Recalls own) (reads : w.Reads stopped x w' event) (reader : Reader)
    (stays : ∀ note ∈ own, note.stopped = true → stopped = true) : w'.Recalls (own ++ [⟨reader,stopped,x⟩]) := by
  have unended : own.any (·.reading.ends) = false :=
    Bool.eq_false_iff.mpr fun ended => reads.alive (recalls.ended.mpr ended)
  constructor
  case opening => simp
  case tried =>
    rw [reads.tried ?_]
    · simp
    · cases own with
      | nil => exact .inl (recalls.opening rfl)
      | cons note rest => exact .inr recalls.tried
  case established =>
    rw [reads.established,recalls.established,recalls.tried]
    cases own <;> simp
  case ended => simp [reads.ended,List.any_append,unended]
  case spent =>
    have spent := recalls.spent
    rw [List.countP_append,List.countP_singleton]
    cases stopped with
    | true =>
      have fewer := reads.left rfl
      simp only [if_true]
      omega
    | false =>
      have calm : own.countP (·.stopped) = 0 :=
        List.countP_eq_zero.mpr fun note member late => nomatch stays note member late
      have few : w'.stage.left ≤ 2 := by cases w'.stage <;> simp [WatcherStage.left]
      rw [calm]
      simpa using few

end Watch.Watcher

/-! ### Counting over a list -/

section
variable {α : Type} {l : List α} {i : Nat}

/-- Counting the entries of a list is counting their places. -/
theorem countP_range_eq {p : α → Bool} {q : Nat → Bool} (same : ∀ i a, l[i]? = some a → q i = p a) :
    (List.range l.length).countP q = l.countP p := by
  induction l using List.reverseRecOn with
  | nil => rfl
  | append_singleton l a ih =>
    rw [List.length_append,List.length_singleton,List.range_succ,List.countP_append,List.countP_append,ih ?_]
    · rw [List.countP_singleton,List.countP_singleton,same l.length a (by simp)]
    · intro i b at_i
      exact same i b (by rw [List.getElem?_append_left (List.getElem?_eq_some_iff.mp at_i).1,at_i])

/-- Where one more place counts, the number is greater by one. -/
theorem countP_range_raise {n : Nat} {p q : Nat → Bool} (inside : i < n) (was : p i = false) (is_ : q i = true)
    (same : ∀ j, j ≠ i → q j = p j) : (List.range n).countP q = (List.range n).countP p + 1 := by
  induction n with
  | zero => cases inside
  | succ n ih =>
    rw [List.range_succ,List.countP_append,List.countP_append,List.countP_singleton,List.countP_singleton]
    by_cases last : i = n
    · subst last
      have before : (List.range i).countP q = (List.range i).countP p :=
        List.countP_congr fun j member => by rw [same j (Nat.ne_of_lt (List.mem_range.mp member))]
      simp [before,was,is_]
    · rw [ih (by omega),same n (Ne.symm last)]
      omega

/-- Counting among the first numbers does not depend on how many they are, if there are enough for all that count. -/
theorem countP_range_inside {m n : Nat} {p : Nat → Bool} (inside_m : ∀ i, p i = true → i < m)
    (inside_n : ∀ i, p i = true → i < n) : (List.range m).countP p = (List.range n).countP p := by
  have shorter (k : Nat) {n : Nat} (inside : ∀ i, p i = true → i < n) :
      (List.range (n + k)).countP p = (List.range n).countP p := by
    rw [List.range_add,List.countP_append,Nat.add_eq_left,List.countP_eq_zero]
    intro i member holds
    obtain ⟨j,-,rfl⟩ := List.mem_map.mp member
    exact absurd (inside _ holds) (by omega)
  rcases Nat.le_total m n with less | more
  · obtain ⟨k,rfl⟩ := Nat.exists_eq_add_of_le less
    exact (shorter k inside_m).symm
  · obtain ⟨k,rfl⟩ := Nat.exists_eq_add_of_le more
    exact shorter k inside_n

theorem sumAll_map_set {a : α} (f : α → Nat) (at_i : l[i]? = some a) (b : α) :
    sumAll ((l.set i b).map f) + f a = sumAll (l.map f) + f b := by
  induction l generalizing i with
  | nil => cases at_i
  | cons x l ih =>
    cases i with
    | zero =>
      cases at_i
      simp only [List.set_cons_zero,List.map_cons,sumAll]
      omega
    | succ i =>
      have rest := ih (i := i) at_i
      simp only [List.set_cons_succ,List.map_cons,sumAll]
      omega

end

namespace Journal

variable {notes : Journal} {note : Note} {i : Nat}

theorem own_append (notes more : Journal) (i : Nat) : (notes ++ more).own i = notes.own i ++ more.own i :=
  List.filter_append ..

theorem own_self (here : note.reader = .watcher i) : own [note] i = [note] := by
  simp [own,here]

theorem own_other (other : note.reader ≠ .watcher i) : own [note] i = [] := by
  simp [own,other]

theorem watched_append (notes more : Journal) : (notes ++ more).watched = notes.watched ++ more.watched :=
  List.filter_append ..

theorem cancels_append (notes more : Journal) : (notes ++ more).cancels = notes.cancels + more.cancels := by
  rw [cancels,watched_append,List.countP_append]
  rfl

theorem events_append (notes more : Journal) : (notes ++ more).events = notes.events + more.events := by
  rw [events,watched_append,List.map_append,List.sum_append]
  rfl

theorem events_single (i : Nat) (stopped : Bool) (x : Watch.Reading) :
    Journal.events [⟨.watcher i,stopped,x⟩] = x.events := by
  simp [events,watched]

theorem lost_of_ended (unended : notes.ended i = false) : notes.lost i = false := by
  rw [ended,List.any_eq_false] at unended
  rw [lost,List.any_eq_false]
  intro note member
  simp [unended note member]

theorem lost_append (notes more : Journal) (i : Nat) : (notes ++ more).lost i = (notes.lost i || more.lost i) := by
  rw [lost,own_append,List.any_append]
  rfl

/-- A reading may lose a watcher that was not lost, and no other. -/
theorem lost_count {n : Nat} {stopped : Bool} {x : Watch.Reading} (inside : i < n) (kept : notes.lost i = false) :
    (List.range n).countP (lost (notes ++ [⟨.watcher i,stopped,x⟩])) =
      (List.range n).countP notes.lost + if x.ends && !stopped then 1 else 0 := by
  have here : lost (notes ++ [⟨.watcher i,stopped,x⟩]) i = (x.ends && !stopped) := by
    rw [lost_append,kept,Bool.false_or,lost,own_self rfl]
    simp
  have elsewhere : ∀ j, j ≠ i → lost (notes ++ [⟨.watcher i,stopped,x⟩]) j = notes.lost j := by
    intro j other
    rw [lost_append,lost.eq_def [_],own_other (by simpa using Ne.symm other),List.any_nil,Bool.or_false]
  cases loses : x.ends && !stopped with
  | true => exact countP_range_raise inside kept (here.trans loses) elsewhere
  | false =>
    refine List.countP_congr fun j _ => ?_
    by_cases same : j = i
    · rw [same,here,loses,kept]
    · rw [elsewhere j same]

end Journal

namespace Run

variable {σ : Type} {r next : Run σ} {notes : Journal}

theorem noteWatcher_watchers (r : Run σ) (event : Watch.WatcherEvent) : (r.noteWatcher event).watchers = r.watchers ∧
    (r.noteWatcher event).course = r.course ∧ (r.noteWatcher event).stopped = r.stopped := by
  obtain ⟨recorder,same⟩ := noteWatcher_eq r event
  rw [same]
  exact ⟨rfl,rfl,rfl⟩

/-- What is counted of a reading. -/
theorem noteWatcher_watched {w w' : Watch.Watcher} {x : Watch.Reading} {event : Watch.WatcherEvent}
    {events configured lost : Nat} (reads : w.Reads r.stopped x w' event)
    (before : r.recorder.tally.watched = (events % Word.limit,configured,lost)) :
    (r.noteWatcher event).recorder.tally.watched = ((events + x.events) % Word.limit,configured,
      lost + if x.ends && !r.stopped then 1 else 0) := by
  have silent : r.recorder.tally.watched = ((events + 0) % Word.limit,configured,lost + 0) := before
  have life : r.recorder.tally.watchEvents.lifetime = events % Word.limit := congrArg Prod.fst before
  have losing : r.recorder.tally.loseWatcher.watched = (events % Word.limit,configured,lost + 1) := by
    have counted : r.recorder.tally.watchersLost = lost := congrArg (·.2.2) before
    have planned : r.recorder.tally.watchersConfigured = configured := congrArg (·.2.1) before
    simp [Tally.watched,Tally.loseWatcher,life,counted,planned]
  generalize told : r.stopped = stopped at reads ⊢
  cases reads with
  | opens | canceled | nothing | told => simpa [noteWatcher,Watch.Reading.events,Watch.Reading.ends] using silent
  | refused e stage =>
    cases stopped with
    | true => simpa [noteWatcher,told,Watch.Reading.events,Watch.Reading.ends] using silent
    | false => simpa [noteWatcher,told,Recorder.onTally,Watch.Reading.events,Watch.Reading.ends] using losing
  | breaks rest broken open_ =>
    rcases broken with rfl | ⟨e,rfl⟩ <;>
      simpa [noteWatcher,told,Recorder.onTally,Watch.Reading.events,Watch.Reading.ends] using losing
  | events es rest open_ =>
    cases es with
    | nil => simpa [noteWatcher,Watch.Reading.events,Watch.Reading.ends] using silent
    | cons e es =>
      have counted : r.recorder.tally.watchersLost = lost := congrArg (·.2.2) before
      have planned : r.recorder.tally.watchersConfigured = configured := congrArg (·.2.1) before
      simp [noteWatcher,Recorder.watchEvents,Tally.recordWatchEvents,Tally.watched,Views.count,Watch.Reading.events,
        Watch.Reading.ends,life,counted,planned]

/-- The watchers of a run stand where the journal tells, and are counted so. -/
structure Recalled (r : Run σ) (notes : Journal) : Prop where
  own : ∀ (i : Nat) (w : Watch.Watcher), r.watchers[i]? = some w → w.Recalls (notes.own i)
  inside : ∀ note ∈ notes, ∀ i, note.reader = .watcher i → i < r.watchers.length
  stays : ∀ note ∈ notes, note.stopped = true → r.stopped = true
  reacquired : r.watchesReacquired = notes.cancels
  watched : r.recorder.tally.watched =
    (notes.events % Word.limit,r.watchers.length,(List.range r.watchers.length).countP notes.lost)
  course : ∃ c, r.course = some c ∧ (c.phase.begins = true → r.watchers = []) ∧
    (c.phase.isOpening = false → ∀ w ∈ r.watchers, w.tried = true)

/-- What comes to a watcher is accounted for. -/
theorem Recalled.watcher {i : Nat} {x : Watch.Reading} (recalled : Recalled r notes)
    (run : r.hear x (.watcher i) = some next) : Recalled next (notes ++ [⟨.watcher i,r.stopped,x⟩]) := by
  obtain ⟨w,w',event,at_i,read,rfl⟩ := hear_watcher run
  have reads := Watch.Watcher.read_reads read
  have inside := (List.getElem?_eq_some_iff.mp at_i).1
  obtain ⟨watchers,course,stopped⟩ := noteWatcher_watchers { r with watchers := r.watchers.set i w' } event
  dsimp only at watchers course stopped
  have recalls := recalled.own i w at_i
  have unended : notes.ended i = false := Bool.eq_false_iff.mpr fun ended => reads.alive (recalls.ended.mpr ended)
  constructor
  case own =>
    intro j v at_j
    rw [watchers] at at_j
    rw [Journal.own_append]
    by_cases here : i = j
    · subst here
      rw [List.getElem?_set_self inside] at at_j
      cases at_j
      rw [Journal.own_self rfl]
      exact recalls.read reads (.watcher i) fun note member => recalled.stays note (List.mem_filter.mp member).1
    · rw [List.getElem?_set_ne here] at at_j
      rw [Journal.own_other (by simpa using here),List.append_nil]
      exact recalled.own j v at_j
  case inside =>
    intro note member j reader
    rw [watchers,List.length_set]
    rcases List.mem_append.mp member with old | new
    · exact recalled.inside note old j reader
    · rw [List.mem_singleton.mp new] at reader
      cases reader
      exact inside
  case stays =>
    rw [stopped]
    intro note member late
    rcases List.mem_append.mp member with old | new
    · exact recalled.stays note old late
    · rw [List.mem_singleton.mp new] at late
      exact late
  case reacquired =>
    have sums := sumAll_map_set Watch.Watcher.reacquired at_i w'
    have before := recalled.reacquired
    rw [watchesReacquired] at before ⊢
    rw [watchers,Journal.cancels_append]
    have now : Journal.cancels [⟨.watcher i,r.stopped,x⟩] = if x.cancels then 1 else 0 := by
      simp [Journal.cancels,Journal.watched,List.countP_singleton]
    have reacquired := reads.reacquired
    omega
  case watched =>
    have counted := noteWatcher_watched (r := { r with watchers := r.watchers.set i w' }) reads recalled.watched
    rw [counted,watchers,List.length_set,Journal.events_append,Journal.events_single,
      Journal.lost_count inside (Journal.lost_of_ended unended)]
  case course =>
    obtain ⟨c,at_c,begins,tried⟩ := recalled.course
    refine ⟨c,course.trans at_c,fun starts => ?_,fun past v member => ?_⟩
    · rw [begins starts] at inside
      cases inside
    · rw [watchers] at member
      rcases List.mem_or_eq_of_mem_set member with old | rfl
      · exact tried past v old
      · exact reads.tried (.inr (tried past w (List.mem_of_getElem? at_i)))

/-- Where the main task may stand in a run with these watchers. -/
def Suits (r : Run σ) (phase : Phase σ) : Prop :=
  (phase.begins = true → r.watchers = []) ∧ (phase.isOpening = false → ∀ w ∈ r.watchers, w.tried = true)

theorem Recalled.spared {c : Course σ} (recalled : Recalled r notes) (watchers : next.watchers = r.watchers)
    (watched : next.recorder.tally.watched = r.recorder.tally.watched) (course : next.course = some c)
    (past : Suits r c.phase) (stops : r.stopped = true → next.stopped = true) : Recalled next notes := by
  obtain ⟨own,inside,stays,reacquired,counted,-⟩ := recalled
  rw [← watchers] at own inside
  rw [← watched,← watchers] at counted
  rw [watchesReacquired,← watchers] at reacquired
  rw [Suits,← watchers] at past
  exact ⟨own,inside,fun note member late => stops (stays note member late),reacquired,counted,c,course,past⟩

/-- What comes to a sentinel tells nothing of watchers. -/
theorem Recalled.sentinel {note : Note} {w : Wait} (recalled : Recalled r notes) (reader : note.reader = .sentinel w)
    (stays : note.stopped = true → r.stopped = true) : Recalled r (notes ++ [note]) := by
  obtain ⟨own,inside,stayed,reacquired,counted,course⟩ := recalled
  have same (i : Nat) : Journal.own (notes ++ [note]) i = notes.own i := by
    rw [Journal.own_append,Journal.own_other (by simp [reader]),List.append_nil]
  have watched : Journal.watched (notes ++ [note]) = notes.watched := by
    simp [Journal.watched,reader]
  constructor
  case own =>
    intro i v at_i
    rw [same i]
    exact own i v at_i
  case inside =>
    intro other member i watcher
    rcases List.mem_append.mp member with old | new
    · exact inside other old i watcher
    · rw [List.mem_singleton.mp new,reader] at watcher
      cases watcher
  case stays =>
    intro other member late
    rcases List.mem_append.mp member with old | new
    · exact stayed other old late
    · rw [List.mem_singleton.mp new] at late
      exact stays late
  case reacquired => rw [reacquired,Journal.cancels,Journal.cancels,watched]
  case watched =>
    have lost : Journal.lost (notes ++ [note]) = notes.lost := funext fun i => by rw [Journal.lost,same i,Journal.lost]
    rw [counted,lost,Journal.events,Journal.events,watched]
  case course => exact course

theorem interrupt_recalls {w : Watch.Watcher} {own : Journal} (recalls : w.Recalls own) (x : Watch.Interruption) :
    (w.interrupt x).Recalls own := by
  unfold Watch.Watcher.interrupt
  split
  · rename_i s stage
    have spent := recalls.spent
    refine ⟨fun nothing => ?_,recalls.tried,recalls.established,?_,?_⟩
    · rw [recalls.opening nothing] at stage
      cases stage
    · rw [← recalls.ended,stage]
      simp
    · rwa [stage] at spent
  · exact recalls

theorem interrupt_kept (w : Watch.Watcher) (x : Watch.Interruption) :
    (w.interrupt x).reacquired = w.reacquired ∧ (w.interrupt x).tried = w.tried := by
  unfold Watch.Watcher.interrupt
  split <;> exact ⟨rfl,rfl⟩

/-- What befalls the open watches is not noticed yet. -/
theorem Recalled.interrupted {c : Course σ} {x : Watch.Interruption} (recalled : Recalled r notes)
    (watchers : next.watchers = r.watchers.map (·.interrupt x))
    (watched : next.recorder.tally.watched = r.recorder.tally.watched) (course : next.course = some c)
    (past : Suits r c.phase) (stops : r.stopped = true → next.stopped = true) : Recalled next notes := by
  obtain ⟨own,inside,stays,reacquired,counted,-⟩ := recalled
  have length : next.watchers.length = r.watchers.length := by rw [watchers,List.length_map]
  constructor
  case own =>
    intro i v at_i
    rw [watchers,List.getElem?_map] at at_i
    obtain ⟨w,old,rfl⟩ := Option.map_eq_some_iff.mp at_i
    exact interrupt_recalls (own i w old) x
  case inside => rwa [length]
  case stays => exact fun note member late => stops (stays note member late)
  case reacquired =>
    rw [← reacquired,watchesReacquired,watchesReacquired,watchers,List.map_map]
    exact congrArg sumAll (List.map_congr_left fun w _ => (interrupt_kept w x).1)
  case watched => rwa [watched,length]
  case course =>
    refine ⟨c,course,fun begins => by rw [watchers,past.1 begins]; rfl,fun opened w member => ?_⟩
    rw [watchers] at member
    obtain ⟨w,old,rfl⟩ := List.mem_map.mp member
    exact (interrupt_kept w x).2.trans (past.2 opened w old)

/-- The main task has come to its watches, of which nothing is told yet. -/
theorem Recalled.opens {keys : List String} {withPrefix : Bool} {c : Course σ} (recalled : Recalled r notes)
    (none_yet : r.watchers = []) (course : next.course = some c) (opens : Opens r next keys withPrefix c.phase)
    (stops : r.stopped = true → next.stopped = true) : Recalled next notes := by
  have unread : ∀ note ∈ notes, ∀ i, note.reader ≠ .watcher i := by
    intro note member i reader
    have inside := recalled.inside note member i reader
    rw [none_yet] at inside
    cases inside
  have own (i : Nat) : notes.own i = [] := List.filter_eq_nil_iff.mpr fun note member => by
    simpa using unread note member i
  have watched : notes.watched = [] := by
    refine List.filter_eq_nil_iff.mpr fun note member => ?_
    cases reader : note.reader with
    | watcher i => exact absurd reader (unread note member i)
    | sentinel w => simp
  have watchers : next.watchers = keys.map (Watch.Watcher.fresh · withPrefix) := by rw [opens.watchers,none_yet]; rfl
  have lost (i : Nat) : notes.lost i = false := by rw [Journal.lost,own i]; rfl
  have none_lost (n : Nat) : (List.range n).countP notes.lost = 0 := by simp [List.countP_eq_zero,lost]
  have fresh {w : Watch.Watcher} (member : w ∈ next.watchers) : ∃ key, w = .fresh key withPrefix := by
    rw [watchers] at member
    obtain ⟨key,-,rfl⟩ := List.mem_map.mp member
    exact ⟨key,rfl⟩
  constructor
  case own =>
    intro i w at_i
    obtain ⟨key,rfl⟩ := fresh (List.mem_of_getElem? at_i)
    rw [own i]
    exact ⟨fun _ => rfl,rfl,rfl,by simp [Watch.Watcher.fresh],Nat.le_refl 2⟩
  case inside => exact fun note member i reader => absurd reader (unread note member i)
  case stays => exact fun note member late => stops (recalled.stays note member late)
  case reacquired =>
    have none_reacquired : sumAll (next.watchers.map Watch.Watcher.reacquired) = 0 := by
      rw [watchers]
      clear * -
      induction keys with
      | nil => rfl
      | cons key keys ih => exact (Nat.zero_add _).trans ih
    rw [watchesReacquired,none_reacquired,Journal.cancels,watched]
    rfl
  case watched =>
    have before := recalled.watched
    rw [none_yet,Journal.events,watched] at before
    rw [opens.watched before,watchers,List.length_map,none_lost,Journal.events,watched]
    rfl
  case course =>
    have nobody (none_left : keys = []) : next.watchers = [] := by rw [watchers,none_left]; rfl
    refine ⟨c,course,fun begins => ?_,fun past w member => ?_⟩
    · rcases opens.opening with opening | ⟨none_left,-⟩
      · cases phase : c.phase <;> simp [phase,Phase.begins,Phase.isOpening] at begins opening
      · exact nobody none_left
    · rcases opens.opening with opening | ⟨none_left,-⟩
      · rw [past] at opening
        cases opening
      · rw [nobody none_left] at member
        cases member

/-! ### Whatever happens -/

variable {c : Course σ}

theorem Suits.away (past : Suits r c.phase) {phase : Phase σ} (went : phase.begins = false)
    (tried : c.phase.isOpening = true → r.watchers.all (·.tried) = true) : Suits r phase := by
  refine ⟨fun begins => ?_,fun _ w member => ?_⟩
  · rw [went] at begins
    cases begins
  · by_cases opening : c.phase.isOpening = true
    · exact List.all_eq_true.mp (tried opening) w member
    · exact past.2 (Bool.eq_false_iff.mpr opening) w member

theorem befallen_begins (x : Watch.Interruption) (phase : Phase σ) : (befallen x phase).begins = phase.begins := by
  cases phase <;> rfl

theorem befallen_isOpening (x : Watch.Interruption) (phase : Phase σ) :
    (befallen x phase).isOpening = phase.isOpening := by
  cases phase <;> rfl

theorem begins_of_away {phase : Phase σ} (away : phase.isAway = true) : phase.begins = false := by
  cases phase <;> first | rfl | cases away

theorem Recalled.main (recalled : Recalled r notes) (course : r.course = some c) (turn : MainTurn r next c)
    (stops : r.stopped = true → next.stopped = true) : Recalled next notes := by
  obtain ⟨c',course',past⟩ := recalled.course
  cases course.symm.trans course'
  cases turn with
  | prepares begins prepares =>
    obtain ⟨c',keys,withPrefix,after,opens⟩ := prepares
    exact recalled.opens (past.1 begins) after opens stops
  | lands _ tried lands =>
    obtain ⟨c',after,away,spares⟩ := lands
    have past : Suits r c'.phase := Suits.away past (begins_of_away away) tried
    exact recalled.spared spares.watchers (by rw [spares.recorder]) after past stops
  | connects dials connects =>
    refine recalled.spared connects.watchers (by rw [connects.recorder]) connects.course ?_ stops
    exact Suits.away past rfl (by simp [dials,Phase.isOpening])

/-- The main task's own reading leaves the watchers and what is counted of them. -/
theorem guarded_spares (r : Run σ) (c : Course σ) (w : Wait) (id : Nat) (t : Sentinel) :
    (r.guarded c w id t).watchers = r.watchers ∧ (r.guarded c w id t).recorder = r.recorder ∧
      (r.stopped = true → (r.guarded c w id t).stopped = true) ∧
      ∃ c', (r.guarded c w id t).course = some c' ∧ c'.phase.begins = false ∧ c'.phase.isOpening = false := by
  rcases guarded_move r c w id t with ⟨-,same⟩ | ⟨result,-,move⟩
  · rw [same]
    exact ⟨rfl,rfl,fun told => told,_,rfl,rfl,rfl⟩
  · obtain ⟨c',course,away,spares⟩ := move.lands
    have left := hangUp_spares r id w result
    refine ⟨spares.watchers.trans left.watchers,spares.recorder.trans left.recorder,
      fun told => move.extends.stopped ((hangUp_extends r id w result).stopped told),c',course,begins_of_away away,?_⟩
    cases phase : c'.phase <;> first | rfl | simp [phase,Phase.isAway] at away

theorem Recalled.guarded {w : Wait} {x : Watch.Reading} (recalled : Recalled r notes)
    (run : r.hear x (.sentinel w) = some next) : Recalled next (notes ++ [⟨.sentinel w,r.stopped,x⟩]) := by
  obtain ⟨c,id,t,t',course,phase,-,rfl⟩ := hear_sentinel run
  obtain ⟨c',course',past⟩ := recalled.course
  cases course.symm.trans course'
  obtain ⟨watchers,recorder,stops,c',after,begins,opening⟩ := guarded_spares r c w id t'
  refine Recalled.sentinel (recalled.spared watchers (by rw [recorder]) after ?_ stops) rfl stops
  exact Suits.away past begins (by simp [phase,Phase.isOpening])

theorem recalled_start (e : Engine) (goal : Goal) (options : DispatchOptions) (site : Site) (pool : Pool) (nowMs : Nat)
    (streams : Nat → σ) :
    Recalled (ofCourse site pool nowMs (Course.start e goal options pool.size nowMs streams)) [] := by
  refine ⟨?_,?_,?_,rfl,rfl,_,rfl,fun _ => rfl,?_⟩
  · intro i w at_i
    cases at_i
  · intro note member
    cases member
  · intro note member
    cases member
  · intro _ w member
    cases member

section
variable [RandomSource σ]

theorem Recalled.step {ev : Event} (recalled : Recalled r notes) (unread : r.reads ev = false)
    (run : r.step ev = some next) : Recalled next notes := by
  obtain ⟨c,course,past⟩ := recalled.course
  by_cases main : ev = .turn .main
  · subst main
    refine recalled.main course (moveMain_turn course ?_ run) (moveMain_extends run).stopped
    simpa [Run.reads] using unread
  · have beside := step_unread run unread main
    obtain ⟨phase,after,still⟩ := step_course run main course
    have past : Suits r phase := by
      rcases still with rfl | ⟨x,rfl⟩
      · exact past
      · rwa [Suits,befallen_begins,befallen_isOpening]
    rcases beside.watchers with same | ⟨x,befell⟩
    · exact recalled.spared same beside.watched after past (step_stopped run)
    · exact recalled.interrupted befell beside.watched after past (step_stopped run)

theorem Recalled.happen {h : Happening} {more : Journal} (recalled : Recalled r notes)
    (run : r.happen h = some (more,next)) : Recalled next (notes ++ more) := by
  cases h with
  | step ev =>
    simp only [Run.happen,Option.ite_none_left_eq_some] at run
    obtain ⟨unread,run⟩ := run
    obtain ⟨after,stepped,same⟩ := Option.map_eq_some_iff.mp run
    cases same
    rw [List.append_nil]
    exact recalled.step (by simpa using unread) stepped
  | read reader x =>
    obtain ⟨after,heard,same⟩ := Option.map_eq_some_iff.mp run
    cases same
    cases reader with
    | watcher i => exact recalled.watcher heard
    | sentinel w => exact recalled.guarded heard
  | store memory refusing =>
    cases run
    rw [List.append_nil]
    obtain ⟨own,inside,stays,reacquired,watched,course⟩ := recalled
    exact ⟨own,inside,stays,reacquired,watched,course⟩

theorem Recalled.noted {first : Run σ} {more : Journal} (recalled : Recalled first notes) (noted : Noted first more r) :
    Recalled r (notes ++ more) := by
  induction noted with
  | start => rwa [List.append_nil]
  | happens _ run ih =>
    rw [← List.append_assoc]
    exact ih.happen run

end

/-! ### The account -/

/-- The number of watchers of which something holds. -/
def watchersThat (r : Run σ) (holds : Nat → Bool) : Nat := (List.range r.watchers.length).countP holds

/-- What is counted of watches is what the journal tells. -/
structure Reckons (r : Run σ) (notes : Journal) : Prop where
  active : r.watchersActive + r.watchersThat notes.ended = r.watchersThat notes.started
  established : r.watchersEstablished = r.watchersThat notes.established
  reacquired : r.watchesReacquired = notes.cancels
  events : r.recorder.tally.watchEvents.lifetime = notes.events % Word.limit
  configured : r.recorder.tally.watchersConfigured = r.watchers.length
  lost : r.recorder.tally.watchersActive + r.watchersThat notes.lost = r.watchers.length
  /-- The main task goes on only when every watcher has made its first attempt. -/
  tried : ∀ c, r.course = some c → c.phase.isOpening = false → r.watchersThat notes.started = r.watchers.length
  /-- Closing the watches waits for every watcher. -/
  closed : ∀ c result, r.watchesClosed? c = some result → r.watchersActive = 0

/-- Watchers that have started are active or have ended. -/
theorem countP_tried {watchers : List Watch.Watcher} (ended : ∀ w ∈ watchers, w.stage = .ended → w.tried = true) :
    watchers.countP Watch.Watcher.isActive + watchers.countP (·.stage == .ended) = watchers.countP (·.tried) := by
  induction watchers with
  | nil => rfl
  | cons w rest ih =>
    have here := ended w List.mem_cons_self
    have rest := ih fun v member => ended v (List.mem_cons_of_mem w member)
    rw [List.countP_cons,List.countP_cons,List.countP_cons,← rest]
    by_cases gone : w.stage = .ended
    · simp [Watch.Watcher.isActive,gone,here gone]
      omega
    · simp [Watch.Watcher.isActive,gone]
      omega

theorem closed_inactive {c : Course σ} {result : Except RunError Unit} (closed : r.watchesClosed? c = some result) :
    r.watchersActive = 0 := by
  unfold watchesClosed? at closed
  split at closed
  · rename_i ended
    refine List.countP_eq_zero.mpr fun w member => ?_
    have gone := List.all_eq_true.mp ended w member
    simp only [beq_iff_eq] at gone
    simp [Watch.Watcher.isActive,gone]
  · cases closed

theorem Recalled.reckons (recalled : Recalled r notes) : Reckons r notes := by
  obtain ⟨own,-,-,reacquired,watched,course⟩ := recalled
  have configured : r.recorder.tally.watchersConfigured = r.watchers.length := congrArg (·.2.1) watched
  have lost : r.recorder.tally.watchersLost = r.watchersThat notes.lost := congrArg (·.2.2) watched
  have started : r.watchersThat notes.started = r.watchers.countP (·.tried) :=
    countP_range_eq fun i w at_i => (own i w at_i).tried.symm
  have ended : r.watchersThat notes.ended = r.watchers.countP (·.stage == .ended) := by
    refine countP_range_eq fun i w at_i => ?_
    rw [Bool.eq_iff_iff,beq_iff_eq]
    exact (own i w at_i).ended.symm
  constructor
  case active =>
    rw [started,ended]
    refine countP_tried fun w member gone => ?_
    obtain ⟨i,at_i⟩ := List.mem_iff_getElem?.mp member
    have recalls := own i w at_i
    have something := recalls.ended.mp gone
    rw [recalls.tried]
    cases some_ : notes.own i with
    | nil =>
      rw [some_] at something
      cases something
    | cons note rest => rfl
  case established => exact (countP_range_eq fun i w at_i => (own i w at_i).established.symm).symm
  case reacquired => exact reacquired
  case events => exact congrArg Prod.fst watched
  case configured => exact configured
  case lost =>
    have few : r.watchersThat notes.lost ≤ r.watchers.length := by
      simpa [watchersThat] using List.countP_le_length (p := notes.lost) (l := List.range r.watchers.length)
    rw [Tally.watchersActive,configured,lost]
    omega
  case tried =>
    obtain ⟨c,at_c,-,tried⟩ := course
    intro c' at_c' opened
    cases at_c.symm.trans at_c'
    rw [started,List.countP_eq_length]
    exact tried opened
  case closed => exact fun c result closed => closed_inactive closed

theorem Recalled.lost_inside (recalled : Recalled r notes) {i : Nat} (lost : notes.lost i = true) :
    i < r.watchers.length := by
  obtain ⟨note,member,-⟩ := List.any_eq_true.mp lost
  obtain ⟨member,reader⟩ := List.mem_filter.mp member
  exact recalled.inside note member i (by simpa using reader)

section
variable [RandomSource σ]

/-- What comes of the watchers once the run is stopped. -/
structure Subsides (r : Run σ) (more : Journal) (t : Run σ) : Prop where
  /-- At most two things come to a watcher: an answer, and that it is told. -/
  few : ∀ i, (more.own i).length ≤ 2
  goes_on : ∀ (i : Nat) (w : Watch.Watcher), t.watchers[i]? = some w → w.stage ≠ .ended →
    ∃ next, t.moveWatcher i = some next
  /-- None is lost any more: only watchers that were planned meanwhile make a difference. -/
  kept : t.recorder.tally.watchersActive + r.watchers.length = r.recorder.tally.watchersActive + t.watchers.length

/-- A run that is stopped stays so, and what comes to readers then is noted as such. -/
theorem happen_stopped {h : Happening} {more : Journal} (told : r.stopped = true)
    (run : r.happen h = some (more,next)) : next.stopped = true ∧ ∀ note ∈ more, note.stopped = true := by
  cases h with
  | step ev =>
    simp only [Run.happen,Option.ite_none_left_eq_some] at run
    obtain ⟨after,stepped,same⟩ := Option.map_eq_some_iff.mp run.2
    cases same
    exact ⟨step_stopped stepped told,by simp⟩
  | read reader x =>
    obtain ⟨after,heard,same⟩ := Option.map_eq_some_iff.mp run
    cases same
    refine ⟨?_,by simpa using told⟩
    cases reader with
    | watcher i =>
      obtain ⟨w,w',event,-,-,rfl⟩ := hear_watcher heard
      exact (noteWatcher_watchers _ event).2.2.trans told
    | sentinel w =>
      obtain ⟨c,id,t,t',-,-,-,rfl⟩ := hear_sentinel heard
      exact (guarded_spares r c w id t').2.2.1 told
  | store memory refusing =>
    cases run
    exact ⟨told,by simp⟩

theorem noted_stopped {first : Run σ} {more : Journal} (told : first.stopped = true) (noted : Noted first more r) :
    r.stopped = true ∧ ∀ note ∈ more, note.stopped = true := by
  induction noted with
  | start => exact ⟨told,by simp⟩
  | happens _ run ih =>
    obtain ⟨still,late⟩ := happen_stopped ih.1 run
    refine ⟨still,fun note member => ?_⟩
    rcases List.mem_append.mp member with old | new
    · exact ih.2 note old
    · exact late note new

theorem Recalled.subsides {t : Run σ} {more : Journal} (recalled : Recalled r notes) (told : r.stopped = true)
    (noted : Noted r more t) : Subsides r more t := by
  have later := recalled.noted noted
  obtain ⟨told,late⟩ := noted_stopped told noted
  have own_late (i : Nat) : (more.own i).countP (·.stopped) = (more.own i).length :=
    List.countP_eq_length.mpr fun note member => late note (List.mem_filter.mp member).1
  constructor
  case few =>
    intro i
    cases at_i : t.watchers[i]? with
    | none =>
      have nothing : more.own i = [] := by
        refine List.filter_eq_nil_iff.mpr fun note member reader => ?_
        have inside := later.inside note (List.mem_append_right notes member) i (by simpa using reader)
        exact absurd at_i (by simp [inside])
      simp [nothing]
    | some w =>
      have spent := (later.own i w at_i).spent
      rw [Journal.own_append,List.countP_append,own_late i] at spent
      omega
  case goes_on => exact fun i w at_i active => moveWatcher_goes_on told at_i active
  case kept =>
    have none_lost (i : Nat) : more.lost i = false := by
      refine List.any_eq_false.mpr fun note member => ?_
      simp [late note (List.mem_filter.mp member).1]
    have same : Journal.lost (notes ++ more) = notes.lost := by
      funext i
      rw [Journal.lost_append,none_lost i,Bool.or_false]
    have before := recalled.reckons.lost
    have after := later.reckons.lost
    have lost : t.watchersThat (Journal.lost (notes ++ more)) = r.watchersThat notes.lost := by
      rw [same]
      refine countP_range_inside (fun i lost => later.lost_inside (same ▸ lost)) fun i lost => recalled.lost_inside lost
    omega

/-- Watch accounting: a run at a store that answers watchers in any way counts of them what the journal tells. Once it
is stopped its watchers end and none is lost any more. -/
theorem watches_account (e : Engine) (goal : Goal) (options : DispatchOptions) (site : Site) (pool : Pool) (nowMs : Nat)
    (streams : Nat → σ) :
    let first := ofCourse site pool nowMs (Course.start e goal options pool.size nowMs streams)
    (∀ events r, first.steps events = some r → ∃ notes, Noted first notes r) ∧
      ∀ notes r, Noted first notes r →
        Reckons r notes ∧ (r.stopped = true → ∀ more t, Noted r more t → Subsides r more t) := by
  intro first
  refine ⟨fun events r run => steps_noted run,fun notes r noted => ?_⟩
  have recalled : Recalled r notes := (recalled_start e goal options site pool nowMs streams).noted noted
  exact ⟨recalled.reckons,fun told more t later => recalled.subsides told later⟩

end

/-- Settings of two keys with a watcher each. -/
def bothWatched : Settings :=
  { Engine.plainly "/%k%d[2];z" with watches := { Settings.standard.watches with countsPerLevel := some "n" } }

/-- A run that only opens the watches. -/
def lookingOn (e : Engine) : Run Xoshiro := ofEngine e .watches (Site.fresh .prompt .empty) (Pool.deal [0] 1) 0

/-- The first watcher gets an event; both watches are cancelled, and the first alone is opened again before the stop. -/
def refuseOne : List Event :=
  [.turn .main,.turn (.watcher 0),.turn (.watcher 1),.turn .main,.outside (.write "/k0" .empty),.turn (.watcher 0),
    .outside .cancelWatches,.turn (.watcher 0),.turn (.watcher 0),.turn (.watcher 1),.outside (.refuseWatches 1),
    .turn (.watcher 1),.outside .stop]

/-- One of two watchers is lost before the stop and one ends with it; that one still counts as active. -/
theorem refused_watcher_accounts : ∃ e r t notes more, Engine.new bothWatched 1 = ExceptT.mk (.ok (.ok e)) ∧
    Noted (lookingOn e) notes r ∧ r.stopped = true ∧ Noted r more t ∧
    (r.watchersActive = 1 ∧ r.watchersEstablished = 2 ∧ r.watchesReacquired = 2) ∧
    (r.recorder.tally.watchEvents.lifetime = 1 ∧ r.recorder.tally.watchersConfigured = 2) ∧
    (t.watchersActive = 0 ∧ t.recorder.tally.watchersActive = 1) ∧ Reckons r notes ∧ Subsides r more t := by
  have ran : ((Engine.new bothWatched 1).run.toOption.bind Except.toOption).any (fun e =>
      ((lookingOn e).steps refuseOne).any fun r => r.stopped && decide (r.watchersActive = 1 ∧
          r.watchersEstablished = 2 ∧ r.watchesReacquired = 2) &&
        decide (r.recorder.tally.watchEvents.lifetime = 1 ∧ r.recorder.tally.watchersConfigured = 2) &&
        (r.steps [.turn (.watcher 0)]).any fun t =>
          decide (t.watchersActive = 0 ∧ t.recorder.tally.watchersActive = 1)) = true := by
    decide +kernel
  obtain ⟨e,accepted,ran⟩ := (Option.any_eq_true _ _).mp ran
  obtain ⟨r,run,ran⟩ := (Option.any_eq_true _ _).mp ran
  obtain ⟨ran,ends⟩ := Bool.and_eq_true_iff.mp ran
  obtain ⟨ran,counted⟩ := Bool.and_eq_true_iff.mp ran
  obtain ⟨told,active⟩ := Bool.and_eq_true_iff.mp ran
  obtain ⟨t,later,ended⟩ := (Option.any_eq_true _ _).mp ends
  obtain ⟨every,accounts⟩ := watches_account e .watches (.ofSettings e.settings.client e.settings.reads)
    (Site.fresh .prompt .empty) (Pool.deal [0] 1) 0 e.stream
  obtain ⟨notes,noted⟩ := every refuseOne r run
  obtain ⟨more,later⟩ := steps_noted later
  obtain ⟨reckons,subsides⟩ := accounts notes r noted
  exact ⟨e,r,t,notes,more,Engine.new_of_toOption accepted,noted,told,later,of_decide_eq_true active,
    of_decide_eq_true counted,of_decide_eq_true ended,reckons,subsides told more t later⟩

end Run

end Keyload
