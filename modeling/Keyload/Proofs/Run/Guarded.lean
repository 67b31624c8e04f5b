import Keyload.Proofs.Run.TestEnd
import Keyload.Proofs.Run.Unread

/-!
What ends the wait for a key. Whatever the store answers and yields, a sentinel has seen the value only if an event
gave it, on a watch that was opened on the key; it gives up only when it is told, and fails only when a watch is not
opened. The main task waits on a connection of its own, which it closes once, when the wait ends.
-/
namespace Keyload

namespace Watch.Reading

/-- How a wait ends with a reading, if it does. -/
def verdict? : Reading → Option (Except StoreError Bool)
  | .opened _ _ (.error e) => some (.error e)
  | .item (.update (.events es)) _ => if es.any Sentinel.isAwaited then some (.ok true) else none
  | .told => some (.ok false)
  | _ => none

/-- A reading after which a sentinel reads on from the same watch. -/
def readsOn : Reading → Bool
  | .item (.update (.events es)) _ => !es.any Sentinel.isAwaited
  | .nothing _ => true
  | _ => false

end Watch.Reading

namespace Sentinel

/-- What comes to a sentinel, one after the other and at any times; in between anything may befall its watch. -/
inductive Hears (first : Sentinel) : Journal → Sentinel → Prop where
  | start : Hears first [] first
  | befalls {heard : Journal} {t : Sentinel} (x : Watch.Interruption) :
      Hears first heard t → Hears first heard (t.interrupt x)
  | reads {heard : Journal} {t t' : Sentinel} {note : Note} {nowMs : Nat} :
      Hears first heard t → t.read note.stopped nowMs note.reading = some t' → Hears first (heard ++ [note]) t'

/-- A watch on the key was opened, and nothing has come from it but other events. -/
def Watched (key : String) (heard : Journal) : Prop :=
  ∃ before opening since w, heard = before ++ opening :: since ∧ opening.reading = .opened key false (.ok w) ∧
    ∀ note ∈ since, note.reading.readsOn = true

/-- What a sentinel heard last, by how its wait ended. -/
inductive Verdict (key : String) : Journal → Except StoreError Bool → Prop where
  | seen {before : Journal} {last : Note} {es : List WatchEvent} {rest : Watch.Stream} {e : WatchEvent}
      (watched : Watched key before) (events : last.reading = .item (.update (.events es)) rest) (member : e ∈ es)
      (put : e.change = .put) (value : e.value = "true".toUTF8) : Verdict key (before ++ [last]) (.ok true)
  | told {before : Journal} {last : Note} (told : last.reading = .told) (stopped : last.stopped = true) :
      Verdict key (before ++ [last]) (.ok false)
  | refused {before : Journal} {last : Note} {e : StoreError} (refused : last.reading = .opened key false (.error e)) :
      Verdict key (before ++ [last]) (.error e)

/-- A sentinel ends its wait as what it heard says, and not before. -/
structure Judges (key : String) (heard : Journal) (t : Sentinel) : Prop where
  same_key : t.key = key
  outcome : t.outcome? = heard.findSome? (·.reading.verdict?)
  undecided : ∀ note ∈ heard.dropLast, note.reading.verdict? = none
  verdict : ∀ result, t.outcome? = some result → Verdict key heard result
  watched : t.isOpen = true → Watched key heard

/-- What a reading does to a sentinel. -/
inductive Reads (t : Sentinel) : Bool → Watch.Reading → Sentinel → Prop where
  | opens (w : Watching) (stage : t.stage = .opening) :
      Reads t false (.opened t.key false (.ok w)) { t with stage := .watching (.opened w) }
  | refused (e : StoreError) (stage : t.stage = .opening) :
      Reads t false (.opened t.key false (.error e)) { t with stage := .failed e }
  | item (x : Watch.Item) (rest : Watch.Stream) (nowMs : Nat) (open_ : t.isOpen = true) :
      Reads t false (.item x rest) { t with stage := after nowMs rest (some x) }
  | nothing (rest : Watch.Stream) (open_ : t.isOpen = true) :
      Reads t false (.nothing rest) { t with stage := .watching rest }
  | told (waits : t.stage = .opening ∨ t.isOpen = true) : Reads t true .told { t with stage := .settled false }
  | woken {stopped : Bool} {untilMs : Nat} (stage : t.stage = .pausing untilMs) :
      Reads t stopped .woken { t with stage := .opening }

variable {t t' : Sentinel} {stopped : Bool} {nowMs : Nat} {x : Watch.Reading} {key : String} {heard : Journal}

theorem read_reads (run : t.read stopped nowMs x = some t') : t.Reads stopped x t' := by
  cases x with
  | opened key withPrefix result =>
    simp only [read,Option.ite_none_right_eq_some,Option.some.injEq,Bool.not_eq_true] at run
    obtain ⟨⟨stage,rfl,rfl,rfl⟩,rfl⟩ := run
    cases result with
    | ok w => exact .opens w stage
    | error e => exact .refused e stage
  | item x rest =>
    simp only [read,Option.ite_none_right_eq_some,Option.some.injEq,Bool.not_eq_true] at run
    obtain ⟨⟨open_,rfl⟩,rfl⟩ := run
    exact .item x rest nowMs open_
  | nothing rest =>
    simp only [read,Option.ite_none_right_eq_some,Option.some.injEq,Bool.not_eq_true] at run
    obtain ⟨⟨open_,rfl⟩,rfl⟩ := run
    exact .nothing rest open_
  | told =>
    simp only [read,Option.ite_none_right_eq_some,Option.some.injEq] at run
    obtain ⟨⟨waits,rfl⟩,rfl⟩ := run
    exact .told waits
  | woken =>
    simp only [read] at run
    split at run
    · rename_i untilMs stage
      simp only [Option.ite_none_right_eq_some,Option.some.injEq] at run
      obtain ⟨-,rfl⟩ := run
      exact .woken stage
    · cases run

/-- Only a sentinel whose wait goes on gets anything. -/
theorem Reads.unsettled (reads : t.Reads stopped x t') : t.outcome? = none := by
  have of_open (open_ : t.isOpen = true) : t.outcome? = none := by
    unfold isOpen at open_
    unfold outcome?
    split at open_
    · rename_i stage
      rw [stage]
    · cases open_
  cases reads with
  | opens _ stage | refused _ stage | woken stage => simp [outcome?,stage]
  | item _ _ _ open_ | nothing _ open_ => exact of_open open_
  | told waits =>
    rcases waits with stage | open_
    · simp [outcome?,stage]
    · exact of_open open_

theorem Reads.same_key (reads : t.Reads stopped x t') : t'.key = t.key := by
  cases reads <;> rfl

theorem Reads.outcome (reads : t.Reads stopped x t') : t'.outcome? = x.verdict? := by
  cases reads with
  | item x rest nowMs open_ =>
    cases x with
    | update u =>
      cases u with
      | events es =>
        by_cases any : es.any isAwaited = true <;> simp [after,Watch.Reading.verdict?,outcome?,any]
      | canceled reason => rfl
    | failed e => rfl
    | ended => rfl
  | _ => rfl

/-- After a reading a watch is open that was just opened, or the one that was. -/
theorem Reads.watched (reads : t.Reads stopped x t') (open_ : t'.isOpen = true) :
    (∃ w, x = .opened t.key false (.ok w)) ∨ t.isOpen = true ∧ x.readsOn = true := by
  cases reads with
  | opens w stage => exact .inl ⟨w,rfl⟩
  | refused e stage => cases open_
  | told waits => cases open_
  | woken stage => cases open_
  | nothing rest was => exact .inr ⟨was,rfl⟩
  | item x rest nowMs was =>
    refine .inr ⟨was,?_⟩
    cases x with
    | update u =>
      cases u with
      | events es =>
        by_cases any : es.any isAwaited = true
        · simp [after,any,isOpen] at open_
        · simpa [Watch.Reading.readsOn] using any
      | canceled reason => cases open_
    | failed e => cases open_
    | ended => cases open_

theorem Reads.verdict {result : Except StoreError Bool} {note : Note} (reads : t.Reads note.stopped note.reading t')
    (watched : t.isOpen = true → Watched t.key heard) (outcome : t'.outcome? = some result) :
    Verdict t.key (heard ++ [note]) result := by
  rw [reads.outcome] at outcome
  generalize told : note.stopped = stopped at reads
  generalize came : note.reading = x at reads outcome
  cases reads with
  | opens w stage => cases outcome
  | refused e stage =>
    cases outcome
    exact .refused came
  | item x rest nowMs open_ =>
    cases x with
    | update u =>
      cases u with
      | events es =>
        simp only [Watch.Reading.verdict?,Option.ite_none_right_eq_some,Option.some.injEq] at outcome
        obtain ⟨any,rfl⟩ := outcome
        obtain ⟨e,member,awaits⟩ := List.any_eq_true.mp any
        obtain ⟨put,value⟩ := (isAwaited_iff e).mp awaits
        exact .seen (watched open_) came member put value
      | canceled reason => cases outcome
    | failed e => cases outcome
    | ended => cases outcome
  | nothing rest open_ => cases outcome
  | told waits =>
    cases outcome
    exact .told came told
  | woken stage => cases outcome

theorem interrupt_alike (t : Sentinel) (x : Watch.Interruption) :
    (t.interrupt x).key = t.key ∧ (t.interrupt x).outcome? = t.outcome? ∧ (t.interrupt x).isOpen = t.isOpen := by
  unfold interrupt
  split
  · rename_i s stage
    simp [outcome?,isOpen,stage]
  · exact ⟨rfl,rfl,rfl⟩

/-- A wait ends with what was heard last, and only if that decides it. -/
theorem Hears.judges (hears : (Sentinel.on key).Hears heard t) : t.Judges key heard := by
  induction hears with
  | start =>
    refine ⟨rfl,rfl,?_,?_,?_⟩
    · intro note member
      cases member
    · intro result outcome
      cases outcome
    · intro open_
      cases open_
  | @befalls heard t x _ ih =>
    obtain ⟨key,outcome,undecided,verdict,watched⟩ := ih
    obtain ⟨same_key,same_outcome,same_open⟩ := interrupt_alike t x
    exact ⟨same_key.trans key,same_outcome.trans outcome,undecided,same_outcome ▸ verdict,same_open ▸ watched⟩
  | @reads heard t t' note nowMs _ run ih =>
    obtain ⟨rfl,outcome,-,-,watched⟩ := ih
    have reads := read_reads run
    have undecided : heard.findSome? (·.reading.verdict?) = none := outcome.symm.trans reads.unsettled
    constructor
    case same_key => exact reads.same_key
    case outcome => rw [reads.outcome,List.findSome?_append,undecided]; simp
    case undecided =>
      rw [List.dropLast_concat]
      exact List.findSome?_eq_none_iff.mp undecided
    case verdict => exact fun result outcome => reads.verdict watched outcome
    case watched =>
      intro open_
      rcases reads.watched open_ with ⟨w,opened⟩ | ⟨was,on⟩
      · exact ⟨heard,note,[],w,rfl,opened,by simp⟩
      · obtain ⟨before,opening,since,w,rfl,opened,others⟩ := watched was
        refine ⟨before,opening,since ++ [note],w,by simp,opened,fun other member => ?_⟩
        rcases List.mem_append.mp member with old | new
        · exact others other old
        · rw [List.mem_singleton.mp new]
          exact on

end Sentinel

/-- What came to the sentinel that waits for the end of the test. -/
def Journal.atEnd (notes : Journal) : Journal := notes.filter (·.reader = .sentinel .testEnd)

theorem Journal.atEnd_append (notes more : Journal) : (notes ++ more).atEnd = notes.atEnd ++ more.atEnd :=
  List.filter_append ..

namespace Run

variable {σ : Type} {r next : Run σ} {c : Course σ} {w : Wait} {id : Nat} {t t' : Sentinel} {h : Happening}
  {more : Journal} {e : Engine} {goal : Goal}

/-! ### Connections of one's own -/

/-- A connection that was opened and that no client has. -/
structure Dedicated (r : Run σ) (id : Nat) : Prop where
  issued : id < r.site.issued
  apart : ∀ client ∈ r.clients, client.connection ≠ id

/-- What becomes of the connections of a run. -/
structure Links (r next : Run σ) : Prop where
  issued : r.site.issued ≤ next.site.issued
  clients : ∀ client ∈ next.clients, (∃ before ∈ r.clients, client.connection = before.connection) ∨
    client.connection = r.site.issued ∧ next.site.issued = r.site.issued + 1
  /-- Clients' connections are closed, or that on which the main task has waited. -/
  closings : ∀ id, next.site.closings id = r.site.closings id ∨ (∃ client ∈ r.clients, client.connection = id) ∨
    ∃ c w t, r.guarding? = some (c,w,id,t) ∧ next.guarding? = none
  /-- The main task waits where it did, or on a new connection and for the key of its wait. -/
  guards : ∀ c w id t, next.guarding? = some (c,w,id,t) →
    (∃ c' t', r.guarding? = some (c',w,id,t') ∧ c'.engine = c.engine ∧ t.key = t'.key) ∨
      id = r.site.issued ∧ next.site.issued = r.site.issued + 1 ∧ next.clients = r.clients ∧ t = .on (waitKey c w)

theorem guarding_of_phase (course : r.course = some c) (phase : c.phase = .guarding w id t) :
    r.guarding? = some (c,w,id,t) := by
  simp [guarding?,course,phase]

/-- Phases in which the main task does not read from a watch. -/
theorem guarding_none (course : r.course = some c)
    (phase : c.phase.isAway = true ∨ c.phase.begins = true ∨ c.phase.isOpening = true) : r.guarding? = none := by
  rw [guarding?,course,Option.bind_some]
  split
  · rename_i at_phase
    rw [at_phase] at phase
    simp [Phase.isAway,Phase.begins,Phase.isOpening] at phase
  · rfl

/-- Nothing becomes of connections while the main task waits for no key. -/
theorem links_of_same (clients : next.clients = r.clients) (closings : ∀ id, next.site.closings id = r.site.closings id)
    (issued : next.site.issued = r.site.issued) (unread : next.guarding? = none) : Links r next := by
  refine ⟨Nat.le_of_eq issued.symm,fun client member => .inl ⟨client,clients ▸ member,rfl⟩,
    fun id => .inl (closings id),?_⟩
  intro c w id t guards
  rw [unread] at guards
  cases guards

theorem MainTurn.links (turn : MainTurn r next c) : Links r next := by
  cases turn with
  | prepares _ prepares =>
    obtain ⟨c',keys,withPrefix,course,opens⟩ := prepares
    refine links_of_same opens.clients opens.closings opens.issued (guarding_none course ?_)
    rcases opens.opening with opening | ⟨-,away | begins⟩
    · exact .inr (.inr opening)
    · exact .inl away
    · exact .inr (.inl begins)
  | lands _ _ lands =>
    obtain ⟨c',course,away,spares⟩ := lands
    exact links_of_same spares.clients spares.closings spares.issued (guarding_none course (.inl away))
  | connects _ connects =>
    obtain ⟨course,-,-,clients,closings,issued⟩ := connects
    refine ⟨by omega,fun client member => .inl ⟨client,clients ▸ member,rfl⟩,fun id => .inl (closings id),?_⟩
    intro c' w' id t guards
    obtain ⟨course',phase⟩ := guarding_phase guards
    cases course.symm.trans course'
    cases phase
    exact .inr ⟨rfl,issued,clients,rfl⟩

/-- The main task has read and waits on, or has closed its connection. -/
theorem guarded_links (guards : r.guarding? = some (c,w,id,t)) (same_key : t'.key = t.key) :
    Links r (r.guarded c w id t') := by
  rcases guarded_move r c w id t' with ⟨-,same⟩ | ⟨result,-,move⟩
  · rw [same]
    refine ⟨Nat.le_refl _,fun client member => .inl ⟨client,member,rfl⟩,fun _ => .inl rfl,?_⟩
    intro c' w' id' t'' after
    obtain ⟨course,phase⟩ := guarding_phase after
    cases course
    cases phase
    exact .inl ⟨c,t,guards,rfl,same_key⟩
  · -- all that happens after the connection is closed spares the connections
    obtain ⟨c',course,away,spared⟩ := (hangUp_spares r id w result).lands move.lands
    have unread := guarding_none course (.inl away)
    refine ⟨Nat.le_of_eq spared.issued.symm,fun client member => .inl ⟨client,spared.clients ▸ member,rfl⟩,
      fun other => ?_,?_⟩
    · by_cases same : id = other
      · subst same
        exact .inr (.inr ⟨c,w,t,guards,unread⟩)
      · exact .inl ((spared.closings other).trans (closings_push (by simpa using same)))
    · intro c' w' id' t'' after
      rw [unread] at after
      cases after

/-- Everybody else leaves the main task where it is. -/
theorem Renews.links (renews : Renews r next) (course : r.course = some c) {phase : Phase σ}
    (after : next.course = some { c with phase }) (still : phase = c.phase ∨ ∃ x, phase = befallen x c.phase) :
    Links r next := by
  refine ⟨renews.issued,renews.clients,fun id => (renews.closings id).imp_right .inl,?_⟩
  intro c' w id t guards
  obtain ⟨course',at_phase⟩ := guarding_phase guards
  cases after.symm.trans course'
  rcases still with same | ⟨x,befell⟩
  · exact .inl ⟨c,t,guarding_of_phase course (same.symm.trans at_phase),rfl,rfl⟩
  · have at_phase : befallen x c.phase = .guarding w id t := befell.symm.trans at_phase
    unfold befallen at at_phase
    split at at_phase
    · rename_i w' id' t' was
      cases at_phase
      exact .inl ⟨c,t',guarding_of_phase course was,rfl,(Sentinel.interrupt_alike t' x).1⟩
    · exact .inl ⟨c,t,guarding_of_phase course at_phase,rfl,rfl⟩

/-- Connections are numbered as they are opened, and the main task waits on one of its own that is open. -/
structure Numbered (e : Engine) (goal : Goal) (r : Run σ) : Prop where
  led : Led e goal r
  clients : ∀ client ∈ r.clients, client.connection < r.site.issued
  unclosed : ∀ k, r.site.issued ≤ k → r.site.closings k = 0
  own : ∀ c w id t, r.guarding? = some (c,w,id,t) →
    Dedicated r id ∧ r.site.closings id = 0 ∧ t.key = waitKey c w

theorem Dedicated.links (dedicated : Dedicated r id) (links : Links r next) : Dedicated next id := by
  obtain ⟨issued,apart⟩ := dedicated
  refine ⟨Nat.lt_of_lt_of_le issued links.issued,fun client member => ?_⟩
  rcases links.clients client member with ⟨before,old,same⟩ | ⟨new,-⟩
  · rw [same]
    exact apart before old
  · omega

theorem waitKey_engine {c c' : Course σ} (same : c.engine = c'.engine) (w : Wait) : waitKey c w = waitKey c' w := by
  cases w <;> simp [waitKey,Course.settings,same]

theorem numbered_start (e : Engine) (goal : Goal) (options : DispatchOptions) {site : Site} {pool : Pool} (nowMs : Nat)
    (streams : Nat → σ) (known : ∀ client ∈ pool.clients, client.connection < site.issued)
    (unclosed : ∀ k, site.issued ≤ k → site.closings k = 0) :
    Numbered e goal (ofCourse site pool nowMs (Course.start e goal options pool.size nowMs streams)) := by
  refine ⟨led_start ..,known,unclosed,?_⟩
  intro c w id t guards
  cases guards

section
variable [RandomSource σ]

theorem happen_links (course : r.course = some c) (run : r.happen h = some (more,next)) : Links r next := by
  cases h with
  | step ev =>
    simp only [Run.happen,Option.ite_none_left_eq_some] at run
    obtain ⟨unread,run⟩ := run
    obtain ⟨after,stepped,same⟩ := Option.map_eq_some_iff.mp run
    cases same
    by_cases main : ev = .turn .main
    · subst main
      exact (moveMain_turn course (by simpa [Run.reads] using unread) stepped).links
    · obtain ⟨phase,after,still⟩ := step_course stepped main course
      exact (step_unread stepped (by simpa using unread) main).renews.links course after still
  | read reader x =>
    obtain ⟨after,heard,same⟩ := Option.map_eq_some_iff.mp run
    cases same
    cases reader with
    | watcher i =>
      obtain ⟨v,v',event,-,-,rfl⟩ := hear_watcher heard
      obtain ⟨recorder,same⟩ := noteWatcher_eq { r with watchers := r.watchers.set i v' } event
      rw [same]
      exact Renews.links (renews_of_same rfl rfl rfl) course course (.inl rfl)
    | sentinel w =>
      obtain ⟨c,id,t,t',course,phase,read,rfl⟩ := hear_sentinel heard
      exact guarded_links (guarding_of_phase course phase) (Sentinel.read_reads read).same_key
  | store memory refusing =>
    cases run
    exact Renews.links (renews_of_same rfl rfl rfl) course course (.inl rfl)

theorem Led.happen (led : Led e goal r) (run : r.happen h = some (more,next)) : Led e goal next := by
  cases h with
  | step ev =>
    simp only [Run.happen,Option.ite_none_left_eq_some] at run
    obtain ⟨after,stepped,same⟩ := Option.map_eq_some_iff.mp run.2
    cases same
    exact led.step stepped
  | read reader x =>
    obtain ⟨after,heard,same⟩ := Option.map_eq_some_iff.mp run
    cases same
    obtain ⟨c,course,equipped⟩ := led
    cases reader with
    | watcher i =>
      obtain ⟨v,v',event,-,-,rfl⟩ := hear_watcher heard
      obtain ⟨recorder,same⟩ := noteWatcher_eq { r with watchers := r.watchers.set i v' } event
      rw [same]
      exact ⟨c,course,equipped.alike rfl rfl rfl rfl rfl rfl⟩
    | sentinel w =>
      obtain ⟨c',id,t,t',course',-,-,rfl⟩ := hear_sentinel heard
      cases course.symm.trans course'
      rcases guarded_move r c w id t' with ⟨-,same⟩ | ⟨result,-,move⟩
      · rw [same]
        exact (equipped.inPhase rfl).2
      · exact (move.does (hangUp_does equipped id w result).2).2
  | store memory refusing =>
    cases run
    obtain ⟨c,course,equipped⟩ := led
    exact ⟨c,course,equipped.alike rfl rfl rfl rfl rfl rfl⟩

theorem Numbered.happen (numbered : Numbered e goal r) (run : r.happen h = some (more,next)) :
    Numbered e goal next := by
  obtain ⟨led,clients,unclosed,own⟩ := numbered
  obtain ⟨c,course,-⟩ := id led
  have links := happen_links course run
  constructor
  case led => exact led.happen run
  case clients =>
    intro client member
    have issued := links.issued
    rcases links.clients client member with ⟨before,old,same⟩ | ⟨new,raised⟩
    · have known := clients before old
      omega
    · omega
  case unclosed =>
    intro k beyond
    have beyond : r.site.issued ≤ k := Nat.le_trans links.issued beyond
    rcases links.closings k with same | ⟨client,member,same⟩ | ⟨c,w,t,guards,-⟩
    · exact same.trans (unclosed k beyond)
    · exact absurd (clients client member) (by omega)
    · exact absurd (own c w k t guards).1.issued (Nat.not_lt.mpr beyond)
  case own =>
    intro c' w id t guards
    rcases links.guards c' w id t guards with ⟨c,t',before,engine,same_key⟩ | ⟨rfl,raised,same_clients,rfl⟩
    · obtain ⟨dedicated,open_,keyed⟩ := own c w id t' before
      refine ⟨dedicated.links links,?_,by rw [same_key,keyed,waitKey_engine engine]⟩
      rcases links.closings id with same | ⟨client,member,same⟩ | ⟨_,_,_,-,emptied⟩
      · exact same.trans open_
      · exact absurd same (dedicated.apart client member)
      · rw [emptied] at guards
        cases guards
    · refine ⟨⟨by omega,fun client member => ?_⟩,?_,rfl⟩
      · rw [same_clients] at member
        exact Nat.ne_of_lt (clients client member)
      · rcases links.closings r.site.issued with same | ⟨client,member,same⟩ | ⟨_,_,_,before,-⟩
        · exact same.trans (unclosed _ (Nat.le_refl _))
        · exact absurd (clients client member) (by omega)
        · exact absurd (own _ _ _ _ before).1.issued (Nat.lt_irrefl _)

theorem Numbered.noted {first : Run σ} (numbered : Numbered e goal first) (noted : Noted first more r) :
    Numbered e goal r := by
  induction noted with
  | start => exact numbered
  | happens _ run ih => exact ih.happen run

end

/-! ### The end of the wait -/

/-- Where the main task goes when its wait for the end of the test has ended. -/
def afterWait (goal : Goal) (result : Except StoreError Bool) : Phase σ :=
  match goal with
  | .testEnd => .ended (match result with
    | .ok seen => .ok (.waited seen)
    | .error e => .error (.store e))
  | _ => .finishing result

/-- The main task has the result of its wait; it has closed the connection, and has stopped everything if the value was
seen. -/
structure Settles (goal : Goal) (id : Nat) (result : Except StoreError Bool) (r : Run σ) : Prop where
  phase : r.course.map (·.phase) = some (afterWait goal result)
  closed : r.site.closings id = 1
  stopped : result = .ok true → r.stopped = true
  fired : result = .ok true → ∀ signal ∈ r.signals.list, signal.listening = true → signal.raised = true

theorem fire_raised (s : Signals) : ∀ signal ∈ s.fire.2.list, signal.listening = true → signal.raised = true := by
  intro signal member listens
  obtain ⟨before,-,rfl⟩ := List.mem_map.mp member
  by_cases was : before.listening = true
  · simp [was]
  · simp [was] at listens

/-- A run that goes on after the wait is stopped first. -/
theorem endWait_testEnd (r : Run σ) (c : Course σ) (result : Except StoreError Bool) : r.endWait c .testEnd result =
    (if c.goal = .testEnd then r else r.stopAll).inPhase c (afterWait c.goal result) := by
  unfold endWait afterWait
  cases goal : c.goal with
  | testEnd => cases result <;> rfl
  | _ => rfl

theorem guarded_settles {result : Except StoreError Bool} (open_ : r.site.closings id = 0)
    (outcome : t.outcome? = some result) : Settles c.goal id result (r.guarded c .testEnd id t) := by
  have closed : (r.site.close id).closings id = 1 := by
    unfold Site.closings at open_
    simp [Site.close,Site.closings,open_]
  have ends (s : Run σ) (closed : s.site.closings id = 1) (stopped : result = .ok true → s.stopped = true)
      (fired : result = .ok true → ∀ signal ∈ s.signals.list, signal.listening = true → signal.raised = true) :
      Settles c.goal id result (s.endWait c .testEnd result) := by
    rw [endWait_testEnd]
    split
    · exact ⟨rfl,closed,stopped,fired⟩
    · exact ⟨rfl,closed,fun _ => rfl,fun _ => fire_raised s.signals⟩
  unfold guarded
  rw [outcome]
  dsimp only
  split
  · exact ends _ closed (fun _ => rfl) fun _ => fire_raised r.signals
  · rename_i unseen
    exact ends _ closed (fun seen => (unseen rfl seen).elim) fun seen => (unseen rfl seen).elim

/-- A connection that was closed once and that nobody uses any more. -/
structure Sealed (r : Run σ) (id : Nat) : Prop where
  dedicated : Dedicated r id
  closed : r.site.closings id = 1
  unguarded : ∀ c w t, r.guarding? ≠ some (c,w,id,t)

theorem Sealed.links (closed : Sealed r id) (links : Links r next) : Sealed next id := by
  obtain ⟨dedicated,once,unguarded⟩ := closed
  refine ⟨dedicated.links links,?_,fun c w t guards => ?_⟩
  · rcases links.closings id with same | ⟨client,member,same⟩ | ⟨c,w,t,guards,-⟩
    · exact same.trans once
    · exact absurd same (dedicated.apart client member)
    · exact absurd guards (unguarded c w t)
  · rcases links.guards c w id t guards with ⟨c',t',before,-⟩ | ⟨new,-⟩
    · exact unguarded c' w t' before
    · exact absurd dedicated.issued (by omega)

theorem Journal.atEnd_elsewhere {notes : Journal} (elsewhere : ∀ note ∈ notes, note.reader ≠ .sentinel .testEnd) :
    notes.atEnd = [] :=
  List.filter_eq_nil_iff.mpr fun note member => by simpa using elsewhere note member

section
variable [RandomSource σ]

/-- What becomes of a wait for the end of the test that begins in `first`: it goes on, with its connection open, or it
has ended with what was heard last. -/
inductive Fate (goal : Goal) (id : Nat) (key : String) (first : Run σ) : Journal → Run σ → Prop where
  | waits {notes : Journal} {r : Run σ} {c : Course σ} {t : Sentinel} (guards : r.guarding? = some (c,.testEnd,id,t))
      (hears : (Sentinel.on key).Hears notes.atEnd t) (unsettled : t.outcome? = none)
      (open_ : r.site.closings id = 0) : Fate goal id key first notes r
  | closed {before later : Journal} {last : Note} {result : Except StoreError Bool} {s r : Run σ} {t : Sentinel}
      (reader : last.reader = .sentinel .testEnd) (hears : (Sentinel.on key).Hears (before.atEnd ++ [last]) t)
      (outcome : t.outcome? = some result) (ended : Noted first (before ++ [last]) s)
      (settles : Settles goal id result s) (since : Noted s later r) (closed : Sealed r id) :
      Fate goal id key first (before ++ [last] ++ later) r

/-- While the main task waits, only what comes to its sentinel takes it on. -/
theorem happen_guarding (guards : r.guarding? = some (c,w,id,t)) (run : r.happen h = some (more,next)) :
    ((∀ note ∈ more, note.reader ≠ .sentinel w) ∧
        ∃ c' t', next.guarding? = some (c',w,id,t') ∧ (t' = t ∨ ∃ x, t' = t.interrupt x)) ∨
      ∃ x t', more = [⟨.sentinel w,r.stopped,x⟩] ∧ t.read (r.told w) r.nowMs x = some t' ∧
        next = r.guarded c w id t' := by
  obtain ⟨course,phase⟩ := guarding_phase guards
  cases h with
  | step ev =>
    simp only [Run.happen,Option.ite_none_left_eq_some] at run
    obtain ⟨unread,run⟩ := run
    obtain ⟨after,stepped,same⟩ := Option.map_eq_some_iff.mp run
    cases same
    have main : ev ≠ .turn .main := by
      rintro rfl
      simp [Run.reads,guards] at unread
    obtain ⟨phase',after,still⟩ := step_course stepped main course
    rcases still with same | ⟨x,same⟩
    · exact .inl ⟨by simp,_,t,guarding_of_phase after (same.trans phase),.inl rfl⟩
    · have befell : phase' = .guarding w id (t.interrupt x) := by simp [same,befallen,phase]
      exact .inl ⟨by simp,_,t.interrupt x,guarding_of_phase after befell,.inr ⟨x,rfl⟩⟩
  | read reader x =>
    obtain ⟨after,heard,same⟩ := Option.map_eq_some_iff.mp run
    cases same
    cases reader with
    | watcher i =>
      obtain ⟨v,v',event,-,-,rfl⟩ := hear_watcher heard
      obtain ⟨recorder,same⟩ := noteWatcher_eq { r with watchers := r.watchers.set i v' } event
      rw [same]
      exact .inl ⟨by simp,c,t,guarding_of_phase course phase,.inl rfl⟩
    | sentinel w' =>
      obtain ⟨c',id',t₁,t',course',phase',read,rfl⟩ := hear_sentinel heard
      cases course.symm.trans course'
      cases phase.symm.trans phase'
      exact .inr ⟨x,t',rfl,read,rfl⟩
  | store memory refusing =>
    cases run
    exact .inl ⟨by simp,c,t,guarding_of_phase course phase,.inl rfl⟩

theorem Fate.happen {key : String} {first : Run σ} {notes : Journal} (fate : Fate goal id key first notes r)
    (noted : Noted first notes r) (numbered : Numbered e goal r) (run : r.happen h = some (more,next)) :
    Fate goal id key first (notes ++ more) next := by
  have after := numbered.happen run
  obtain ⟨c,course,equipped⟩ := numbered.led
  cases fate with
  | @waits notes _ c' t guards hears unsettled open_ =>
    obtain ⟨course',-⟩ := guarding_phase guards
    cases course.symm.trans course'
    rcases happen_guarding guards run with ⟨elsewhere,c',t',guards',still⟩ | ⟨x,t',rfl,read,rfl⟩
    · have nothing : (notes ++ more).atEnd = notes.atEnd := by
        rw [Journal.atEnd_append,Journal.atEnd_elsewhere elsewhere,List.append_nil]
      rcases still with rfl | ⟨x,rfl⟩
      · exact .waits guards' (nothing ▸ hears) unsettled (after.own _ _ _ _ guards').2.1
      · have unsettled : (t.interrupt x).outcome? = none := (Sentinel.interrupt_alike t x).2.1.trans unsettled
        exact .waits guards' (nothing ▸ hears.befalls x) unsettled (after.own _ _ _ _ guards').2.1
    · have here : Journal.atEnd [⟨.sentinel .testEnd,r.stopped,x⟩] = [⟨.sentinel .testEnd,r.stopped,x⟩] := by
        simp [Journal.atEnd]
      have hears : (Sentinel.on key).Hears (notes.atEnd ++ [⟨.sentinel .testEnd,r.stopped,x⟩]) t' := hears.reads read
      cases outcome : t'.outcome? with
      | none =>
        have guards' : (r.guarded c .testEnd id t').guarding? =
            some ({ c with phase := .guarding .testEnd id t' },.testEnd,id,t') := by
          rw [guarded,outcome]
          rfl
        refine .waits guards' ?_ outcome (after.own _ _ _ _ guards').2.1
        rwa [Journal.atEnd_append,here]
      | some result =>
        have settles : Settles goal id result (r.guarded c .testEnd id t') :=
          equipped.goal ▸ guarded_settles open_ outcome
        have links := happen_links course run
        have closed : Sealed (r.guarded c .testEnd id t') id := by
          refine ⟨(numbered.own _ _ _ _ guards).1.links links,settles.closed,fun c' w t'' guards' => ?_⟩
          have unclosed := (after.own _ _ _ _ guards').2.1
          rw [settles.closed] at unclosed
          cases unclosed
        have ended := noted.happens run
        simpa using Fate.closed rfl hears outcome ended settles .start closed
  | @closed before later last result s _ t reader hears outcome ended settles since closed =>
    rw [List.append_assoc]
    exact .closed reader hears outcome ended settles (since.happens run) (closed.links (happen_links course run))

/-- Sentinel soundness. A sentinel ends its wait as what it heard says. In every run that begins with numbered
connections, the wait for the end of the test takes place on a connection that no client has; that is closed once, as
soon as the sentinel has settled, and if it has seen the value everything is stopped by then. -/
theorem sentinel_sound {site : Site} {pool : Pool} (known : ∀ client ∈ pool.clients, client.connection < site.issued)
    (unclosed : ∀ k, site.issued ≤ k → site.closings k = 0) (e : Engine) (goal : Goal) (options : DispatchOptions)
    (nowMs : Nat) (streams : Nat → σ) :
    let first := ofCourse site pool nowMs (Course.start e goal options pool.size nowMs streams)
    let key := e.settings.lifecycle.testEndKey
    (∀ key heard t, (Sentinel.on key).Hears heard t → t.Judges key heard) ∧
      (∀ events r, first.steps events = some r → ∃ notes, Noted first notes r) ∧
      ∀ notes r c id t, Noted first notes r → r.guarding? = some (c,.testEnd,id,t) → t.stage = .opening →
        t.key = key ∧ Dedicated r id ∧ ∀ more s, Noted r more s → Fate goal id key r more s := by
  intro first key
  refine ⟨fun key heard t hears => hears.judges,fun events r run => steps_noted run,?_⟩
  intro notes r c id t noted guards stage
  have numbered : Numbered e goal r := (numbered_start e goal options nowMs streams known unclosed).noted noted
  obtain ⟨c',course',equipped⟩ := numbered.led
  obtain ⟨course,-⟩ := guarding_phase guards
  cases course.symm.trans course'
  obtain ⟨dedicated,open_,keyed⟩ := numbered.own c .testEnd id t guards
  have keyed : t.key = key := by
    rw [keyed,waitKey,Course.settings,equipped.engine]
  have begins : t = .on key := by
    rw [← keyed]
    cases t
    cases stage
    rfl
  refine ⟨keyed,dedicated,fun more s later => ?_⟩
  induction later with
  | start => exact .waits guards (begins ▸ .start) (by rw [begins]; rfl) open_
  | happens before run ih => exact ih.happen before (numbered.noted before) run

end

/-- A store after the connections of a pool of one were opened. -/
def pooledSite : Site := (Pool.connect 1 1 true none (Site.fresh .prompt .empty)).2.2

/-- A wait at that store. -/
def waitingApart (e : Engine) : Run Xoshiro := ofEngine e .testEnd pooledSite (Pool.deal [0] 1) 0

/-- The watch is opened, cancelled and opened again; then the value is written. -/
def tellingAgain (e : Engine) : List Event :=
  [.turn .main,.outside .cancelWatches,.turn .main,.turn .main,telling e,.turn .main]

/-- Whether a run has ended with the value seen. -/
def hasSeen (r : Run Xoshiro) : Bool :=
  match r.ending?.map ExceptT.run with
  | some (.ok (.ok (.waited true))) => true
  | _ => false

private theorem seen_of_check {r : Run Xoshiro} (checked : r.hasSeen = true) : r.ending? = some sawEnd := by
  unfold hasSeen at checked
  split at checked
  · rename_i ended
    obtain ⟨ending,at_end,same⟩ := Option.map_eq_some_iff.mp ended
    exact at_end.trans (congrArg some same)
  · cases checked

/-- The cancel does not end the wait, and the value does. -/
theorem cancelled_then_seen : (∀ client ∈ (Pool.deal [0] 1).clients, client.connection < pooledSite.issued) ∧
    (∀ k, pooledSite.issued ≤ k → pooledSite.closings k = 0) ∧
    ∃ e, Engine.new (Engine.plainly "/a;z") 1 = ExceptT.mk (.ok (.ok e)) ∧ ∃ notes r c t more s,
      Noted (waitingApart e) notes r ∧ r.guarding? = some (c,.testEnd,1,t) ∧ t.stage = .opening ∧ Noted r more s ∧
      s.ending? = some sawEnd ∧ s.stopped = true ∧ s.site.closings 1 = 1 ∧
      Fate .testEnd 1 e.settings.lifecycle.testEndKey r more s := by
  have known : ∀ client ∈ (Pool.deal [0] 1).clients, client.connection < pooledSite.issued := by decide
  have unclosed (k : Nat) : pooledSite.closings k = 0 := by
    have history : pooledSite.history = #[.opened 0 0] := rfl
    simp [Site.closings,history]
  have ran : ((Engine.new (Engine.plainly "/a;z") 1).run.toOption.bind Except.toOption).any (fun e =>
      ((waitingApart e).steps [.turn .main,.turn .main]).any fun r =>
        (r.guarding?.any fun g => decide (g.2.1 = .testEnd ∧ g.2.2.1 = 1 ∧ g.2.2.2.stage = .opening)) &&
          (r.steps (tellingAgain e)).any fun s =>
            s.hasSeen && decide (s.stopped = true ∧ s.site.closings 1 = 1)) = true := by
    decide +kernel
  obtain ⟨e,accepted,ran⟩ := (Option.any_eq_true _ _).mp ran
  obtain ⟨r,run,ran⟩ := (Option.any_eq_true _ _).mp ran
  obtain ⟨guards,ran⟩ := Bool.and_eq_true_iff.mp ran
  obtain ⟨⟨c,w,id,t⟩,guards,stands⟩ := (Option.any_eq_true _ _).mp guards
  obtain ⟨rfl,rfl,stage⟩ := of_decide_eq_true stands
  obtain ⟨s,told,ran⟩ := (Option.any_eq_true _ _).mp ran
  obtain ⟨ended,closed⟩ := Bool.and_eq_true_iff.mp ran
  obtain ⟨stopped,once⟩ := of_decide_eq_true closed
  obtain ⟨-,every,sound⟩ := sentinel_sound known (fun k _ => unclosed k) e .testEnd
    (.ofSettings e.settings.client e.settings.reads) 0 e.stream
  obtain ⟨notes,noted⟩ := every _ r run
  obtain ⟨-,-,fate⟩ := sound notes r c 1 t noted guards stage
  obtain ⟨more,later⟩ := steps_noted told
  exact ⟨known,fun k _ => unclosed k,e,Engine.new_of_toOption accepted,notes,r,c,t,more,s,noted,guards,stage,later,
    seen_of_check ended,stopped,once,fate more s later⟩

end Run

end Keyload
