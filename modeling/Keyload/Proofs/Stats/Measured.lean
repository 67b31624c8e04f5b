import Mathlib.Algebra.BigOperators.Group.List.Basic
import Keyload.Proofs.Stats.Accounted

/-!
Statistics and metrics agree. Every observation is written to two places, the tallies of the run and the metrics, and
adds the same to both (`Annals.Tracks.observe`); a reset clears the tallies alone. So each metric is the sum over the
lifetime views of all periods between resets, which is the one view where there was no reset (`metrics_measure`).
Counters are words, which start over beyond the largest.
-/
namespace Keyload

/-- The bytes of one more operation fit the word that counts them. -/
theorem OpTally.record_bytes {t t' : OpTally} {nanos keys bytes : Nat} (run : t.record nanos keys bytes = .ok t') :
    t'.bytes = t.bytes + bytes ∧ t.bytes + bytes < Word.limit := by
  obtain ⟨latency,-,run⟩ := Except.ok_of_bind run
  obtain ⟨keys,-,run⟩ := Except.ok_of_bind run
  obtain ⟨sum,added,run⟩ := Except.ok_of_bind run
  obtain ⟨fits,rfl⟩ := Word.fit_eq_ok_iff.mp added
  cases run
  exact ⟨rfl,fits⟩

theorem Tally.ok_of_record {t t' : Tally} {kind : Kind} {nanos keys bytes : Nat}
    (run : t.record kind nanos keys bytes = .ok t') :
    (t.snapshot.operation kind).record nanos keys bytes = .ok (t'.snapshot.operation kind) := by
  cases kind
  all_goals
    obtain ⟨v,counted,run⟩ := Except.ok_of_bind run
    cases run
    exact Views.update_lifetime counted

/-! ### What the metrics of a kind are -/

namespace Metrics

/-- The measurements of a kind, none before its first sample. -/
def kind? (m : Metrics) (kind : Kind) : Option KindMetrics := m.kinds.lookup kind

def operations (m : Metrics) (kind : Kind) : Nat := (m.kind? kind).elim 0 KindMetrics.operations

/-- The observations that the latency histogram of a kind holds. -/
def samples (m : Metrics) (kind : Kind) : Nat := (m.kind? kind).elim 0 fun k => k.latency.count

/-- The bytes counter of a kind, zero where it is absent. -/
def bytes (m : Metrics) (kind : Kind) : Nat := (m.kind? kind).elim 0 fun k => k.bytes.getD 0

/-- The errors of all kinds. -/
def errorCount (m : Metrics) : Nat := (m.errors.map Prod.snd).sum

section
variable {κ α : Type} [DecidableEq κ]

private theorem lookup_first (k label : κ) (a : α) (rest : List (κ × α)) :
    ((label,a) :: rest).lookup k = if k = label then some a else rest.lookup k := by
  rw [List.lookup_cons]
  by_cases same : k = label
  · simp [same]
  · rw [beq_eq_false_iff_ne.mpr same,if_neg same]

theorem lookup_upsert (key k : κ) (fresh : α) (f : α → α) (entries : List (κ × α)) :
    (upsert key fresh f entries).lookup k =
      if k = key then some (f ((entries.lookup key).getD fresh)) else entries.lookup k := by
  induction entries with
  | nil => exact lookup_first k key (f fresh) []
  | cons entry rest ih =>
    obtain ⟨label,a⟩ := entry
    by_cases here : label = key
    · subst here
      rw [upsert,if_pos rfl,lookup_first,lookup_first,lookup_first,if_pos rfl]
      split_ifs <;> rfl
    · rw [upsert,if_neg here,lookup_first,lookup_first,lookup_first,if_neg (Ne.symm here),ih]
      by_cases same : k = label
      · rw [if_pos same,if_pos same,if_neg fun other => here (same.symm.trans other)]
      · rw [if_neg same,if_neg same]

theorem labels_upsert {key : κ} {fresh : α} {f : α → α} {entries : List (κ × α)}
    (once : (entries.map Prod.fst).Nodup) : ((upsert key fresh f entries).map Prod.fst).Nodup := by
  have labels (k : κ) (entries : List (κ × α)) :
      k ∈ (upsert key fresh f entries).map Prod.fst ↔ k = key ∨ k ∈ entries.map Prod.fst := by
    induction entries with
    | nil => simp [upsert]
    | cons entry rest ih =>
      by_cases here : entry.1 = key
      · simp [upsert,here]
      · simp only [upsert,if_neg here,List.map_cons,List.mem_cons,ih]
        exact or_left_comm
  induction entries with
  | nil => simp [upsert]
  | cons entry rest ih =>
    obtain ⟨first,later⟩ := List.nodup_cons.mp once
    by_cases here : entry.1 = key
    · simp only [upsert,if_pos here]
      exact once
    · simp only [upsert,if_neg here,List.map_cons,List.nodup_cons,labels,not_or]
      exact ⟨⟨here,first⟩,ih later⟩

end

theorem errorCount_observeError (m : Metrics) (kind : String) :
    (m.observeError kind).errorCount = m.errorCount + 1 := by
  unfold errorCount observeError
  induction m.errors with
  | nil => rfl
  | cons entry rest ih =>
    by_cases here : entry.1 = kind
    · simp only [upsert,if_pos here,List.map_cons,List.sum_cons]
      omega
    · simp only [upsert,if_neg here,List.map_cons,List.sum_cons,ih]
      omega

/-- One more operation is one more sample, and its bytes if it has moved any. -/
theorem observe_adds (m : Metrics) (kind : Kind) (nanos bytes : Nat) :
    (m.observe kind nanos bytes).operations kind = m.operations kind + 1 ∧
      (m.observe kind nanos bytes).samples kind = m.samples kind + 1 ∧
      (m.observe kind nanos bytes).bytes kind =
        if 0 < bytes then (m.bytes kind + bytes) % Word.limit else m.bytes kind := by
  unfold operations samples Metrics.bytes kind? observe
  simp only [lookup_upsert,if_true]
  cases m.kinds.lookup kind with
  | none =>
    refine ⟨rfl,rfl,?_⟩
    show Option.getD (if 0 < bytes then _ else _) 0 = _
    split_ifs <;> rfl
  | some k =>
    refine ⟨rfl,rfl,?_⟩
    show Option.getD (if 0 < bytes then _ else _) 0 = _
    split_ifs <;> rfl

/-- The metrics are what a lifetime view says; an error count is a word there. -/
structure Agree (m : Metrics) (s : Snapshot) : Prop where
  operations : ∀ kind, m.operations kind = (s.operation kind).calls
  samples : ∀ kind, m.samples kind = (s.operation kind).calls
  bytes : ∀ kind, m.bytes kind = (s.operation kind).bytes
  errors : m.errorCount % Word.limit = s.errors
  fewErrors : m.errorCount < Word.limit → m.errorCount = s.errors
  reconnects : m.reconnects = s.reconnect.count
  watchEvents : m.watchEvents = s.watchEvents

/-- The metrics of a category are the same. -/
def Same (c : Category) (m m' : Metrics) : Prop :=
  match c with
  | .operation kind => m'.kind? kind = m.kind? kind
  | .reconnect => m'.reconnects = m.reconnects
  | .errors => m'.errors = m.errors
  | .watchEvents => m'.watchEvents = m.watchEvents

end Metrics

/-- A category is the same in two views. -/
def Snapshot.Same (c : Category) (s s' : Snapshot) : Prop :=
  match c with
  | .operation kind => s'.operation kind = s.operation kind
  | .reconnect => s'.reconnect = s.reconnect
  | .errors => s'.errors = s.errors
  | .watchEvents => s'.watchEvents = s.watchEvents

theorem Tally.Same.lifetime {c : Category} {t t' : Tally} (same : t.Same c t') : t.snapshot.Same c t'.snapshot := by
  cases c with
  | operation kind =>
    show t'.snapshot.operation kind = t.snapshot.operation kind
    rw [snapshot_operation,snapshot_operation]
    exact congrArg Views.lifetime same
  | _ => exact congrArg Views.lifetime same

/-! ### Periods between resets -/

namespace Recorder

/-- A book, and the lifetime views that its resets have ended. -/
structure Annals where
  book : Book
  periods : List Snapshot

namespace Annals

def metrics (a : Annals) : Metrics := a.book.recorder.metrics

/-- The lifetime view of the period that has not ended. -/
def current (a : Annals) : Snapshot := a.book.recorder.tally.snapshot

/-- What is counted in the views of all periods together. -/
def total (a : Annals) (count : Snapshot → Nat) : Nat := ((a.periods ++ [a.current]).map count).sum

def call (a : Annals) (c : Call) : Except Fault Annals := do
  let book ← a.book.call c
  pure ⟨book,if c.resets then a.periods ++ [a.current] else a.periods⟩

/-- The annals of a new recorder after some calls. -/
def after (calls : List Call) : Except Fault Annals := calls.foldlM call ⟨⟨Recorder.zero,[]⟩,[]⟩

theorem after_concat {calls : List Call} {a : Annals} (run : after calls = .ok a) (c : Call) :
    after (calls ++ [c]) = a.call c := by
  unfold after at run ⊢
  rw [List.foldlM_append,run]
  exact bind_pure (a.call c)

theorem after_of_concat {calls : List Call} {c : Call} {b : Annals} (run : after (calls ++ [c]) = .ok b) :
    ∃ a, after calls = .ok a ∧ a.call c = .ok b := by
  unfold after at run ⊢
  rw [List.foldlM_append] at run
  obtain ⟨a,before,last⟩ := Except.ok_of_bind run
  exact ⟨a,before,(bind_pure (a.call c)).symm.trans last⟩

theorem call_book {a b : Annals} {c : Call} (run : a.call c = .ok b) :
    a.book.call c = .ok b.book ∧ b.periods = if c.resets then a.periods ++ [a.current] else a.periods := by
  obtain ⟨book,called,run⟩ := Except.ok_of_bind run
  cases run
  exact ⟨called,rfl⟩

/-- What a call does: it observes, it resets, or it changes no category of the lifetime view and no metric. -/
theorem call_cases {a b : Annals} {c : Call} (run : a.call c = .ok b) :
    (∃ o, c = .observe o ∧ a.book.recorder.observe o = .ok b.book.recorder ∧ b.periods = a.periods) ∨
      (c = .reset ∧ b.book.recorder = a.book.recorder.reset ∧ b.periods = a.periods ++ [a.current]) ∨
      (c.resets = false ∧ b.metrics = a.metrics ∧ (∀ k, a.current.Same k b.current) ∧ b.periods = a.periods) := by
  obtain ⟨called,periods⟩ := call_book run
  obtain ⟨⟨r,ended⟩,past⟩ := b
  cases c with
  | observe o =>
    obtain ⟨r',observed,called⟩ := Except.ok_of_bind called
    cases called
    exact .inl ⟨o,rfl,observed,periods⟩
  | reset =>
    cases called
    exact .inr (.inl ⟨rfl,rfl,periods⟩)
  | _ =>
    cases called
    refine .inr (.inr ⟨rfl,rfl,fun k => ?_,periods⟩)
    rcases k with kind | _ | _ | _
    · cases kind <;> rfl
    all_goals rfl

theorem after_book {calls : List Call} {b : Book} (run : Book.after calls = .ok b) :
    ∃ a, after calls = .ok a ∧ a.book = b := by
  induction calls using List.reverseRecOn generalizing b with
  | nil =>
    cases run
    exact ⟨_,rfl,rfl⟩
  | append_singleton calls c ih =>
    unfold Book.after at run
    rw [List.foldlM_append] at run
    obtain ⟨b',before,last⟩ := Except.ok_of_bind run
    obtain ⟨a,annals,rfl⟩ := ih before
    rw [after_concat annals]
    have last : a.book.call c = .ok b := (bind_pure (a.book.call c)).symm.trans last
    exact ⟨⟨b,_⟩,by unfold call; rw [last]; rfl,rfl⟩

theorem total_eq (a : Annals) (count : Snapshot → Nat) :
    a.total count = (a.periods.map count).sum + count a.current := by
  simp [total]

end Annals

/-! ### What the two sides come to -/

/-- The metrics are the sums over the views of all periods, as far as words hold them. Where fewer errors than a word
can count have been measured, they are the errors of the views. -/
structure Annals.Measured (a : Annals) : Prop where
  labels : (a.metrics.kinds.map Prod.fst).Nodup
  operations : ∀ kind, a.metrics.operations kind = a.total fun s => (s.operation kind).calls
  samples : ∀ kind, a.metrics.samples kind = a.total fun s => (s.operation kind).calls
  bytes : ∀ kind, a.metrics.bytes kind = (a.total fun s => (s.operation kind).bytes) % Word.limit
  errors : a.metrics.errorCount % Word.limit = a.total Snapshot.errors % Word.limit
  fewErrors : a.metrics.errorCount < Word.limit → a.metrics.errorCount = a.total Snapshot.errors
  reconnects : a.metrics.reconnects = a.total fun s => s.reconnect.count
  watchEvents : a.metrics.watchEvents = a.total Snapshot.watchEvents % Word.limit

/-- What the metrics of a category are in terms of the views, where the current one holds words. -/
def Annals.Tracks (a : Annals) : Category → Prop
  | .operation kind =>
    a.metrics.operations kind = (a.total fun s => (s.operation kind).calls) ∧
      a.metrics.samples kind = (a.total fun s => (s.operation kind).calls) ∧
      a.metrics.bytes kind = (a.total fun s => (s.operation kind).bytes) % Word.limit ∧
      (a.current.operation kind).bytes < Word.limit
  | .reconnect => a.metrics.reconnects = a.total fun s => s.reconnect.count
  | .errors =>
    (∃ rounds, a.metrics.errorCount = a.total Snapshot.errors + rounds * Word.limit) ∧ a.current.errors < Word.limit
  | .watchEvents =>
    a.metrics.watchEvents = a.total Snapshot.watchEvents % Word.limit ∧ a.current.watchEvents < Word.limit

/-! ### One more observation -/

/-- What an observation does to the two sides, by its category. -/
theorem observe_cases {r r' : Recorder} {o : Observation} (run : r.observe o = .ok r') :
    (∃ kind t, o.category = .operation kind ∧ r.tally.record kind o.nanos o.keys o.bytes = .ok t ∧
        r' = ⟨t,r.metrics.observe kind o.nanos o.bytes⟩) ∨
      (∃ t, o.category = .reconnect ∧ r.tally.recordReconnect o.nanos = .ok t ∧ r' = ⟨t,r.metrics.observeReconnect⟩) ∨
      (∃ kind, o.category = .errors ∧ r' = r.error kind) ∨
      ∃ now, o.category = .watchEvents ∧ r' = r.watchEvents now o.keys := by
  have operation {kind : Kind} (here : o.category = .operation kind)
      (run : r.operation kind o.nanos o.keys o.bytes = .ok r') :
      ∃ kind t, o.category = .operation kind ∧ r.tally.record kind o.nanos o.keys o.bytes = .ok t ∧
        r' = ⟨t,r.metrics.observe kind o.nanos o.bytes⟩ := by
    obtain ⟨t,counted,run⟩ := Except.ok_of_bind run
    cases run
    exact ⟨kind,t,here,counted,rfl⟩
  cases o with
  | put nanos bytes => exact .inl (operation rfl run)
  | delete nanos deleted => exact .inl (operation rfl run)
  | get below nanos count bytes => exact .inl (operation rfl run)
  | reconnect nanos =>
    obtain ⟨t,counted,run⟩ := Except.ok_of_bind run
    cases run
    exact .inr (.inl ⟨t,rfl,counted,rfl⟩)
  | error kind =>
    cases run
    exact .inr (.inr (.inl ⟨kind,rfl,rfl⟩))
  | watchEvents now events =>
    cases run
    exact .inr (.inr (.inr ⟨now,rfl,rfl⟩))

theorem observe_measures_same {r r' : Recorder} {o : Observation} (run : r.observe o = .ok r') {c : Category}
    (other : o.category ≠ c) : r.metrics.Same c r'.metrics := by
  rcases observe_cases run with ⟨kind,t,here,-,rfl⟩ | ⟨t,here,-,rfl⟩ | ⟨kind,here,rfl⟩ | ⟨now,here,rfl⟩
  all_goals rw [here] at other
  · cases c with
    | operation kind' =>
      have apart : kind' ≠ kind := fun same => other (by rw [same])
      show (Metrics.upsert kind _ _ r.metrics.kinds).lookup kind' = _
      rw [Metrics.lookup_upsert,if_neg apart]
      rfl
    | _ => rfl
  · cases c with
    | reconnect => exact absurd rfl other
    | _ => rfl
  · cases c with
    | errors => exact absurd rfl other
    | _ => rfl
  · cases c with
    | watchEvents => exact absurd rfl other
    | _ => rfl

/-- Words start over together, whichever of the summands did before. -/
private theorem count_mod (periods lifetime n : Nat) :
    (periods + (lifetime + n) % Word.limit) % Word.limit = ((periods + lifetime) % Word.limit + n) % Word.limit := by
  rw [Nat.add_mod_mod,Nat.mod_add_mod,Nat.add_assoc]

namespace Annals

variable {a b : Annals}

theorem Tracks.of_same {c : Category} (tracks : a.Tracks c) (periods : b.periods = a.periods)
    (current : a.current.Same c b.current) (metrics : a.metrics.Same c b.metrics) : b.Tracks c := by
  cases c
  all_goals
    simp only [Snapshot.Same] at current
    simp only [Metrics.Same] at metrics
    simp only [Tracks,total_eq,Metrics.operations,Metrics.samples,Metrics.bytes,Metrics.errorCount,periods,current,
      metrics] at tracks ⊢
    exact tracks

theorem Tracks.operation {kind : Kind} {nanos keys bytes : Nat} {t : Tally} (tracks : a.Tracks (.operation kind))
    (run : a.book.recorder.tally.record kind nanos keys bytes = .ok t) (periods : b.periods = a.periods)
    (recorder : b.book.recorder = ⟨t,a.metrics.observe kind nanos bytes⟩) : b.Tracks (.operation kind) := by
  obtain ⟨operations,samples,moved,-⟩ := tracks
  have recorded := Tally.ok_of_record run
  have calls := OpTally.record_calls recorded
  obtain ⟨added,fits⟩ := OpTally.record_bytes recorded
  obtain ⟨operations',samples',moved'⟩ := Metrics.observe_adds a.metrics kind nanos bytes
  have current : b.current = t.snapshot := by unfold current; rw [recorder]
  have metrics : b.metrics = a.metrics.observe kind nanos bytes := by unfold metrics; rw [recorder]; rfl
  have past : a.book.recorder.tally.snapshot = a.current := rfl
  rw [past] at calls added fits
  rw [total_eq] at operations samples moved
  simp only [Tracks,total_eq,periods,current,metrics]
  refine ⟨?_,?_,?_,?_⟩
  · rw [operations',operations,calls,Nat.add_assoc]
  · rw [samples',samples,calls,Nat.add_assoc]
  · rw [moved',moved,added,← Nat.add_assoc]
    split_ifs with any
    · rw [Nat.mod_add_mod]
    · rw [Nat.eq_zero_of_not_pos any,Nat.add_zero]
  · rw [added]
    exact fits

theorem Tracks.reconnect {nanos : Nat} {t : Tally} (tracks : a.Tracks .reconnect)
    (run : a.book.recorder.tally.recordReconnect nanos = .ok t) (periods : b.periods = a.periods)
    (recorder : b.book.recorder = ⟨t,a.metrics.observeReconnect⟩) : b.Tracks .reconnect := by
  obtain ⟨v,counted,run⟩ := Except.ok_of_bind run
  cases run
  have more : v.lifetime.count = a.current.reconnect.count + 1 :=
    Latency.record_count (Views.update_lifetime counted)
  have current : b.current.reconnect = v.lifetime := by unfold current; rw [recorder]; rfl
  have metrics : b.metrics.reconnects = a.metrics.reconnects + 1 := by unfold metrics; rw [recorder]; rfl
  have tracks : a.metrics.reconnects = _ := tracks
  rw [total_eq] at tracks
  simp only [Tracks,total_eq,periods,current,metrics,more]
  rw [tracks,Nat.add_assoc]

theorem Tracks.error {kind : String} (tracks : a.Tracks .errors) (periods : b.periods = a.periods)
    (recorder : b.book.recorder = a.book.recorder.error kind) : b.Tracks .errors := by
  obtain ⟨⟨rounds,errors⟩,small⟩ := tracks
  have current : b.current.errors = (a.current.errors + 1) % Word.limit := by unfold current; rw [recorder]; rfl
  have metrics : b.metrics.errorCount = a.metrics.errorCount + 1 := by
    unfold metrics
    rw [recorder]
    exact Metrics.errorCount_observeError a.metrics kind
  rw [total_eq] at errors
  simp only [Tracks,total_eq,periods,current,metrics]
  refine ⟨?_,Nat.mod_lt _ (by decide)⟩
  rcases Nat.lt_or_ge (a.current.errors + 1) Word.limit with below | reached
  · refine ⟨rounds,?_⟩
    rw [Nat.mod_eq_of_lt below]
    omega
  · refine ⟨rounds + 1,?_⟩
    have whole : a.current.errors + 1 = Word.limit := by omega
    rw [whole,Nat.mod_self,Nat.succ_mul]
    omega

theorem Tracks.watchEvents {now events : Nat} (tracks : a.Tracks .watchEvents) (periods : b.periods = a.periods)
    (recorder : b.book.recorder = a.book.recorder.watchEvents now events) : b.Tracks .watchEvents := by
  obtain ⟨measured,-⟩ := tracks
  have current : b.current.watchEvents = (a.current.watchEvents + events) % Word.limit := by
    unfold current
    rw [recorder]
    rfl
  have metrics : b.metrics.watchEvents = (a.metrics.watchEvents + events) % Word.limit := by
    unfold metrics
    rw [recorder]
    rfl
  rw [total_eq] at measured
  simp only [Tracks,total_eq,periods,current,metrics,measured]
  exact ⟨(count_mod _ _ _).symm,Nat.mod_lt _ (by decide)⟩

theorem Tracks.observe {o : Observation} (tracks : ∀ c, a.Tracks c) (periods : b.periods = a.periods)
    (run : a.book.recorder.observe o = .ok b.book.recorder) (c : Category) : b.Tracks c := by
  by_cases here : o.category = c
  · subst here
    rcases observe_cases run with ⟨kind,t,own,counted,recorder⟩ | ⟨t,own,counted,recorder⟩ | ⟨kind,own,recorder⟩ |
        ⟨now,own,recorder⟩
    all_goals rw [own]
    · exact (tracks _).operation counted periods recorder
    · exact (tracks _).reconnect counted periods recorder
    · exact (tracks _).error periods recorder
    · exact (tracks _).watchEvents periods recorder
  · exact (tracks c).of_same periods (observe_same run here).lifetime (observe_measures_same run here)

/-- A reset adds the view of its period to those before, and an empty one begins. -/
theorem Tracks.reset {c : Category} (tracks : a.Tracks c) (periods : b.periods = a.periods ++ [a.current])
    (recorder : b.book.recorder = a.book.recorder.reset) : b.Tracks c := by
  have current : b.current = Snapshot.zero := by unfold current; rw [recorder]; rfl
  have metrics : b.metrics = a.metrics := by unfold metrics; rw [recorder]; rfl
  have total (count : Snapshot → Nat) (none : count Snapshot.zero = 0) : b.total count = a.total count := by
    rw [total_eq,periods,current,none]
    rfl
  cases c with
  | operation kind =>
    obtain ⟨operations,samples,bytes,-⟩ := tracks
    have none : (Snapshot.zero.operation kind).calls = 0 ∧ (Snapshot.zero.operation kind).bytes = 0 := by
      cases kind <;> exact ⟨rfl,rfl⟩
    simp only [Tracks,metrics,current]
    rw [total _ none.1,total _ none.2,none.2]
    exact ⟨operations,samples,bytes,by decide⟩
  | reconnect =>
    simp only [Tracks,metrics]
    rw [total _ rfl]
    exact tracks
  | errors =>
    simp only [Tracks,metrics,current]
    rw [total _ rfl]
    exact ⟨tracks.1,by decide⟩
  | watchEvents =>
    simp only [Tracks,metrics,current]
    rw [total _ rfl]
    exact ⟨tracks.1,by decide⟩

theorem Tracks.call {call : Call} (tracks : ∀ c, a.Tracks c) (run : a.call call = .ok b) (c : Category) :
    b.Tracks c := by
  rcases call_cases run with ⟨o,rfl,observed,periods⟩ | ⟨rfl,recorder,periods⟩ | ⟨-,metrics,current,periods⟩
  · exact Tracks.observe tracks periods observed c
  · exact (tracks c).reset periods recorder
  · refine (tracks c).of_same periods (current c) ?_
    rw [metrics]
    cases c <;> rfl

theorem call_labels {call : Call} (once : (a.metrics.kinds.map Prod.fst).Nodup) (run : a.call call = .ok b) :
    (b.metrics.kinds.map Prod.fst).Nodup := by
  rcases call_cases run with ⟨o,-,observed,-⟩ | ⟨-,recorder,-⟩ | ⟨-,metrics,-,-⟩
  · unfold metrics
    rcases observe_cases observed with ⟨kind,t,-,-,recorder⟩ | ⟨t,-,-,recorder⟩ | ⟨kind,-,recorder⟩ | ⟨now,-,recorder⟩
    all_goals rw [recorder]
    · exact Metrics.labels_upsert once
    · exact once
    · exact once
    · exact once
  · unfold metrics
    rw [recorder]
    exact once
  · rw [metrics]
    exact once

/-! ### Sequences of calls -/

theorem after_tracks {calls : List Call} (run : after calls = .ok a) :
    (a.metrics.kinds.map Prod.fst).Nodup ∧ ∀ c, a.Tracks c := by
  induction calls using List.reverseRecOn generalizing a with
  | nil =>
    cases run
    refine ⟨List.nodup_nil,fun c => ?_⟩
    rcases c with kind | _ | _ | _
    · cases kind <;> exact ⟨rfl,rfl,rfl,by decide⟩
    · exact rfl
    · exact ⟨⟨0,rfl⟩,by decide⟩
    · exact ⟨rfl,by decide⟩
  | append_singleton calls c ih =>
    obtain ⟨before,run,last⟩ := after_of_concat run
    obtain ⟨once,tracks⟩ := ih run
    exact ⟨call_labels once last,Tracks.call tracks last⟩

theorem after_measured {calls : List Call} (run : after calls = .ok a) : a.Measured := by
  obtain ⟨labels,tracks⟩ := after_tracks run
  obtain ⟨⟨rounds,errors⟩,-⟩ := tracks .errors
  exact {
    labels
    operations kind := (tracks (.operation kind)).1
    samples kind := (tracks (.operation kind)).2.1
    bytes kind := (tracks (.operation kind)).2.2.1
    errors := by rw [errors,Nat.add_mul_mod_self_right]
    fewErrors few := by
      have none : rounds = 0 := by
        by_contra some
        have := Nat.le_mul_of_pos_left Word.limit (Nat.pos_of_ne_zero some)
        omega
      rw [errors,none,Nat.zero_mul,Nat.add_zero]
    reconnects := tracks .reconnect
    watchEvents := (tracks .watchEvents).1 }

theorem periods_nil {calls : List Call} (run : after calls = .ok a) (goes_on : ∀ c ∈ calls, c.resets = false) :
    a.periods = [] := by
  induction calls using List.reverseRecOn generalizing a with
  | nil =>
    cases run
    rfl
  | append_singleton calls c ih =>
    obtain ⟨before,run,last⟩ := after_of_concat run
    obtain ⟨-,periods⟩ := call_book last
    rw [goes_on c (by simp),ih run fun c mem => goes_on c (List.mem_append_left _ mem)] at periods
    exact periods

/-- Without a reset the current view is the only one. -/
theorem Measured.agree {calls : List Call} (measured : a.Measured) (run : after calls = .ok a)
    (goes_on : ∀ c ∈ calls, c.resets = false) : a.metrics.Agree a.current := by
  have total (count : Snapshot → Nat) : a.total count = count a.current := by
    rw [total_eq,periods_nil run goes_on]
    exact Nat.zero_add _
  obtain ⟨-,tracks⟩ := after_tracks run
  exact {
    operations kind := (measured.operations kind).trans (total _)
    samples kind := (measured.samples kind).trans (total _)
    bytes kind := by rw [measured.bytes,total,Nat.mod_eq_of_lt (tracks (.operation kind)).2.2.2]
    errors := by rw [measured.errors,total,Nat.mod_eq_of_lt (tracks .errors).2]
    fewErrors few := (measured.fewErrors few).trans (total _)
    reconnects := measured.reconnects.trans (total _)
    watchEvents := by rw [measured.watchEvents,total,Nat.mod_eq_of_lt (tracks .watchEvents).2] }

end Annals

/-- Whatever is recorded, taken and cleared in whatever order: where there was no reset, the metrics are what the
lifetime view says, and they are what the views of all periods between resets come to in any case. A reset starts
the tallies over and leaves every metric as it is. A fault comes only of sums that words do not hold. -/
theorem metrics_measure (calls : List Call) :
    (∃ a, Annals.after calls = .ok a ∧ a.Measured ∧
        ((∀ c ∈ calls, c.resets = false) → a.metrics.Agree a.current) ∧
        ∃ b, Annals.after (calls ++ [.reset]) = .ok b ∧ b.book.recorder.tally = Tally.zero ∧ b.metrics = a.metrics ∧
          b.periods = a.periods ++ [a.current]) ∨
      ((∃ f, Annals.after calls = .error f) ∧ ∃ before, before <+: calls ∧ ¬ Fits (sinceReset before)) := by
  cases run : Annals.after calls with
  | ok a =>
    have measured := Annals.after_measured run
    exact .inl ⟨a,rfl,measured,measured.agree run,_,(Annals.after_concat run .reset).trans rfl,rfl,rfl,rfl⟩
  | error f =>
    refine .inr ⟨⟨f,rfl⟩,?_⟩
    by_contra fits
    push Not at fits
    obtain ⟨b,held,-⟩ := Book.after_holds calls fits
    obtain ⟨a,ended,-⟩ := Annals.after_book held
    rw [run] at ended
    cases ended

end Recorder

end Keyload
