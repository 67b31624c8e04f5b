import Mathlib.Algebra.GroupWithZero.Nat
import Mathlib.Data.List.DropRight
import Mathlib.Data.List.Forall2
import Mathlib.Data.List.Infix
import Keyload.Proofs.Stats.Counted

/-!
Both views account for every observation once. The lifetime view is the fold of what was observed since the last reset,
the interval view that of what was observed since an interval last ended, and the views of the intervals that have ended
since the last reset merge with the current one into the lifetime view (`views_account`). A view is compared with the
fold of a list of observations (`Snapshot.Accounts`); one more observation extends the list at its end
(`observe_accounts`), and the views of two stretches merge into the view of both (`Snapshot.Accounts.merge`).
-/
namespace Keyload

/-! ### Observations and calls -/

inductive Observation where
  | put (nanos bytes : Nat)
  | delete (nanos deleted : Nat)
  | get (below : Bool) (nanos count bytes : Nat)
  | reconnect (nanos : Nat)
  | error (kind : String)
  | watchEvents (now events : Nat)
  deriving DecidableEq

inductive Category where
  | operation (kind : Kind)
  | reconnect
  | errors
  | watchEvents
  deriving DecidableEq

namespace Category

def all : List Category :=
  [.operation .put,.operation .delete,.operation .get,.operation .prefixGet,.reconnect,.errors,.watchEvents]

theorem mem_all (c : Category) : c ∈ all := by
  rcases c with ⟨_ | _ | _ | _⟩ | _ | _ | _ <;> decide

end Category

namespace Observation

def category : Observation → Category
  | .put .. => .operation .put
  | .delete .. => .operation .delete
  | .get below .. => .operation (if below then .prefixGet else .get)
  | .reconnect _ => .reconnect
  | .error _ => .errors
  | .watchEvents .. => .watchEvents

def nanos : Observation → Nat
  | .put nanos _ => nanos
  | .delete nanos _ => nanos
  | .get _ nanos _ _ => nanos
  | .reconnect nanos => nanos
  | .error _ => 0
  | .watchEvents .. => 0

/-- The keys an operation touched, or the events of a watch. -/
def keys : Observation → Nat
  | .put .. => 1
  | .delete _ deleted => deleted
  | .get _ _ count _ => count
  | .reconnect _ => 0
  | .error _ => 0
  | .watchEvents _ events => events

def bytes : Observation → Nat
  | .put _ bytes => bytes
  | .delete .. => 0
  | .get _ _ _ bytes => bytes
  | .reconnect _ => 0
  | .error _ => 0
  | .watchEvents .. => 0

end Observation

namespace Recorder

def observe (r : Recorder) : Observation → Except Fault Recorder
  | .put nanos bytes => r.put nanos bytes
  | .delete nanos deleted => r.delete nanos deleted
  | .get below nanos count bytes => r.get below nanos count bytes
  | .reconnect nanos => r.reconnect nanos
  | .error kind => .ok (r.error kind)
  | .watchEvents now events => .ok (r.watchEvents now events)

inductive Call where
  | observe (o : Observation)
  | takeInterval
  | resetInterval
  | reset
  | setWatchers (n : Nat)
  | loseWatcher

namespace Call

def observation? : Call → Option Observation
  | .observe o => some o
  | _ => none

def resets : Call → Bool
  | .reset => true
  | _ => false

def endsInterval : Call → Bool
  | .takeInterval | .resetInterval | .reset => true
  | _ => false

end Call

/-- What was observed since the last reset. -/
def sinceReset (calls : List Call) : List Observation :=
  (calls.rtakeWhile fun c => !c.resets).filterMap Call.observation?

/-- What was observed since an interval last ended. -/
def sinceInterval (calls : List Call) : List Observation :=
  (calls.rtakeWhile fun c => !c.endsInterval).filterMap Call.observation?

/-- A recorder, and the views of the intervals that have ended since its last reset. -/
structure Book where
  recorder : Recorder
  ended : List Snapshot

namespace Book

def call (b : Book) : Call → Except Fault Book
  | .observe o => do pure ⟨← b.recorder.observe o,b.ended⟩
  | .takeInterval => .ok ⟨b.recorder.onTally (·.takeInterval.2),b.ended ++ [b.recorder.tally.takeInterval.1]⟩
  | .resetInterval => .ok ⟨b.recorder.onTally (·.resetInterval),b.ended ++ [b.recorder.tally.intervalSnapshot]⟩
  | .reset => .ok ⟨b.recorder.reset,[]⟩
  | .setWatchers n => .ok ⟨b.recorder.onTally (·.setWatchers n),b.ended⟩
  | .loseWatcher => .ok ⟨b.recorder.onTally (·.loseWatcher),b.ended⟩

/-- The book of a new recorder after some calls. -/
def after (calls : List Call) : Except Fault Book := calls.foldlM call ⟨Recorder.zero,[]⟩

theorem after_concat {calls : List Call} {b : Book} (run : after calls = .ok b) (c : Call) :
    after (calls ++ [c]) = b.call c := by
  unfold after at run ⊢
  rw [List.foldlM_append,run]
  exact bind_pure (b.call c)

end Book

end Recorder

/-! ### Folds of observations -/

/-- The smallest of some numbers, zero without any. -/
def least (ns : List Nat) : Nat := ns.min?.getD 0

def greatest (ns : List Nat) : Nat := ns.max?.getD 0

theorem least_append (ns ms : List Nat) :
    least (ns ++ ms) = if ns = [] then least ms else if ms = [] then least ns else min (least ns) (least ms) := by
  cases ns with
  | nil => simp
  | cons n ns =>
    cases ms with
    | nil => simp
    | cons m ms =>
      show (ns ++ m :: ms).foldl min n = min (ns.foldl min n) (ms.foldl min m)
      rw [List.foldl_append,List.foldl_cons]
      exact List.foldl_assoc

theorem greatest_append (ns ms : List Nat) : greatest (ns ++ ms) = max (greatest ns) (greatest ms) := by
  cases ns with
  | nil => simp [greatest]
  | cons n ns =>
    cases ms with
    | nil => simp [greatest]
    | cons m ms =>
      show (ns ++ m :: ms).foldl max n = max (ns.foldl max n) (ms.foldl max m)
      rw [List.foldl_append,List.foldl_cons]
      exact List.foldl_assoc

/-- The latencies of observations. -/
def Latency.of (os : List Observation) : Latency :=
  let us := os.map (·.nanos / 1000)
  ⟨us.length,us.sum,least us,greatest us⟩

/-- What observations of one kind come to. -/
def OpTally.of (os : List Observation) : OpTally := ⟨Latency.of os,(os.map (·.keys)).sum,(os.map (·.bytes)).sum⟩

/-- The observations of a category. -/
def own (c : Category) (os : List Observation) : List Observation := os.filter (·.category = c)

theorem own_append (c : Category) (os more : List Observation) : own c (os ++ more) = own c os ++ own c more := by
  simp only [own,List.filter_append]

theorem own_self (o : Observation) : own o.category [o] = [o] := by
  simp [own]

theorem own_other {c : Category} {o : Observation} (other : o.category ≠ c) : own c [o] = [] := by
  simp [own,other]

/-- The latencies of two stretches of time; a stretch without calls has no smallest. -/
def Latency.merge (a b : Latency) : Latency where
  count := a.count + b.count
  totalUs := a.totalUs + b.totalUs
  minUs := if a.count = 0 then b.minUs else if b.count = 0 then a.minUs else min a.minUs b.minUs
  maxUs := max a.maxUs b.maxUs

def OpTally.merge (a b : OpTally) : OpTally := ⟨a.latency.merge b.latency,a.keys + b.keys,a.bytes + b.bytes⟩

/-- The views of two stretches of time as one, with the watchers of the later. -/
def Snapshot.merge (a b : Snapshot) : Snapshot where
  put := a.put.merge b.put
  delete := a.delete.merge b.delete
  get := a.get.merge b.get
  prefixGet := a.prefixGet.merge b.prefixGet
  reconnect := a.reconnect.merge b.reconnect
  errors := a.errors + b.errors
  watchEvents := a.watchEvents + b.watchEvents
  watchersConfigured := b.watchersConfigured
  watchersActive := b.watchersActive

theorem Latency.of_append (os more : List Observation) : of (os ++ more) = (of os).merge (of more) := by
  simp only [of,merge,List.map_append,List.length_append,List.sum_append,least_append,greatest_append,
    List.length_eq_zero_iff]

theorem OpTally.of_append (os more : List Observation) : of (os ++ more) = (of os).merge (of more) := by
  simp only [of,merge,Latency.of_append,List.map_append,List.sum_append]

/-- What the observations of a category come to. -/
def foldOf (c : Category) (os : List Observation) : OpTally := OpTally.of (own c os)

theorem foldOf_append (c : Category) (os more : List Observation) :
    foldOf c (os ++ more) = (foldOf c os).merge (foldOf c more) := by
  simp only [foldOf,own_append,OpTally.of_append]

theorem foldOf_concat_self {c : Category} {o : Observation} (os : List Observation) (here : o.category = c) :
    foldOf c (os ++ [o]) = (foldOf c os).merge (OpTally.of [o]) := by
  subst here
  rw [foldOf_append]
  simp only [foldOf,own_self]

theorem foldOf_concat_other {c : Category} {o : Observation} (os : List Observation) (other : o.category ≠ c) :
    foldOf c (os ++ [o]) = foldOf c os := by
  simp only [foldOf,own_append,own_other other,List.append_nil]

/-- Words hold every sum. -/
structure OpTally.Fits (t : OpTally) : Prop where
  calls : t.calls < Word.limit
  totalUs : t.latency.totalUs < Word.limit
  keys : t.keys < Word.limit
  bytes : t.bytes < Word.limit

instance (t : OpTally) : Decidable t.Fits :=
  decidable_of_iff (t.calls < Word.limit ∧ t.latency.totalUs < Word.limit ∧ t.keys < Word.limit ∧ t.bytes < Word.limit)
    ⟨fun ⟨calls,totalUs,keys,bytes⟩ => ⟨calls,totalUs,keys,bytes⟩,
      fun fits => ⟨fits.calls,fits.totalUs,fits.keys,fits.bytes⟩⟩

/-- Words hold every sum of every category. -/
def Fits (os : List Observation) : Prop := ∀ c, (foldOf c os).Fits

instance (os : List Observation) : Decidable (Fits os) :=
  decidable_of_iff (∀ c ∈ Category.all, (foldOf c os).Fits) ⟨fun fits c => fits c c.mem_all,fun fits c _ => fits c⟩

theorem Fits.later {os more : List Observation} (fits : Fits (os ++ more)) : Fits more := by
  intro c
  have whole := fits c
  rw [foldOf_append] at whole
  obtain ⟨calls,totalUs,keys,bytes⟩ := whole
  simp only [OpTally.calls,OpTally.merge,Latency.merge] at calls totalUs keys bytes
  exact ⟨by unfold OpTally.calls; omega,by omega,by omega,by omega⟩

/-! ### One more observation -/

/-- One more call is counted as a stretch with that call alone. -/
theorem Latency.record_merges {l : Latency} {o : Observation} (fits : (l.merge (of [o])).totalUs < Word.limit) :
    l.record o.nanos = .ok (l.merge (of [o])) := by
  have one : of [o] = ⟨1,o.nanos / 1000,o.nanos / 1000,o.nanos / 1000⟩ := by
    simp [of,least,greatest]
  rw [one] at fits ⊢
  have fits : l.totalUs + o.nanos / 1000 < Word.limit := fits
  have whole : micros o.nanos = o.nanos / 1000 := Nat.mod_eq_of_lt (by omega)
  have added : Word.add l.totalUs (o.nanos / 1000) = .ok (l.totalUs + o.nanos / 1000) := if_pos fits
  have smallest : (if l.count = 0 ∨ o.nanos / 1000 < l.minUs then o.nanos / 1000 else l.minUs) =
      if l.count = 0 then o.nanos / 1000 else min l.minUs (o.nanos / 1000) := by
    split_ifs <;> omega
  simp only [record,whole,added,smallest]
  rfl

theorem OpTally.record_merges {t : OpTally} {o : Observation} (fits : (t.merge (of [o])).Fits) :
    t.record o.nanos o.keys o.bytes = .ok (t.merge (of [o])) := by
  have keys : Word.add t.keys o.keys = .ok (t.keys + o.keys) := if_pos fits.keys
  have bytes : Word.add t.bytes o.bytes = .ok (t.bytes + o.bytes) := if_pos fits.bytes
  unfold record
  rw [Latency.record_merges fits.totalUs,keys,bytes]
  rfl

def Snapshot.operation (s : Snapshot) : Kind → OpTally
  | .put => s.put
  | .delete => s.delete
  | .get => s.get
  | .prefixGet => s.prefixGet

namespace Tally

def operation (t : Tally) : Kind → Views OpTally
  | .put => t.put
  | .delete => t.delete
  | .get => t.get
  | .prefixGet => t.prefixGet

def setOperation (t : Tally) (v : Views OpTally) : Kind → Tally
  | .put => { t with put := v }
  | .delete => { t with delete := v }
  | .get => { t with get := v }
  | .prefixGet => { t with prefixGet := v }

theorem setOperation_operation (t : Tally) (v : Views OpTally) (kind kind' : Kind) :
    (t.setOperation v kind).operation kind' = if kind' = kind then v else t.operation kind' := by
  cases kind <;> cases kind' <;> rfl

theorem snapshot_operation (t : Tally) (kind : Kind) : t.snapshot.operation kind = (t.operation kind).lifetime := by
  cases kind <;> rfl

theorem intervalSnapshot_operation (t : Tally) (kind : Kind) :
    t.intervalSnapshot.operation kind = (t.operation kind).interval := by
  cases kind <;> rfl

theorem record_eq {t : Tally} {kind : Kind} {nanos keys bytes : Nat} {v : Views OpTally}
    (run : (t.operation kind).update (·.record nanos keys bytes) = .ok v) :
    t.record kind nanos keys bytes = .ok (t.setOperation v kind) := by
  cases kind
  all_goals
    unfold record
    simp only [operation] at run
    rw [run]
    rfl

/-- The views of a category are the same. -/
def Same (c : Category) (t t' : Tally) : Prop :=
  match c with
  | .operation kind => t'.operation kind = t.operation kind
  | .reconnect => t'.reconnect = t.reconnect
  | .errors => t'.errors = t.errors
  | .watchEvents => t'.watchEvents = t.watchEvents

end Tally

/-- A view is what the observations come to, category by category. -/
structure Snapshot.Accounts (s : Snapshot) (os : List Observation) : Prop where
  operations : ∀ kind, s.operation kind = foldOf (.operation kind) os
  reconnects : s.reconnect = (foldOf .reconnect os).latency
  errors : s.errors = (foldOf .errors os).calls
  watchEvents : s.watchEvents = (foldOf .watchEvents os).keys

namespace Snapshot

/-- The views of two stretches of time merge into the view of both. -/
theorem Accounts.merge {a b : Snapshot} {os more : List Observation} (first : a.Accounts os) (second : b.Accounts more) :
    (a.merge b).Accounts (os ++ more) where
  operations kind := by
    rw [foldOf_append,← first.operations kind,← second.operations kind]
    cases kind <;> rfl
  reconnects := by
    rw [foldOf_append]
    show a.reconnect.merge b.reconnect = _
    rw [first.reconnects,second.reconnects]
    rfl
  errors := by
    rw [foldOf_append]
    show a.errors + b.errors = _
    rw [first.errors,second.errors]
    rfl
  watchEvents := by
    rw [foldOf_append]
    show a.watchEvents + b.watchEvents = _
    rw [first.watchEvents,second.watchEvents]
    rfl

/-- The observations determine a view, its watchers apart. -/
theorem Accounts.eq {a b : Snapshot} {os : List Observation} (one : a.Accounts os) (other : b.Accounts os)
    (configured : a.watchersConfigured = b.watchersConfigured) (active : a.watchersActive = b.watchersActive) :
    a = b := by
  have put := (one.operations .put).trans (other.operations .put).symm
  have delete := (one.operations .delete).trans (other.operations .delete).symm
  have get := (one.operations .get).trans (other.operations .get).symm
  have prefixGet := (one.operations .prefixGet).trans (other.operations .prefixGet).symm
  have reconnects := one.reconnects.trans other.reconnects.symm
  have errors := one.errors.trans other.errors.symm
  have watchEvents := one.watchEvents.trans other.watchEvents.symm
  cases a
  cases b
  simp only [operation] at *
  simp only [mk.injEq]
  exact ⟨put,delete,get,prefixGet,reconnects,errors,watchEvents,configured,active⟩

end Snapshot

namespace Tally

/-- Both views of a category, over what was observed in the lifetime and what in the interval. -/
def Tells (t : Tally) (past recent : List Observation) : Category → Prop
  | .operation kind => t.operation kind = ⟨foldOf (.operation kind) past,foldOf (.operation kind) recent⟩
  | .reconnect => t.reconnect = ⟨(foldOf .reconnect past).latency,(foldOf .reconnect recent).latency⟩
  | .errors => t.errors = ⟨(foldOf .errors past).calls,(foldOf .errors recent).calls⟩
  | .watchEvents => t.watchEvents = ⟨(foldOf .watchEvents past).keys,(foldOf .watchEvents recent).keys⟩

def Accounts (t : Tally) (past recent : List Observation) : Prop := ∀ c, t.Tells past recent c

variable {t t' : Tally} {past recent : List Observation}

theorem Accounts.lifetime (accounts : t.Accounts past recent) : t.snapshot.Accounts past where
  operations kind := by rw [snapshot_operation,accounts (.operation kind)]
  reconnects := congrArg Views.lifetime (accounts .reconnect)
  errors := congrArg Views.lifetime (accounts .errors)
  watchEvents := congrArg Views.lifetime (accounts .watchEvents)

theorem Accounts.interval (accounts : t.Accounts past recent) : t.intervalSnapshot.Accounts recent where
  operations kind := by rw [intervalSnapshot_operation,accounts (.operation kind)]
  reconnects := congrArg Views.interval (accounts .reconnect)
  errors := congrArg Views.interval (accounts .errors)
  watchEvents := congrArg Views.interval (accounts .watchEvents)

theorem accounts_zero : zero.Accounts [] [] := by
  intro c
  cases c with
  | operation kind => cases kind <;> rfl
  | _ => rfl

theorem Accounts.resetInterval (accounts : t.Accounts past recent) : t.resetInterval.Accounts past [] := by
  intro c
  cases c with
  | operation kind =>
    have cleared : t.resetInterval.operation kind = (t.operation kind).clear OpTally.zero := by cases kind <;> rfl
    show t.resetInterval.operation kind = _
    rw [cleared,accounts (.operation kind)]
    rfl
  | reconnect => exact congrArg (Views.clear · Latency.zero) (accounts .reconnect)
  | errors => exact congrArg (Views.clear · 0) (accounts .errors)
  | watchEvents => exact congrArg (Views.clear · 0) (accounts .watchEvents)

theorem Tells.of_same {c : Category} (tells : t.Tells past recent c) (same : t.Same c t') : t'.Tells past recent c := by
  cases c <;> exact Eq.trans same tells

/-- An observation extends its own category, when it leaves the others as they are. -/
theorem Accounts.concat {o : Observation} (accounts : t.Accounts past recent)
    (told : t'.Tells (past ++ [o]) (recent ++ [o]) o.category) (others : ∀ c, o.category ≠ c → t.Same c t') :
    t'.Accounts (past ++ [o]) (recent ++ [o]) := by
  intro c
  by_cases here : o.category = c
  · exact here ▸ told
  · have same := (accounts c).of_same (others c here)
    cases c
    all_goals
      simp only [Tells,foldOf_concat_other _ here]
      exact same

end Tally

theorem Views.update_eq {α : Type} {f : α → Except Fault α} {lifetime interval a b : α} (changed : f lifetime = .ok a)
    (changed' : f interval = .ok b) : (⟨lifetime,interval⟩ : Views α).update f = .ok ⟨a,b⟩ := by
  unfold update
  simp only [changed,changed']
  rfl

namespace Recorder

theorem operation_same {r r' : Recorder} {kind : Kind} {nanos keys bytes : Nat}
    (run : r.operation kind nanos keys bytes = .ok r') {c : Category} (other : .operation kind ≠ c) :
    r.tally.Same c r'.tally := by
  obtain ⟨t,counted,run⟩ := Except.ok_of_bind run
  cases run
  cases kind
  all_goals
    obtain ⟨v,-,counted⟩ := Except.ok_of_bind counted
    cases counted
    cases c with
    | operation kind' =>
      cases kind' with
      | _ => first | rfl | exact absurd rfl other
    | _ => rfl

/-- No observation changes another category, whatever was recorded before. -/
theorem observe_same {r r' : Recorder} {o : Observation} (run : r.observe o = .ok r') {c : Category}
    (other : o.category ≠ c) : r.tally.Same c r'.tally := by
  cases o with
  | put => exact operation_same run other
  | delete => exact operation_same run other
  | get => exact operation_same run other
  | reconnect =>
    obtain ⟨t,counted,run⟩ := Except.ok_of_bind run
    cases run
    obtain ⟨v,-,counted⟩ := Except.ok_of_bind counted
    cases counted
    cases c with
    | operation kind => cases kind <;> rfl
    | reconnect => exact absurd rfl other
    | _ => rfl
  | error =>
    cases run
    cases c with
    | operation kind => cases kind <;> rfl
    | errors => exact absurd rfl other
    | _ => rfl
  | watchEvents =>
    cases run
    cases c with
    | operation kind => cases kind <;> rfl
    | watchEvents => exact absurd rfl other
    | _ => rfl

variable {r : Recorder} {past recent : List Observation}

theorem operation_tells {kind : Kind} {o : Observation} (accounts : r.tally.Accounts past recent)
    (here : o.category = .operation kind) (whole : Fits (past ++ [o])) (part : Fits (recent ++ [o])) :
    ∃ r', r.operation kind o.nanos o.keys o.bytes = .ok r' ∧
      r'.tally.Tells (past ++ [o]) (recent ++ [o]) o.category := by
  have views := accounts (.operation kind)
  have whole := whole (.operation kind)
  have part := part (.operation kind)
  rw [foldOf_concat_self _ here] at whole part
  have run := Views.update_eq (f := fun t : OpTally => t.record o.nanos o.keys o.bytes) (OpTally.record_merges whole)
    (OpTally.record_merges part)
  rw [← views] at run
  refine ⟨⟨_,_⟩,by unfold operation; rw [Tally.record_eq run]; rfl,?_⟩
  rw [here]
  show (r.tally.setOperation _ kind).operation kind = _
  rw [Tally.setOperation_operation,if_pos rfl,foldOf_concat_self _ here,foldOf_concat_self _ here]

theorem reconnect_tells {nanos : Nat} (accounts : r.tally.Accounts past recent)
    (whole : Fits (past ++ [.reconnect nanos])) (part : Fits (recent ++ [.reconnect nanos])) :
    ∃ r', r.reconnect nanos = .ok r' ∧
      r'.tally.Tells (past ++ [.reconnect nanos]) (recent ++ [.reconnect nanos]) .reconnect := by
  have here : (Observation.reconnect nanos).category = .reconnect := rfl
  have views : r.tally.reconnect = _ := accounts .reconnect
  have whole := (whole .reconnect).totalUs
  have part := (part .reconnect).totalUs
  rw [foldOf_concat_self _ here] at whole part
  have run := Views.update_eq (f := fun l : Latency => l.record nanos) (Latency.record_merges whole)
    (Latency.record_merges part)
  rw [← views] at run
  refine ⟨⟨_,_⟩,by unfold reconnect Tally.recordReconnect; rw [run]; rfl,?_⟩
  simp only [Tally.Tells,foldOf_concat_self _ here]
  rfl

theorem error_tells {kind : String} (accounts : r.tally.Accounts past recent)
    (whole : Fits (past ++ [.error kind])) (part : Fits (recent ++ [.error kind])) :
    (r.error kind).tally.Tells (past ++ [.error kind]) (recent ++ [.error kind]) .errors := by
  have here : (Observation.error kind).category = .errors := rfl
  have views : r.tally.errors = _ := accounts .errors
  have whole := (whole .errors).calls
  have part := (part .errors).calls
  rw [foldOf_concat_self _ here] at whole part
  show r.tally.errors.count 1 = _
  rw [views,foldOf_concat_self _ here,foldOf_concat_self _ here]
  exact congrArg₂ Views.mk (Nat.mod_eq_of_lt whole) (Nat.mod_eq_of_lt part)

theorem watchEvents_tells {now events : Nat} (accounts : r.tally.Accounts past recent)
    (whole : Fits (past ++ [.watchEvents now events])) (part : Fits (recent ++ [.watchEvents now events])) :
    (r.watchEvents now events).tally.Tells (past ++ [.watchEvents now events]) (recent ++ [.watchEvents now events])
      .watchEvents := by
  have here : (Observation.watchEvents now events).category = .watchEvents := rfl
  have views : r.tally.watchEvents = _ := accounts .watchEvents
  have whole := (whole .watchEvents).keys
  have part := (part .watchEvents).keys
  rw [foldOf_concat_self _ here] at whole part
  show r.tally.watchEvents.count events = _
  rw [views,foldOf_concat_self _ here,foldOf_concat_self _ here]
  exact congrArg₂ Views.mk (Nat.mod_eq_of_lt whole) (Nat.mod_eq_of_lt part)

theorem observe_accounts {o : Observation} (accounts : r.tally.Accounts past recent) (whole : Fits (past ++ [o]))
    (part : Fits (recent ++ [o])) :
    ∃ r', r.observe o = .ok r' ∧ r'.tally.Accounts (past ++ [o]) (recent ++ [o]) := by
  have told : ∃ r', r.observe o = .ok r' ∧ r'.tally.Tells (past ++ [o]) (recent ++ [o]) o.category := by
    cases o with
    | put nanos bytes => exact operation_tells (o := .put nanos bytes) accounts rfl whole part
    | delete nanos deleted => exact operation_tells (o := .delete nanos deleted) accounts rfl whole part
    | get below nanos count bytes => exact operation_tells (o := .get below nanos count bytes) accounts rfl whole part
    | reconnect nanos => exact reconnect_tells accounts whole part
    | error kind => exact ⟨r.error kind,rfl,error_tells accounts whole part⟩
    | watchEvents now events => exact ⟨r.watchEvents now events,rfl,watchEvents_tells accounts whole part⟩
  obtain ⟨r',run,told⟩ := told
  exact ⟨r',run,accounts.concat told fun c other => observe_same run other⟩

/-! ### Sequences of calls -/

theorem sinceReset_concat {c : Call} (calls : List Call) (goes_on : c.resets = false) :
    sinceReset (calls ++ [c]) = sinceReset calls ++ c.observation?.toList := by
  unfold sinceReset
  rw [List.rtakeWhile_concat_pos _ _ _ (by simp [goes_on]),List.filterMap_append]
  cases c <;> rfl

theorem sinceInterval_concat {c : Call} (calls : List Call) (goes_on : c.endsInterval = false) :
    sinceInterval (calls ++ [c]) = sinceInterval calls ++ c.observation?.toList := by
  unfold sinceInterval
  rw [List.rtakeWhile_concat_pos _ _ _ (by simp [goes_on]),List.filterMap_append]
  cases c <;> rfl

theorem sinceReset_reset (calls : List Call) : sinceReset (calls ++ [.reset]) = [] := by
  simp [sinceReset,Call.resets]

theorem sinceInterval_ended {c : Call} (calls : List Call) (ends : c.endsInterval = true) :
    sinceInterval (calls ++ [c]) = [] := by
  simp [sinceInterval,ends]

/-- What a book holds after some calls. Each interval that has ended has a stretch of the observations, and these and the
current one are all that was observed since the last reset. -/
structure Book.Holds (b : Book) (calls : List Call) : Prop where
  accounts : b.recorder.tally.Accounts (sinceReset calls) (sinceInterval calls)
  ended : ∃ stretches, List.Forall₂ Snapshot.Accounts b.ended stretches ∧
    stretches.flatten ++ sinceInterval calls = sinceReset calls

namespace Book

variable {b : Book} {calls : List Call}

theorem Holds.observe {o : Observation} (holds : b.Holds calls) (fits : Fits (sinceReset (calls ++ [.observe o]))) :
    ∃ b', b.call (.observe o) = .ok b' ∧ b'.Holds (calls ++ [.observe o]) := by
  have past : sinceReset (calls ++ [.observe o]) = sinceReset calls ++ [o] := sinceReset_concat calls rfl
  have recent : sinceInterval (calls ++ [.observe o]) = sinceInterval calls ++ [o] := sinceInterval_concat calls rfl
  obtain ⟨stretches,accounts,all⟩ := holds.ended
  rw [past] at fits
  have part : Fits (sinceInterval calls ++ [o]) := by
    rw [← all,List.append_assoc] at fits
    exact fits.later
  obtain ⟨r,run,told⟩ := observe_accounts holds.accounts fits part
  refine ⟨⟨r,b.ended⟩,by simp only [call,run]; rfl,?_⟩
  constructor
  · rw [past,recent]
    exact told
  · refine ⟨stretches,accounts,?_⟩
    rw [past,recent,← all,List.append_assoc]

/-- An interval ends: the observations of the current one are a stretch of their own. -/
theorem Holds.endInterval {c : Call} (holds : b.Holds calls) (ends : c.endsInterval = true) (goes_on : c.resets = false) :
    (⟨b.recorder.onTally (·.resetInterval),b.ended ++ [b.recorder.tally.intervalSnapshot]⟩ : Book).Holds
      (calls ++ [c]) := by
  have past : sinceReset (calls ++ [c]) = sinceReset calls := by
    rw [sinceReset_concat calls goes_on]
    cases c <;> first | exact List.append_nil _ | cases ends
  obtain ⟨stretches,accounts,all⟩ := holds.ended
  constructor
  · rw [past,sinceInterval_ended calls ends]
    exact holds.accounts.resetInterval
  · refine ⟨stretches ++ [sinceInterval calls],?_,?_⟩
    · exact List.rel_append accounts (.cons holds.accounts.interval .nil)
    · rw [past,sinceInterval_ended calls ends,← all]
      simp

theorem Holds.reset (calls : List Call) (r : Recorder) : (⟨r.reset,[]⟩ : Book).Holds (calls ++ [.reset]) := by
  constructor
  · rw [sinceReset_reset,sinceInterval_ended calls rfl]
    exact Tally.accounts_zero
  · exact ⟨[],.nil,by rw [sinceReset_reset,sinceInterval_ended calls rfl]; rfl⟩

/-- What has to do with the watchers alone is no observation. -/
theorem Holds.watchers {c : Call} {f : Tally → Tally} (holds : b.Holds calls) (none : c.observation? = none)
    (goes_on : c.endsInterval = false) (same : ∀ c, b.recorder.tally.Same c (f b.recorder.tally)) :
    (⟨b.recorder.onTally f,b.ended⟩ : Book).Holds (calls ++ [c]) := by
  have past : sinceReset (calls ++ [c]) = sinceReset calls := by
    rw [sinceReset_concat calls (by cases c <;> first | rfl | cases goes_on),none]
    exact List.append_nil _
  have recent : sinceInterval (calls ++ [c]) = sinceInterval calls := by
    rw [sinceInterval_concat calls goes_on,none]
    exact List.append_nil _
  constructor
  · rw [past,recent]
    intro c
    exact (holds.accounts c).of_same (same c)
  · rw [past,recent]
    exact holds.ended

theorem Holds.call (holds : b.Holds calls) (c : Call) (fits : Fits (sinceReset (calls ++ [c]))) :
    ∃ b', b.call c = .ok b' ∧ b'.Holds (calls ++ [c]) := by
  cases c with
  | observe o => exact holds.observe fits
  | takeInterval => exact ⟨_,rfl,holds.endInterval rfl rfl⟩
  | resetInterval => exact ⟨_,rfl,holds.endInterval rfl rfl⟩
  | reset => exact ⟨_,rfl,.reset calls b.recorder⟩
  | setWatchers n => exact ⟨_,rfl,holds.watchers rfl rfl fun c => by cases c <;> rfl⟩
  | loseWatcher => exact ⟨_,rfl,holds.watchers rfl rfl fun c => by cases c <;> rfl⟩

theorem after_holds (calls : List Call) (fits : ∀ before, before <+: calls → Fits (sinceReset before)) :
    ∃ b, after calls = .ok b ∧ b.Holds calls := by
  induction calls using List.reverseRecOn with
  | nil => exact ⟨_,rfl,Tally.accounts_zero,[],.nil,rfl⟩
  | append_singleton calls c ih =>
    obtain ⟨b,run,holds⟩ := ih fun before at_start => fits before (at_start.trans (List.prefix_append calls [c]))
    obtain ⟨b',more,holds⟩ := holds.call c (fits _ (List.prefix_refl _))
    exact ⟨b',(after_concat run c).trans more,holds⟩

end Book

/-- The views of successive stretches merge into the view of all. -/
theorem merged {views : List Snapshot} {stretches : List (List Observation)} {s : Snapshot} {os : List Observation}
    (ended : List.Forall₂ Snapshot.Accounts views stretches) (current : s.Accounts os) :
    (views.foldr Snapshot.merge s).Accounts (stretches.flatten ++ os) := by
  induction ended with
  | nil => exact current
  | cons first _ ih =>
    rw [List.flatten_cons,List.append_assoc]
    exact first.merge ih

theorem merged_watchers (views : List Snapshot) (s : Snapshot) :
    (views.foldr Snapshot.merge s).watchersConfigured = s.watchersConfigured ∧
      (views.foldr Snapshot.merge s).watchersActive = s.watchersActive := by
  induction views with
  | nil => exact ⟨rfl,rfl⟩
  | cons _ _ ih => exact ih

/-- Whatever is recorded, taken and cleared in whatever order, as long as words hold the sums since the last reset: every
call is answered, both views are the folds of what was observed since the last reset and since the last interval,
each interval that has ended since the last reset has a view that is the fold of its stretch, all of them merge with
the current one into the lifetime view, and no further observation changes a category that it is not of. -/
theorem views_account (calls : List Call) (fits : ∀ before, before <+: calls → Fits (sinceReset before)) :
    ∃ b, Book.after calls = .ok b ∧
      b.recorder.tally.snapshot.Accounts (sinceReset calls) ∧
      b.recorder.tally.intervalSnapshot.Accounts (sinceInterval calls) ∧
      (∃ stretches, List.Forall₂ Snapshot.Accounts b.ended stretches ∧
        stretches.flatten ++ sinceInterval calls = sinceReset calls) ∧
      b.ended.foldr Snapshot.merge b.recorder.tally.intervalSnapshot = b.recorder.tally.snapshot ∧
      ∀ o r c, b.recorder.observe o = .ok r → o.category ≠ c → b.recorder.tally.Same c r.tally := by
  obtain ⟨b,run,holds⟩ := Book.after_holds calls fits
  obtain ⟨stretches,ended,all⟩ := holds.ended
  have whole := merged ended holds.accounts.interval
  rw [all] at whole
  obtain ⟨configured,active⟩ := merged_watchers b.ended b.recorder.tally.intervalSnapshot
  refine ⟨b,run,holds.accounts.lifetime,holds.accounts.interval,holds.ended,?_,?_⟩
  · exact whole.eq holds.accounts.lifetime configured active
  · intro o r c told other
    exact observe_same told other

/-- A minimum of zero, an interval without calls, and what came before a reset. -/
theorem mixed_calls_account :
    let calls : List Call := [.observe (.put 7000 3),.reset,.observe (.put 5000 10),.takeInterval,
      .observe (.error "connect"),.observe (.watchEvents 1 4),.resetInterval,.setWatchers 2,.observe (.put 400 3),
      .observe (.reconnect 9000)]
    ∃ b, Book.after calls = .ok b ∧ b.recorder.tally.snapshot.put = ⟨⟨2,5,0,5⟩,2,13⟩ ∧
      b.ended.foldr Snapshot.merge b.recorder.tally.intervalSnapshot = b.recorder.tally.snapshot := by
  intro calls
  obtain ⟨b,run,lifetime,-,-,merged,-⟩ := views_account calls fun before at_start => by
    have fit : ∀ some ∈ calls.inits, Fits (sinceReset some) := by decide +kernel
    exact fit before ((List.mem_inits _ _).mpr at_start)
  refine ⟨b,run,(lifetime.operations .put).trans ?_,merged⟩
  decide +kernel

end Recorder

end Keyload
