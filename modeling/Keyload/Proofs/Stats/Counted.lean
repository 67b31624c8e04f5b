import Keyload.Stats.Recorder

/-!
What is counted. An operation that succeeds is one more call of its kind and no error, one that fails changes the number
of errors and no number of calls, and a reconnect is neither.
-/
namespace Keyload

/-- The calls of all kinds over the lifetime. -/
def Recorder.calls (r : Recorder) : Nat := r.tally.snapshot.operations

/-- The errors over the lifetime. -/
def Recorder.errors (r : Recorder) : Nat := r.tally.snapshot.errors

/-- The kind of the operation that is answered. -/
def Answer.kind : Answer → Kind
  | .put _ => .put
  | .delete _ => .delete
  | .get below _ _ => if below then .prefixGet else .get

/-- How many operations of each kind have succeeded, and how many of any kind have failed. -/
structure Counts where
  put : Nat
  delete : Nat
  get : Nat
  prefixGet : Nat
  /-- A word, which starts over beyond the largest. -/
  errors : Nat

namespace Counts

def zero : Counts := ⟨0,0,0,0,0⟩

def calls (c : Counts) : Nat := c.put + c.delete + c.get + c.prefixGet

/-- One more operation has succeeded. -/
def succeed (c : Counts) : Kind → Counts
  | .put => { c with put := c.put + 1 }
  | .delete => { c with delete := c.delete + 1 }
  | .get => { c with get := c.get + 1 }
  | .prefixGet => { c with prefixGet := c.prefixGet + 1 }

/-- One more operation has failed. -/
def fail (c : Counts) : Counts := { c with errors := (c.errors + 1) % Word.limit }

/-- Each of `n` operations is one of the calls or has failed. -/
def Covers (c : Counts) (n : Nat) : Prop := ∃ failed, n = c.calls + failed ∧ c.errors = failed % Word.limit

theorem succeed_calls (c : Counts) (kind : Kind) : (c.succeed kind).calls = c.calls + 1 := by
  cases kind <;> simp only [succeed,calls] <;> omega

theorem succeed_errors (c : Counts) (kind : Kind) : (c.succeed kind).errors = c.errors := by
  cases kind <;> rfl

/-- The error counter starts over at some time, and still differs after every error. -/
theorem fail_errors (c : Counts) : c.fail.errors ≠ c.errors := by
  show (c.errors + 1) % Word.limit ≠ c.errors
  have : 1 < Word.limit := by decide
  rcases Nat.lt_or_ge (c.errors + 1) Word.limit with small | large
  · rw [Nat.mod_eq_of_lt small]
    omega
  · have := Nat.mod_lt (c.errors + 1) (by decide : 0 < Word.limit)
    intro same
    rw [same] at this
    have whole : c.errors + 1 = Word.limit := by omega
    rw [whole,Nat.mod_self] at same
    omega

theorem covers_zero : zero.Covers 0 := ⟨0,rfl,rfl⟩

theorem Covers.succeed {c : Counts} {n : Nat} (covers : c.Covers n) (kind : Kind) :
    (c.succeed kind).Covers (n + 1) := by
  obtain ⟨failed,total,errors⟩ := covers
  refine ⟨failed,?_,(succeed_errors c kind).trans errors⟩
  rw [succeed_calls,total]
  omega

theorem Covers.fail {c : Counts} {n : Nat} (covers : c.Covers n) : c.fail.Covers (n + 1) := by
  obtain ⟨failed,total,errors⟩ := covers
  refine ⟨failed + 1,?_,?_⟩
  · rw [total]
    rfl
  · show (c.errors + 1) % Word.limit = _
    rw [errors,Nat.mod_add_mod]

end Counts

def Snapshot.counts (s : Snapshot) : Counts :=
  ⟨s.put.calls,s.delete.calls,s.get.calls,s.prefixGet.calls,s.errors⟩

/-- What is counted over the lifetime. -/
def Recorder.counts (r : Recorder) : Counts := r.tally.snapshot.counts

theorem Except.ok_of_bind {ε α β : Type} {x : Except ε α} {f : α → Except ε β} {b : β} (run : x.bind f = .ok b) :
    ∃ a, x = .ok a ∧ f a = .ok b := by
  cases x with
  | error e => cases run
  | ok a => exact ⟨a,rfl,run⟩

theorem Latency.record_count {l l' : Latency} {nanos : Nat} (run : l.record nanos = .ok l') :
    l'.count = l.count + 1 := by
  obtain ⟨total,-,run⟩ := Except.ok_of_bind run
  cases run
  rfl

theorem OpTally.record_calls {t t' : OpTally} {nanos keys bytes : Nat} (run : t.record nanos keys bytes = .ok t') :
    t'.calls = t.calls + 1 := by
  obtain ⟨latency,counted,run⟩ := Except.ok_of_bind run
  obtain ⟨keys,-,run⟩ := Except.ok_of_bind run
  obtain ⟨bytes,-,run⟩ := Except.ok_of_bind run
  cases run
  exact Latency.record_count counted

theorem Views.update_lifetime {α : Type} {v v' : Views α} {f : α → Except Fault α} (run : v.update f = .ok v') :
    f v.lifetime = .ok v'.lifetime := by
  obtain ⟨lifetime,changed,run⟩ := Except.ok_of_bind run
  obtain ⟨interval,-,run⟩ := Except.ok_of_bind run
  cases run
  exact changed

theorem Tally.record_counts {t t' : Tally} {kind : Kind} {nanos keys bytes : Nat}
    (run : t.record kind nanos keys bytes = .ok t') : t'.snapshot.counts = t.snapshot.counts.succeed kind := by
  cases kind
  all_goals
    obtain ⟨v,counted,run⟩ := Except.ok_of_bind run
    cases run
    have more := OpTally.record_calls (Views.update_lifetime counted)
    simp only [snapshot,Snapshot.counts,Counts.succeed,more]

namespace Recorder

theorem operation_counts {r r' : Recorder} {kind : Kind} {nanos keys bytes : Nat}
    (run : r.operation kind nanos keys bytes = .ok r') : r'.counts = r.counts.succeed kind := by
  obtain ⟨t,counted,run⟩ := Except.ok_of_bind run
  cases run
  exact Tally.record_counts counted

theorem answer_counts {r r' : Recorder} {a : Answer} {nanos : Nat} {fullRead : Bool}
    (run : r.answer a nanos fullRead = .ok r') : r'.counts = r.counts.succeed a.kind := by
  cases a with
  | put bytes => exact operation_counts run
  | delete deleted => exact operation_counts run
  | get below count bytes => exact operation_counts run

theorem reconnect_counts {r r' : Recorder} {nanos : Nat} (run : r.reconnect nanos = .ok r') : r'.counts = r.counts := by
  obtain ⟨t,counted,run⟩ := Except.ok_of_bind run
  cases run
  obtain ⟨v,-,counted⟩ := Except.ok_of_bind counted
  cases counted
  rfl

theorem error_counts (r : Recorder) (kind : String) : (r.error kind).counts = r.counts.fail := rfl

end Recorder

end Keyload
