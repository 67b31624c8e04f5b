import Keyload.Proofs.KeySpace.FullPass
import Keyload.Proofs.Run.Crew

/-!
The producer of a load that nothing stops. It draws the keys of one pass after the other, as many as are wanted, and
sends each of them; every turn brings it nearer to its end.
-/
namespace Keyload
open Bounded (Complete Fixed Ready passTexts wanted reached)
open Churn.Activity (putOf)
open Cursor (LeafLast)

variable {σ : Type}

/-- Loads to be done: how many, of how many keys of which patterns, over how many clients. -/
structure LoadPlan where
  patterns : List Pattern
  times : Nat
  total : Nat
  clients : Nat

namespace LoadPlan

/-- The keys of a full pass. -/
def pass (plan : LoadPlan) : List String := passTexts plan.patterns

/-- The puts of each load. -/
def puts (plan : LoadPlan) : Nat := wanted plan.total plan.pass.length

/-- The keys that each load puts. -/
def keys (plan : LoadPlan) : List String := reached plan.total plan.pass

/-- The key of a put, by its number. -/
def keyAt? (plan : LoadPlan) (i : Nat) : Option String := plan.pass[i % plan.pass.length]?

theorem mem_keys {plan : LoadPlan} {key : String} : key ∈ plan.keys ↔ ∃ i < plan.puts, plan.keyAt? i = some key :=
  Bounded.mem_reached

/-- The most turns of one load. -/
def turns (plan : LoadPlan) : Nat := 8 * plan.puts + plan.clients + 2

end LoadPlan

/-- The turns that the producer of a load has ahead of it at most, with those that its puts make for the workers. -/
def Producer.ahead (puts : Nat) (enlisted : Bool) (p : Producer σ) : Nat :=
  match p.stage with
  | .choosing => 8 * (puts - p.sent) + 1
  | .pacing _ => 8 * (puts - p.sent)
  | .sending _ _ => 8 * (puts - p.sent) - if enlisted then 2 else 1
  | _ => 0

theorem Producer.ahead_enlisted (p : Producer σ) (puts : Nat) (enlisted : Bool) :
    p.ahead puts true ≤ p.ahead puts enlisted := by
  unfold ahead
  split
  · exact Nat.le_refl _
  · exact Nat.le_refl _
  · cases enlisted with
    | true => exact Nat.le_refl _
    | false => exact Nat.sub_le_sub_left (Nat.le_succ 1) _
  · exact Nat.le_refl _

variable [RandomSource σ] {plan : LoadPlan}

/-- The producer of a load, wherever it stands: it holds the next key, if any, and can draw those after it. -/
inductive Puts (plan : LoadPlan) (p : Producer σ) : Prop where
  | choosing {b : Bounded} (stage : p.stage = .choosing) (work : p.work = .load b)
      (ready : Ready plan.patterns plan.total p.sent b p.source) : Puts plan p
  | pacing {b : Bounded} {e : Entry} (stage : p.stage = .pacing (some (putOf e))) (work : p.work = .load b)
      (ready : Ready plan.patterns plan.total (p.sent + 1) b p.source) (key : plan.keyAt? p.sent = some e.key) :
      Puts plan p
  | sending {b : Bounded} {e : Entry} (stage : p.stage = .sending (putOf e) none) (work : p.work = .load b)
      (ready : Ready plan.patterns plan.total (p.sent + 1) b p.source) (key : plan.keyAt? p.sent = some e.key) :
      Puts plan p
  | complete (stage : p.stage = .ended) (all : p.sent = plan.puts) : Puts plan p

theorem Puts.of_ended {p : Producer σ} (puts : Puts plan p) (ended : p.hasEnded = true) :
    p.stage = .ended ∧ p.sent = plan.puts := by
  unfold Producer.hasEnded at ended
  cases puts with
  | complete stage all => exact ⟨stage,all⟩
  | choosing stage => simp [stage] at ended
  | pacing stage => simp [stage] at ended
  | sending stage => simp [stage] at ended

namespace Run

variable {r next : Run σ} {i : Nat} {x : Dispatcher} {p : Producer σ}

omit [RandomSource σ] in
theorem placeProducer_eq {q : Producer σ} (silent : q.signal = none) :
    r.placeProducer i q = { r with
      producers := r.producers.set i q
      dispatchers := if q.hasEnded then r.dispatchers.modify q.dispatcher (·.giveUp i) else r.dispatchers } := by
  unfold placeProducer
  simp only [silent,Option.elim_none]
  split <;> rfl

/-- A producer of the same dispatcher, as unbounded and as deaf. -/
structure Same (p q : Producer σ) : Prop where
  dispatcher : q.dispatcher = p.dispatcher
  signal : q.signal = p.signal
  allowance : q.allowance = p.allowance

/-- What a turn of the producer of a load comes to. -/
inductive PutTurn (plan : LoadPlan) (r next : Run σ) (i : Nat) (x : Dispatcher) (p : Producer σ) : Prop where
  | place {q : Producer σ} (puts : Puts plan q) (same : Same p q) (sent : q.sent = p.sent)
      (unsent : ∀ op subtree, p.stage ≠ .sending op subtree) (ahead : q.ahead plan.puts false < p.ahead plan.puts false)
      (after : next = r.placeProducer i q) : PutTurn plan r next i x p
  | send {e : Entry} {q : Producer σ} (puts : Puts plan q) (same : Same p q) (sent : q.sent = p.sent + 1)
      (key : plan.keyAt? p.sent = some e.key) (within : p.sent < plan.puts) (chooses : q.stage = .choosing)
      (ahead : q.ahead plan.puts false + 4 < p.ahead plan.puts true)
      (after : next = (r.onDispatcher p.dispatcher (·.accept i (putOf e))).placeProducer i q) :
      PutTurn plan r next i x p
  | enlist {op : Operation} {subtree : Option Cursor} (stage : p.stage = .sending op subtree) (absent : i ∉ x.blocked)
      (ahead : p.ahead plan.puts true < p.ahead plan.puts false)
      (after : next = r.onDispatcher p.dispatcher (·.enlist i)) : PutTurn plan r next i x p

section
variable (leafLast : ∀ p ∈ plan.patterns, LeafLast p.levels) (fixed : Fixed plan.patterns)
  (complete : Complete σ plan.patterns)
include leafLast fixed complete

theorem put_turn (at_p : r.producers[i]? = some p) (at_x : r.dispatchers[p.dispatcher]? = some x) (puts : Puts plan p)
    (told : r.stopped = false) (silent : p.signal = none) (unbounded : p.allowance = none) (served : x.isServed = true)
    (run : r.moveProducer i = some next) : PutTurn plan r next i x p := by
  have free : r.isInterrupted p = false := by simp [isInterrupted,told,silent]
  unfold moveProducer at run
  simp only [Option.bind_eq_bind,Option.bind_some,at_p,at_x] at run
  cases puts with
  | @choosing b stage work ready =>
    simp only [stage,Producer.choose,work,Option.map_some,Option.some.injEq,Producer.drawing] at run
    rcases ready.next leafLast fixed complete with ⟨b',g,drawn,all⟩ | ⟨e,b',g,drawn,later,key⟩
    · rw [drawn] at run
      let q := { p with source := g, work := .load b', stage := .ended }
      refine .place (q := q) (.complete rfl all) ⟨rfl,rfl,rfl⟩ rfl (by simp [stage]) ?_ run.symm
      simp [Producer.ahead,q,stage]
    · rw [drawn] at run
      let q := { p with source := g, work := .load b', stage := .pacing (some (putOf e)) }
      refine .place (q := q) (.pacing rfl rfl later key) ⟨rfl,rfl,rfl⟩ rfl (by simp [stage]) ?_ run.symm
      simp [Producer.ahead,q,stage]
  | @pacing b e stage work ready key =>
    simp only [stage,free,Bool.false_eq_true,if_false] at run
    split at run
    · cases run
      let q := (p.tick r.nowMs).inStage (.sending (putOf e) none)
      refine .place (q := q) (.sending rfl work ready key) ⟨rfl,rfl,rfl⟩ rfl (by simp [stage]) ?_ rfl
      have within : p.sent + 1 ≤ plan.puts := ready.within
      simp only [Producer.ahead,stage]
      show 8 * (plan.puts - p.sent) - 1 < 8 * (plan.puts - p.sent)
      omega
    · cases run
  | @sending b e stage work ready key =>
    have within : p.sent + 1 ≤ plan.puts := ready.within
    simp only [stage,send,told,served,Bool.not_true,Bool.or_self,Bool.false_eq_true,if_false] at run
    split at run
    · cases run
      let q := { p with sent := p.sent + 1 }.finishStep
      refine .send (q := q) (.choosing rfl work ready) ⟨rfl,rfl,?_⟩ rfl key within rfl ?_ rfl
      · show p.allowance.map (· - 1) = p.allowance
        rw [unbounded]
        rfl
      · simp only [Producer.ahead,stage]
        show 8 * (plan.puts - (p.sent + 1)) + 1 + 4 < 8 * (plan.puts - p.sent) - 2
        omega
    · split at run
      · cases run
      · rename_i absent
        cases run
        refine .enlist stage (by simpa using absent) ?_ rfl
        simp only [Producer.ahead,stage]
        show 8 * (plan.puts - p.sent) - 2 < 8 * (plan.puts - p.sent) - 1
        omega
  | complete stage all =>
    simp only [stage] at run
    cases run

end

end Run

/-- The producer of a load goes on after some time, unless it waits in line for room. -/
theorem Puts.goes_on {r : Run σ} {i : Nat} {x : Dispatcher} {p : Producer σ} (puts : Puts plan p)
    (at_p : r.producers[i]? = some p)
    (at_x : r.dispatchers[p.dispatcher]? = some x) (told : r.stopped = false) (silent : p.signal = none)
    (unbounded : p.allowance = none) (active : p.hasEnded = false) (room : i ∈ x.blocked → x.admits i = true) :
    ∃ ms next, (r.pass ms).moveProducer i = some next := by
  have later (ms : Nat) : (r.pass ms).producers[i]? = some p := at_p
  have later' (ms : Nat) : (r.pass ms).dispatchers[p.dispatcher]? = some x := at_x
  have free (ms : Nat) : (r.pass ms).isInterrupted p = false := by
    show (r.stopped || p.signal.any r.signals.isRaised) = false
    simp [told,silent]
  cases puts with
  | choosing stage work ready =>
    refine ⟨0,Option.isSome_iff_exists.mp ?_⟩
    unfold Run.moveProducer
    simp [later,later',stage,Producer.choose,work]
  | pacing stage work ready key =>
    have in_time : ∃ ms, ∀ nowMs, ms ≤ nowMs → p.isDue nowMs = true := by
      cases ticker : p.ticker with
      | none => exact ⟨0,fun nowMs _ => by simp [Producer.isDue,unbounded,ticker]⟩
      | some t =>
        refine ⟨t.dueMs,fun nowMs late => ?_⟩
        rw [Producer.isDue,unbounded,ticker,Option.all_some,decide_eq_true late]
        rfl
    obtain ⟨ms,late⟩ := in_time
    have due : p.isDue (r.pass ms).nowMs = true := late _ (Nat.le_add_left ms r.nowMs)
    refine ⟨ms,Option.isSome_iff_exists.mp ?_⟩
    unfold Run.moveProducer
    simp [later,later',stage,free,due]
  | sending stage work ready key =>
    have untold : (r.pass 0).stopped = false := told
    refine ⟨0,Option.isSome_iff_exists.mp ?_⟩
    unfold Run.moveProducer
    simp only [later,later',stage,Option.bind_eq_bind,Option.bind_some]
    unfold Run.send
    split_ifs with _ _ enlisted
    · rfl
    · rfl
    · have full := room (by simpa using enlisted)
      contradiction
    · rfl
  | complete stage all => simp [Producer.hasEnded,stage] at active

end Keyload
