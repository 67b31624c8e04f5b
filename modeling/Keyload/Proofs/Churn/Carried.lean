import Keyload.Churn.Activity
import Keyload.Proofs.KeySpace.Walk
import Keyload.Proofs.Store.Contents

/-!
Steps of an activity, carried out in a store. A step sends one operation, or the puts of a subtree one after another;
what is sent is what the walk of the subtree yields.
-/
namespace Keyload.Churn
open Pattern (Level)
open Draw (Reads Tape)

namespace Activity

variable {σ : Type} [RandomSource σ]

/-- The puts of a subtree, each drawn when the one before it was sent. -/
def puts (levels : List Level) : Nat → Cursor → Draw σ (List Operation)
  | 0, _ => pure []
  | n + 1, c => do
    match ← draw levels c with
    | (none,_) => pure []
    | (some op,c) => do
      let ops ← puts levels n c
      pure (op :: ops)

/-- The operations that a step sends. -/
def sends (levels : List Level) : Step → Draw σ (List Operation)
  | .send op => pure [op]
  | .build subtree => puts levels (Cursor.work levels subtree.stack) subtree
  | .nothing => pure []

/-- A step whose operations are carried out one after another, in the order in which they are sent. -/
def carryOut (a : Activity) (m : Memory) : Draw σ (Activity × Memory) := do
  let (step, a) ← a.next
  let ops ← sends a.levels step
  pure (a,m.executeAll ops)

/-- A number of steps. -/
def carryAll : Nat → Activity → Memory → Draw σ (Activity × Memory)
  | 0, a, m => pure (a,m)
  | n + 1, a, m => do
    let (a, m) ← a.carryOut m
    carryAll n a m

/-- The puts of a subtree are those of its walk. -/
theorem puts_eq (levels : List Level) (n : Nat) (c : Cursor) (enough : Cursor.work levels c.stack ≤ n) :
    (puts levels n c : Draw σ _) = List.map putOf <$> Cursor.stackWalk levels c.stop c.stack := by
  induction n generalizing c with
  | zero =>
    rw [Cursor.stack_of_work (Nat.le_zero.mp enough)]
    simp [puts,Cursor.stackWalk]
  | succ n ih =>
    funext g
    rw [Cursor.stackWalk_unrolled,Cursor.unrolled,puts,draw,Cursor.advance]
    simp only [Draw.map_apply,Draw.bind_apply]
    cases drawn : (Cursor.advanceStack levels c.stop c.stack : Draw σ _) g with
    | error f => rfl
    | ok r =>
      obtain ⟨⟨entry,after⟩,h⟩ := r
      cases entry with
      | none => rfl
      | some e =>
        have less := Cursor.advanceStack_work levels c.stop c.stack drawn
        have tail := congrFun (ih { c with stack := after } (by simp only; omega)) h
        simp only [Draw.map_apply] at tail
        show (puts levels n { c with stack := after } h).bind (fun r => .ok (putOf e :: r.1,r.2)) = _
        rw [tail]
        show _ = Except.map _ ((Cursor.stackWalk levels c.stop after h).bind fun r => .ok (e :: r.1,r.2))
        cases (Cursor.stackWalk levels c.stop after : Draw σ _) h with
        | error f => rfl
        | ok r => rfl

theorem carryAll_add (k n : Nat) (a : Activity) (m : Memory) :
    (carryAll (k + n) a m : Draw σ _) = carryAll k a m >>= fun r => carryAll n r.1 r.2 := by
  induction k generalizing a m with
  | zero => simp [carryAll]
  | succ k ih =>
    rw [Nat.succ_add,carryAll,carryAll,bind_assoc]
    exact congrArg _ (funext fun r => ih r.1 r.2)

/-! ### Steps that are sent -/

/-- The operations that a number of steps send. -/
def sendAll : Nat → Activity → Draw σ (List Operation × Activity)
  | 0, a => pure ([],a)
  | n + 1, a => do
    let (ops, a) ← sendAll n a
    let (step, a) ← a.next
    let more ← sends a.levels step
    pure (ops ++ more,a)

/-- After steps that send `ops`, one more step sends `more`. -/
theorem sendAll_next {n : Nat} {a b c : Activity} {g h h₀ g' : σ} {ops more : List Operation} {step : Step}
    (sent : sendAll n a g = .ok ((ops,b),h)) (begun : b.next h = .ok ((step,c),h₀))
    (sends_ : sends c.levels step h₀ = .ok (more,g')) : sendAll (n + 1) a g = .ok ((ops ++ more,c),g') := by
  refine (Draw.bind_run sent).trans ((Draw.bind_run begun).trans ?_)
  exact Draw.bind_run sends_

/-- The operations of steps, carried out in the order in which they are sent, are the steps carried out. -/
theorem carryAll_sent {n : Nat} {a b : Activity} {g h : σ} {ops : List Operation}
    (sent : sendAll n a g = .ok ((ops,b),h)) (m : Memory) : carryAll n a m g = .ok ((b,m.executeAll ops),h) := by
  induction n generalizing b h ops with
  | zero =>
    cases sent
    rfl
  | succ n ih =>
    obtain ⟨⟨before,c⟩,h₁,first,sent⟩ := Draw.bind_ok sent
    obtain ⟨⟨step,d⟩,h₂,begun,sent⟩ := Draw.bind_ok sent
    obtain ⟨more,h₃,sends_,sent⟩ := Draw.bind_ok sent
    cases sent
    rw [carryAll_add n 1,Draw.bind_run (ih first)]
    rw [Memory.executeAll_append]
    have last : (c.carryOut (m.executeAll before) : Draw σ _) h₁ =
        .ok ((b,(m.executeAll before).executeAll more),h) :=
      (Draw.bind_run begun).trans (Draw.bind_run sends_)
    exact Draw.bind_run last

/-- What is left of a subtree. -/
theorem sends_build (levels : List Level) (c : Cursor) :
    (sends levels (.build c) : Draw σ _) = List.map putOf <$> Cursor.stackWalk levels c.stop c.stack :=
  puts_eq levels _ c (Nat.le_refl _)

private theorem draw_ok {levels : List Level} {c c' : Cursor} {g g' : σ} {op : Option Operation}
    (drawn : draw levels c g = .ok ((op,c'),g')) :
    ∃ entry after, (Cursor.advanceStack levels c.stop c.stack : Draw σ _) g = .ok ((entry,after),g') ∧
      op = entry.map putOf ∧ c' = { c with stack := after } := by
  obtain ⟨⟨entry,d⟩,h,advanced,drawn⟩ := Draw.bind_ok drawn
  obtain ⟨⟨entry',after⟩,h',stepped,advanced⟩ := Draw.bind_ok advanced
  cases advanced
  cases drawn
  exact ⟨entry,after,stepped,rfl,rfl⟩

/-- A subtree sends the put that is drawn and then what is left. -/
theorem sends_drawn {levels : List Level} {c c' : Cursor} {g g' h : σ} {op : Operation} {more : List Operation}
    (drawn : draw levels c g = .ok ((some op,c'),g')) (rest : sends levels (.build c') g' = .ok (more,h)) :
    sends levels (.build c) g = .ok (op :: more,h) := by
  obtain ⟨entry,after,stepped,put,rfl⟩ := draw_ok drawn
  obtain ⟨e,rfl,rfl⟩ := Option.map_eq_some_iff.mp put.symm
  rw [sends_build] at rest
  obtain ⟨es,walked,rfl⟩ := Draw.map_ok rest
  rw [sends_build,Draw.map_apply,Cursor.stackWalk_unrolled,Cursor.unrolled,Draw.bind_run stepped]
  exact congrArg (Except.map _) (Draw.bind_run walked)

/-- A subtree without a next put sends nothing. -/
theorem sends_done {levels : List Level} {c c' : Cursor} {g g' : σ}
    (drawn : draw levels c g = .ok ((none,c'),g')) : sends levels (.build c) g = .ok ([],g') := by
  obtain ⟨entry,after,stepped,nothing,rfl⟩ := draw_ok drawn
  cases Option.map_eq_none_iff.mp nothing.symm
  rw [sends_build,Draw.map_apply,Cursor.stackWalk_unrolled,Cursor.unrolled,Draw.bind_run stepped]
  rfl

end Activity

end Keyload.Churn
