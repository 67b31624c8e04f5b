import Mathlib.Algebra.BigOperators.Group.Finset.Basic
import Mathlib.Data.ENat.Lattice
import Mathlib.Tactic.Ring
import Keyload.Run.Backoff
import Keyload.Settings.Validation

/-!
Trying again, whatever comes of the attempts. The pause doubles from the base delay up to the longest one (`pause_eq`).
Attempts that fail follow each other with these pauses in between (`run_failed`); the run ends with the first success,
or with the error of the last attempt that is allowed, and then without a pause (`Retried`).
-/
namespace Keyload.Backoff

open Settings (Retry)

/-! ### Pauses -/

theorem check_ok {p : Retry} (valid : p.check = .ok ()) : p.timeoutMs ≠ 0 ∧ p.baseDelayMs ≤ p.maxDelayMs := by
  unfold Retry.check Settings.require at valid
  split at valid
  · rename_i timed
    change (if _ then _ else _) = _ at valid
    split at valid
    · rename_i ordered
      exact ⟨by simpa using timed,of_decide_eq_true ordered⟩
    · cases valid
  · cases valid

/-- The pause after an attempt: the base delay, doubled for every attempt before, but at most the longest delay. -/
theorem pause_eq {p : Retry} (ordered : p.baseDelayMs ≤ p.maxDelayMs) (k : ℕ) :
    pause p (k + 1) = min (p.baseDelayMs * 2 ^ k) p.maxDelayMs := by
  induction k with
  | zero => rw [pause,pow_zero,Nat.mul_one,Nat.min_eq_left ordered]
  | succ k ih =>
    rw [pause,ih,nextPause,pow_succ,← Nat.mul_assoc]
    · omega
    · exact Nat.succ_ne_zero k

/-! ### Attempts one after another -/

section
variable {α : Type} {p : Retry}

/-- The error that a failed attempt leaves. -/
inductive FailsWith (p : Retry) : Attempt α → StoreError → Prop where
  | failure (e : StoreError) : FailsWith p (.failure e) e
  | unanswered : FailsWith p .unanswered (.timeout p.timeoutMs)

/-- Makes the attempts of a sequence, of which `made` are made already; the first attempt is number one. -/
def replay (o : ℕ → Attempt α × ℕ) (made : ℕ) : Attempt α × ℕ × ℕ := ((o (made + 1)).1,(o (made + 1)).2,made + 1)

/-- The time that the first `m` attempts take if all of them fail, with the pauses after them. -/
def spent (p : Retry) (o : ℕ → Attempt α × ℕ) (m : ℕ) : ℕ :=
  ∑ k ∈ Finset.range m, ((o (k + 1)).2 + min (p.baseDelayMs * 2 ^ k) p.maxDelayMs)

variable {o : ℕ → Attempt α × ℕ} {m : ℕ}

theorem run_success {a : α} (success : (o (m + 1)).1 = .success a) (patience : ℕ) :
    run p (replay o) (m + 1) (patience + 1) m = (some (.ok a),(o (m + 1)).2,m + 1) := by
  simp only [run,replay,success]

theorem run_last {e : StoreError} (fails : FailsWith p (o (m + 1)).1 e) (last : isLast p (m + 1) = true)
    (patience : ℕ) : run p (replay o) (m + 1) (patience + 1) m = (some (.error e),(o (m + 1)).2,m + 1) := by
  generalize outcome : (o (m + 1)).1 = x at fails
  cases fails <;> simp only [run,replay,outcome,last,error?,if_true,Option.getD_some]

theorem run_again {e : StoreError} (fails : FailsWith p (o (m + 1)).1 e) (more : isLast p (m + 1) = false)
    (patience : ℕ) : run p (replay o) (m + 1) (patience + 1) m =
      let later := run p (replay o) (m + 2) patience (m + 1)
      (later.1,(o (m + 1)).2 + pause p (m + 1) + later.2.1,later.2.2) := by
  generalize outcome : (o (m + 1)).1 = x at fails
  cases fails <;> simp only [run,replay,outcome,more] <;> rfl

theorem isLast_eq_false {k : ℕ} : isLast p k = false ↔ 0 < p.attempts → k < p.attempts := by
  simp [isLast]

/-- Attempts that fail are made one after another, with the pauses in between. -/
theorem run_failed (ordered : p.baseDelayMs ≤ p.maxDelayMs) (fails : ∀ k < m, ∃ e, FailsWith p (o (k + 1)).1 e)
    (more : ∀ k < m, isLast p (k + 1) = false) (rest : ℕ) : run p (replay o) 1 (m + rest) 0 =
      let later := run p (replay o) (m + 1) rest m
      (later.1,spent p o m + later.2.1,later.2.2) := by
  induction m generalizing rest with
  | zero => simp [spent]
  | succ m ih =>
    obtain ⟨e,failed⟩ := fails m (Nat.lt_succ_self m)
    have before := ih (fun k early => fails k (by omega)) (fun k early => more k (by omega)) (rest + 1)
    rw [run_again failed (more m (Nat.lt_succ_self m)),pause_eq ordered] at before
    rw [Nat.add_right_comm m 1 rest,Nat.add_assoc m rest 1,before,spent,spent,Finset.sum_range_succ]
    simp only [Nat.add_assoc]

/-! ### The last attempt -/

/-- An attempt that succeeds. -/
def Succeeds (x : Attempt α) : Prop := ∃ a, x = .success a

theorem fails_of_not {x : Attempt α} (no_success : ¬ Succeeds x) (p : Retry) : ∃ e, FailsWith p x e := by
  cases x with
  | success a => exact absurd ⟨a,rfl⟩ no_success
  | failure e => exact ⟨e,.failure e⟩
  | unanswered => exact ⟨_,.unanswered⟩

open Classical in
/-- The number of the first attempt that succeeds, infinite if none does. -/
noncomputable def firstSuccess (o : ℕ → Attempt α × ℕ) : ℕ∞ :=
  if some_does : ∃ k, 0 < k ∧ Succeeds (o k).1 then (Nat.find some_does : ℕ) else ⊤

/-- The number of attempts that are allowed, infinite without a bound. -/
def allowed (p : Retry) : ℕ∞ := if p.attempts = 0 then ⊤ else p.attempts

theorem lt_firstSuccess {n : ℕ} : (n : ℕ∞) < firstSuccess o ↔ ∀ k, 0 < k → k ≤ n → ¬ Succeeds (o k).1 := by
  classical
  unfold firstSuccess
  split
  · rename_i some_does
    rw [Nat.cast_lt,Nat.lt_find_iff]
    exact forall_congr' fun k => by tauto
  · rename_i none_does
    refine iff_of_true (ENat.natCast_lt_top n) fun k positive _ success => none_does ⟨k,positive,success⟩

theorem eq_firstSuccess {n : ℕ} (first : (n : ℕ∞) = firstSuccess o) :
    ∃ k, n = k + 1 ∧ Succeeds (o n).1 ∧ (k : ℕ∞) < firstSuccess o := by
  classical
  have found : 0 < n ∧ Succeeds (o n).1 := by
    unfold firstSuccess at first
    split at first
    · rename_i some_does
      rw [Nat.cast_inj.mp first]
      exact Nat.find_spec some_does
    · exact absurd first (ENat.natCast_ne_top n)
  obtain ⟨k,rfl⟩ := Nat.exists_eq_succ_of_ne_zero found.1.ne'
  exact ⟨k,rfl,found.2,by rw [← first]; exact_mod_cast Nat.lt_succ_self k⟩

theorem lt_allowed {n : ℕ} : (n : ℕ∞) < allowed p ↔ isLast p n = false := by
  rw [isLast_eq_false]
  unfold allowed
  split
  · rename_i unbounded
    simp [unbounded]
  · rename_i bounded
    simp [Nat.pos_iff_ne_zero,bounded]

theorem allowed_eq (bounded : 0 < p.attempts) : allowed p = p.attempts := if_neg bounded.ne'

/-! ### The end of the attempts -/

/-- As long as no attempt succeeds and more of them are allowed, they are made one after another. -/
theorem run_unfinished (ordered : p.baseDelayMs ≤ p.maxDelayMs) (failing : (m : ℕ∞) < firstSuccess o)
    (more : (m : ℕ∞) < allowed p) (rest : ℕ) : run p (replay o) 1 (m + rest) 0 =
      let later := run p (replay o) (m + 1) rest m
      (later.1,spent p o m + later.2.1,later.2.2) := by
  refine run_failed ordered (fun k early => ?_) (fun k early => ?_) rest
  · exact fails_of_not (lt_firstSuccess.mp failing (k + 1) (Nat.succ_pos k) early) p
  · exact lt_allowed.mp (lt_of_le_of_lt (by exact_mod_cast early) more)

/-- The attempts end with a success at once. -/
theorem run_succeeds (ordered : p.baseDelayMs ≤ p.maxDelayMs) {n : ℕ} (first : (n : ℕ∞) = firstSuccess o)
    (inside : (n : ℕ∞) ≤ allowed p) : ∃ a, (o n).1 = .success a ∧ ∀ patience, n ≤ patience →
      run p (replay o) 1 patience 0 = (some (.ok a),spent p o (n - 1) + (o n).2,n) := by
  obtain ⟨m,rfl,⟨a,success⟩,failing⟩ := eq_firstSuccess first
  refine ⟨a,success,fun patience enough => ?_⟩
  obtain ⟨rest,rfl⟩ := Nat.exists_eq_add_of_le enough
  have more : (m : ℕ∞) < allowed p := lt_of_lt_of_le (by exact_mod_cast Nat.lt_succ_self m) inside
  rw [Nat.add_assoc,Nat.add_comm 1 rest,run_unfinished ordered failing more,run_success success]
  rfl

/-- The attempts end with the error of the last one that is allowed. -/
theorem run_gives_up (ordered : p.baseDelayMs ≤ p.maxDelayMs) {n : ℕ} (failing : (n : ℕ∞) < firstSuccess o)
    (last : (n : ℕ∞) = allowed p) : ∃ e, FailsWith p (o n).1 e ∧ ∀ patience, n ≤ patience →
      run p (replay o) 1 patience 0 = (some (.error e),spent p o (n - 1) + (o n).2,n) := by
  have is_last : isLast p n = true := by
    rw [← Bool.not_eq_false,← lt_allowed,last]
    exact lt_irrefl _
  obtain ⟨m,rfl⟩ : ∃ m, n = m + 1 := Nat.exists_eq_succ_of_ne_zero fun none_made => by
    subst none_made
    simp [isLast] at is_last
    omega
  obtain ⟨e,fails⟩ := fails_of_not (lt_firstSuccess.mp failing (m + 1) (Nat.succ_pos m) le_rfl) p
  refine ⟨e,fails,fun patience enough => ?_⟩
  obtain ⟨rest,rfl⟩ := Nat.exists_eq_add_of_le enough
  have before : (m : ℕ∞) < (m + 1 : ℕ) := by exact_mod_cast Nat.lt_succ_self m
  rw [Nat.add_assoc,Nat.add_comm 1 rest,run_unfinished ordered (before.trans failing) (last ▸ before),
    run_last fails is_last]
  rfl

/-- With a bound there are as many attempts as it takes to succeed, up to the bound. -/
theorem run_made (ordered : p.baseDelayMs ≤ p.maxDelayMs) (bounded : 0 < p.attempts) {patience : ℕ}
    (enough : p.attempts ≤ patience) :
    ((run p (replay o) 1 patience 0).2.2 : ℕ∞) = min (p.attempts : ℕ∞) (firstSuccess o) := by
  rcases lt_or_ge (p.attempts : ℕ∞) (firstSuccess o) with failing | inside
  · obtain ⟨e,-,given_up⟩ := run_gives_up ordered failing (allowed_eq bounded).symm
    rw [given_up patience enough,min_eq_left failing.le]
  · obtain ⟨n,first⟩ := ENat.ne_top_iff_exists.mp (ne_top_of_le_ne_top (ENat.natCast_ne_top _) inside)
    rw [← first] at inside
    obtain ⟨a,-,succeeded⟩ := run_succeeds ordered first (by rwa [allowed_eq bounded])
    rw [succeeded patience ((Nat.cast_le.mp inside).trans enough),← first,min_eq_right inside]

/-- What comes of the attempts of a sequence, made one after another. -/
structure Retried (p : Retry) (o : ℕ → Attempt α × ℕ) : Prop where
  pauses : ∀ k, 0 < k → pause p k = min (p.baseDelayMs * 2 ^ (k - 1)) p.maxDelayMs
  goes_on : ∀ m : ℕ, (m : ℕ∞) < firstSuccess o → (m : ℕ∞) < allowed p →
    run p (replay o) 1 m 0 = (none,spent p o m,m)
  succeeds : ∀ n : ℕ, (n : ℕ∞) = firstSuccess o → (n : ℕ∞) ≤ allowed p → ∃ a, (o n).1 = .success a ∧
    ∀ patience, n ≤ patience → run p (replay o) 1 patience 0 = (some (.ok a),spent p o (n - 1) + (o n).2,n)
  gives_up : ∀ n : ℕ, (n : ℕ∞) < firstSuccess o → (n : ℕ∞) = allowed p → ∃ e, FailsWith p (o n).1 e ∧
    ∀ patience, n ≤ patience → run p (replay o) 1 patience 0 = (some (.error e),spent p o (n - 1) + (o n).2,n)
  made : 0 < p.attempts → ∀ patience, p.attempts ≤ patience →
    ((run p (replay o) 1 patience 0).2.2 : ℕ∞) = min (p.attempts : ℕ∞) (firstSuccess o)

end

theorem retried {α : Type} {p : Retry} (valid : p.check = .ok ()) (o : ℕ → Attempt α × ℕ) : Retried p o := by
  obtain ⟨-,ordered⟩ := check_ok valid
  constructor
  case pauses =>
    intro k positive
    obtain ⟨k,rfl⟩ := Nat.exists_eq_succ_of_ne_zero positive.ne'
    exact pause_eq ordered k
  case goes_on => exact fun m failing more => run_unfinished ordered failing more 0
  case succeeds => exact fun n first inside => run_succeeds ordered first inside
  case gives_up => exact fun n failing last => run_gives_up ordered failing last
  case made => exact fun bounded patience enough => run_made ordered bounded enough

/-! ### Tasks -/

section
variable {σ α : Type} (attempt : σ → Attempt α × ℕ × σ) (s : σ)

/-- The state after some attempts of a task. -/
def after : ℕ → σ
  | 0 => s
  | n + 1 => (attempt (after n)).2.2

/-- What comes of the attempts of a task, however many are made; the first attempt is number one. -/
def outcomes (k : ℕ) : Attempt α × ℕ :=
  ((attempt (after attempt s (k - 1))).1,(attempt (after attempt s (k - 1))).2.1)

/-- Trying a task again and again makes its attempts one after another. -/
theorem run_outcomes (p : Retry) (patience made : ℕ) : run p attempt (made + 1) patience (after attempt s made) =
    let x := run p (replay (outcomes attempt s)) (made + 1) patience made
    (x.1,x.2.1,after attempt s x.2.2) := by
  induction patience generalizing made with
  | zero => rfl
  | succ patience ih =>
    have later := ih (made + 1)
    have same : outcomes attempt s (made + 1) =
        ((attempt (after attempt s made)).1,(attempt (after attempt s made)).2.1) := rfl
    have next : after attempt s (made + 1) = (attempt (after attempt s made)).2.2 := rfl
    rw [run,run,replay,same]
    rw [next] at later
    generalize attempt (after attempt s made) = x at later next ⊢
    obtain ⟨outcome,ms,s'⟩ := x
    cases outcome with
    | success a => simp only [next]
    | failure | unanswered =>
      dsimp only at later ⊢
      split
      · simp only [next]
      · rw [later]

end

/-- A pool is connected in such attempts. -/
theorem connect_retried {c : Settings.Client} (valid : c.retry.check = .ok ()) (s : Site) :
    let task := Pool.connect c.conns c.clients (0 < c.reconnectEvery) (some c.retry.timeoutMs)
    Retried c.retry (outcomes task s) ∧ ∀ patience, connect c patience s =
      let x := run c.retry (replay (outcomes task s)) 1 patience 0
      (x.1,x.2.1,after task s x.2.2) :=
  ⟨retried valid _,fun patience => run_outcomes _ s c.retry patience 0⟩

/-- Attempts are made until one succeeds or is the last one allowed, whatever comes of them and whatever is tried. -/
theorem run_retried {α : Type} {p : Retry} (valid : p.check = .ok ()) :
    (∀ o : ℕ → Attempt α × ℕ, Retried p o) ∧
      ∀ (σ : Type) (attempt : σ → Attempt α × ℕ × σ) (s : σ) (patience : ℕ), run p attempt 1 patience s =
        let x := run p (replay (outcomes attempt s)) 1 patience 0
        (x.1,x.2.1,after attempt s x.2.2) :=
  ⟨retried valid,fun _ attempt s patience => run_outcomes attempt s p patience 0⟩

/-- Refused, then not answered, then a success. -/
def thirdTime : ℕ → Attempt String × ℕ
  | 1 => (.failure .closed,5)
  | 2 => (.unanswered,100)
  | _ => (.success "pool",4)

theorem third_time_retried : (⟨3,100,10,15⟩ : Retry).check = .ok () ∧ Retried ⟨3,100,10,15⟩ thirdTime ∧
    run ⟨3,100,10,15⟩ (replay thirdTime) 1 9 0 = (some (.ok "pool"),5 + 10 + 100 + 15 + 4,3) :=
  ⟨rfl,(run_retried rfl).1 thirdTime,rfl⟩

end Keyload.Backoff
