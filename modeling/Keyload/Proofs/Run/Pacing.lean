import Mathlib.Data.List.Basic
import Mathlib.Tactic.Ring
import Keyload.Rate

/-!
Pacing. However late a producer asks for its ticks, the deadlines of its ticker stay on one grid, and every tick takes
a later one than the tick before it (`tick_due`), so that no more ticks return than periods have passed
(`returned_le`). A tick that comes too late leaves a deadline in the future (`lt_tick_due`): what was missed is not made
up for.
-/
namespace Keyload.Ticker

/-! ### One tick -/

@[simp] theorem tick_period (t : Ticker) (now : Nat) : (t.tick now).period = t.period := by
  unfold tick
  split <;> rfl

/-- The deadline that a tick leaves is a later one on the grid. -/
theorem tick_due (t : Ticker) (now : Nat) : ∃ k, 0 < k ∧ (t.tick now).due = t.due + k * t.period := by
  unfold tick
  split
  · rename_i late
    refine ⟨(now - t.due) / t.period + 1,Nat.succ_pos _,?_⟩
    have missed := Nat.div_add_mod' (now - t.due) t.period
    rw [Nat.add_mul,Nat.one_mul]
    dsimp only
    omega
  · exact ⟨1,Nat.one_pos,by rw [Nat.one_mul]⟩

/-- A tick that comes too late leaves a deadline that lies ahead. -/
theorem lt_tick_due {t : Ticker} {now : Nat} (running : 0 < t.period) (late : t.due + grace < now) :
    now < (t.tick now).due := by
  have within := Nat.mod_lt (now - t.due) running
  rw [tick,if_pos late]
  dsimp only
  omega

theorem due_le_dueMs (t : Ticker) : t.due ≤ t.dueMs * milli := by
  unfold dueMs milli
  omega

/-! ### Ticks one after another -/

/-- A tick: the ticker that it was asked of, and when it returned. -/
structure Tick where
  ticker : Ticker
  returned : Nat
  deriving DecidableEq, Repr

/-- The deadline that a tick waited for. -/
def Tick.due (x : Tick) : Nat := x.ticker.due

/-- The ticker that a tick left. -/
def Tick.next (x : Tick) : Ticker := x.ticker.tick x.returned

/-- The ticks that are asked for at these times, the first of them not before `free`. A tick returns once the one
before it has returned, it has been asked for, and a whole millisecond has come at which its deadline is past. A tick
that is noticed later than that is one asked for later. -/
def ticks : Ticker → Nat → List Nat → List Tick
  | _, _, [] => []
  | t, free, asked :: later =>
    let returned := max (max free asked) (t.dueMs * milli)
    ⟨t,returned⟩ :: ticks (t.tick returned) returned later

variable {t : Ticker} {free : Nat} {asked : List Nat} {x : Tick}

@[simp] theorem length_ticks (t : Ticker) (free : Nat) (asked : List Nat) :
    (ticks t free asked).length = asked.length := by
  induction asked generalizing t free with
  | nil => rfl
  | cons now later ih => exact congrArg Nat.succ (ih _ _)

/-- A tick is one of the same ticker at a later time. -/
theorem mem_ticks (member : x ∈ ticks t free asked) :
    x.ticker.period = t.period ∧ x.ticker.dueMs * milli ≤ x.returned ∧ ∃ k, x.due = t.due + k * t.period := by
  induction asked generalizing t free with
  | nil => cases member
  | cons now later ih =>
    rcases List.mem_cons.mp member with rfl | member
    · exact ⟨rfl,Nat.le_max_right _ _,0,by rw [Nat.zero_mul]; rfl⟩
    · obtain ⟨k,-,next⟩ := t.tick_due (max (max free now) (t.dueMs * milli))
      obtain ⟨period,waited,m,due⟩ := ih member
      rw [tick_period] at period due
      exact ⟨period,waited,k + m,by rw [due,next,Nat.add_mul,Nat.add_assoc]⟩

/-- Every deadline is later than the ones before it. -/
theorem ticks_rise (running : 0 < t.period) : (ticks t free asked).Pairwise fun x y => x.due < y.due := by
  induction asked generalizing t free with
  | nil => exact .nil
  | cons now later ih =>
    refine .cons (fun y member => ?_) (ih (by rwa [tick_period]))
    obtain ⟨k,positive,next⟩ := t.tick_due (max (max free now) (t.dueMs * milli))
    obtain ⟨-,-,m,due⟩ := mem_ticks member
    have apart := Nat.mul_pos positive running
    show t.due < y.due
    omega

/-- A tick is asked of the ticker that the tick before it left. -/
theorem ticks_chained : (ticks t free asked).IsChain fun x y => x.next = y.ticker := by
  induction asked generalizing t free with
  | nil => exact .nil
  | cons now later ih =>
    cases later with
    | nil => exact .singleton _
    | cons after later => exact .cons_cons rfl ih

/-- Past the first `k` deadlines from `c` on, no more ticks return by a time than there are periods left. -/
theorem returned_le {c k : Nat} (running : 0 < t.period) (grid : t.due = c + (k + 1) * t.period) (time : Nat) :
    (ticks t free asked).countP (·.returned ≤ time) ≤ (time - c) / t.period - k := by
  induction asked generalizing t free k with
  | nil => exact Nat.zero_le _
  | cons now later ih =>
    generalize returned_eq : max (max free now) (t.dueMs * milli) = returned
    obtain ⟨m,positive,next⟩ := t.tick_due returned
    have left : (ticks (t.tick returned) returned later).countP (·.returned ≤ time) ≤
        (time - c) / (t.tick returned).period - (k + m) :=
      ih (by rwa [tick_period]) (by rw [next,grid,tick_period]; ring)
    rw [tick_period] at left
    have waited : t.due ≤ returned := by
      have := t.due_le_dueMs
      omega
    rw [ticks,returned_eq,List.countP_cons]
    dsimp only
    split
    · rename_i in_time
      have in_time := of_decide_eq_true in_time
      have passed : k + 1 ≤ (time - c) / t.period := (Nat.le_div_iff_mul_le running).mpr (by omega)
      omega
    · omega

/-! ### Schedules -/

/-- A schedule is one of ticks that are asked for some whole milliseconds after the tick before. -/
theorem schedule_ticks (t : Ticker) (nowMs : Nat) (pauses : List Nat) :
    (schedule (some t) nowMs pauses).map (· * milli) =
      (ticks t (nowMs * milli) (List.zipWith (fun before pause => (before + pause) * milli)
        (nowMs :: schedule (some t) nowMs pauses) pauses)).map Tick.returned := by
  induction pauses generalizing t nowMs with
  | nil => rfl
  | cons pause later ih =>
    simp only [schedule,waitMs,List.zipWith_cons_cons,ticks,List.map_cons]
    have returned : max (max (nowMs * milli) ((nowMs + pause) * milli)) (t.dueMs * milli) =
        max (nowMs + pause) t.dueMs * milli := by
      rw [← Nat.mul_max_mul_right,max_eq_right (Nat.mul_le_mul_right milli (Nat.le_add_right nowMs pause))]
    rw [returned,← ih]

/-! ### Rates -/

/-- The period of a rate is the longest that an hour has room for so many times, and a nanosecond if there is none. -/
structure Fits (rate period : Nat) : Prop where
  positive : 0 < period
  room : period * rate ≤ hour ∨ period = 1 ∧ hour < rate
  longest : hour < (period + 1) * rate

theorem period_fits {rate : Nat} (limited : 0 < rate) : ∃ period, period? rate = some period ∧ Fits rate period := by
  refine ⟨max (hour / rate) 1,if_neg (Nat.pos_iff_ne_zero.mp limited),Nat.le_max_right _ _,?_,?_⟩
  · by_cases crowded : hour < rate
    · exact .inr ⟨by rw [Nat.div_eq_of_lt crowded]; rfl,crowded⟩
    · have some_time : 1 ≤ hour / rate := (Nat.one_le_div_iff limited).mpr (Nat.le_of_not_lt crowded)
      rw [Nat.max_eq_left some_time]
      exact .inl (Nat.div_mul_le_self hour rate)
  · calc hour < (hour / rate + 1) * rate := (Nat.div_lt_iff_lt_mul limited).mp (Nat.lt_succ_self _)
      _ ≤ _ := Nat.mul_le_mul_right rate (Nat.succ_le_succ (Nat.le_max_left _ _))

/-- What holds of the ticks of a ticker with a period that was started at some time. -/
structure Paced (period started : Nat) (xs : List Tick) : Prop where
  on_grid : ∀ x ∈ xs, ∃ k, 0 < k ∧ x.due = started + k * period
  rising : xs.Pairwise fun x y => x.due < y.due
  chained : xs.IsChain fun x y => x.next = y.ticker
  not_early : ∀ x ∈ xs, x.due ≤ x.returned
  no_more : ∀ time, xs.countP (·.returned ≤ time) ≤ (time - started) / period
  not_replayed : ∀ x ∈ xs, x.due + grace < x.returned → x.returned < x.next.due

theorem start_paced {period : Nat} (running : 0 < period) (now : Nat) (asked : List Nat) :
    Paced period now (ticks (start period now) now asked) := by
  constructor
  case on_grid =>
    intro x member
    obtain ⟨-,-,k,due⟩ := mem_ticks member
    exact ⟨k + 1,Nat.succ_pos k,by rw [due,start]; ring⟩
  case rising => exact ticks_rise running
  case chained => exact ticks_chained
  case not_early =>
    intro x member
    obtain ⟨-,waited,-⟩ := mem_ticks member
    exact x.ticker.due_le_dueMs.trans waited
  case no_more =>
    intro time
    exact returned_le (k := 0) running (by rw [start]; ring) time
  case not_replayed =>
    intro x member late
    obtain ⟨period,-,-⟩ := mem_ticks member
    exact lt_tick_due (by rwa [period]) late

/-- A limited rate has a ticker, which keeps the pace whenever its ticks are asked for. -/
theorem rate_paced {rate : Nat} (limited : 0 < rate) (now : Nat) :
    ∃ period, period? rate = some period ∧ Fits rate period ∧ ofRate rate now = some (start period now) ∧
      ∀ asked, (ticks (start period now) now asked).length = asked.length ∧
        Paced period now (ticks (start period now) now asked) := by
  obtain ⟨period,rated,fits⟩ := period_fits limited
  refine ⟨period,rated,fits,by rw [ofRate,rated]; rfl,fun asked => ⟨length_ticks _ _ _,?_⟩⟩
  exact start_paced fits.positive now asked

/-- Twice a second: after a stall the ticks go on with the grid, and what was missed is skipped. -/
theorem half_second_paced : 0 < 7200 ∧ period? 7200 = some (500 * milli) ∧
    Paced (500 * milli) 0 (ticks (start (500 * milli) 0) 0 [0,1700 * milli,1700 * milli]) ∧
    (ticks (start (500 * milli) 0) 0 [0,1700 * milli,1700 * milli]).map (·.returned) =
      [500 * milli,1700 * milli,2000 * milli] := by
  obtain ⟨period,rated,-,-,paced⟩ := rate_paced (by decide : 0 < 7200) 0
  have half : period? 7200 = some (500 * milli) := by decide
  cases rated.symm.trans half
  exact ⟨by decide,half,(paced _).2,by decide⟩

end Keyload.Ticker
