import Keyload.Settings.Basic
import Keyload.Store.Pool

/-!
# Trying again

An attempt that failed is made again after a pause, which doubles up to a bound. An attempt that is not
answered in time counts as failed. After the last attempt that is allowed its error is the result; without
a bound only a success ends the attempts.
-/
namespace Keyload.Backoff

open Settings (Retry)

/-- The pause after the one of `ms`. -/
def nextPause (p : Retry) (ms : Nat) : Nat := min (ms * 2) p.maxDelayMs

/-- The pause after attempt `k`, the first attempt being number one. -/
def pause (p : Retry) : Nat → Nat
  | 0 => p.baseDelayMs
  | 1 => p.baseDelayMs
  | k + 1 => nextPause p (pause p k)

/-- The error that an attempt leaves, if it failed. -/
def error? {α : Type} (p : Retry) : Attempt α → Option StoreError
  | .success _ => none
  | .failure e => some e
  | .unanswered => some (.timeout p.timeoutMs)

/-- Whether attempt `k` is the last one allowed. -/
def isLast (p : Retry) (k : Nat) : Bool := 0 < p.attempts && p.attempts ≤ k

/-- Make attempt `k` and those after it; `attempt` also tells the time it took. The result, the time that
all of it took, and the state after it. No result after `patience` attempts. -/
def run {σ α : Type} (p : Retry) (attempt : σ → Attempt α × Nat × σ) (k : Nat) :
    Nat → σ → Option (Except StoreError α) × Nat × σ
  | 0, s => (none, 0, s)
  | patience + 1, s =>
    let (outcome, ms, s) := attempt s
    match outcome with
    | .success a => (some (.ok a), ms, s)
    | failed =>
      let e := (error? p failed).getD .closed
      if isLast p k then (some (.error e), ms, s)
      else
        let (result, more, s) := run p attempt (k + 1) patience s
        (result, ms + pause p k + more, s)

/-- Connect the pool of a run, again and again as its settings allow. -/
def connect (c : Settings.Client) (patience : Nat) (s : Site) :
    Option (Except StoreError Pool) × Nat × Site :=
  run c.retry
    (Pool.connect c.conns c.clients (0 < c.reconnectEvery) (some c.retry.timeoutMs)) 1 patience s

end Keyload.Backoff
