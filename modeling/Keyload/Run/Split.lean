/-!
# Sharing out clients

Which clients of the pool each activity uses. With more than four clients, and subtree churn or
watches among the activities, reads and value churn get one client each and the rest is divided
between subtree churn and watches, the odd one going to churn. Otherwise all share the whole pool.
-/
namespace Keyload

/-- The clients from `first` to before `stop`. -/
structure ClientRange where
  first : Nat
  stop : Nat
  deriving DecidableEq, Repr

/-- Which activities run. -/
structure ActiveSet where
  reads : Bool
  valueChurn : Bool
  levelChurn : Bool
  watches : Bool
  deriving DecidableEq, Repr

/-- The clients of each activity. -/
structure ClientSplit where
  reads : ClientRange
  valueChurn : ClientRange
  levelChurn : ClientRange
  watches : ClientRange
  deriving DecidableEq, Repr

namespace ClientSplit

/-- A pool up to this size is not divided. -/
def sharedUpTo : Nat := 4

/-- No clients. -/
def nobody : ClientRange := ⟨0, 0⟩

/-- One client if an activity runs, and the next free one. -/
def takeOne (active : Bool) (next : Nat) : ClientRange × Nat :=
  if active then (⟨next, next + 1⟩, next + 1) else (nobody, next)

/-- The clients of each activity in a pool. -/
def plan (clients : Nat) (active : ActiveSet) : ClientSplit :=
  if clients ≤ sharedUpTo ∨ !(active.levelChurn || active.watches) then
    let all := ⟨0, clients⟩
    ⟨all, all, all, all⟩
  else
    let (reads, next) := takeOne active.reads 0
    let (valueChurn, next) := takeOne active.valueChurn next
    let rest := clients - next
    let (levelChurn, watches) :=
      match active.levelChurn, active.watches with
      | true, true =>
        let middle := next + (rest - rest / 2)
        (⟨next, middle⟩, ⟨middle, clients⟩)
      | true, false => (⟨next, clients⟩, nobody)
      | false, _ => (nobody, ⟨next, clients⟩)
    ⟨reads, valueChurn, levelChurn, watches⟩

end ClientSplit

end Keyload
