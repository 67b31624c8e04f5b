import Mathlib.Data.List.Induction
import Keyload.Proofs.Store.Callers

/-!
The use budget of a client. Whoever acquires the client, in whatever order and however the store answers, its connection
is used as often as the budget allows before it is replaced, and not once more (`Spends.move`). So what was noted of the
client tells how often it was used and how often its connection was replaced (`acquires_budgeted`).
-/
namespace Keyload

namespace ClientNote

/-- The uses of the connection once this is noted, `n` being those before. -/
def usesAfter (n : Nat) : ClientNote → Nat
  | took => n + 1
  | renewed => 1
  | _ => n

/-- What may be noted while `n` uses of a connection are spent, where its budget is `k`. -/
inductive Allowed (k n : Nat) : ClientNote → Prop where
  | took (young : n < k) : Allowed k n .took
  | closed (spent : n = k) : Allowed k n .closed
  | renewed (spent : n = k) : Allowed k n .renewed
  | refused (e : StoreError) (spent : n = k) : Allowed k n (.refused e)

/-- The uses that were counted since the connection was replaced, the one after that being the first. -/
def spent (notes : List ClientNote) : Nat := notes.foldl usesAfter 0

/-- The uses that were counted. -/
def taken (notes : List ClientNote) : Nat := notes.count .took + notes.count .renewed

/-- Everything was noted when it may be. -/
def Paced (k : Nat) (notes : List ClientNote) : Prop :=
  ∀ before note after, notes = before ++ note :: after → Allowed k (spent before) note

variable {k : Nat} {notes : List ClientNote} {note : ClientNote}

theorem spent_concat (notes : List ClientNote) (note : ClientNote) :
    spent (notes ++ [note]) = note.usesAfter (spent notes) :=
  List.foldl_append ..

theorem paced_nil : Paced k [] := by
  intro before note after split
  simp at split

theorem paced_concat : Paced k (notes ++ [note]) ↔ Paced k notes ∧ Allowed k (spent notes) note := by
  constructor
  · intro paced
    refine ⟨fun before first after split => ?_,paced notes note [] rfl⟩
    refine paced before first (after ++ [note]) ?_
    rw [split,List.append_assoc,List.cons_append]
  · rintro ⟨paced,allowed⟩ before first after split
    rcases List.eq_nil_or_concat after with rfl | ⟨others,last,rfl⟩
    · obtain ⟨rfl,same⟩ := List.append_inj' split rfl
      cases same
      exact allowed
    · rw [List.concat_eq_append,← List.cons_append,← List.append_assoc] at split
      exact paced before first others (List.append_inj' split rfl).1

/-- The uses that were counted are those of the connections that were replaced, and those since then. -/
theorem Paced.taken_eq (paced : Paced k notes) :
    taken notes = k * notes.count .renewed + spent notes ∧ (spent notes = 0 → notes.count .renewed = 0) := by
  induction notes using List.reverseRecOn with
  | nil => exact ⟨rfl,fun _ => rfl⟩
  | append_singleton notes note ih =>
    obtain ⟨paced,allowed⟩ := paced_concat.mp paced
    obtain ⟨balance,first⟩ := ih paced
    unfold taken at *
    rw [spent_concat]
    simp only [List.count_append]
    cases allowed with
    | took young =>
      simp only [usesAfter]
      exact ⟨by simp; omega,by simp⟩
    | renewed all =>
      simp only [usesAfter]
      exact ⟨by simp; rw [Nat.mul_succ]; omega,by simp⟩
    | closed all => simpa [usesAfter] using ⟨balance,first⟩
    | refused e all => simpa [usesAfter] using ⟨balance,first⟩

/-- A connection is replaced each time that its uses are spent and another one is wanted. -/
theorem Paced.renewals (some_uses : 0 < k) (within : spent notes ≤ k) (paced : Paced k notes) :
    notes.count .renewed = (taken notes - 1) / k := by
  obtain ⟨balance,first⟩ := paced.taken_eq
  rw [balance]
  by_cases unused : spent notes = 0
  · rw [first unused,unused]
    simp
  · have split : k * notes.count .renewed + spent notes - 1 = spent notes - 1 + k * notes.count .renewed := by omega
    rw [split,Nat.add_mul_div_left _ _ some_uses,Nat.div_eq_of_lt (by omega),Nat.zero_add]

end ClientNote

namespace SharedPool
open ClientNote (spent taken Paced Allowed)

/-! ### The moves of one client -/

/-- What holds of a client that is only acquired within a budget of `k` uses. -/
structure Spends (k : Nat) (notes : List ClientNote) (c : Client) (calls : ClientUser → CallStage) : Prop where
  uses_eq : c.uses = spent notes
  within : spent notes ≤ k
  paced : Paced k notes
  asked : ∀ u q r, calls u = some (q,r) → q = .acquire k
  /-- A user that replaces the connection has the client to itself, and no use of it is left. -/
  apart : ∀ u q r, calls u = some (q,some r) → c.isHeldBy u = true ∧ c.uses = k

variable {asks : ClientCall → Prop} {k : Nat} {u : ClientUser} {c c' : Client} {site after : Site}
  {calls : ClientUser → CallStage} {stage : CallStage} {notes : List ClientNote} {note : Option ClientNote}

theorem isDue_acquire : ClientCall.isDue c (.acquire k) = true ↔ k ≤ c.uses := decide_eq_true_iff

/-- Nobody else replaces the connection while a user has the client. -/
theorem Spends.only (spends : Spends k notes c calls) (held : c.isHeldBy u = true) {v : ClientUser} {q : ClientCall}
    {r : Reaction} (renewing : calls v = some (q,some r)) : v = u :=
  SharedClient.isHeldBy_unique (spends.apart v q r renewing).1 held

theorem Spends.asked_update (spends : Spends k notes c calls)
    (asked : ∀ q r, stage = some (q,r) → q = .acquire k) (u : ClientUser) :
    ∀ v q r, Function.update calls u stage v = some (q,r) → q = .acquire k :=
  (Function.forall_update_iff calls fun _ stage => ∀ q r, stage = some (q,r) → q = .acquire k).mpr
    ⟨asked,fun v _ => spends.asked v⟩

/-- Who replaces the connection after a move of `u`: those that did before, and perhaps `u`. -/
theorem apart_update (own : ∀ q r, stage = some (q,some r) → c'.isHeldBy u = true ∧ c'.uses = k)
    (others : ∀ v ≠ u, ∀ q r, calls v = some (q,some r) → c'.isHeldBy v = true ∧ c'.uses = k) :
    ∀ v q r, Function.update calls u stage v = some (q,some r) → c'.isHeldBy v = true ∧ c'.uses = k :=
  (Function.forall_update_iff calls
    fun v stage => ∀ q r, stage = some (q,some r) → c'.isHeldBy v = true ∧ c'.uses = k).mpr ⟨own,others⟩

/-- A user that had the client is done with it. -/
theorem Spends.leaves (spends : Spends k notes c calls) (held : c.isHeldBy u = true) {note : ClientNote}
    (allowed : Allowed k (spent notes) note) (uses_eq : c'.uses = note.usesAfter (spent notes)) (within : c'.uses ≤ k) :
    Spends k (notes ++ [note]) (c'.leave u) (Function.update calls u none) := by
  constructor
  case uses_eq => rwa [ClientNote.spent_concat]
  case within => rwa [ClientNote.spent_concat,← uses_eq]
  case paced => exact ClientNote.paced_concat.mpr ⟨spends.paced,allowed⟩
  case asked => exact spends.asked_update (by simp) u
  case apart =>
    refine apart_update (by simp) fun v other q r renewing => ?_
    exact absurd (spends.only held renewing) other

theorem Spends.move (spends : Spends k notes c calls) (some_uses : 0 < k) (only : ∀ q, asks q → q = .acquire k)
    (move : ClientMove asks u c site (calls u) note c' after stage) :
    Spends k (notes ++ note.toList) c' (Function.update calls u stage) := by
  generalize before : calls u = old at move
  cases move with
  | passes asked =>
    cases only _ asked
    exact absurd some_uses (Nat.lt_irrefl 0)
  | @asks q asked counted =>
    cases only _ asked
    constructor
    case uses_eq => simpa [enter_uses] using spends.uses_eq
    case within => simpa using spends.within
    case paced => simpa using spends.paced
    case asked => exact spends.asked_update (by simp +contextual) u
    case apart =>
      refine apart_update (by simp) fun v _ q r renewing => ?_
      obtain ⟨held,full⟩ := spends.apart v q r renewing
      exact ⟨SharedClient.enter_isHeldBy held,(enter_uses c u).trans full⟩
  | takes held young =>
    cases spends.asked u _ _ before
    have few : c.uses < k := by
      rw [← Nat.not_le,← isDue_acquire,young]
      exact Bool.false_ne_true
    have few' := spends.uses_eq ▸ few
    exact spends.leaves held (.took few') (congrArg Nat.succ spends.uses_eq) few
  | @closes q r after held due begun =>
    cases spends.asked u _ _ before
    have full : c.uses = k := Nat.le_antisymm (spends.uses_eq ▸ spends.within) (isDue_acquire.mp due)
    constructor
    case uses_eq => simpa [ClientNote.spent_concat,ClientNote.usesAfter] using spends.uses_eq
    case within => simpa [ClientNote.spent_concat,ClientNote.usesAfter] using spends.within
    case paced => exact ClientNote.paced_concat.mpr ⟨spends.paced,.closed (spends.uses_eq ▸ full)⟩
    case asked => exact spends.asked_update (by simp +contextual) u
    case apart => exact apart_update (fun _ _ _ => ⟨held,full⟩) fun v _ => spends.apart v
  | @renews q r d after answer =>
    cases spends.asked u _ _ before
    obtain ⟨held,full⟩ := spends.apart u _ _ before
    obtain ⟨rfl,-⟩ := Client.endRenewal_ok answer
    exact spends.leaves held (.renewed (spends.uses_eq ▸ full)) rfl some_uses
  | @fails q r e after answer =>
    obtain ⟨held,full⟩ := spends.apart u _ _ before
    exact spends.leaves held (.refused e (spends.uses_eq ▸ full)) spends.uses_eq (Nat.le_of_eq full)

/-! ### Every interleaving -/

section
variable {w : Usage} {i : Nat} {first s next : SharedPool} {c₀ d : Client} {notes new : List (Nat × ClientNote)}

/-- Of a client that is acquired without a budget nothing is counted. -/
structure Untouched (c₀ : Client) (notes : List ClientNote) (c : Client) (calls : ClientUser → CallStage) : Prop where
  same : c = c₀
  idle : ∀ u, calls u = none
  passed : ∀ note ∈ notes, note = .passed

theorem Untouched.move {notes : List ClientNote} (untouched : Untouched c₀ notes c calls)
    (only : ∀ q, asks q → q = .acquire 0) (move : ClientMove asks u c site (calls u) note c' after stage) :
    Untouched c₀ (notes ++ note.toList) c' (Function.update calls u stage) := by
  obtain ⟨rfl,idle,passed⟩ := untouched
  rw [idle u] at move
  cases move with
  | passes asked =>
    refine ⟨rfl,?_,?_⟩
    · rw [← idle u,Function.update_eq_self]
      exact fun v => (idle v).trans (idle u).symm
    · intro other member
      rcases List.mem_append.mp member with old | new
      · exact passed other old
      · exact List.mem_singleton.mp new
  | asks asked counted => exact absurd (only _ asked) counted

/-- How far the callers of client `i` have got, `k` being its budget. -/
structure Budgeted (w : Usage) (k i : Nat) (notes : List ClientNote) (s : SharedPool) (c : Client) : Prop where
  uses_eq : c.uses = spent notes
  uses_le : c.uses ≤ k
  paced : Paced k notes
  renewals : notes.count .renewed = (taken notes - 1) / k
  /-- One user at most is replacing the connection. -/
  one : ∀ u v q p r r', s.calls i u = some (q,some r) → s.calls i v = some (p,some r') → u = v
  /-- The connection is another one only after it was replaced, and then nothing was left of its uses. -/
  replaced : ∀ new next d, Step w s new next → next.clients[i]? = some d → d.connection ≠ c.connection →
    notesOf i new = [.renewed] ∧ c.uses = k ∧ d.uses = 1
  /-- A user that is refused is told what the store answered, and leaves the uses and the connection as they were. -/
  refused : ∀ new next d e, Step w s new next → next.clients[i]? = some d → notesOf i new = [.refused e] →
    (∃ u q r, s.calls i u = some (q,some r) ∧ r.failure = some e) ∧ d.uses = c.uses ∧ d.connection = c.connection ∧
      c.uses = k
  /-- Whoever has the client when no use is left begins to replace the connection. -/
  retries : c.uses = k → (∀ new next, Step w s new next → .took ∉ notesOf i new) ∧
    ∀ u q, s.calls i u = some (q,none) → c.isHeldBy u = true → ∃ next, Step w s [(i,.closed)] next

/-- What a step comes to for a client with a budget of `k` uses. -/
inductive Progress (k : Nat) (c : Client) (calls : ClientUser → CallStage) : List ClientNote → Client → Prop where
  | rests {c' : Client} (uses : c'.uses = c.uses) (connection : c'.connection = c.connection) : Progress k c calls [] c'
  | takes {c' : Client} (young : c.uses < k) (connection : c'.connection = c.connection) : Progress k c calls [.took] c'
  | closes {c' : Client} (connection : c'.connection = c.connection) : Progress k c calls [.closed] c'
  | renews {c' : Client} (full : c.uses = k) (uses : c'.uses = 1) : Progress k c calls [.renewed] c'
  | fails {c' : Client} {u : ClientUser} {q : ClientCall} {r : Reaction} {e : StoreError}
    (renewing : calls u = some (q,some r)) (failure : r.failure = some e) (full : c.uses = k)
    (uses : c'.uses = c.uses) (connection : c'.connection = c.connection) : Progress k c calls [.refused e] c'

theorem Spends.progress {notes noted : List ClientNote} {calls' : ClientUser → CallStage}
    (spends : Spends k notes c calls) (some_uses : 0 < k) (only : ∀ q, asks q → q = .acquire k)
    (step : ClientStep asks c site after calls noted c' calls') : Progress k c calls noted c' := by
  cases step with
  | rests => exact .rests rfl rfl
  | @moves u note _ stage move =>
    generalize before : calls u = old at move
    cases move with
    | passes asked =>
      cases only _ asked
      exact absurd some_uses (Nat.lt_irrefl 0)
    | asks => exact .rests (enter_uses c u) (SharedClient.enter_connection c u)
    | @takes q held young =>
      cases spends.asked u _ _ before
      have few : ¬ k ≤ c.uses := fun due => by simp [isDue_acquire.mpr due] at young
      exact .takes (Nat.lt_of_not_le few) rfl
    | closes => exact .closes rfl
    | @renews q r renewed _ answer =>
      cases spends.asked u _ _ before
      obtain ⟨rfl,-⟩ := Client.endRenewal_ok answer
      exact .renews (spends.apart u _ _ before).2 rfl
    | @fails q r e _ answer =>
      exact .fails before (Client.endRenewal_error answer).1 (spends.apart u q r before).2 rfl rfl

theorem Spends.budgeted {notes : List ClientNote} (some_uses : 0 < k) (only : ∀ q, w.asks i q → q = .acquire k)
    (there : s.clients[i]? = some c) (spends : Spends k notes c (s.calls i)) : Budgeted w k i notes s c := by
  have progress {new : List (Nat × ClientNote)} {next : SharedPool} {d : Client} (step : Step w s new next)
      (at_d : next.clients[i]? = some d) : Progress k c (s.calls i) (notesOf i new) d := by
    obtain ⟨d',at_d',moved⟩ := step.client there
    obtain rfl := Option.some.inj (at_d.symm.trans at_d')
    exact spends.progress some_uses only moved
  constructor
  case uses_eq => exact spends.uses_eq
  case uses_le => exact spends.uses_eq ▸ spends.within
  case paced => exact spends.paced
  case renewals => exact spends.paced.renewals some_uses spends.within
  case one =>
    intro u v q p r r' renewing other
    exact spends.only (spends.apart v p r' other).1 renewing
  case replaced =>
    intro new next d step at_d changed
    have progress := progress step at_d
    generalize notesOf i new = noted at progress ⊢
    cases progress with
    | renews full uses => exact ⟨rfl,full,uses⟩
    | rests uses connection => exact absurd connection changed
    | takes young connection => exact absurd connection changed
    | closes connection => exact absurd connection changed
    | fails renewing failure full uses connection => exact absurd connection changed
  case refused =>
    intro new next d e step at_d noted
    have progress := progress step at_d
    rw [noted] at progress
    cases progress with
    | fails renewing failure full uses connection => exact ⟨⟨_,_,_,renewing,failure⟩,uses,connection,full⟩
  case retries =>
    intro full
    constructor
    · intro new next step took
      obtain ⟨d,at_d,-⟩ := step.client there
      have progress := progress step at_d
      generalize notesOf i new = noted at progress took
      cases progress with
      | takes young connection => exact absurd full (Nat.ne_of_lt young)
      | rests uses connection => simp at took
      | closes connection => simp at took
      | renews full uses => simp at took
      | fails renewing failure full uses connection => simp at took
    · intro u q waiting held
      cases spends.asked u _ _ waiting
      have due : ClientCall.isDue c (.acquire k) = true := isDue_acquire.mpr (Nat.le_of_eq full.symm)
      have move : ClientMove (w.asks i) u c s.site (s.calls i u) (some .closed) c _ _ :=
        waiting ▸ ClientMove.closes held due rfl
      exact ⟨_,.call there move⟩

theorem ClientStep.spends {notes noted : List ClientNote} {calls' : ClientUser → CallStage}
    (step : ClientStep asks c site after calls noted c' calls') (some_uses : 0 < k)
    (only : ∀ q, asks q → q = .acquire k) (spends : Spends k notes c calls) : Spends k (notes ++ noted) c' calls' := by
  cases step with
  | rests => rwa [List.append_nil]
  | moves move => exact spends.move some_uses only move

theorem ClientStep.untouched {notes noted : List ClientNote} {calls' : ClientUser → CallStage}
    (step : ClientStep asks c site after calls noted c' calls') (only : ∀ q, asks q → q = .acquire 0)
    (untouched : Untouched c₀ notes c calls) : Untouched c₀ (notes ++ noted) c' calls' := by
  cases step with
  | rests => rwa [List.append_nil]
  | moves move => exact untouched.move only move

theorem Trace.spends (some_uses : 0 < k) (only : ∀ q, w.asks i q → q = .acquire k) (there : first.clients[i]? = some c₀)
    (unused : c₀.uses = 0) (idle : ∀ u, first.calls i u = none) (trace : Trace w first notes s) :
    ∃ c, s.clients[i]? = some c ∧ Spends k (notesOf i notes) c (s.calls i) := by
  induction trace with
  | start => exact ⟨c₀,there,unused,Nat.zero_le k,ClientNote.paced_nil,by simp [idle],by simp [idle]⟩
  | step trace step ih =>
    obtain ⟨c,there,spends⟩ := ih
    obtain ⟨c',there',step⟩ := step.client there
    rw [notesOf_append]
    exact ⟨c',there',step.spends some_uses only spends⟩

theorem Trace.untouched (only : ∀ q, w.asks i q → q = .acquire 0) (there : first.clients[i]? = some c₀)
    (idle : ∀ u, first.calls i u = none) (trace : Trace w first notes s) :
    ∃ c, s.clients[i]? = some c ∧ Untouched c₀ (notesOf i notes) c (s.calls i) := by
  induction trace with
  | start => exact ⟨c₀,there,rfl,idle,by simp [notesOf]⟩
  | step trace step ih =>
    obtain ⟨c,there,untouched⟩ := ih
    obtain ⟨c',there',step⟩ := step.client there
    rw [notesOf_append]
    exact ⟨c',there',step.untouched only untouched⟩

/-- However the callers of a client come between each other, its connection is replaced exactly when its budget is
spent; a client without a budget is left as it was. -/
theorem acquires_budgeted (only : ∀ q, w.asks i q → q = .acquire k) (there : first.clients[i]? = some c₀)
    (unused : c₀.uses = 0) (idle : ∀ u, first.calls i u = none) (trace : Trace w first notes s) :
    ∃ c, s.clients[i]? = some c ∧ (0 < k → Budgeted w k i (notesOf i notes) s c) ∧
      (k = 0 → c = c₀ ∧ ∀ note ∈ notesOf i notes, note = .passed) := by
  rcases Nat.eq_zero_or_pos k with rfl | some_uses
  · obtain ⟨c,there,untouched⟩ := trace.untouched only there idle
    exact ⟨c,there,fun absurd_uses => absurd absurd_uses (Nat.lt_irrefl 0),fun _ => ⟨untouched.same,untouched.passed⟩⟩
  · obtain ⟨c,there,spends⟩ := trace.spends some_uses only there unused idle
    exact ⟨c,there,fun _ => spends.budgeted some_uses only there,fun zero => absurd zero (Nat.ne_of_gt some_uses)⟩

/-! ### One call at a time -/

/-- What is noted of an acquisition that nobody comes between. -/
def outcome : Except StoreError (Bool × Client) → List ClientNote
  | .ok (false,_) => [.took]
  | .ok (true,_) => [.closed,.renewed]
  | .error e => [.closed,.refused e]

/-- To acquire a client without anyone else in line is one of the interleavings. -/
theorem Trace.acquires (trace : Trace w first notes s) (there : s.clients[i]? = some c) (empty : c.line = [])
    (idle : s.calls i u = none) (asked : w.asks i (.acquire k)) (some_uses : 0 < k) :
    Trace w first (notes ++ (outcome (c.acquire k s.site).1).map (i,·))
      (s.put i u ((c.acquire k s.site).1.toOption.elim c Prod.snd) (c.acquire k s.site).2 none) := by
  have inside := (List.getElem?_eq_some_iff.mp there).1
  have counted : ClientCall.acquire k ≠ .acquire 0 := by simp; omega
  have entered := trace.step (.call there (idle ▸ ClientMove.asks asked counted))
  rw [SharedClient.enter_empty empty,Option.toList_none,List.map_nil,List.append_nil] at entered
  have held : { c with line := [u] }.isHeldBy u = true := by simp [Client.isHeldBy]
  have same_due : ClientCall.isDue { c with line := [u] } (.acquire k) = c.isDue k := rfl
  rw [Client.acquire,if_neg (by omega)]
  by_cases due : c.isDue k = true
  · have closed := entered.goes_on inside (.closes held (same_due.trans due) rfl)
    have ended := SharedClient.endRenewal_line c [u] (c.beginRenewal s.site).2 (c.beginRenewal s.site).1
    have reached : c.reconnect s.site = c.endRenewal (c.beginRenewal s.site).2 (c.beginRenewal s.site).1 := rfl
    rw [if_pos due,reached]
    rcases SharedClient.endRenewal_cases c (c.beginRenewal s.site).2 (c.beginRenewal s.site).1 with answer | ⟨e,answer⟩
    · simp only [answer,Except.map] at ended ⊢
      have renewed := closed.goes_on inside (.renews ended)
      rw [List.append_assoc,SharedClient.leave_spend (c := c.renew _) empty] at renewed
      exact renewed
    · simp only [answer,Except.map] at ended ⊢
      have failed := closed.goes_on inside (.fails ended)
      have left : { c with line := [u] }.leave u = c := SharedClient.leave_spend empty u .reconnect
      rw [List.append_assoc,left] at failed
      exact failed
  · have took := entered.goes_on inside (.takes held (same_due.trans (Bool.eq_false_iff.mpr due)))
    rw [SharedClient.leave_spend empty] at took
    rw [if_neg due]
    exact took

end

/-- Users that acquire every client within a budget, whatever else happens at the site. -/
def acquiring (k : Nat) : Usage := ⟨fun _ q => q = .acquire k,fun _ _ => True⟩

/-- A pool of one client whose connection cannot be replaced at first. -/
def lonely : SharedPool :=
  ⟨[(SharedClient.pooled (some .closed)).client],(SharedClient.pooled (some .closed)).site,fun _ _ => none⟩

/-- The third use waits for another connection; it fails, and the fourth gets it. -/
theorem lonely_budgeted : (∀ q, (acquiring 2).asks 0 q → q = .acquire 2) ∧
    ∃ s notes c, Trace (acquiring 2) lonely notes s ∧ s.clients[0]? = some c ∧ c.uses = 1 ∧
      notesOf 0 notes = [.took,.took,.closed,.refused .closed,.closed,.renewed] ∧
      Budgeted (acquiring 2) 2 0 (notesOf 0 notes) s c := by
  have only : ∀ q, (acquiring 2).asks 0 q → q = .acquire 2 := fun _ asked => asked
  have there : lonely.clients[0]? = some (Client.fresh 0 0 0) := rfl
  have idle : ∀ u, lonely.calls 0 u = none := fun _ => rfl
  have fresh : Trace (acquiring 2) lonely [] lonely := .start
  have first := fresh.acquires (i := 0) (u := ⟨0,0⟩) rfl rfl rfl rfl (by decide)
  have second := first.acquires (i := 0) (u := ⟨1,0⟩) rfl rfl rfl rfl (by decide)
  have third := second.acquires (i := 0) (u := ⟨0,0⟩) rfl rfl rfl rfl (by decide)
  have fourth := third.acquires (i := 0) (u := ⟨1,0⟩) rfl rfl rfl rfl (by decide)
  obtain ⟨c,at_last,budgeted,-⟩ := acquires_budgeted only there rfl idle fourth
  refine ⟨only,_,_,c,fourth,at_last,?_,rfl,budgeted (by decide)⟩
  cases at_last
  rfl

end SharedPool

end Keyload
