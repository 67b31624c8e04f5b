import Mathlib.Logic.Function.Basic
import Keyload.Store.Pool

/-!
The connection of a client between its callers. Users acquire the client or renew its connection, in any interleaving,
and anyone may read at any moment which connection the client holds. That connection is closed while a renewal is under
way and after a renewal that failed, until one succeeds, and at no other time (`SharedClient.store_closed_iff`).
-/
namespace Keyload

/-- What a user asks of a client. -/
inductive ClientCall where
  | acquire (every : Nat)
  | reconnect
  deriving DecidableEq

namespace ClientCall

/-- Whether a call that has the client to itself renews the connection. -/
def isDue (c : Client) : ClientCall → Bool
  | acquire every => c.isDue every
  | reconnect => true

/-- The client after a call that went well. -/
def spend (c : Client) : ClientCall → Client
  | acquire _ => c.spend
  | reconnect => c

/-- A call that nobody comes between. -/
def alone (c : Client) (s : Site) : ClientCall → Except StoreError Client × Site
  | acquire every => ((c.acquire every s).1.map Prod.snd,(c.acquire every s).2)
  | reconnect => c.reconnect s

end ClientCall

/-- A client between its callers. -/
structure SharedClient where
  client : Client
  site : Site
  /-- The calls that have not returned; where one is renewing the connection, how the store will answer. -/
  calls : ClientUser → Option (ClientCall × Option Reaction)

namespace SharedClient

/-- The connection that a reader gets. -/
def store (s : SharedClient) : Nat := s.client.connection

/-- A connection was closed. -/
def Closed (s : SharedClient) (id : Nat) : Prop := .closed id ∈ s.site.history

/-- A renewal is under way. -/
def Renewing (s : SharedClient) : Prop := ∃ u q r, s.calls u = some (q,some r)

/-- What reaches the site from elsewhere: anything but a close of this connection. -/
inductive Aside (connection : Nat) (s : Site) : Site → Prop where
  | closes {id : Nat} (other : id ≠ connection) (known : id < s.issued) : Aside connection s (s.close id)
  | begins : Aside connection s s.beginConnect.2
  | ends (endpoint : Nat) (r : Reaction) : Aside connection s (s.endConnect endpoint r).2
  | executes (op : Operation) (r : Reaction) : Aside connection s (s.endOperation op r).2

/-- What may happen next, with the answer to a renewal that ends. A call `acquire 0` returns at once and is left out. -/
inductive Step (s : SharedClient) : Option (Except StoreError Nat) → SharedClient → Prop where
  | asks {u : ClientUser} {q : ClientCall} (idle : s.calls u = none) (counted : q ≠ .acquire 0) :
      Step s none { s with client := s.client.enter u, calls := Function.update s.calls u (some (q,none)) }
  | returns {u : ClientUser} {q : ClientCall} (waiting : s.calls u = some (q,none)) (held : s.client.isHeldBy u)
      (young : q.isDue s.client = false) :
      Step s none { s with client := (q.spend s.client).leave u, calls := Function.update s.calls u none }
  | begins {u : ClientUser} {q : ClientCall} {r : Reaction} {site : Site} (waiting : s.calls u = some (q,none))
      (held : s.client.isHeldBy u) (due : q.isDue s.client) (begun : s.client.beginRenewal s.site = (r,site)) :
      Step s none { s with site, calls := Function.update s.calls u (some (q,some r)) }
  | renews {u : ClientUser} {q : ClientCall} {r : Reaction} {c : Client} {site : Site}
      (renewing : s.calls u = some (q,some r)) (answer : s.client.endRenewal s.site r = (.ok c,site)) :
      Step s (some (.ok c.connection)) ⟨(q.spend c).leave u,site,Function.update s.calls u none⟩
  | fails {u : ClientUser} {q : ClientCall} {r : Reaction} {e : StoreError} {site : Site}
      (renewing : s.calls u = some (q,some r)) (answer : s.client.endRenewal s.site r = (.error e,site)) :
      Step s (some (.error e)) ⟨s.client.leave u,site,Function.update s.calls u none⟩
  | aside {site : Site} (elsewhere : Aside s.store s.site site) : Step s none { s with site }

/-- A state that can be reached, with the answers to the renewals that ended on the way. -/
inductive Traced (first : SharedClient) : List (Except StoreError Nat) → SharedClient → Prop where
  | start : Traced first [] first
  | step {answers : List (Except StoreError Nat)} {s next : SharedClient} {answer : Option (Except StoreError Nat)} :
      Traced first answers s → Step s answer next → Traced first (answers ++ answer.toList) next

/-- Nobody calls, and the connection is open. -/
structure Opened (s : SharedClient) : Prop where
  idle : ∀ u, s.calls u = none
  known : s.store < s.site.issued
  issued : ∀ id, s.Closed id → id < s.site.issued
  opened : ¬ s.Closed s.store

/-- The connection after some renewals, from the one before them. -/
def newest (first : Nat) (answers : List (Except StoreError Nat)) : Nat :=
  answers.foldl (fun old answer => answer.toOption.getD old) first

/-- What holds in every state that is reached. -/
structure Kept (first : SharedClient) (answers : List (Except StoreError Nat)) (s : SharedClient) : Prop where
  /-- A user that renews the connection has the client to itself. -/
  apart : ∀ u q r, s.calls u = some (q,some r) → s.client.isHeldBy u = true
  store_eq : s.store = newest first.store answers
  known : s.store < s.site.issued
  issued : ∀ id, s.Closed id → id < s.site.issued
  closed_iff : s.Closed s.store ↔ s.Renewing ∨ ∃ e, answers.getLast? = some (.error e)

/-! ### The parts of a step -/

theorem mem_push_closed {history : Array ConnectionEvent} {id other : Nat} :
    .closed id ∈ history.push (.closed other) ↔ .closed id ∈ history ∨ id = other := by
  simp

theorem enter_isHeldBy {c : Client} {u v : ClientUser} (held : c.isHeldBy v = true) :
    (c.enter u).isHeldBy v = true := by
  unfold Client.enter
  split
  · exact held
  · unfold Client.isHeldBy at held ⊢
    cases line : c.line with
    | nil =>
      rw [line] at held
      cases held
    | cons first rest =>
      rw [line] at held
      exact held

theorem enter_connection (c : Client) (u : ClientUser) : (c.enter u).connection = c.connection := by
  unfold Client.enter
  split <;> rfl

theorem isHeldBy_unique {c : Client} {u v : ClientUser} (one : c.isHeldBy u = true) (other : c.isHeldBy v = true) :
    u = v := by
  have one := eq_of_beq one
  have other := eq_of_beq other
  exact Option.some.inj (one.symm.trans other)

theorem spend_connection (q : ClientCall) (c : Client) : (q.spend c).connection = c.connection := by
  cases q <;> rfl

/-- How a renewal ends, by the answer to the attempt to connect. -/
theorem endRenewal_cases (c : Client) (s : Site) (r : Reaction) :
    c.endRenewal s r = (.ok (c.renew s.issued),
        { s with issued := s.issued + 1, history := s.history.push (.opened c.endpoint s.issued) }) ∨
      ∃ e, c.endRenewal s r = (.error e,{ s with history := s.history.push (.refused c.endpoint) }) := by
  unfold Client.endRenewal Site.endConnect
  cases r.failure with
  | none => exact .inl rfl
  | some e => exact .inr ⟨e,rfl⟩

/-- What comes from elsewhere closes no connection of this client, and none that is still to be opened. -/
theorem Aside.keeps {connection : Nat} {s site : Site} (elsewhere : Aside connection s site) :
    s.issued ≤ site.issued ∧ (ConnectionEvent.closed connection ∈ site.history ↔ .closed connection ∈ s.history) ∧
      ∀ id, ConnectionEvent.closed id ∈ site.history → .closed id ∈ s.history ∨ id < s.issued := by
  cases elsewhere with
  | @closes id other known =>
    refine ⟨Nat.le_refl _,?_,?_⟩
    · exact mem_push_closed.trans (or_iff_left other.symm)
    · intro closed member
      rcases mem_push_closed.mp member with old | rfl
      · exact .inl old
      · exact .inr known
  | begins => exact ⟨Nat.le_refl _,Iff.rfl,fun _ => .inl⟩
  | ends endpoint r =>
    unfold Site.endConnect
    cases r.failure with
    | none => exact ⟨Nat.le_succ _,by simp,by simp +contextual⟩
    | some e => exact ⟨Nat.le_refl _,by simp,by simp +contextual⟩
  | executes op r =>
    unfold Site.endOperation
    cases r.failure with
    | none => exact ⟨Nat.le_refl _,Iff.rfl,fun _ => .inl⟩
    | some e => exact ⟨Nat.le_refl _,Iff.rfl,fun _ => .inl⟩

/-! ### The clients of a pool -/

/-- Connections that were opened one after the other are open. -/
theorem openFrom_opened {endpoint n : Nat} {left : Option Nat} {s site : Site} {ids : List Nat} {ms : Nat}
    (run : Pool.openFrom endpoint n left s = (.success ids,ms,site)) :
    s.issued ≤ site.issued ∧ ids.length = n ∧ (∀ id, .closed id ∈ site.history ↔ .closed id ∈ s.history) ∧
      ∀ id ∈ ids, s.issued ≤ id ∧ id < site.issued := by
  induction n generalizing endpoint left s ids ms site with
  | zero =>
    cases run
    exact ⟨Nat.le_refl _,rfl,fun _ => Iff.rfl,by simp⟩
  | succ n ih =>
    rw [Pool.openFrom] at run
    simp only at run
    split at run
    · cases run
    split at run
    · cases run
    rename_i _ id opened answer
    obtain ⟨rfl,rfl⟩ : id = s.issued ∧ opened = { s.beginConnect.2 with
        issued := s.issued + 1, history := s.history.push (.opened endpoint s.issued) } := by
      unfold Site.endConnect at answer
      split at answer
      · cases answer
      · cases answer
        exact ⟨rfl,rfl⟩
    split at run
    · rename_i rest _ _ opened
      cases run
      obtain ⟨issued,length,history,fresh⟩ := ih opened
      refine ⟨Nat.le_trans (Nat.le_succ _) issued,congrArg Nat.succ length,?_,?_⟩
      · intro id
        exact (history id).trans (by simp)
      · intro id member
        rcases List.mem_cons.mp member with rfl | later
        · exact ⟨Nat.le_refl _,issued⟩
        · exact ⟨Nat.le_trans (Nat.le_succ _) (fresh id later).1,(fresh id later).2⟩
    · cases run
    · cases run

/-- Every client of a pool begins with a connection that is open. -/
theorem connect_opened {conns clients : Nat} {isPrivate : Bool} {limit : Option Nat} {s site : Site} {pool : Pool}
    {ms : Nat} (numbered : ∀ id, .closed id ∈ s.history → id < s.issued)
    (run : Pool.connect conns clients isPrivate limit s = (.success pool,ms,site)) :
    ∀ c ∈ pool.clients, Opened ⟨c,site,fun _ => none⟩ := by
  unfold Pool.connect at run
  split at run
  · rename_i ids _ _ opened
    cases run
    obtain ⟨issued,length,history,fresh⟩ := openFrom_opened opened
    intro c member
    obtain ⟨i,at_i,rfl⟩ := List.mem_map.mp member
    have stocked : 0 < ids.length := by
      have some_client := List.mem_range.mp at_i
      rw [length,Pool.connections]
      split <;> omega
    have inside := Nat.mod_lt i stocked
    have connection : ids[i % ids.length]?.getD 0 ∈ ids := by
      rw [List.getElem?_eq_getElem inside]
      exact List.getElem_mem inside
    obtain ⟨after,before⟩ := fresh _ connection
    constructor
    case idle => exact fun _ => rfl
    case known => exact before
    case issued =>
      intro id closed
      exact Nat.lt_of_lt_of_le (numbered id ((history id).mp closed)) issued
    case opened =>
      intro closed
      exact absurd (numbered _ ((history _).mp closed)) (Nat.not_lt.mpr after)
  · cases run
  · cases run

/-! ### One call at a time -/

theorem enter_empty {c : Client} (empty : c.line = []) (u : ClientUser) : c.enter u = { c with line := [u] } := by
  simp [Client.enter,empty]

theorem leave_spend {c : Client} (empty : c.line = []) (u : ClientUser) (q : ClientCall) :
    (q.spend { c with line := [u] }).leave u = q.spend c := by
  obtain ⟨index,endpoint,connection,uses,line⟩ := c
  cases empty
  cases q <;> simp [ClientCall.spend,Client.spend,Client.leave]

theorem endRenewal_line (c : Client) (line : List ClientUser) (s : Site) (r : Reaction) :
    { c with line }.endRenewal s r =
      ((c.endRenewal s r).1.map fun renewed => { renewed with line },(c.endRenewal s r).2) := by
  unfold Client.endRenewal Site.endConnect
  cases r.failure <;> rfl

/-- What a call that nobody comes between does: it takes the client, or renews the connection first. -/
theorem alone_eq (c : Client) (s : Site) {q : ClientCall} (counted : q ≠ .acquire 0) :
    q.alone c s = if q.isDue c then ((c.reconnect s).1.map q.spend,(c.reconnect s).2) else (.ok (q.spend c),s) := by
  cases q with
  | acquire every =>
    have some_uses : every ≠ 0 := fun zero => counted (by rw [zero])
    have due_eq : ClientCall.isDue c (.acquire every) = c.isDue every := rfl
    rw [ClientCall.alone,Client.acquire,if_neg some_uses,due_eq]
    split
    · rcases c.reconnect s with ⟨_ | _,site⟩ <;> rfl
    · rfl
  | reconnect =>
    have due : ClientCall.isDue c .reconnect = true := rfl
    rw [ClientCall.alone,if_pos due]
    rcases c.reconnect s with ⟨_ | _,site⟩ <;> rfl

/-- A call that finds nobody in line and that nobody comes between is one of the interleavings. -/
theorem alone_traced {s : SharedClient} {u : ClientUser} {q : ClientCall} (empty : s.client.line = [])
    (idle : s.calls u = none) (counted : q ≠ .acquire 0) :
    Traced s (if q.isDue s.client then [(s.client.reconnect s.site).1.map Client.connection] else [])
      ⟨(q.alone s.client s.site).1.toOption.getD s.client,(q.alone s.client s.site).2,s.calls⟩ := by
  obtain ⟨c,site,calls⟩ := s
  have undo : ∀ stage, Function.update (Function.update calls u stage) u none = calls := by
    intro stage
    rw [Function.update_idem,← idle,Function.update_eq_self]
  have held : { c with line := [u] }.isHeldBy u = true := by simp [Client.isHeldBy]
  have asked := Traced.start.step (.asks idle counted)
  simp only [enter_empty empty] at asked
  have waiting : Function.update calls u (some (q,none)) u = some (q,none) := Function.update_self ..
  have same_due : q.isDue { c with line := [u] } = q.isDue c := by cases q <;> rfl
  rw [alone_eq c site counted]
  by_cases due : q.isDue c = true
  · have begun := asked.step (.begins waiting held (same_due.trans due) rfl)
    simp only [Function.update_idem] at begun
    have renewing := Function.update_self u (some (q,some (c.beginRenewal site).1)) calls
    have ended := endRenewal_line c [u] (c.beginRenewal site).2 (c.beginRenewal site).1
    rw [if_pos due,if_pos due]
    have reached : c.reconnect site = c.endRenewal (c.beginRenewal site).2 (c.beginRenewal site).1 := rfl
    rcases endRenewal_cases c (c.beginRenewal site).2 (c.beginRenewal site).1 with answer | ⟨e,answer⟩
    · simp only [answer,Except.map] at ended
      have renewed := begun.step (.renews renewing ended)
      rw [leave_spend (c := c.renew _) empty,undo] at renewed
      rw [reached,answer]
      exact renewed
    · simp only [answer,Except.map] at ended
      have failed := begun.step (.fails renewing ended)
      have left : { c with line := [u] }.leave u = c := leave_spend empty u .reconnect
      rw [left,undo] at failed
      rw [reached,answer]
      exact failed
  · have returned := asked.step (.returns waiting held (same_due.trans (Bool.eq_false_iff.mpr due)))
    rw [leave_spend empty,undo] at returned
    rw [if_neg due,if_neg due]
    exact returned

/-! ### Every interleaving -/

section
variable {first s next : SharedClient} {answers : List (Except StoreError Nat)}

theorem Opened.kept (opened : Opened first) : Kept first [] first := by
  have idle : ¬ first.Renewing := by
    rintro ⟨u,q,r,renewing⟩
    rw [opened.idle u] at renewing
    cases renewing
  constructor
  case apart =>
    intro u q r renewing
    exact absurd ⟨u,q,r,renewing⟩ idle
  case store_eq => rfl
  case known => exact opened.known
  case issued => exact opened.issued
  case closed_iff => simp [opened.opened,idle]

/-- Nobody renews the connection once the only one who may has gone on. -/
theorem Kept.not_renewing (kept : Kept first answers s) {u : ClientUser} (held : s.client.isHeldBy u = true) :
    ¬ ∃ v q r, Function.update s.calls u none v = some (q,some r) := by
  rintro ⟨v,q,r,renewing⟩
  by_cases same : v = u
  · rw [same,Function.update_self] at renewing
    cases renewing
  · rw [Function.update_of_ne same] at renewing
    exact same (isHeldBy_unique (kept.apart v q r renewing) held)

theorem Kept.asks (kept : Kept first answers s) {u : ClientUser} {q : ClientCall} (idle : s.calls u = none) :
    Kept first answers
      { s with client := s.client.enter u, calls := Function.update s.calls u (some (q,none)) } := by
  have same_store : (s.client.enter u).connection = s.store := enter_connection _ _
  have renewing_iff : ∀ v p r, Function.update s.calls u (some (q,none)) v = some (p,some r) ↔
      s.calls v = some (p,some r) := by
    intro v p r
    by_cases same : v = u
    · rw [same,Function.update_self,idle]
      simp
    · rw [Function.update_of_ne same]
  constructor
  case apart =>
    intro v p r renewing
    exact enter_isHeldBy (kept.apart v p r ((renewing_iff v p r).mp renewing))
  case store_eq => exact same_store.trans kept.store_eq
  case known => exact Nat.lt_of_le_of_lt (Nat.le_of_eq same_store) kept.known
  case issued => exact kept.issued
  case closed_iff =>
    simp only [Closed,store,Renewing,same_store,renewing_iff]
    exact kept.closed_iff

theorem Kept.returns (kept : Kept first answers s) {u : ClientUser} {q : ClientCall}
    (waiting : s.calls u = some (q,none)) (held : s.client.isHeldBy u = true) :
    Kept first answers { s with client := (q.spend s.client).leave u, calls := Function.update s.calls u none } := by
  have same_store : ((q.spend s.client).leave u).connection = s.store := spend_connection q s.client
  have nobody := kept.not_renewing held
  have nobody_before : ¬ s.Renewing := by
    rintro ⟨v,p,r,renewing⟩
    have same := isHeldBy_unique (kept.apart v p r renewing) held
    rw [same,waiting] at renewing
    cases renewing
  constructor
  case apart =>
    intro v p r renewing
    exact absurd ⟨v,p,r,renewing⟩ nobody
  case store_eq => exact same_store.trans kept.store_eq
  case known => exact Nat.lt_of_le_of_lt (Nat.le_of_eq same_store) kept.known
  case issued => exact kept.issued
  case closed_iff =>
    have closed_iff := kept.closed_iff
    rw [or_iff_right nobody_before] at closed_iff
    rw [Closed,store,same_store]
    exact closed_iff.trans (or_iff_right nobody).symm

theorem Kept.begins (kept : Kept first answers s) {u : ClientUser} {q : ClientCall} {r : Reaction} {site : Site}
    (held : s.client.isHeldBy u = true) (begun : s.client.beginRenewal s.site = (r,site)) :
    Kept first answers { s with site, calls := Function.update s.calls u (some (q,some r)) } := by
  cases begun
  have closed_iff : ∀ id, ConnectionEvent.closed id ∈ (s.client.beginRenewal s.site).2.history ↔
      s.Closed id ∨ id = s.store := fun id => mem_push_closed
  constructor
  case apart =>
    intro v p r' renewing
    by_cases same : v = u
    · exact same ▸ held
    · simp only [Function.update_of_ne same] at renewing
      exact kept.apart v p r' renewing
  case store_eq => exact kept.store_eq
  case known => exact kept.known
  case issued =>
    intro id member
    rcases (closed_iff id).mp member with old | rfl
    · exact kept.issued id old
    · exact kept.known
  case closed_iff =>
    constructor
    · intro _
      exact .inl ⟨u,q,_,Function.update_self ..⟩
    · intro _
      exact (closed_iff _).mpr (.inr rfl)

theorem Kept.ends (kept : Kept first answers s) {u : ClientUser} {q : ClientCall} {r : Reaction}
    (renewing : s.calls u = some (q,some r)) {c : Client} {site : Site} {answer : Except StoreError Nat}
    (store_eq : c.connection = answer.toOption.getD s.store) (issued : s.site.issued ≤ site.issued)
    (known : c.connection < site.issued) (history : ∀ id, .closed id ∈ site.history ↔ s.Closed id)
    (closed_iff : .closed c.connection ∈ site.history ↔ ∃ e, answer = .error e) :
    Kept first (answers ++ [answer]) ⟨c.leave u,site,Function.update s.calls u none⟩ := by
  have nobody := kept.not_renewing (kept.apart u q r renewing)
  constructor
  case apart =>
    intro v p r' still
    exact absurd ⟨v,p,r',still⟩ nobody
  case store_eq =>
    rw [newest,List.foldl_append]
    exact store_eq.trans (by rw [kept.store_eq]; rfl)
  case known => exact known
  case issued =>
    intro id member
    exact Nat.lt_of_lt_of_le (kept.issued id ((history id).mp member)) issued
  case closed_iff =>
    refine Iff.trans closed_iff (Iff.trans ?_ (or_iff_right nobody).symm)
    simp

theorem Kept.aside (kept : Kept first answers s) {site : Site} (elsewhere : Aside s.store s.site site) :
    Kept first answers { s with site } := by
  obtain ⟨issued,same,others⟩ := elsewhere.keeps
  constructor
  case apart => exact kept.apart
  case store_eq => exact kept.store_eq
  case known => exact Nat.lt_of_lt_of_le kept.known issued
  case issued =>
    intro id member
    rcases others id member with old | known
    · exact Nat.lt_of_lt_of_le (kept.issued id old) issued
    · exact Nat.lt_of_lt_of_le known issued
  case closed_iff => exact same.trans kept.closed_iff

theorem Kept.step (kept : Kept first answers s) {answer : Option (Except StoreError Nat)} (step : Step s answer next) :
    Kept first (answers ++ answer.toList) next := by
  cases step with
  | asks idle _ => simpa using kept.asks idle
  | returns waiting held _ => simpa using kept.returns waiting held
  | begins waiting held _ begun => simpa using kept.begins held begun
  | aside elsewhere => simpa using kept.aside elsewhere
  | @renews u q r c site renewing answer =>
    rcases endRenewal_cases s.client s.site r with ended | ⟨e,ended⟩
    · cases ended.symm.trans answer
      -- the number of the new connection was never given out, so it cannot have been closed
      have unclosed : ¬ s.Closed s.site.issued := fun closed => Nat.lt_irrefl _ (kept.issued _ closed)
      have connection : (q.spend (s.client.renew s.site.issued)).connection = s.site.issued := spend_connection q _
      exact kept.ends renewing connection (Nat.le_succ _) (by rw [connection]; exact Nat.lt_succ_self _)
        (by simp [Closed]) (by rw [connection]; simpa [Closed] using unclosed)
    · cases ended.symm.trans answer
  | @fails u q r e site renewing answer =>
    rcases endRenewal_cases s.client s.site r with ended | ⟨e',ended⟩
    · cases ended.symm.trans answer
    · cases ended.symm.trans answer
      have closed : s.Closed s.store := kept.closed_iff.mpr (.inl ⟨u,q,r,renewing⟩)
      exact kept.ends renewing rfl (Nat.le_refl _) kept.known (by simp [Closed]) (by simpa [Closed,store] using closed)

/-- In every state the client holds the connection of the last renewal that went well, and it is closed exactly while a
renewal is under way and after one that failed. -/
theorem store_closed_iff (opened : Opened first) (traced : Traced first answers s) :
    s.store = newest first.store answers ∧
      (s.Closed s.store ↔ s.Renewing ∨ ∃ e, answers.getLast? = some (.error e)) := by
  have kept : Kept first answers s := by
    induction traced with
    | start => exact opened.kept
    | step _ step ih => exact ih.step step
  exact ⟨kept.store_eq,kept.closed_iff⟩

end

/-- A store that answers the second attempt to connect like this. -/
def answering (failure : Option StoreError) : Behavior :=
  ⟨fun _ _ => .prompt,fun n => if n = 1 then ⟨0,failure⟩ else .prompt⟩

/-- The client of a pool of one. -/
def pooled (failure : Option StoreError) : SharedClient :=
  ⟨Client.fresh 0 0 0,(Pool.connect 1 1 true none (Site.fresh (answering failure) Memory.empty)).2.2,fun _ => none⟩

theorem pooled_opened (failure : Option StoreError) : Opened (pooled failure) := by
  have connected : Pool.connect 1 1 true none (Site.fresh (answering failure) Memory.empty) =
      (.success ⟨[(pooled failure).client]⟩,0,(pooled failure).site) := rfl
  refine connect_opened ?_ connected _ (List.mem_singleton.mpr rfl)
  intro id closed
  simp [Site.fresh] at closed

/-- After a renewal the client holds the second connection, which is open. -/
theorem pooled_renewed : Opened (pooled none) ∧
    ∃ s, Traced (pooled none) [.ok 1] s ∧ s.store = 1 ∧ ¬ s.Closed s.store := by
  have opened := pooled_opened none
  have renewed : Traced (pooled none) [.ok 1] _ := alone_traced (u := ⟨0,0⟩) (q := .reconnect) rfl rfl (by decide)
  obtain ⟨store_eq,closed_iff⟩ := store_closed_iff opened renewed
  refine ⟨opened,_,renewed,store_eq,?_⟩
  rw [closed_iff]
  rintro (⟨u,q,r,renewing⟩ | ⟨e,failed⟩)
  · cases renewing
  · cases failed

/-- A reader gets the closed connection while it is renewed, even if that goes well, and after a renewal that failed. -/
theorem pooled_closed : (∃ s, Traced (pooled none) [] s ∧ s.Closed s.store) ∧
    ∃ s, Traced (pooled (some (.backend "refused"))) [.error (.backend "refused")] s ∧ (∀ u, s.calls u = none) ∧
      s.Closed s.store := by
  constructor
  · have waiting : Traced (pooled none) [] (pooled none) := .start
    have asked := waiting.step (.asks (u := ⟨0,0⟩) (q := .reconnect) rfl (by decide))
    have begun := asked.step (.begins (Function.update_self ..) rfl rfl rfl)
    exact ⟨_,begun,mem_push_closed.mpr (.inr rfl)⟩
  · have failed : Traced (pooled (some (.backend "refused"))) [.error (.backend "refused")] _ :=
      alone_traced (u := ⟨0,0⟩) (q := .reconnect) rfl rfl (by decide)
    have closed : ConnectionEvent.closed 0 ∈ #[ConnectionEvent.opened 0 0,.closed 0,.refused 0] := by simp
    exact ⟨_,failed,fun _ => rfl,closed⟩

end SharedClient

end Keyload
