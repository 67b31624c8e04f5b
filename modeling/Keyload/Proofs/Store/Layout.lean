import Mathlib.Data.Int.CardIntervalMod
import Keyload.Proofs.Store.Callers

/-!
How clients lie over connections. A pool opens its connections one after the other and gives up at the first that is
refused (`openFrom_opens`, `openFrom_refused`); its clients take the connections in turn, so each connection serves as
many clients as any other, but for one (`dealt_even`). A client goes on connecting to its own endpoint, whoever uses the
pool in whatever order, and a client with a connection of its own keeps it to itself (`connect_isolates`).
-/
namespace Keyload

/-! ### Connections -/

namespace Site

/-- How the store answers the attempt to connect that comes after `j` others. -/
def answer (s : Site) (j : Nat) : Option StoreError := (s.behavior.connection (s.attempts + j)).failure

/-- The site after `n` connections were opened, to one endpoint after the other. -/
def opened (s : Site) (endpoint n : Nat) : Site :=
  { s with
    attempts := s.attempts + n
    issued := s.issued + n
    history := s.history ++ (List.range n).map fun j => ConnectionEvent.opened (endpoint + j) (s.issued + j) }

/-- The site after an endpoint has refused to connect. -/
def refused (s : Site) (endpoint : Nat) : Site :=
  { s with attempts := s.attempts + 1, history := s.history.push (.refused endpoint) }

variable {s : Site} {endpoint n j : Nat}

theorem opened_zero (s : Site) (endpoint : Nat) : s.opened endpoint 0 = s := by
  simp [opened]

theorem opened_succ (s : Site) (endpoint n : Nat) :
    (s.opened endpoint 1).opened (endpoint + 1) n = s.opened endpoint (n + 1) := by
  simp only [opened,List.range_succ_eq_map,List.map_cons,List.map_map]
  simp [Nat.add_comm,Nat.add_left_comm,Function.comp_def]

theorem answer_opened (s : Site) (endpoint j : Nat) : (s.opened endpoint 1).answer j = s.answer (j + 1) := by
  simp [answer,opened,Nat.add_comm,Nat.add_left_comm]

theorem endConnect_opened (answered : s.answer 0 = none) (endpoint : Nat) :
    s.beginConnect.2.endConnect endpoint s.beginConnect.1 = (.ok s.issued,s.opened endpoint 1) := by
  unfold endConnect
  have failure : s.beginConnect.1.failure = none := answered
  rw [failure]
  simp [beginConnect,opened]

theorem endConnect_refused {e : StoreError} (answered : s.answer 0 = some e) (endpoint : Nat) :
    s.beginConnect.2.endConnect endpoint s.beginConnect.1 = (.error e,s.refused endpoint) := by
  unfold endConnect
  have failure : s.beginConnect.1.failure = some e := answered
  rw [failure]
  rfl

end Site

namespace Pool

variable {s : Site} {endpoint n j : Nat}

/-- Connections are opened in order. -/
theorem openFrom_opens (answered : ∀ j < n, s.answer j = none) (endpoint : Nat) :
    ∃ ms, openFrom endpoint n none s = (.success ((List.range n).map (s.issued + ·)),ms,s.opened endpoint n) := by
  induction n generalizing s endpoint with
  | zero => exact ⟨0,by rw [Site.opened_zero]; rfl⟩
  | succ n ih =>
    have later : ∀ j < n, (s.opened endpoint 1).answer j = none := by
      intro j inside
      rw [Site.answer_opened]
      exact answered (j + 1) (Nat.succ_lt_succ inside)
    obtain ⟨ms,run⟩ := ih later (endpoint + 1)
    have first := Site.endConnect_opened (answered 0 (Nat.succ_pos n)) endpoint
    have ids : (List.range (n + 1)).map (s.issued + ·) = s.issued :: (List.range n).map (s.issued + 1 + ·) := by
      simp [List.range_succ_eq_map,Function.comp_def,Nat.add_comm,Nat.add_left_comm]
    refine ⟨s.beginConnect.1.delayMs + ms,?_⟩
    rw [openFrom]
    simp only [Option.any_none,Bool.false_eq_true,if_false,first,Option.map_none,run,Site.opened_succ,ids]
    rfl

/-- The first endpoint to refuse is the last one that is tried. -/
theorem openFrom_refused {e : StoreError} (inside : j < n) (before : ∀ m < j, s.answer m = none)
    (refused : s.answer j = some e) (endpoint : Nat) :
    ∃ ms, openFrom endpoint n none s = (.failure e,ms,(s.opened endpoint j).refused (endpoint + j)) := by
  induction n generalizing s endpoint j with
  | zero => exact absurd inside (Nat.not_lt_zero j)
  | succ n ih =>
    cases j with
    | zero =>
      refine ⟨s.beginConnect.1.delayMs,?_⟩
      rw [openFrom]
      simp only [Option.any_none,Bool.false_eq_true,if_false,Site.endConnect_refused refused endpoint,Site.opened_zero]
      rfl
    | succ j =>
      have later : ∀ m < j, (s.opened endpoint 1).answer m = none := by
        intro m inside
        rw [Site.answer_opened]
        exact before (m + 1) (Nat.succ_lt_succ inside)
      obtain ⟨ms,run⟩ := ih (Nat.lt_of_succ_lt_succ inside) later ((Site.answer_opened ..).trans refused) (endpoint + 1)
      have first := Site.endConnect_opened (before 0 (Nat.succ_pos j)) endpoint
      refine ⟨s.beginConnect.1.delayMs + ms,?_⟩
      rw [openFrom]
      simp only [Option.any_none,Bool.false_eq_true,if_false,first,Option.map_none,run,Site.opened_succ]
      rw [Nat.add_assoc,Nat.add_comm 1]

/-- A time limit makes no difference to a pool that keeps within it. -/
theorem openFrom_within {left : Option Nat} {ids : List Nat} {ms : Nat} {site : Site}
    (run : openFrom endpoint n left s = (.success ids,ms,site)) :
    openFrom endpoint n none s = (.success ids,ms,site) := by
  induction n generalizing endpoint left s ids ms site with
  | zero =>
    cases run
    rfl
  | succ n ih =>
    rw [openFrom] at run ⊢
    simp only [Option.any_none,Option.map_none,Bool.false_eq_true,if_false] at run ⊢
    split at run
    · cases run
    split at run
    · cases run
    split at run
    · rename_i later
      simp only [ih later]
      exact run
    · cases run
    · cases run

/-! ### Dealing -/

variable {conns clients : Nat} {isPrivate : Bool}

theorem connections_eq (conns clients : Nat) (isPrivate : Bool) : connections conns clients isPrivate =
    if isPrivate then clients else max 1 (min conns (max clients 1)) := by
  unfold connections
  split <;> omega

/-- There is a connection if there is a client. -/
theorem connections_pos (conns : Nat) (some_client : 0 < clients) (isPrivate : Bool) :
    0 < connections conns clients isPrivate := by
  unfold connections
  split <;> omega

/-- The clients of a pool whose connections are numbered from `id` on. -/
def dealt (e id clients : Nat) : List Client := (List.range clients).map fun i => Client.fresh i (i % e) (id + i % e)

theorem getElem?_dealt {e id i : Nat} {c : Client} :
    (dealt e id clients)[i]? = some c ↔ i < clients ∧ c = Client.fresh i (i % e) (id + i % e) := by
  unfold dealt
  rw [List.getElem?_map,Option.map_eq_some_iff]
  constructor
  · rintro ⟨j,here,rfl⟩
    obtain ⟨inside,rfl⟩ := List.getElem?_eq_some_iff.mp here
    simpa using inside
  · rintro ⟨inside,rfl⟩
    exact ⟨i,List.getElem?_range inside,rfl⟩

theorem deal_eq (conns clients : Nat) (isPrivate : Bool) (id : Nat) :
    (deal ((List.range (connections conns clients isPrivate)).map (id + ·)) clients).clients =
      dealt (connections conns clients isPrivate) id clients := by
  refine List.map_congr_left fun i inside => ?_
  have some_client : 0 < clients := Nat.zero_lt_of_lt (List.mem_range.mp inside)
  have place := Nat.mod_lt i (connections_pos conns some_client isPrivate)
  simp [place]

/-- Connections serve equally many clients, or one of them one more. -/
theorem dealt_even {e id j m : Nat} (known : j < e) (known' : m < e) :
    (dealt e id clients).countP (·.connection = id + j) ≤ (dealt e id clients).countP (·.connection = id + m) + 1 := by
  have some_connection : 0 < e := Nat.zero_lt_of_lt known
  have served {j : Nat} (known : j < e) : (dealt e id clients).countP (·.connection = id + j) =
      clients / e + if j % e < clients % e then 1 else 0 := by
    rw [← Nat.count_modEq_card clients some_connection,dealt,List.countP_map,Nat.count]
    refine List.countP_congr fun i _ => ?_
    simp [Client.fresh,Nat.ModEq,Nat.mod_eq_of_lt known]
  rw [served known,served known']
  split <;> split <;> omega

end Pool

/-! ### Isolation -/

/-- What a move leaves in the history of the connections. -/
def ClientNote.events (endpoint connection id : Nat) : Option ClientNote → List ConnectionEvent
  | some .closed => [.closed connection]
  | some .renewed => [.opened endpoint id]
  | some (.refused _) => [.refused endpoint]
  | _ => []

/-- A move closes the connection of its client or none. -/
theorem ClientNote.closed_events {endpoint connection id closed : Nat} {note : Option ClientNote}
    (member : .closed closed ∈ events endpoint connection id note) : closed = connection := by
  unfold events at member
  split at member <;> simp at member
  exact member

namespace ClientMove

variable {asks : ClientCall → Prop} {u : ClientUser} {c c' : Client} {site after : Site} {stage stage' : CallStage}
  {note : Option ClientNote}

theorem enter_endpoint (c : Client) (u : ClientUser) : (c.enter u).endpoint = c.endpoint := by
  unfold Client.enter
  split <;> rfl

theorem spend_endpoint (q : ClientCall) (c : Client) : (q.spend c).endpoint = c.endpoint := by
  cases q <;> rfl

/-- What a move does to a client: it keeps its endpoint, and its connection unless it is given a new one. -/
theorem keeps (move : ClientMove asks u c site stage note c' after stage') :
    c'.endpoint = c.endpoint ∧ site.issued ≤ after.issued ∧
      (c'.connection = c.connection ∨ c'.connection = site.issued ∧ after.issued = site.issued + 1) := by
  cases move with
  | passes => exact ⟨rfl,Nat.le_refl _,.inl rfl⟩
  | asks => exact ⟨enter_endpoint c u,Nat.le_refl _,.inl (SharedClient.enter_connection c u)⟩
  | @takes q => exact ⟨spend_endpoint q c,Nat.le_refl _,.inl (SharedClient.spend_connection q c)⟩
  | closes held due begun =>
    cases begun
    exact ⟨rfl,Nat.le_refl _,.inl rfl⟩
  | @renews q r d _ answer =>
    obtain ⟨rfl,rfl⟩ := Client.endRenewal_ok answer
    exact ⟨spend_endpoint q _,Nat.le_succ _,.inr ⟨SharedClient.spend_connection q _,rfl⟩⟩
  | @fails q r e _ answer =>
    obtain ⟨-,rfl⟩ := Client.endRenewal_error answer
    exact ⟨rfl,Nat.le_refl _,.inl rfl⟩

theorem history (move : ClientMove asks u c site stage note c' after stage') :
    after.history = site.history ++ ClientNote.events c.endpoint c.connection site.issued note := by
  cases move with
  | passes => simp [ClientNote.events]
  | asks => simp [ClientNote.events]
  | takes => simp [ClientNote.events]
  | closes held due begun =>
    cases begun
    simp [ClientNote.events,Site.close]
  | @renews q r d _ answer =>
    obtain ⟨rfl,rfl⟩ := Client.endRenewal_ok answer
    simp [ClientNote.events]
  | @fails q r e _ answer =>
    obtain ⟨-,rfl⟩ := Client.endRenewal_error answer
    simp [ClientNote.events]

end ClientMove

namespace SharedPool

/-- How the clients of a pool with `e` connections keep apart. -/
structure Isolated (w : Usage) (e : Nat) (isPrivate : Bool) (s : SharedPool) : Prop where
  endpoint : ∀ i c, s.clients[i]? = some c → c.endpoint = i % e
  /-- Whatever client `i` has to do with connections, it connects to its own endpoint and closes its own connection. -/
  history : ∀ i u c note c' site stage, s.clients[i]? = some c →
    ClientMove (w.asks i) u c s.site (s.calls i u) note c' site stage →
    site.history = s.site.history ++ ClientNote.events (i % e) c.connection s.site.issued note
  apart : isPrivate = true → ∀ (i j : Nat) (c d : Client), i ≠ j → s.clients[i]? = some c → s.clients[j]? = some d →
    c.connection ≠ d.connection
  /-- So what client `i` closes is not the connection of another client. -/
  spares : isPrivate = true → ∀ i u c note c' site stage, s.clients[i]? = some c →
    ClientMove (w.asks i) u c s.site (s.calls i u) note c' site stage →
    ∀ (j : Nat) (d : Client), i ≠ j → s.clients[j]? = some d → .closed d.connection ∈ site.history →
      .closed d.connection ∈ s.site.history

/-- What every move preserves of where clients connect to. -/
structure Placed (e : Nat) (isPrivate : Bool) (s : SharedPool) : Prop where
  endpoint : ∀ i c, s.clients[i]? = some c → c.endpoint = i % e
  /-- A number that is given out later is nobody's yet. -/
  known : isPrivate = true → ∀ (i : Nat) (c : Client), s.clients[i]? = some c → c.connection < s.site.issued
  apart : isPrivate = true → ∀ (i j : Nat) (c d : Client), i ≠ j → s.clients[i]? = some c → s.clients[j]? = some d →
    c.connection ≠ d.connection

variable {w : Usage} {e : Nat} {isPrivate : Bool} {first s next : SharedPool} {notes new : List (Nat × ClientNote)}

theorem Placed.isolated (placed : Placed e isPrivate s) : Isolated w e isPrivate s := by
  constructor
  case endpoint => exact placed.endpoint
  case history =>
    intro i u c note c' site stage there move
    rw [← placed.endpoint i c there]
    exact move.history
  case apart => exact placed.apart
  case spares =>
    intro own i u c note c' site stage there move j d other there' closed
    rw [move.history,Array.mem_def,Array.toList_appendList,List.mem_append,← Array.mem_def] at closed
    refine closed.resolve_right fun new => ?_
    exact placed.apart own i j c d other there there' (ClientNote.closed_events new).symm

theorem Placed.aside (placed : Placed e isPrivate s) {site : Site} (issued : s.site.issued ≤ site.issued) :
    Placed e isPrivate { s with site } := by
  constructor
  case endpoint => exact placed.endpoint
  case known =>
    intro own i c there
    exact Nat.lt_of_lt_of_le (placed.known own i c there) issued
  case apart => exact placed.apart

theorem Placed.move (placed : Placed e isPrivate s) {asks : ClientCall → Prop} {i : Nat} {u : ClientUser}
    {c c' : Client} {note : Option ClientNote} {site : Site} {stage : CallStage} (there : s.clients[i]? = some c)
    (move : ClientMove asks u c s.site (s.calls i u) note c' site stage) :
    Placed e isPrivate (s.put i u c' site stage) := by
  obtain ⟨endpoint,issued,connection⟩ := move.keeps
  -- the connection of another client is older than any that is opened now
  have away (own : isPrivate = true) {j : Nat} {d : Client} (other : j ≠ i) (here : s.clients[j]? = some d) :
      d.connection ≠ c'.connection := by
    rcases connection with same | ⟨fresh,-⟩
    · rw [same]
      exact placed.apart own j i d c other here there
    · rw [fresh]
      exact Nat.ne_of_lt (placed.known own j d here)
  constructor
  case endpoint =>
    intro j d here
    rcases put_client there here with ⟨rfl,rfl⟩ | ⟨other,old⟩
    · exact endpoint.trans (placed.endpoint j c there)
    · exact placed.endpoint j d old
  case known =>
    intro own j d here
    rcases put_client there here with ⟨rfl,rfl⟩ | ⟨other,old⟩
    · rcases connection with same | ⟨fresh,next⟩
      · rw [same]
        exact Nat.lt_of_lt_of_le (placed.known own j c there) issued
      · exact fresh ▸ next ▸ Nat.lt_succ_self _
    · exact Nat.lt_of_lt_of_le (placed.known own j d old) issued
  case apart =>
    intro own j l d d' other here here'
    rcases put_client there here with ⟨rfl,rfl⟩ | ⟨before,old⟩
    · rcases put_client there here' with ⟨rfl,rfl⟩ | ⟨after,old'⟩
      · exact absurd rfl other
      · exact (away own after old').symm
    · rcases put_client there here' with ⟨rfl,rfl⟩ | ⟨after,old'⟩
      · exact away own before old
      · exact placed.apart own j l d d' other old old'

theorem Trace.placed (fresh : ∀ a b, w.meanwhile a b → a.issued ≤ b.issued) (placed : Placed e isPrivate first)
    (trace : Trace w first notes s) : Placed e isPrivate s := by
  induction trace with
  | start => exact placed
  | step trace step ih =>
    cases step with
    | call there move => exact ih.move there move
    | aside elsewhere => exact ih.aside (fresh _ _ elsewhere)

/-- The clients of a pool that was just connected. -/
theorem placed_dealt {id clients : Nat} {site : Site} {conns : Nat} {calls : Nat → ClientUser → CallStage}
    (issued : site.issued = id + Pool.connections conns clients isPrivate) :
    Placed (Pool.connections conns clients isPrivate) isPrivate
      ⟨Pool.dealt (Pool.connections conns clients isPrivate) id clients,site,calls⟩ := by
  have own_number (own : isPrivate = true) {i : Nat} (inside : i < clients) :
      i % Pool.connections conns clients isPrivate = i := by
    rw [Pool.connections,if_pos own]
    exact Nat.mod_eq_of_lt inside
  constructor
  case endpoint =>
    intro i c there
    obtain ⟨inside,rfl⟩ := Pool.getElem?_dealt.mp there
    rfl
  case known =>
    intro own i c there
    obtain ⟨inside,rfl⟩ := Pool.getElem?_dealt.mp there
    rw [issued]
    exact Nat.add_lt_add_left (Nat.mod_lt i (Pool.connections_pos conns (Nat.zero_lt_of_lt inside) isPrivate)) id
  case apart =>
    intro own i j c d other there there'
    obtain ⟨inside,rfl⟩ := Pool.getElem?_dealt.mp there
    obtain ⟨inside',rfl⟩ := Pool.getElem?_dealt.mp there'
    show id + i % _ ≠ id + j % _
    rw [own_number own inside,own_number own inside']
    exact fun same => other (Nat.add_left_cancel same)

end SharedPool

/-! ### Pools -/

namespace Pool

/-- What comes of connecting a pool at the site `s`. -/
structure Laid (conns clients : Nat) (isPrivate : Bool) (s : Site) : Prop where
  endpoints : connections conns clients isPrivate = if isPrivate then clients else max 1 (min conns (max clients 1))
  connects : (∃ p ms site, connect conns clients isPrivate none s = (.success p,ms,site)) ↔
    ∀ j < connections conns clients isPrivate, s.answer j = none
  refused : ∀ j < connections conns clients isPrivate, ∀ cause, (∀ m < j, s.answer m = none) →
    s.answer j = some cause →
    ∃ ms, connect conns clients isPrivate none s = (.failure cause,ms,(s.opened 0 j).refused j)
  inOrder : ∀ limit p ms site, connect conns clients isPrivate limit s = (.success p,ms,site) →
    site = s.opened 0 (connections conns clients isPrivate)
  inTurn : ∀ limit p ms site, connect conns clients isPrivate limit s = (.success p,ms,site) →
    p.clients = (List.range clients).map fun i =>
      Client.fresh i (i % connections conns clients isPrivate) (s.issued + i % connections conns clients isPrivate)
  even : ∀ limit p ms site, connect conns clients isPrivate limit s = (.success p,ms,site) →
    ∀ j < connections conns clients isPrivate, ∀ m < connections conns clients isPrivate,
      p.clients.countP (·.connection = s.issued + j) ≤ p.clients.countP (·.connection = s.issued + m) + 1
  isolated : ∀ limit p ms site, connect conns clients isPrivate limit s = (.success p,ms,site) →
    ∀ w : Usage, (∀ a b, w.meanwhile a b → a.issued ≤ b.issued) →
      ∀ notes t, SharedPool.Trace w ⟨p.clients,site,fun _ _ => none⟩ notes t →
        SharedPool.Isolated w (connections conns clients isPrivate) isPrivate t

variable {s : Site} {conns clients : Nat} {isPrivate : Bool}

theorem connect_opens (answered : ∀ j < connections conns clients isPrivate, s.answer j = none) :
    ∃ ms, connect conns clients isPrivate none s =
      (.success ⟨dealt (connections conns clients isPrivate) s.issued clients⟩,ms,
        s.opened 0 (connections conns clients isPrivate)) := by
  obtain ⟨ms,run⟩ := openFrom_opens answered 0
  refine ⟨ms,?_⟩
  rw [connect,run,← deal_eq]

theorem connect_refused {j : Nat} {cause : StoreError} (inside : j < connections conns clients isPrivate)
    (before : ∀ m < j, s.answer m = none) (refused : s.answer j = some cause) :
    ∃ ms, connect conns clients isPrivate none s = (.failure cause,ms,(s.opened 0 j).refused j) := by
  obtain ⟨ms,run⟩ := openFrom_refused inside before refused 0
  rw [Nat.zero_add] at run
  refine ⟨ms,?_⟩
  rw [connect,run]

/-- Either all attempts to connect go well, or there is a first one that does not. -/
theorem answers_or (s : Site) (n : Nat) :
    (∀ j < n, s.answer j = none) ∨ ∃ j < n, (∀ m < j, s.answer m = none) ∧ ∃ cause, s.answer j = some cause := by
  induction n with
  | zero => exact .inl fun j inside => absurd inside (Nat.not_lt_zero j)
  | succ n ih =>
    rcases ih with answered | ⟨j,inside,first⟩
    · cases last : s.answer n with
      | none =>
        refine .inl fun j inside => ?_
        rcases Nat.lt_succ_iff_lt_or_eq.mp inside with before | rfl
        · exact answered j before
        · exact last
      | some cause => exact .inr ⟨n,Nat.lt_succ_self n,answered,cause,last⟩
    · exact .inr ⟨j,Nat.lt_succ_of_lt inside,first⟩

theorem connect_within {limit : Option Nat} {p : Pool} {ms : Nat} {site : Site}
    (run : connect conns clients isPrivate limit s = (.success p,ms,site)) :
    connect conns clients isPrivate none s = (.success p,ms,site) := by
  unfold connect at run ⊢
  split at run
  · rename_i opened
    rw [openFrom_within opened]
    exact run
  · cases run
  · cases run

theorem connect_success {limit : Option Nat} {p : Pool} {ms : Nat} {site : Site}
    (run : connect conns clients isPrivate limit s = (.success p,ms,site)) :
    (∀ j < connections conns clients isPrivate, s.answer j = none) ∧
      p.clients = dealt (connections conns clients isPrivate) s.issued clients ∧
      site = s.opened 0 (connections conns clients isPrivate) := by
  have run := connect_within run
  rcases answers_or s (connections conns clients isPrivate) with answered | ⟨j,inside,before,cause,refused⟩
  · obtain ⟨ms',opens⟩ := connect_opens answered
    cases run.symm.trans opens
    exact ⟨answered,rfl,rfl⟩
  · obtain ⟨ms',refused⟩ := connect_refused inside before refused
    cases run.symm.trans refused

/-- A pool opens its connections in order and deals them out evenly, and its clients go on as they were dealt. -/
theorem connect_isolates (conns clients : Nat) (isPrivate : Bool) (s : Site) : Laid conns clients isPrivate s := by
  constructor
  case endpoints => exact connections_eq conns clients isPrivate
  case connects =>
    constructor
    · rintro ⟨p,ms,site,run⟩
      exact (connect_success run).1
    · intro answered
      obtain ⟨ms,run⟩ := connect_opens answered
      exact ⟨_,ms,_,run⟩
  case refused => exact fun j inside cause before refused => connect_refused inside before refused
  case inOrder => exact fun limit p ms site run => (connect_success run).2.2
  case inTurn => exact fun limit p ms site run => (connect_success run).2.1
  case even =>
    intro limit p ms site run j known m known'
    rw [(connect_success run).2.1]
    exact dealt_even known known'
  case isolated =>
    intro limit p ms site run w fresh notes t trace
    obtain ⟨-,clients_eq,rfl⟩ := connect_success run
    rw [clients_eq] at trace
    exact (trace.placed fresh (SharedPool.placed_dealt rfl)).isolated

end Pool

end Keyload
