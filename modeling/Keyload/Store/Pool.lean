import Keyload.Fault
import Keyload.Store.Client

/-!
# Client pools

The clients of a run and their connections. Clients share a few connections in turn, or have one each
where they are to renew it, so that a renewal never closes a connection under another client.
-/
namespace Keyload

/-- How an attempt that may take time ends. -/
inductive Attempt (α : Type) where
  | success (a : α)
  | failure (e : StoreError)
  /-- No answer within the time allowed. -/
  | unanswered
  deriving DecidableEq, Repr

/-- The clients of a pool, in order. -/
structure Pool where
  clients : List Client
  deriving DecidableEq, Repr

namespace Pool

/-- The number of connections that clients share, or have for themselves. -/
def connections (conns clients : Nat) (isPrivate : Bool) : Nat :=
  if isPrivate then clients else min (max conns 1) (max clients 1)

/-- Clients over connections, dealt out in turn. -/
def deal (connections : List Nat) (clients : Nat) : Pool :=
  ⟨(List.range clients).map fun i =>
    let endpoint := i % connections.length
    Client.fresh i endpoint (connections[endpoint]?.getD 0)⟩

/-- Open `n` connections from `endpoint` on, one after the other, within the time that is left. Also the
time that it took. -/
def openFrom (endpoint : Nat) : Nat → Option Nat → Site → Attempt (List Nat) × Nat × Site
  | 0, _, s => (.success [], 0, s)
  | n + 1, left, s =>
    let (r, s) := s.beginConnect
    if left.any (· < r.delayMs) then (.unanswered, left.getD 0, s)
    else
      match s.endConnect endpoint r with
      | (.error e, s) => (.failure e, r.delayMs, s)
      | (.ok id, s) =>
        match openFrom (endpoint + 1) n (left.map (· - r.delayMs)) s with
        | (.success ids, ms, s) => (.success (id :: ids), r.delayMs + ms, s)
        | (.failure e, ms, s) => (.failure e, r.delayMs + ms, s)
        | (.unanswered, ms, s) => (.unanswered, r.delayMs + ms, s)

/-- Connect a pool within a time limit, if there is one. Also the time that it took. -/
def connect (conns clients : Nat) (isPrivate : Bool) (limit : Option Nat) (s : Site) :
    Attempt Pool × Nat × Site :=
  match openFrom 0 (connections conns clients isPrivate) limit s with
  | (.success ids, ms, s) => (.success (deal ids clients), ms, s)
  | (.failure e, ms, s) => (.failure e, ms, s)
  | (.unanswered, ms, s) => (.unanswered, ms, s)

/-- The number of clients. -/
def size (p : Pool) : Nat := p.clients.length

/-- The clients from one place to before another. -/
def subset (p : Pool) (first stop : Nat) : Except Fault Pool :=
  if first ≤ stop ∧ stop ≤ p.size then .ok ⟨(p.clients.drop first).take (stop - first)⟩
  else .error .outOfRange

/-- Put a client in its place. -/
def set (p : Pool) (i : Nat) (c : Client) : Pool := ⟨p.clients.set i c⟩

/-- A connection outside the pool. -/
def dedicated (s : Site) : Except StoreError Nat × Site :=
  let (r, s) := s.beginConnect
  s.endConnect 0 r

/-- Close the connection of every client. -/
def close (p : Pool) (s : Site) : Site := p.clients.foldl (fun s c => s.close c.connection) s

end Pool

end Keyload
