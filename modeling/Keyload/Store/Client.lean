import Keyload.Store.Site

/-!
# Clients

A logical client holds one connection and counts the operations it was used for. After a number of
uses it is given a new connection before the next one. Several users share a client, so they stand in
line for it while a new connection is due.
-/
namespace Keyload

/-- A user of a client: a worker of a dispatcher. -/
structure ClientUser where
  dispatcher : Nat
  worker : Nat
  deriving DecidableEq, Repr

/-- A logical client. -/
structure Client where
  index : Nat
  /-- The endpoint that its connections go to. -/
  endpoint : Nat
  /-- The number of its connection. -/
  connection : Nat
  /-- Uses since the last new connection. -/
  uses : Nat
  /-- The users in line; the first one has the client to itself. -/
  line : List ClientUser
  deriving DecidableEq, Repr

namespace Client

/-- A client that was not used yet. -/
def fresh (index endpoint connection : Nat) : Client := ⟨index, endpoint, connection, 0, []⟩

/-- Whether a new connection is due before the next use. -/
def isDue (c : Client) (every : Nat) : Bool := every ≤ c.uses

/-- Count a use. -/
def spend (c : Client) : Client := { c with uses := c.uses + 1 }

/-- Hold a new connection, of which nothing is used yet. -/
def renew (c : Client) (connection : Nat) : Client := { c with connection, uses := 0 }

/-- Get in line, unless a place is taken already. -/
def enter (c : Client) (u : ClientUser) : Client :=
  if c.line.contains u then c else { c with line := c.line ++ [u] }

/-- Whether a user has the client to itself. -/
def isHeldBy (c : Client) (u : ClientUser) : Bool := c.line.head? == some u

/-- Leave the line. -/
def leave (c : Client) (u : ClientUser) : Client := { c with line := c.line.erase u }

/-- Release the connection and begin to open another one. The old one stays in use until the new one
is there. -/
def beginRenewal (c : Client) (s : Site) : Reaction × Site := (s.close c.connection).beginConnect

/-- End the renewal: the client holds the new connection, or still the old one. -/
def endRenewal (c : Client) (s : Site) (r : Reaction) : Except StoreError Client × Site :=
  match s.endConnect c.endpoint r with
  | (.ok id, s) => (.ok (c.renew id), s)
  | (.error e, s) => (.error e, s)

/-- Renew the connection without anyone else in line. -/
def reconnect (c : Client) (s : Site) : Except StoreError Client × Site :=
  let (r, s) := c.beginRenewal s
  c.endRenewal s r

/-- Use the client without anyone else in line, with a new connection if one is due; also whether it
was. A use that needs no counting is not counted. -/
def acquire (c : Client) (every : Nat) (s : Site) : Except StoreError (Bool × Client) × Site :=
  if every = 0 then (.ok (false, c), s)
  else if c.isDue every then
    match c.reconnect s with
    | (.ok c, s) => (.ok (true, c.spend), s)
    | (.error e, s) => (.error e, s)
  else (.ok (false, c.spend), s)

end Client

end Keyload
