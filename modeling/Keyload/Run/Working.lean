import Keyload.Run.State

/-!
# How workers go on

A worker takes an operation, makes sure of its client's connection and carries the operation out. An
operation that is not answered in time counts as an error and leaves no trace in the store. Being stopped
is looked at only between operations; a client that cannot renew its connection stops the whole run.
-/
namespace Keyload.Run

variable {σ : Type}

/-- Change where a worker stands. -/
def placeWorker (r : Run σ) (d w : Nat) (stage : WorkerStage) : Run σ :=
  r.onDispatcher d (·.place w stage)

/-- A worker ends. -/
def retire (r : Run σ) (d w : Nat) (failure : Option RunError) : Run σ :=
  r.onDispatcher d (·.retire w failure)

/-- A worker gets in line for its next operation. -/
def rejoin (r : Run σ) (d w : Nat) : Run σ := r.onDispatcher d (·.rejoin w)

/-- A worker goes on after something was recorded; a fault ends it. -/
def recorded (r : Run σ) (d w : Nat) (x : Except Fault Recorder) (next : Run σ → Run σ) : Run σ :=
  match x with
  | .ok recorder => next { r with recorder }
  | .error _ => r.retire d w (some .taskFailed)

/-- A worker begins its operation. -/
def beginOperation (r : Run σ) (d w : Nat) (c : Client) (op : Operation) : Run σ :=
  let (reaction, site) := r.site.beginOperation r.nowMs d c.connection op
  { r with site }.placeWorker d w (.executing op r.nowMs (r.nowMs + reaction.delayMs) reaction)

/-- A worker makes sure of its client's connection; none while others have the client. -/
def claim (r : Run σ) (d w i : Nat) (every : Nat) (op : Operation) : Option (Run σ) :=
  match r.clients[i]? with
  | none => none
  | some c =>
    let user : ClientUser := ⟨d, w⟩
    if every = 0 then some (r.beginOperation d w c op)
    else if !(c.enter user).isHeldBy user then
      if c.line.contains user then none else some (r.setClient i (c.enter user))
    else if c.isDue every then
      let (reaction, site) := c.beginRenewal r.site
      let r := { r with site }.setClient i (c.enter user)
      some (r.placeWorker d w (.renewing op r.nowMs (r.nowMs + reaction.delayMs) reaction))
    else
      let c := c.spend.leave user
      some ((r.setClient i c).beginOperation d w c op)

/-- A worker ends the renewal of its client's connection. -/
def endRenewal (r : Run σ) (d w i : Nat) (op : Operation) (sinceMs : Nat) (reaction : Reaction) :
    Option (Run σ) :=
  match r.clients[i]? with
  | none => none
  | some c =>
    let user : ClientUser := ⟨d, w⟩
    match c.endRenewal r.site reaction with
    | (.ok c, site) =>
      let c := c.spend.leave user
      let nanos := (r.nowMs - sinceMs) * Ticker.milli
      some (({ r with site }.setClient i c).recorded d w (r.recorder.reconnect nanos)
        (·.beginOperation d w c op))
    | (.error e, site) =>
      let r := { r with site, stopped := true }.setClient i (c.leave user)
      some (r.retire d w (some (.reconnect c.index e)))

/-- A worker takes note of how its operation ended. -/
def endOperation (r : Run σ) (d w : Nat) (fullRead : Bool) (op : Operation) (sinceMs : Nat)
    (result : Except StoreError Answer) : Run σ :=
  let recorder :=
    match result with
    | .ok a => r.recorder.answer a ((r.nowMs - sinceMs) * Ticker.milli) fullRead
    | .error _ => .ok (r.recorder.error op.kind.name)
  r.recorded d w recorder (·.rejoin d w)

/-- The next step of a worker, none while it has to wait. -/
def moveWorker (r : Run σ) (d w : Nat) : Option (Run σ) := do
  let dispatcher ← r.dispatchers[d]?
  let worker ← dispatcher.workers[w]?
  let options := dispatcher.options
  match worker.stage with
  | .ended _ => none
  | .waiting =>
    if r.stopped then some (r.retire d w none)
    else
      match dispatcher.take w with
      | some taken => some (r.onDispatcher d fun _ => taken)
      | none =>
        if dispatcher.queue.isEmpty && !r.hasSenders d then some (r.retire d w none) else none
  | .claiming op => r.claim d w worker.client options.reconnectEvery op
  | .renewing op sinceMs untilMs reaction =>
    if untilMs ≤ r.nowMs then r.endRenewal d w worker.client op sinceMs reaction else none
  | .executing op sinceMs untilMs reaction =>
    if untilMs ≤ r.nowMs then
      let (result, site) := r.site.endOperation op reaction
      some ({ r with site }.endOperation d w options.fullRead op sinceMs result)
    else
      match options.timeoutMs with
      | none => none
      | some limit =>
        if sinceMs + limit ≤ r.nowMs then
          some (r.endOperation d w options.fullRead op sinceMs (.error (.timeout limit)))
        else none

/-- When a worker goes on by itself. -/
def workerTimer? (options : DispatchOptions) (w : Worker) : Option Nat :=
  match w.stage with
  | .renewing _ _ untilMs _ => some untilMs
  | .executing _ sinceMs untilMs _ =>
    some (options.timeoutMs.elim untilMs fun limit => min untilMs (sinceMs + limit))
  | _ => none

end Keyload.Run
