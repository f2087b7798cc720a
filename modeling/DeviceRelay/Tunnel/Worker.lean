import DeviceRelay.Tunnel.Transport

/-!
# The worker of a tunnel

The worker of an enabled tunnel dials, holds the connection until it is lost, takes the transport
out and waits before it dials again. It passes the dial gate before it installs a transport, and
keeps the permit until the connection is up or has taken two seconds. It ends when it is asked to
stop, when the tunnel is disabled, and after one attempt where reconnecting is turned off.

* `Tunnel.workerStep`: one step of the worker, none where it cannot happen now.
* `WorkerPhase.wantsPermit`: whether the worker waits for a permit or holds one.
-/

namespace DeviceRelay

/-- Whether the worker waits for a permit of the dial gate or holds one. -/
def WorkerPhase.wantsPermit : WorkerPhase → Bool
  | .queueing _ => true
  | .installing _ permit => permit
  | .connecting _ permit _ => permit
  | _ => false

namespace Tunnel

/-- How long an incomplete configuration is left alone. -/
def incompleteRetry : Duration := .ofSeconds 2

/-- How long a dial keeps its permit. -/
def dialHold : Duration := .ofSeconds 2

/-- How long a dial may take. -/
def connectWait : Duration := .ofSeconds 15

/-- How often a held connection is looked at. -/
def pollPeriod : Duration := .ofMillis 250

/-- What the worker does next, or what ends its wait. -/
inductive WorkerStep where
  /-- Looks at the configuration. -/
  | look
  /-- Notices that it shall stop. -/
  | stopped
  /-- A span of waiting is over. -/
  | woken
  /-- The dial gate gives a permit, or the wait for one is given up. -/
  | passed (permit : Bool)
  /-- Gets the transport lock. -/
  | locked
  /-- Sees that the transport is connected. -/
  | sawConnected
  /-- Gives the permit back after the hold. -/
  | releasedPermit
  /-- The client's task has ended. -/
  | joined
  /-- The wait for the client's task is given up. -/
  | gaveUp
  deriving DecidableEq, Repr

/-- The worker at the head of its loop: it ends, waits for a complete configuration, or goes to the
gate with a snapshot. The delays start over when the configured delay has changed. -/
def look (t : Tunnel) (w : Worker) (now : Duration) : Worker :=
  if w.stopRequested || !t.enabled then { w with phase := .finished }
  else
    let config := t.config
    let w :=
      if w.backoff.policy.base ≠ config.reconnectDelay then
        { w with backoff := .new (.tunnel config.reconnectDelay) }
      else w
    let pause : Worker := { w with phase := .pausing (now.add incompleteRetry) }
    if !config.isReady then pause
    else
      match dialUrl config with
      | .ok url => { w with phase := .queueing ⟨config, url⟩ }
      | .error _ => pause

/-- The worker after its attempt, with the transport taken out: it ends, or rests. -/
def afterAttempt (w : Worker) (a : Attempt) (now held : Duration) : Worker :=
  if w.stopRequested || !a.config.autoReconnect then { w with phase := .finished }
  else
    let (delay, backoff) := w.backoff.onSessionEnd held
    { w with
      backoff := backoff
      phase := .resting a now (delay.getD backoff.policy.ceiling) }

/-- The worker takes the transport out, and waits for its client if there is one. -/
def tear (t : Tunnel) (w : Worker) (a : Attempt) (now held : Duration) : Tunnel :=
  match t.takeTransport now with
  | (some s, t) => { t with worker := some { w with phase := .stopping a held s } }
  | (none, t) => { t with worker := some (afterAttempt w a now held) }

/-- The worker whose wait a request to stop ends. Waiting for a lock or for a client goes on. -/
def noticeStop (w : Worker) (now : Duration) : Option Worker :=
  match w.phase with
  | .pausing _ | .resting _ _ _ => some { w with phase := .finished }
  | .queueing a | .connecting a _ _ => some { w with phase := .tearing a .zero }
  | .holding a since _ => some { w with phase := .tearing a (now.sub since) }
  | .starting | .installing _ _ | .tearing _ _ | .stopping _ _ _ | .finished => none

/-- The worker whose span of waiting is over. A connection that was lost is noticed when the worker
looks for it. -/
def wake (t : Tunnel) (w : Worker) (now : Duration) : Option Worker :=
  match w.phase with
  | .pausing wakeAt => if wakeAt ≤ now then some { w with phase := .starting } else none
  | .resting _ since delay =>
    if since.add delay ≤ now then some { w with phase := .starting } else none
  | .connecting a _ since =>
    if since.add connectWait ≤ now then some { w with phase := .tearing a .zero } else none
  | .holding a since pollAt =>
    if now < pollAt then none
    else if t.isConnected then some { w with phase := .holding a since (now.add pollPeriod) }
    else some { w with phase := .tearing a (now.sub since) }
  | _ => none

/-- One step of the worker, none where it cannot happen now. -/
def workerStep (t : Tunnel) (now : Duration) (s : WorkerStep) : Option Tunnel := do
  let w ← t.worker
  let put (w : Worker) : Tunnel := { t with worker := some w }
  match s, w.phase with
  | .look, .starting => some (put (look t w now))
  | .stopped, _ => if w.stopRequested then (noticeStop w now).map put else none
  | .woken, _ => (wake t w now).map put
  | .passed permit, .queueing a => some (put { w with phase := .installing a permit })
  | .locked, .installing a permit =>
    if t.isLocked then none
    else
      let (t, installed) := t.install a
      let phase := if installed then .connecting a permit now else .tearing a .zero
      some { t with worker := some { w with phase := phase } }
  | .locked, .tearing a held => if t.isLocked then none else some (t.tear w a now held)
  | .sawConnected, .connecting a _ _ =>
    if t.isConnected then some (put { w with phase := .holding a now now }) else none
  | .releasedPermit, .connecting a true since =>
    if since.add dialHold ≤ now then some (put { w with phase := .connecting a false since })
    else none
  | .joined, .stopping a held s =>
    if Stopping.isOver s then
      some { t.finishStopping with worker := some (afterAttempt w a now held) }
    else none
  | .gaveUp, .stopping a held s =>
    if Stopping.isOverdue s now then
      some { t.finishStopping with worker := some (afterAttempt w a now held) }
    else none
  | _, _ => none

end Tunnel

end DeviceRelay
