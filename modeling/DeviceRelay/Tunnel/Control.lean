import DeviceRelay.Tunnel.Worker

/-!
# Calls of a tunnel's owner

The owner configures a tunnel, sets its timing, and enables or disables it. Configuring and
enabling exclude each other by the control lock. A call that stops the worker waits for it, aborts
it where it does not end in time, then takes the transport out; only then does the call return, or
start the next worker.

* `Tunnel.configure`, `Tunnel.setEnabled`: the first step of a call, none while another is under
  way.
* `Tunnel.controlStep`: a later step of the call under way.
-/

namespace DeviceRelay.Tunnel

/-- How long a call waits for the worker to end. -/
def workerStopWait : Duration := .ofSeconds 3

/-- Starts a worker, unless one runs. -/
def spawnWorker (t : Tunnel) : Tunnel :=
  if t.worker.any fun w => w.phase ≠ .finished then t
  else { t with worker := some ⟨.starting, .new (.tunnel t.config.reconnectDelay), false⟩ }

/-- Begins to stop the worker and the transport. -/
def startStopping (t : Tunnel) (restarts : Bool) (now : Duration) : Tunnel :=
  match t.worker with
  | some w =>
    { t with
      worker := some { w with stopRequested := true }
      control := some ⟨restarts, .joining now⟩ }
  | none => { t with control := some ⟨restarts, .tearing⟩ }

/-- Stores four texts to dial with: whether one of them differs from what is stored, and the tunnel
after it. An enabled tunnel starts over with them. -/
def configure (t : Tunnel) (baseUrl deviceId authToken tunnelKey : String) (now : Duration) :
    Option (Bool × Tunnel) :=
  if t.control.isSome then none
  else
    let next : TunnelConfig :=
      { t.config with
        baseUrl := baseUrl
        deviceId := deviceId
        authToken := authToken
        tunnelKey := tunnelKey }
    if t.config.dialDiffers next then
      let t := { t with config := next }
      some (true, if t.enabled then t.startStopping true now else t)
    else some (false, t)

/-- Sets what the next dial waits and pings by. -/
def setTiming (t : Tunnel) (autoReconnect : Bool) (reconnectDelay pingInterval : Duration) :
    Tunnel :=
  { t with config := { t.config with
      autoReconnect := autoReconnect
      reconnectDelay := reconnectDelay
      pingInterval := pingInterval } }

/-- Enables or disables the tunnel. -/
def setEnabled (t : Tunnel) (on : Bool) (now : Duration) : Option Tunnel :=
  if t.control.isSome then none
  else
    let t := { t with enabled := on }
    some (if on then t.spawnWorker else t.startStopping false now)

/-- The call is over: it returns, or starts a worker. -/
def finishControl (t : Tunnel) (c : ControlTask) : Tunnel :=
  let t := { t with control := none }
  if c.restarts then t.spawnWorker else t

/-- The worker is aborted wherever it waits. What it held is given back, and a client that it was
stopping runs on by itself. -/
def abortWorker (t : Tunnel) : Tunnel :=
  let dropped :=
    match t.worker with
    | some ⟨.stopping _ _ s, _, _⟩ => [s.transport]
    | _ => []
  { t with worker := none, abandoned := t.abandoned ++ dropped }

/-- The call under way ends at once: worker and transport are given up if they have not stopped. The
steps of `controlStep` take a call to the same end with time passing: there it waits for the worker
and for the client's task, each up to its limit, and meanwhile sends in line run into their own
limits, and clients that were abandoned run on until their tasks end. Here these are gone with the
call. -/
def concludeCall (t : Tunnel) : Tunnel :=
  match t.control with
  | none => t
  | some c =>
    let t := t.abortWorker
    let t := { t with
      transport := none, sends := [], abandoned := [], generation := t.generation + 1 }
    (t.setState .disconnected).finishControl c

inductive ControlStep where
  /-- The worker has ended. -/
  | joined
  /-- The worker has not ended in time. -/
  | aborted
  /-- Gets the transport lock. -/
  | locked
  /-- The client's task has ended. -/
  | clientJoined
  /-- The wait for the client's task is given up. -/
  | gaveUp
  deriving DecidableEq, Repr

/-- A later step of the call under way, none where it cannot happen now. -/
def controlStep (t : Tunnel) (now : Duration) (s : ControlStep) : Option Tunnel := do
  let c ← t.control
  let tearing (t : Tunnel) : Tunnel := { t with control := some { c with phase := .tearing } }
  match s, c.phase with
  | .joined, .joining _ =>
    if t.worker.any fun w => w.phase ≠ .finished then none
    else some (tearing { t with worker := none })
  | .aborted, .joining since =>
    if since.add workerStopWait ≤ now then some (tearing t.abortWorker) else none
  | .locked, .tearing =>
    if t.isLocked then none
    else
      match t.takeTransport now with
      | (some s, t) => some { t with control := some { c with phase := .stopping s } }
      | (none, t) => some (t.finishControl c)
  | .clientJoined, .stopping s =>
    if Stopping.isOver s then some (t.finishStopping.finishControl c) else none
  | .gaveUp, .stopping s =>
    if Stopping.isOverdue s now then some (t.finishStopping.finishControl c) else none
  | _, _ => none

end DeviceRelay.Tunnel
