import DeviceRelay.Tunnel.Basic

/-!
# The transport of a tunnel

A worker installs a transport, and the worker or a call of the owner takes it out again. Both need
the transport lock, and both begin a new generation, so that events of the transport that is taken
out no longer count. Taking it out asks its client to stop; the lock is kept until the client's
task has ended or the wait for it is given up.

* `Tunnel.install`: a new transport, connecting.
* `Tunnel.takeTransport`: the transport to stop, if one was installed.
* `Tunnel.finishStopping`: the end of the wait.
* `Tunnel.networkStep`: one step of a client's task, wherever the client is kept.
-/

namespace DeviceRelay.Tunnel

/-- The configuration of the client for an attempt. The worker dials again itself. -/
def clientConfig (t : Tunnel) (a : Attempt) : ClientConfig where
  uri := a.url
  bearerToken := none
  caCertificate := t.options.caCertificate
  bufferSize := t.options.bufferSize
  pingInterval := a.config.pingInterval
  networkTimeout := t.options.networkTimeout
  autoReconnect := false
  reconnectDelay := a.config.reconnectDelay
  maxAttempts := none

/-- Begins a generation with a new client. A client that refuses the configuration is not
installed; the second component tells. -/
def install (t : Tunnel) (a : Attempt) : Tunnel × Bool :=
  let t := { t with generation := t.generation + 1 }.setState .dialing
  match OutboundClient.new.begin (t.clientConfig a) with
  | .ok client => ({ t with transport := some ⟨t.generation, client⟩ }, true)
  | .error _ => (t, false)

/-- Begins a generation without a transport. Without one to stop, the tunnel is down at once. -/
def takeTransport (t : Tunnel) (now : Duration) : Option Stopping × Tunnel :=
  let t := { t with generation := t.generation + 1 }
  match t.transport with
  | none => (none, t.setState .disconnected)
  | some tr =>
    let (awaited, client) := tr.client.startDisconnect
    (some ⟨{ tr with client := client }, awaited, now⟩, { t with transport := none })

/-- Whether the client's task has ended. -/
def Stopping.isOver (s : Stopping) : Bool := !(s.awaited.any s.transport.client.isRunning)

/-- Whether the wait for the client's task is given up, and the task aborted. -/
def Stopping.isOverdue (s : Stopping) (now : Duration) : Bool :=
  s.since.add OutboundClient.stopWait ≤ now

/-- The wait is over: the client is dropped, and the tunnel is down. -/
def finishStopping (t : Tunnel) : Tunnel := t.setState .disconnected

/-! ## Clients -/

/-- The transports whose clients may still run. -/
def transports (t : Tunnel) : List Transport :=
  let ofWorker :=
    match t.worker with
    | some ⟨.stopping _ _ s, _, _⟩ => [s.transport]
    | _ => []
  let ofControl :=
    match t.control with
    | some ⟨_, .stopping s⟩ => [s.transport]
    | _ => []
  t.transport.toList ++ ofWorker ++ ofControl ++ t.abandoned

/-- Puts a transport in the place of the one of the same generation. -/
def putTransport (t : Tunnel) (tr : Transport) : Tunnel :=
  let put (old : Transport) : Transport := if old.generation = tr.generation then tr else old
  { t with
    transport := t.transport.map put
    worker := t.worker.map fun w =>
      match w.phase with
      | .stopping a held s =>
        { w with phase := .stopping a held { s with transport := put s.transport } }
      | _ => w
    control := t.control.map fun c =>
      match c.phase with
      | .stopping s => { c with phase := .stopping { s with transport := put s.transport } }
      | _ => c
    abandoned := t.abandoned.map put }

/-- One step of the client of a generation, and what its events do to the tunnel. -/
def networkStep (t : Tunnel) (generation task : Nat) (now : Duration)
    (s : OutboundClient.NetworkStep) : Option (List Frame × Tunnel) := do
  let tr ← t.transports.find? fun tr => tr.generation = generation
  let (client, events) ← tr.client.taskStep task now s
  some ((t.putTransport { tr with client := client }).onClientEvents generation now events)

end DeviceRelay.Tunnel
