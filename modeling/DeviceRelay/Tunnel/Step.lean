import DeviceRelay.Tunnel.Send

/-!
# Steps of a tunnel

Every interleaving of the owner's calls, the worker, the network and sends is a list of events;
`Tunnel.step` is what one event does. An event that cannot happen in a state has no step.

* `Tunnel.step`: the tunnel after an event, and what the event lets others see.
* `Tunnel.run`: the tunnel after a list of events, with everything that was seen.
-/

namespace DeviceRelay

inductive TunnelEvent where
  | configure (baseUrl deviceId authToken tunnelKey : String)
  | setTiming (autoReconnect : Bool) (reconnectDelay pingInterval : Duration)
  | setEnabled (on : Bool)
  /-- A later step of the owner's call. -/
  | control (s : Tunnel.ControlStep)
  | worker (s : Tunnel.WorkerStep)
  /-- A step of a task of the client of a generation. -/
  | network (generation task : Nat) (s : OutboundClient.NetworkStep)
  | send (ticket : Nat) (f : Frame)
  /-- A later step of a send. -/
  | sending (ticket : Nat) (s : Tunnel.SendStep)
  deriving DecidableEq, Repr

/-- What an event lets others see. -/
inductive TunnelEffect where
  /-- Whether a call changed the configuration. -/
  | configured (changed : Bool)
  /-- The result of a send. -/
  | sent (ticket : Nat) (result : Except TunnelError Unit)
  /-- A frame that is handed on. -/
  | delivered (f : Frame)

namespace Tunnel

/-- The tunnel after an event, and what the event lets others see. -/
def step (t : Tunnel) (now : Duration) : TunnelEvent → Option (Tunnel × List TunnelEffect)
  | .configure baseUrl deviceId authToken tunnelKey => do
    let (changed, t) ← t.configure baseUrl deviceId authToken tunnelKey now
    some (t, [.configured changed])
  | .setTiming autoReconnect reconnectDelay pingInterval =>
    some (t.setTiming autoReconnect reconnectDelay pingInterval, [])
  | .setEnabled on => (t.setEnabled on now).map fun t => (t, [])
  | .control s => (t.controlStep now s).map fun t => (t, [])
  | .worker s => (t.workerStep now s).map fun t => (t, [])
  | .network generation task s => do
    let (frames, t) ← t.networkStep generation task now s
    some (t, frames.map .delivered)
  | .send ticket f =>
    if t.sends.any fun s => s.ticket = ticket then none
    else
      match t.startSend ticket f now with
      | .ok t => some (t, [])
      | .error e => some (t, [.sent ticket (.error e)])
  | .sending ticket s => do
    let (result, t) ← t.sendStep ticket now s
    some (t, result.toList.map (.sent ticket))

/-- The tunnel after a list of events, each at an instant, with everything that was seen. -/
def run (t : Tunnel) : List (Duration × TunnelEvent) → Option (Tunnel × List TunnelEffect)
  | [] => some (t, [])
  | (now, e) :: events => do
    let (t, seen) ← t.step now e
    let (t, more) ← t.run events
    some (t, seen ++ more)

end Tunnel

end DeviceRelay
