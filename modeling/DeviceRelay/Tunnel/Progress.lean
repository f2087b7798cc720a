import DeviceRelay.Outbound.Progress
import DeviceRelay.Tunnel.Fleet

/-!
# How tunnels get on by themselves

Left alone, tunnels take the events that are due, tunnel by tunnel, against a network that answers
every dial. Time passes from one due instant to the next.

* `Fleet.dueEvent?`: the next event that is due at an instant.
* `Fleet.settle`: the tunnels once nothing is due, with what was seen on the way.
* `Fleet.call`: a call of a tunnel's owner from its start to its return.
* `FleetRun.advance`: the tunnels at a later instant, with everything seen so far.
-/

namespace DeviceRelay

namespace Tunnel

/-- The steps of the tasks of a tunnel's clients. -/
def networkEvents (t : Tunnel) (network : Network) (now : Duration) : List TunnelEvent :=
  t.transports.filterMap fun tr =>
    (tr.client.dueStep? network now).map fun (task, s) => .network tr.generation task s

/-- The steps of the owner's call. -/
def controlEvents : List TunnelEvent :=
  [.control .joined, .control .clientJoined, .control .locked, .control .gaveUp,
   .control .aborted]

/-- The steps of the worker. -/
def workerEvents : List TunnelEvent :=
  [.worker .look, .worker .stopped, .worker (.passed true), .worker (.passed false),
   .worker .locked, .worker .sawConnected, .worker .releasedPermit, .worker .joined,
   .worker .gaveUp, .worker .woken]

/-- The steps of sends; a text in line tries the queue only where there is room. -/
def sendEvents (t : Tunnel) : List TunnelEvent :=
  let stuck : Bool := t.transport.any fun tr => tr.client.outbox.any fun q => !q.hasRoom
  t.sends.flatMap fun s =>
    (if stuck then [] else [.sending s.ticket .retried]) ++
      [.sending s.ticket .locked, .sending s.ticket .lockGivenUp, .sending s.ticket .roomGivenUp]

/-- The events that may be due, in the order in which they are tried. -/
def candidates (t : Tunnel) (network : Network) (now : Duration) : List TunnelEvent :=
  t.networkEvents network now ++ t.sendEvents ++ controlEvents ++ workerEvents

/-- The instants at which something becomes due. -/
def alarms (t : Tunnel) : List Duration :=
  let ofWorker : List Duration :=
    match t.worker.map Worker.phase with
    | some (.pausing wakeAt) => [wakeAt]
    | some (.connecting _ _ since) => [since.add dialHold, since.add connectWait]
    | some (.holding _ _ pollAt) => [pollAt]
    | some (.stopping _ _ s) => [s.since.add OutboundClient.stopWait]
    | some (.resting _ since delay) => [since.add delay]
    | _ => []
  let ofControl : List Duration :=
    match t.control.map ControlTask.phase with
    | some (.joining since) => [since.add workerStopWait]
    | some (.stopping s) => [s.since.add OutboundClient.stopWait]
    | _ => []
  let ofSends : List Duration := t.sends.map fun s =>
    match s.phase with
    | .locking giveUpAt | .queueing giveUpAt => giveUpAt
  ofWorker ++ ofControl ++ ofSends ++ t.transports.flatMap fun tr => tr.client.alarms

end Tunnel

namespace Fleet

/-- An effect and the tunnel that it comes from. -/
abbrev Seen := Nat × TunnelEffect

/-- The fleet after the first event that is due. -/
def dueStep? (f : Fleet) (network : Network) (now : Duration) : Option (Fleet × List Seen) :=
  f.tunnels.zipIdx.findSome? fun (t, index) =>
    (t.candidates network now).findSome? fun e =>
      (f.step index now e).map fun (f, seen) => (f, seen.map fun effect => (index, effect))

/-- Takes at most `fuel` events that are due. -/
def settle (network : Network) (now : Duration) : (fuel : Nat) → Fleet → Fleet × List Seen
  | 0, f => (f, [])
  | fuel + 1, f =>
    match f.dueStep? network now with
    | none => (f, [])
    | some (f, seen) =>
      let (f, more) := settle network now fuel f
      (f, seen ++ more)

/-- How many events are taken at one instant. -/
def settleFuel : Nat := 1000

def alarms (f : Fleet) : List Duration :=
  f.gate.line.map Prod.snd ++ f.tunnels.flatMap Tunnel.alarms

/-! ## Calls -/

/-- A call that is still under way ends at this instant: its waits are bounded, and what they waited
for is given up. The time that they take is left out, and with it all that other tasks, sends and
abandoned clients do before they are over. -/
def concludeCall (f : Fleet) (index : Nat) (now : Duration) : Fleet :=
  match f.tunnels[index]? with
  | none => f
  | some t =>
    let after := t.concludeCall
    ⟨syncGate f.gate index t after now, f.tunnels.set index after⟩

/-- Takes at most `fuel` events that are due, while the owner's call of a tunnel is under way. -/
def settleCall (network : Network) (index : Nat) (now : Duration) :
    (fuel : Nat) → Fleet → Fleet × List Seen
  | 0, f => (f, [])
  | fuel + 1, f =>
    if (f.tunnels[index]?).all fun t => t.control.isNone then (f, [])
    else
      match f.dueStep? network now with
      | none => (f, [])
      | some (f, seen) =>
        let (f, more) := settleCall network index now fuel f
        (f, seen ++ more)

/-- A call of the owner of a tunnel, up to its return, as if no time passed until then: what is due
happens, and the waits that are left end as `Tunnel.concludeCall` says. Where a call may take time,
and other tasks get on while it does, it is driven by the steps of `Fleet.step`. -/
def call (f : Fleet) (network : Network) (index : Nat) (now : Duration) (e : TunnelEvent) :
    Fleet × List Seen :=
  match f.step index now e with
  | none => (f, [])
  | some (f, effects) =>
    let (f, seen) := f.settleCall network index now settleFuel
    (f.concludeCall index now, effects.map (fun effect => (index, effect)) ++ seen)

end Fleet

/-- Tunnels at an instant, with what was seen on the way there. -/
structure FleetRun where
  fleet : Fleet
  now : Duration
  seen : List Fleet.Seen

namespace FleetRun

/-- Settles the tunnels whenever something is due, up to `target`. It stops early once they are as
wanted. At most `fuel` instants are visited. -/
def runTo (network : Network) (target : Duration) (wanted : Fleet → Bool) :
    (fuel : Nat) → FleetRun → FleetRun
  | 0, r => r
  | fuel + 1, r =>
    let (f, seen) := r.fleet.settle network r.now Fleet.settleFuel
    let r : FleetRun := ⟨f, r.now, r.seen ++ seen⟩
    if wanted f then r
    else
      match Duration.nextAlarm? f.alarms r.now target with
      | none => { r with now := target }
      | some next => runTo network target wanted fuel { r with now := next }

/-- Lets time pass, or less of it once the tunnels are as wanted. -/
def advance (r : FleetRun) (network : Network) (time : Duration) (wanted : Fleet → Bool) :
    FleetRun :=
  r.runTo network (r.now.add time) wanted 10000

/-- A call of the owner of a tunnel, up to its return. -/
def call (r : FleetRun) (network : Network) (index : Nat) (e : TunnelEvent) : FleetRun :=
  let (f, seen) := r.fleet.call network index r.now e
  { r with fleet := f, seen := r.seen ++ seen }

end FleetRun

end DeviceRelay
