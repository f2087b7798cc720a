import DeviceRelay.Camera.Replay
import DeviceRelay.Device.Host
import DeviceRelay.Relays.Cloud
import DeviceRelay.Startup.Basic

/-!
# The running device

A running device is a host with its relays. Accepted configuration updates wait in a queue; the
device takes them one at a time, merges each into its document, and applies the cloud settings again
where the update concerns them.

* `Service.start`: the device right after its start.
* `Service.replay?`: the camera frames that it replays.
* `Service.applyNext?`: the device after the next update.
* `Service.exchange`: what a text of a control client does.
-/

namespace DeviceRelay

structure Service where
  host : HostDevice
  relays : DeviceRelays
  server : LocalServer
  /-- The id that stands in where the document names none. -/
  deviceId : String
  deriving DecidableEq, Repr

namespace Service

/-- How many updates wait to be applied. -/
def updateDepth : Nat := 8

/-- The cloud settings that the document asks for. -/
def cloudSettings (s : Service) : CloudSettings := .ofConfig s.host.config s.deviceId

/-- The settings of the relays. -/
def relaySettings (u : Startup) : RelaySettings where
  token := u.authToken
  tunnelAll := u.tunnelAll
  tunnelOptions := { TunnelOptions.usual with caCertificate := u.certificate }
  rssiPeriod := rssiPeriod

/-- The device right after its start, with the cloud settings of its document applied. An address
that stands for all addresses of the host is shown as `localAddress`. -/
def start (u : Startup) (localAddress : String) (network : Network) (now : Duration) :
    Except EndpointError Service := do
  let shown := if u.listenAddress.isUnspecified then localAddress else u.listenAddress.hostText
  let host := { HostDevice.new u.hostname shown u.document true now with
    camera := u.cameraFrames.isSome }
  let state : ControlState := ⟨.ofDepth updateDepth, .new claimLifetime⟩
  let (relays, server) ← DeviceRelays.start .empty (relaySettings u) state now
  let settings := CloudSettings.ofConfig u.document u.deviceId
  return ⟨host, relays.applyCloud network settings now, server, u.deviceId⟩

/-- The replay of camera frames that a device starts if it is given a directory for it. `list` is
what a directory holds, none where it cannot be read. -/
def replay? (u : Startup) (list : String → Option (List FileName)) : Option Replay :=
  u.cameraFrames.map fun directory => .spawn (list directory) u.cameraFps

/-- The device after an update. -/
def applyUpdate (s : Service) (network : Network) (now : Duration) (update : Json) : Service :=
  let s := { s with host := s.host.applyUpdate update }
  if touchesCloud update then
    { s with relays := s.relays.applyCloud network s.cloudSettings now }
  else s

/-- The device after the next update that waits, none where no update waits. -/
def applyNext? (s : Service) (network : Network) (now : Duration) : Option Service :=
  match s.relays.state.updates.pop with
  | (.item update, updates) =>
    let relays := { s.relays with state := { s.relays.state with updates := updates } }
    some ({ s with relays := relays }.applyUpdate network now update)
  | (.empty, _) | (.disconnected, _) => none

/-- Applies at most `fuel` updates. -/
def applyAll (network : Network) (now : Duration) : (fuel : Nat) → Service → Service
  | 0, s => s
  | fuel + 1, s =>
    match s.applyNext? network now with
    | none => s
    | some s => applyAll network now fuel s

/-! ## Control clients -/

/-- A new control client. -/
def accept (s : Service) : ClientId × Service :=
  let (id, control) := s.relays.control.accept (.new 64)
  (id, { s with relays := { s.relays with control := control } })

/-- Everything that waits for a control client. -/
def take (s : Service) (id : ClientId) : List Message × Service :=
  let waiting := ((s.relays.control.connection? id).map fun c => c.outbox.waiting).getD []
  (waiting, { s with relays := { s.relays with control := s.relays.control.drain id } })

/-- Handles the events that wait, and takes what then waits for a client. -/
def settle (s : Service) (id : ClientId) (log : Option LogSource) (now : Duration) (seed : Nat) :
    List Message × Service :=
  let relays := s.relays.handleAll (s.host.facts now) log now 1000 seed
  let (messages, s) := { s with relays := relays }.take id
  (messages, s.applyAll .unreachable now updateDepth)

/-- A text of a control client, and the messages that it then receives. -/
def exchange (s : Service) (id : ClientId) (text : String) (log : Option LogSource)
    (now : Duration) (seed : Nat) : List Message × Service :=
  let control := s.relays.control.deliver id (.text text)
  { s with relays := { s.relays with control := control } }.settle id log now seed

end Service

end DeviceRelay
