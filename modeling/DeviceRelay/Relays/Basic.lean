import DeviceRelay.Camera.Hub
import DeviceRelay.Control.Protocol
import DeviceRelay.Endpoint.Server
import DeviceRelay.Ticker
import DeviceRelay.Tunnel.Progress

/-!
# The relays of a device

A device has three endpoints: one for control commands, one for camera frames and one for signal
levels. The control endpoint has a tunnel, and the others may have one too; the tunnels share a
gate for one dial at a time.

* `DeviceRelays.start`: registers the endpoints.
* `DeviceRelays.handle`: what an event at an endpoint does.
* `startReply`: a reply to one client, which is told where a reply is too large.
* `ControlRelay.start`: what an event at the control endpoint does before the tunnel is waited for.
* `ControlRelay.handle`: the same, with the send through the tunnel.
* `DeviceRelays.tickRssi`: what a tick of the signal ticker does.
-/

namespace DeviceRelay

def controlPath : String := "/ws/control"

def cameraPath : String := "/ws/camera"

def rssiPath : String := "/ws/rssi"

def controlLimits : EndpointLimits := ⟨8, 2 * 1024, 160 * 1024⟩

/-- Camera clients send nothing. -/
def cameraLimits : EndpointLimits := ⟨4, 0, 200 * 1024⟩

/-- Signal clients send nothing. -/
def rssiLimits : EndpointLimits := ⟨8, 0, 64⟩

/-- The time between two samples of the signal level. -/
def rssiPeriod : Duration := .ofSeconds 1

/-! ## The control relay -/

/-- The switches of an endpoint's clients. -/
def Endpoint.mediaBoard : MediaBoard Endpoint where
  setCamera := fun e id on => e.setTopic id .camera on
  requestSnapshot := fun e id => e.setTopic id .snapshot true
  isSubscribed := fun e id => e.hasTopic id .camera

/-- The reply that stands for one that is too large. -/
def tooLargeReply (reply : Reply) (length limit : Nat) : Reply :=
  Reply.error ((reply.get? "cmd").bind Json.string?) "response_too_large"
    |>.set "size" (.ofNat length)
    |>.set "max" (.ofNat limit)

/-- Begins to send a reply to one client; one that is too large for the endpoint is replaced by a
small one. The frame that is left to the tunnel, if any, is the last thing that happens. -/
def startReply (e : Endpoint) (id : ClientId) (reply : Reply) : Option Frame × Endpoint :=
  match e.startSendTo id (.text reply.render) with
  | (.over (.error (.payloadTooLarge length limit)), e) =>
    let (s, e) := e.startSendTo id (.text (tooLargeReply reply length limit).render)
    (s.left?, e)
  | (s, e) => (s.left?, e)

namespace ControlRelay

/-- What a text of a client does before the tunnel is waited for, with the frame that is left to the
tunnel. -/
def startText (ctx : ControlContext) (client : ClientId) (text : String) (e : Endpoint)
    (state : ControlState) : Option Frame × Endpoint × ControlState :=
  let (r, state, e) := ControlProtocol.dispatch Endpoint.mediaBoard ctx client text state e
  match r.route with
  | .requester =>
    let (left, e) := startReply e client r.reply
    (left, e, state)
  | .broadcast =>
    let e := (e.broadcast (.text r.reply.render)).2
    let (left, e) := if client.isTunnel then startReply e client r.reply else (none, e)
    (left, e, state)

/-- What a text of a client does, with nothing else during the waits of the tunnel. -/
def onText (ctx : ControlContext) (client : ClientId) (text : String) (e : Endpoint)
    (state : ControlState) : Endpoint × ControlState :=
  let (left, e, state) := startText ctx client text e state
  (e.finishSend left, state)

/-- What an event does before the tunnel is waited for: a new client is greeted, a text is a
command, and binary frames are ignored. -/
def start (ctx : ControlContext) (event : EndpointEvent) (e : Endpoint) (state : ControlState) :
    Option Frame × Endpoint × ControlState :=
  match event with
  | .connected id =>
    let (s, e) := e.startSendTo id (.text (ControlProtocol.hello ctx.facts).render)
    (s.left?, e, state)
  | .disconnected _ => (none, e, state)
  | .frame id (.text text) => startText ctx id text e state
  | .frame _ (.binary _) => (none, e, state)

/-- What an event does, with nothing else during the waits of the tunnel. -/
def handle (ctx : ControlContext) (event : EndpointEvent) (e : Endpoint) (state : ControlState) :
    Endpoint × ControlState :=
  let (left, e, state) := start ctx event e state
  (e.finishSend left, state)

end ControlRelay

/-- What an event at the camera endpoint does: a new client gets every frame. -/
def CameraRelay.handle (event : EndpointEvent) (e : Endpoint) : Endpoint :=
  match event with
  | .connected id => (e.setTopic id .camera true).2
  | .disconnected _ | .frame _ _ => e

/-! ## All relays -/

structure DeviceRelays where
  control : Endpoint
  camera : Endpoint
  rssi : Endpoint
  gate : DialGate
  ticker : Option Ticker
  state : ControlState
  deriving DecidableEq, Repr

/-- What the relays are started with. -/
structure RelaySettings where
  /-- The token that local clients must show. -/
  token : Option String
  /-- Whether the camera and signal endpoints have tunnels too. -/
  tunnelAll : Bool
  tunnelOptions : TunnelOptions
  rssiPeriod : Duration
  deriving DecidableEq, Repr

namespace DeviceRelays

/-- Registers the three endpoints with a server, with their tunnels, which are disabled. -/
def start (server : LocalServer) (settings : RelaySettings) (state : ControlState)
    (now : Duration) : Except EndpointError (DeviceRelays × LocalServer) := do
  let server ← server.start controlPath controlLimits settings.token
  let server ← server.start cameraPath cameraLimits settings.token
  let server ← server.start rssiPath rssiLimits settings.token
  let tunnel (path : String) : Tunnel := .new path settings.tunnelOptions
  let control := (Endpoint.new controlPath controlLimits settings.token).attachTunnel
    (tunnel controlPath)
  let camera := Endpoint.new cameraPath cameraLimits settings.token
  let rssi := Endpoint.new rssiPath rssiLimits settings.token
  let relays : DeviceRelays :=
    { control := control
      camera :=
        if settings.tunnelAll then
          ((camera.attachTunnel (tunnel cameraPath)).setTopic .tunnel .camera true).2
        else camera
      rssi := if settings.tunnelAll then rssi.attachTunnel (tunnel rssiPath) else rssi
      gate := .serial
      ticker := some (.new settings.rssiPeriod now)
      state := state }
  .ok (relays, server)

def endpoints (r : DeviceRelays) : List Endpoint := [r.control, r.camera, r.rssi]

/-- The tunnels, in the order of the endpoints. -/
def tunnels (r : DeviceRelays) : List Tunnel := r.endpoints.filterMap Endpoint.tunnel

/-- The endpoints that carry camera media. -/
def hub (r : DeviceRelays) : List Endpoint := [r.camera, r.control]

/-- Whether anybody could receive a camera frame. -/
def hasAudience (r : DeviceRelays) : Bool := Camera.hasAudience r.hub

/-- A camera frame for whoever wants it. -/
def publishFrame (r : DeviceRelays) (bytes : List UInt8) : Report × DeviceRelays :=
  match Camera.publish bytes r.hub with
  | (report, [camera, control]) => (report, { r with camera := camera, control := control })
  | (report, _) => (report, r)

/-! ### Events -/

/-- What the control relay may read. -/
def context (r : DeviceRelays) (facts : DeviceFacts) (log : Option LogSource) (now : Duration)
    (seed : Nat) : ControlContext :=
  ⟨facts, log, r.tunnels.map Tunnel.status, now, seed⟩

/-- The next event that is due at an endpoint is handled, none where none is due. -/
def handleNext? (r : DeviceRelays) (facts : DeviceFacts) (log : Option LogSource)
    (now : Duration) (seed : Nat) : Option DeviceRelays :=
  match r.control.nextEvent? with
  | some (event, e) =>
    let (e, state) := ControlRelay.handle (r.context facts log now seed) event e r.state
    some { r with control := e, state := state }
  | none =>
    match r.camera.nextEvent? with
    | some (event, e) => some { r with camera := CameraRelay.handle event e }
    | none => r.rssi.nextEvent?.map fun (_, e) => { r with rssi := e }

/-- Handles at most `fuel` events. Claim codes are drawn from the seeds counting up. -/
def handleAll (facts : DeviceFacts) (log : Option LogSource) (now : Duration) :
    (fuel : Nat) → (seed : Nat) → DeviceRelays → DeviceRelays
  | 0, _, r => r
  | fuel + 1, seed, r =>
    match r.handleNext? facts log now seed with
    | none => r
    | some r => handleAll facts log now fuel (seed + 1) r

/-- A tick of the signal ticker, if one is due: the level goes to whoever listens, as long as there
is a link. -/
def tickRssi (r : DeviceRelays) (link : Option LinkStatus) (now : Duration) : DeviceRelays :=
  match r.ticker.bind fun t => t.tick? now with
  | none => r
  | some ticker =>
    let r := { r with ticker := some ticker }
    if r.rssi.clientCount = 0 && !r.rssi.tunnelConnected then r
    else
      match link with
      | none => r
      | some l =>
        { r with rssi := (r.rssi.publish (.text (toString l.rssi))).2 }

/-! ### Tunnels -/

def fleet (r : DeviceRelays) : Fleet := ⟨r.gate, r.tunnels⟩

/-- An endpoint with the first of some tunnels in the place of its own, and the other tunnels. -/
def takeTunnel (e : Endpoint) : List Tunnel → Endpoint × List Tunnel
  | [] => (e, [])
  | t :: tunnels =>
    if e.tunnel.isSome then ({ e with tunnel := some t }, tunnels) else (e, t :: tunnels)

/-- The relays with the gate and the tunnels of a fleet. -/
def putFleet (r : DeviceRelays) (f : Fleet) : DeviceRelays :=
  let (control, tunnels) := takeTunnel r.control f.tunnels
  let (camera, tunnels) := takeTunnel r.camera tunnels
  let (rssi, _) := takeTunnel r.rssi tunnels
  { r with control := control, camera := camera, rssi := rssi, gate := f.gate }

/-- The path of the tunnel at an index. -/
def labelAt (r : DeviceRelays) (index : Nat) : String :=
  ((r.tunnels[index]?).map Tunnel.label).getD ""

/-- A frame of a tunnel goes to its endpoint. -/
def deliverSeen (r : DeviceRelays) : Fleet.Seen → DeviceRelays
  | (index, .delivered f) =>
    let label := r.labelAt index
    let give (e : Endpoint) : Endpoint := if e.path = label then e.deliverFromTunnel f else e
    { r with control := give r.control, camera := give r.camera, rssi := give r.rssi }
  | (_, .configured _) | (_, .sent _ _) => r

/-- The relays after their tunnels got on by themselves. -/
def settleTunnels (r : DeviceRelays) (network : Network) (now : Duration) : DeviceRelays :=
  let (f, seen) := r.fleet.settle network now Fleet.settleFuel
  seen.foldl deliverSeen (r.putFleet f)

/-- The relays after some time, or less of it once their tunnels are as wanted, and the instant. -/
def advanceTunnels (r : DeviceRelays) (network : Network) (now time : Duration)
    (wanted : Fleet → Bool) : DeviceRelays × Duration :=
  let run := FleetRun.advance ⟨r.fleet, now, []⟩ network time wanted
  (run.seen.foldl deliverSeen (r.putFleet run.fleet), run.now)

/-- The relays after a call of the owner of a tunnel. -/
def callTunnel (r : DeviceRelays) (network : Network) (index : Nat) (now : Duration)
    (e : TunnelEvent) : DeviceRelays :=
  let (f, seen) := r.fleet.call network index now e
  seen.foldl deliverSeen (r.putFleet f)

/-- Closes every client of every endpoint. -/
def closeAll (r : DeviceRelays) : DeviceRelays :=
  { r with
    control := r.control.closeAll.2
    camera := r.camera.closeAll.2
    rssi := r.rssi.closeAll.2 }

end DeviceRelays

end DeviceRelay
