import DeviceRelay.ClaimCode
import DeviceRelay.ClientId
import DeviceRelay.Device.ConfigQueue
import DeviceRelay.Device.Host
import DeviceRelay.Document.Redact
import DeviceRelay.Json.Parser
import DeviceRelay.Log.Request
import DeviceRelay.Tunnel.Basic

/-!
# Control commands

A command is a JSON text whose member `cmd` names it. Every text gets one reply, also one that is
no JSON or names no command. Only the report of the signal level goes to everybody.

* `Command`: the commands, with their names.
* `ControlProtocol.dispatch`: the reply to a text, and what the command changes.
* `ControlProtocol.hello`: the greeting of a new client.
-/

namespace DeviceRelay

inductive Command where
  | ping
  | getStatus
  | getInfo
  | getConfig
  | getClaim
  | getRssi
  | getLogs
  | cameraSubscribe
  | cameraSnapshot
  | cameraStatus
  | setConfig
  deriving DecidableEq, Repr

namespace Command

def name : Command → String
  | .ping => "ping"
  | .getStatus => "get_status"
  | .getInfo => "get_info"
  | .getConfig => "get_config"
  | .getClaim => "get_claim"
  | .getRssi => "get_rssi"
  | .getLogs => getLogsCommand
  | .cameraSubscribe => "camera_subscribe"
  | .cameraSnapshot => "camera_snapshot"
  | .cameraStatus => "camera_status"
  | .setConfig => "set_config"

def all : List Command :=
  [.ping, .getStatus, .getInfo, .getConfig, .getClaim, .getRssi, .getLogs, .cameraSubscribe,
   .cameraSnapshot, .cameraStatus, .setConfig]

def ofName? (name : String) : Option Command := all.find? fun c => c.name = name

/-- The name in a request, empty where there is none. -/
def nameIn (request : Json) : String := request.text "cmd"

end Command

/-- Who gets a reply. -/
inductive ReplyRoute where
  /-- The client that sent the command. -/
  | requester
  /-- Every local client of the endpoint. -/
  | broadcast
  deriving DecidableEq, Repr

structure ControlReply where
  reply : Reply
  route : ReplyRoute
  deriving DecidableEq, Repr

/-- What clients may switch for themselves: the two operations tell whether the client is known. -/
structure MediaBoard (σ : Type) where
  setCamera : σ → ClientId → (on : Bool) → Bool × σ
  requestSnapshot : σ → ClientId → Bool × σ
  isSubscribed : σ → ClientId → Bool

/-- What commands may read. -/
structure ControlContext where
  facts : DeviceFacts
  log : Option LogSource
  tunnels : List Tunnel.Status
  now : Duration
  /-- What a claim code is drawn from. -/
  seed : Nat
  deriving Repr

/-- What commands may change, besides the clients' switches. -/
structure ControlState where
  updates : ConfigQueue
  claims : ClaimStore
  deriving DecidableEq, Repr

namespace ControlProtocol

/-- The greeting of a new client. -/
def hello (facts : DeviceFacts) : Reply :=
  Reply.ok "hello"
    |>.set "type" (.string "hello")
    |>.set "hostname" (.string facts.hostname)
    |>.set "ip" (.string facts.ipAddress)

/-! ## The description of the device -/

/-- The live claim code and the time it has left in milliseconds, a 64-bit word. -/
def claimOf (ctx : ControlContext) (rotate : Bool) (claims : ClaimStore) :
    String × Json × ClaimStore :=
  let (claim, claims) := claims.current rotate ctx.now ctx.seed
  (claim.code, .ofNat ((claims.expiresIn ctx.now).millis % UInt64.size), claims)

/-- What is reported about the tunnels together. -/
def tunnelReport (tunnels : List Tunnel.Status) : Json :=
  Json.ofMembers
    [("enabled", .bool (tunnels.any Tunnel.Status.enabled)),
     ("connected", .bool (tunnels.any Tunnel.Status.connected)),
     ("endpoints", .array (tunnels.map Tunnel.Status.toJson))]

/-- The description of the device. -/
def info (ctx : ControlContext) (claims : ClaimStore) : Json × ClaimStore :=
  let (code, left, claims) := claimOf ctx false claims
  (Json.ofMembers (ctx.facts.info ++
    [("hostname", .string ctx.facts.hostname), ("ip", .string ctx.facts.ipAddress),
     ("camera", .bool ctx.facts.camera),
     ("pairing", Json.ofMembers [("claim_code", .string code), ("claim_expires_in_ms", left)]),
     ("cloudTunnel", tunnelReport ctx.tunnels)]), claims)

/-! ## Replies -/

def statusReply (facts : DeviceFacts) : Reply :=
  Reply.ok Command.getStatus.name
    |>.set "ip" (.string facts.ipAddress)
    |>.set "hostname" (.string facts.hostname)
    |>.set "wifiMode" (.string facts.wifiMode)

def rssiReply (link : Option LinkStatus) : Reply :=
  let reply := Reply.ok Command.getRssi.name
  match link with
  | some l =>
    reply.set "connected" (.bool true) |>.set "ssid" (.string l.ssid) |>.set "rssi" (.ofInt l.rssi)
  | none => reply.set "connected" (.bool false) |>.set "rssi" (.ofNat 0)

def claimReply (ctx : ControlContext) (request : Json) (claims : ClaimStore) :
    Reply × ClaimStore :=
  let (code, left, claims) := claimOf ctx (request.flag "rotate") claims
  (Reply.ok Command.getClaim.name |>.set "code" (.string code) |>.set "expires_in_ms" left, claims)

/-- The reply to a camera command: there must be a camera, and the client must be known. -/
def cameraReply {σ : Type} (cmd : Command) (facts : DeviceFacts)
    (apply : σ → Bool × σ) (media : σ) : Reply × σ :=
  if !facts.camera then (.error (some cmd.name) "camera_unavailable", media)
  else
    match apply media with
    | (true, media) => (.ok cmd.name, media)
    | (false, media) => (.error (some cmd.name) "unknown_client", media)

/-- Queues the configuration of a request, an object or an array. -/
def setConfigReply (request : Json) (updates : ConfigQueue) : Reply × ConfigQueue :=
  let queue (update : Json) : Reply × ConfigQueue :=
    match updates.push update with
    | (.queued, updates) => (Reply.ok Command.setConfig.name |>.set "queued" (.bool true), updates)
    | (_, updates) =>
      (Reply.error (some Command.setConfig.name) "queue_failed" |>.set "queued" (.bool false),
        updates)
  match request.get? "config" with
  | some (.object members) => queue (.object members)
  | some (.array items) => queue (.array items)
  | _ => (.error (some Command.setConfig.name) "missing_config", updates)

/-! ## Dispatch -/

/-- The reply to a command, and what the command changes. -/
def execute {σ : Type} (board : MediaBoard σ) (ctx : ControlContext) (client : ClientId)
    (cmd : Command) (request : Json) (state : ControlState) (media : σ) :
    Reply × ControlState × σ :=
  match cmd with
  | .ping => (Reply.ok cmd.name |>.set "type" (.string "pong"), state, media)
  | .getStatus => (statusReply ctx.facts, state, media)
  | .getInfo =>
    let (description, claims) := info ctx state.claims
    (Reply.ok cmd.name |>.set "info" description, { state with claims := claims }, media)
  | .getConfig => (Reply.ok cmd.name |>.set "config" ctx.facts.config.redact, state, media)
  | .getClaim =>
    let (reply, claims) := claimReply ctx request state.claims
    (reply, { state with claims := claims }, media)
  | .getRssi => (rssiReply ctx.facts.link, state, media)
  | .getLogs => (logReply ctx.log request client.isTunnel, state, media)
  | .cameraSubscribe =>
    let on := request.flag "enable" true
    let (reply, media) := cameraReply cmd ctx.facts (fun m => board.setCamera m client on) media
    (reply.set "subscribed" (.bool on), state, media)
  | .cameraSnapshot =>
    let (reply, media) := cameraReply cmd ctx.facts (fun m => board.requestSnapshot m client) media
    (reply.set "queued" (.bool true), state, media)
  | .cameraStatus =>
    (Reply.ok cmd.name
      |>.set "available" (.bool ctx.facts.camera)
      |>.set "subscribed" (.bool (board.isSubscribed media client)), state, media)
  | .setConfig =>
    let (reply, updates) := setConfigReply request state.updates
    (reply, { state with updates := updates }, media)

/-- Who gets the reply to a command. -/
def routeOf : Command → ReplyRoute
  | .getRssi => .broadcast
  | _ => .requester

/-- The reply to a text of a client, and what the text changes. -/
def dispatch {σ : Type} (board : MediaBoard σ) (ctx : ControlContext) (client : ClientId)
    (text : String) (state : ControlState) (media : σ) : ControlReply × ControlState × σ :=
  match Json.parse text with
  | .error e => (⟨(Reply.error none "bad_json").detail e.message, .requester⟩, state, media)
  | .ok request =>
    let name := Command.nameIn request
    match Command.ofName? name with
    | none => (⟨.error (some name) "unknown_cmd", .requester⟩, state, media)
    | some cmd =>
      let (reply, state, media) := execute board ctx client cmd request state media
      (⟨reply, routeOf cmd⟩, state, media)

end ControlProtocol

end DeviceRelay
