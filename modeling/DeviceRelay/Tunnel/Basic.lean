import DeviceRelay.Outbound.Client
import DeviceRelay.Tunnel.BrokerMessage
import DeviceRelay.Tunnel.Dial
import DeviceRelay.Tunnel.State

/-!
# Tunnels

A tunnel stands in for a client of the local network: it keeps one connection to the broker, drops
it when it is disabled or configured anew, and dials again when it is lost. Three kinds of task
work on it: the owner's call under way, which the control lock makes the only one, the worker that
dials, and sends. A task that holds the transport lock says so by its phase.

* `Tunnel`: the whole state, with the phase of every task.
* `Tunnel.setState`: the only way the state changes; going down clears the flag of the remote page.
* `Tunnel.handleInbound`: what a message of the broker does.
* `Tunnel.status`: what is reported about a tunnel.
-/

namespace DeviceRelay

/-- What the broker said when it last registered the device. -/
structure RegistrationRecord where
  registration : Registration
  /-- Milliseconds since the clock started. -/
  atMillis : Option Nat
  deriving DecidableEq, Repr

/-- A client and the generation of the tunnel that its events belong to. -/
structure Transport where
  /-- The number of a 64-bit counter, taken as one that never wraps: a tunnel does not live to begin
  `2 ^ 64` generations. -/
  generation : Nat
  client : OutboundClient
  deriving DecidableEq, Repr

/-- The client of a transport that is being stopped, and since when. -/
structure Stopping where
  transport : Transport
  /-- The task whose end is waited for. -/
  awaited : Option Nat
  since : Duration
  deriving DecidableEq, Repr

/-- The snapshot that one attempt dials with. -/
structure Attempt where
  config : TunnelConfig
  url : String
  deriving DecidableEq, Repr

/-- Where the worker waits. -/
inductive WorkerPhase where
  /-- At the head of its loop. -/
  | starting
  /-- The configuration is incomplete. -/
  | pausing (wakeAt : Duration)
  /-- At the dial gate. -/
  | queueing (a : Attempt)
  /-- For the transport lock, to install a transport. -/
  | installing (a : Attempt) (permit : Bool)
  /-- For the transport to connect. -/
  | connecting (a : Attempt) (permit : Bool) (since : Duration)
  /-- For the connection to be lost, which it looks for at `pollAt`. -/
  | holding (a : Attempt) (since pollAt : Duration)
  /-- For the transport lock, to take the transport out. -/
  | tearing (a : Attempt) (held : Duration)
  /-- For the client to stop, holding the transport lock. -/
  | stopping (a : Attempt) (held : Duration) (s : Stopping)
  /-- Before the next attempt. -/
  | resting (a : Attempt) (since delay : Duration)
  | finished
  deriving DecidableEq, Repr

structure Worker where
  phase : WorkerPhase
  backoff : Backoff
  stopRequested : Bool
  deriving DecidableEq, Repr

/-- Where the call of the owner waits. -/
inductive ControlPhase where
  /-- For the worker to end. -/
  | joining (since : Duration)
  /-- For the transport lock, to take the transport out. -/
  | tearing
  /-- For the client to stop, holding the transport lock. -/
  | stopping (s : Stopping)
  deriving DecidableEq, Repr

/-- A call of the owner that stops the worker; one that configures the tunnel starts another. -/
structure ControlTask where
  restarts : Bool
  phase : ControlPhase
  deriving DecidableEq, Repr

/-- Where a send waits. -/
inductive SendPhase where
  /-- For the transport lock. -/
  | locking (giveUpAt : Duration)
  /-- For room in the queue, holding the transport lock. -/
  | queueing (giveUpAt : Duration)
  deriving DecidableEq, Repr

structure PendingSend where
  ticket : Nat
  frame : Frame
  phase : SendPhase
  deriving DecidableEq, Repr

/-- What every dial of a tunnel shares. -/
structure TunnelOptions where
  caCertificate : Option (List UInt8)
  /-- The bytes of the largest frame in either direction. -/
  bufferSize : Nat
  networkTimeout : Duration
  deriving DecidableEq, Repr

def TunnelOptions.usual : TunnelOptions := ⟨none, 160 * 1024, .ofSeconds 10⟩

structure Tunnel where
  /-- The local endpoint that the tunnel serves. -/
  label : String
  options : TunnelOptions
  config : TunnelConfig
  enabled : Bool
  state : ConnectionState
  /-- Whether a remote page is connected at the broker. -/
  uiConnected : Bool
  record : RegistrationRecord
  /-- The transport that is installed. -/
  transport : Option Transport
  /-- How many generations have begun. The counter of 64 bits is taken as one that never wraps. -/
  generation : Nat
  worker : Option Worker
  control : Option ControlTask
  sends : List PendingSend
  /-- Transports whose stop was given up before their client had ended. -/
  abandoned : List Transport
  deriving DecidableEq, Repr

/-! ## Who holds the transport lock -/

def SendPhase.holdsLock : SendPhase → Bool
  | .locking _ => false
  | .queueing _ => true

def WorkerPhase.holdsLock : WorkerPhase → Bool
  | .stopping _ _ _ => true
  | _ => false

def ControlPhase.holdsLock : ControlPhase → Bool
  | .stopping _ => true
  | _ => false

namespace Tunnel

/-- A tunnel that was never enabled or configured. -/
def new (label : String) (options : TunnelOptions) : Tunnel where
  label := label
  options := options
  config := .blank
  enabled := false
  state := .disconnected
  uiConnected := false
  record := ⟨default, none⟩
  transport := none
  generation := 0
  worker := none
  control := none
  sends := []
  abandoned := []

/-! ## State -/

/-- Moves to a state. No remote page is connected to a tunnel that is down. -/
def setState (t : Tunnel) (next : ConnectionState) : Tunnel :=
  { t with
    state := next
    uiConnected := if next = .disconnected then false else t.uiConnected }

/-- Applies a control message of the broker. -/
def applyControl (t : Tunnel) (now : Duration) : BrokerControl → Tunnel
  | .registered r => { t with record := ⟨r, some now.millis⟩ }.setState .registered
  | .uiConnected => { t with uiConnected := true }
  | .uiDisconnected => { t with uiConnected := false }

/-- Takes a message of the broker: the frame that is handed on, if any. A text that is not UTF-8 is
dropped, a control message is applied, and a payload is handed on once the device is registered. -/
def handleInbound (t : Tunnel) (now : Duration) (payload : List UInt8) (isBinary : Bool) :
    Option Frame × Tunnel :=
  let forward (f : Frame) : Option Frame × Tunnel :=
    (if t.state = .registered then some f else none, t)
  if isBinary then forward (.binary payload)
  else
    match Text.decode? payload with
    | none => (none, t)
    | some text =>
      match Inbound.classify text with
      | .control c => (none, t.applyControl now c)
      | .payload => forward (.text text)

/-- Applies an event of the transport of a generation: the frame that is handed on, if any. The
events of an earlier generation change nothing. -/
def onClientEvent (t : Tunnel) (generation : Nat) (now : Duration) (e : ClientEvent) :
    Option Frame × Tunnel :=
  if t.generation ≠ generation then (none, t)
  else
    match e with
    | .connected => (none, t.setState .connected)
    | .disconnected => (none, t.setState .disconnected)
    | .message payload isBinary => t.handleInbound now payload isBinary
    | .failed _ => (none, t)

/-- Applies events one after the other, and collects the frames that are handed on. -/
def onClientEvents (t : Tunnel) (generation : Nat) (now : Duration) (events : List ClientEvent) :
    List Frame × Tunnel :=
  events.foldl
    (fun (frames, t) e =>
      let (frame, t) := t.onClientEvent generation now e
      (frames ++ frame.toList, t))
    ([], t)

/-- Whether a task holds the transport lock. -/
def isLocked (t : Tunnel) : Bool :=
  t.worker.any (·.phase.holdsLock) || t.control.any (·.phase.holdsLock) ||
    t.sends.any (·.phase.holdsLock)

/-! ## Reports -/

/-- Whether the worker slot holds a worker that has not ended. A call that stops the worker takes
it out of the slot first. -/
def isStarted (t : Tunnel) : Bool :=
  t.control.isNone && t.worker.any fun w => w.phase ≠ .finished

def isConnected (t : Tunnel) : Bool := t.state.isConnected

/-- What is reported about a tunnel. -/
structure Status where
  uri : String
  started : Bool
  enabled : Bool
  connected : Bool
  uiConnected : Bool
  state : ConnectionState
  record : RegistrationRecord
  deriving DecidableEq, Repr

def status (t : Tunnel) : Status where
  uri := t.label
  started := t.isStarted
  enabled := t.enabled
  connected := t.isConnected
  uiConnected := t.uiConnected
  state := t.state
  record := t.record

def Status.toJson (s : Status) : Json :=
  Json.ofMembers
    [("uri", .string s.uri), ("started", .bool s.started), ("cloudEnabled", .bool s.enabled),
     ("cloudConnected", .bool s.connected), ("cloudUIConnected", .bool s.uiConnected),
     ("state", .string s.state.name),
     ("ui_ws_url", .ofString? s.record.registration.uiUrl),
     ("device_ws_url", .ofString? s.record.registration.deviceUrl),
     ("registered_at_ms", (s.record.atMillis.map Json.ofNat).getD .null)]

end Tunnel

end DeviceRelay
