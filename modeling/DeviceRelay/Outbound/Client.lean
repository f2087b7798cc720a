import DeviceRelay.Backoff
import DeviceRelay.Frame
import DeviceRelay.Outbound.Certificate
import DeviceRelay.Outbound.Error
import DeviceRelay.Outbound.Uri
import DeviceRelay.Queue

/-!
# Outbound clients

An outbound client keeps a WebSocket connection to a server. A network task dials, runs the
session and dials again after a delay; the callbacks of the owner are the events it emits. Calls of
the owner and steps of the tasks interleave freely, and each definition here is one step between
two points at which others may run.

* `OutboundClient.begin`, `connect`: the calls that start a task.
* `OutboundClient.startDisconnect`, `finishDisconnect`, `abort`: the parts of a disconnect. The
  first sets the flags and takes the task's handle, the last two end the wait for the task.
* `OutboundClient.taskStep`: one step of a network task, with the events it emits.
* `OutboundClient.submit`: puts a message into the queue of the session.
-/

namespace DeviceRelay

structure ClientConfig where
  uri : String
  bearerToken : Option String
  /-- A certificate to trust instead of those of the system. -/
  caCertificate : Option (List UInt8)
  /-- The bytes of the largest message. -/
  bufferSize : Nat
  /-- The time between two pings; zero means that none are sent. -/
  pingInterval : Duration
  networkTimeout : Duration
  autoReconnect : Bool
  reconnectDelay : Duration
  maxAttempts : Option UInt32
  deriving DecidableEq, Repr

namespace ClientConfig

/-- The settings that hold where nothing else is said. -/
def ofUri (uri : String) : ClientConfig where
  uri := uri
  bearerToken := none
  caCertificate := none
  bufferSize := 4 * 1024
  pingInterval := .ofSeconds 10
  networkTimeout := .ofSeconds 10
  autoReconnect := true
  reconnectDelay := .ofSeconds 5
  maxAttempts := none

/-- Whether the address asks for an encrypted connection. -/
def isSecure (c : ClientConfig) : Bool := "wss://".toList.isPrefixOf c.uri.toList

/-- The first fault of a configuration: its address, its token, its certificate. A certificate
counts only where the connection is encrypted. -/
def check (c : ClientConfig) : Except ClientError Unit :=
  if !Uri.isDialable c.uri then .error (.invalidUri "malformed address")
  else if c.bearerToken.any fun token => !Uri.isHeaderText token then
    .error (.invalidUri "malformed token")
  else if c.isSecure && c.caCertificate.any fun text => !Certificate.isPinnable text then
    .error (.tls "no certificate found")
  else .ok ()

end ClientConfig

/-- What a client tells its owner. -/
inductive ClientEvent where
  | connected
  | disconnected
  | message (payload : List UInt8) (isBinary : Bool)
  | failed (e : ClientError)
  deriving DecidableEq, Repr

/-- Where a network task waits. -/
inductive TaskPhase where
  /-- It has not run yet. -/
  | starting
  | dialing
  | inSession (since : Duration)
  /-- The session says goodbye to its peer. -/
  | closing (since : Duration)
  | waiting (wakeAt : Duration)
  deriving DecidableEq, Repr

/-- A task that has not ended. -/
structure NetworkTask where
  number : Nat
  /-- The configuration that it found when it first ran. -/
  config : ClientConfig
  backoff : Backoff
  phase : TaskPhase
  deriving DecidableEq, Repr

structure OutboundClient where
  config : Option ClientConfig
  isConnected : Bool
  autoReconnect : Bool
  stopRequested : Bool
  /-- The messages that the session has still to send. -/
  outbox : Option (BoundedQueue Message)
  /-- The task that a disconnect would wait for. -/
  handle : Option Nat
  tasks : List NetworkTask
  /-- How many tasks were ever started, by which tasks are told apart. It stands for the identity of
  a task, so it never wraps as a counter of 64 bits would. -/
  started : Nat
  deriving DecidableEq, Repr

namespace OutboundClient

def new : OutboundClient where
  config := none
  isConnected := false
  autoReconnect := false
  stopRequested := false
  outbox := none
  handle := none
  tasks := []
  started := 0

def isRunning (c : OutboundClient) (number : Nat) : Bool := c.tasks.any fun t => t.number = number

/-- The bytes of the largest message. -/
def bufferSize (c : OutboundClient) : Nat :=
  match c.config with
  | some config => config.bufferSize
  | none => (ClientConfig.ofUri "").bufferSize

/-! ## Calls of the owner -/

/-- The policy of a task's delays. -/
def policyOf (config : ClientConfig) : Backoff.Policy :=
  .outbound config.reconnectDelay config.maxAttempts

/-- Starts a task, unless there is a connection or the last task still runs. -/
def connect (c : OutboundClient) : Except ClientError OutboundClient :=
  if c.isConnected || c.handle.any c.isRunning then .ok c
  else
    match c.config with
    | none => .error .notStarted
    | some config =>
      let task : NetworkTask := ⟨c.started, config, .new (policyOf config), .starting⟩
      .ok { c with
        stopRequested := false
        handle := some c.started
        tasks := c.tasks ++ [task]
        started := c.started + 1 }

/-- Stores a configuration without a fault, and connects. -/
def begin (c : OutboundClient) (config : ClientConfig) : Except ClientError OutboundClient :=
  match config.check with
  | .error e => .error e
  | .ok () => { c with autoReconnect := config.autoReconnect, config := some config }.connect

/-- Asks the tasks to stop, and takes the handle of the last one, which the call then waits for. -/
def startDisconnect (c : OutboundClient) : Option Nat × OutboundClient :=
  (c.handle, { c with autoReconnect := false, stopRequested := true, handle := none })

/-- Ends a disconnect whose task has ended. -/
def finishDisconnect (c : OutboundClient) : OutboundClient :=
  { c with outbox := none, isConnected := false }

/-- Ends a task wherever it waits. -/
def abort (c : OutboundClient) (number : Nat) : OutboundClient :=
  { c with tasks := c.tasks.filter fun t => t.number ≠ number }

/-- How long a disconnect waits before it aborts the task: two seconds. -/
def stopWait : Duration := .ofSeconds 2

/-- How many messages wait in a session. -/
def outboxDepth : Nat := 32

/-- Puts a message of `length` bytes into the queue of the session. A full queue has a result of
its own, since a caller may wait for room. -/
def submit (c : OutboundClient) (length : Nat) (m : Message) :
    Except ClientError Pushed × OutboundClient :=
  if !c.isConnected then (.error .notConnected, c)
  else if c.bufferSize < length then (.error (.payloadTooLarge length c.bufferSize), c)
  else
    match c.outbox with
    | none => (.error .notConnected, c)
    | some q =>
      let (r, q) := q.push m
      (.ok r, { c with outbox := some q })

/-- The result of a send that does not wait, or that waited in vain: a full queue counts as a wait
that ran out. -/
def sendResult : Except ClientError Pushed → Except ClientError Unit
  | .error e => .error e
  | .ok .queued => .ok ()
  | .ok .full => .error .timeout
  | .ok .closed => .error .closed

/-! ## Steps of a task -/

/-- What a task does next, or what the network does to it. -/
inductive NetworkStep where
  | start
  | dialed
  | dialFailed (e : ClientError)
  | received (payload : List UInt8) (isBinary : Bool)
  /-- The oldest message of the queue is sent. -/
  | transmitted
  | peerClosed
  | broken (e : ClientError)
  /-- The task notices that it shall stop. -/
  | stopped
  /-- The goodbye is sent. -/
  | saidGoodbye
  | woken
  deriving DecidableEq, Repr

/-- The client with a task in another phase. -/
def setPhase (c : OutboundClient) (number : Nat) (phase : TaskPhase) : OutboundClient :=
  { c with
    tasks := c.tasks.map fun t => if t.number = number then { t with phase := phase } else t }

/-- What a task does after a session held for `held`, or after a dial that failed: it ends, waits,
or gives up. -/
def afterSession (c : OutboundClient) (t : NetworkTask) (now held : Duration) :
    OutboundClient × List ClientEvent :=
  if c.stopRequested || !c.autoReconnect then (c.abort t.number, [])
  else
    let (delay, backoff) := t.backoff.onSessionEnd held
    match delay with
    | some delay =>
      let t := { t with backoff := backoff, phase := .waiting (now.add delay) }
      ({ c with tasks := c.tasks.map fun u => if u.number = t.number then t else u }, [])
    | none =>
      ({ c with autoReconnect := false }.abort t.number,
        [.failed (.exhausted backoff.failures.toNat)])

/-- A session ends: its queue goes away with whatever waits in it. -/
def endSession (c : OutboundClient) (t : NetworkTask) (now since : Duration) :
    OutboundClient × List ClientEvent :=
  let c := { c with outbox := none, isConnected := false }
  let (c, events) := c.afterSession t now (now.sub since)
  (c, .disconnected :: events)

/-- One step of a task, none where it cannot happen in the task's phase. -/
def stepOf (c : OutboundClient) (t : NetworkTask) (now : Duration) :
    NetworkStep → Option (OutboundClient × List ClientEvent)
  | .start =>
    match t.phase, c.config with
    | .starting, some config =>
      let t := { t with config := config, backoff := .new (policyOf config), phase := .dialing }
      some ({ c with tasks := c.tasks.map fun u => if u.number = t.number then t else u }, [])
    | _, _ => none
  | .dialed =>
    match t.phase with
    | .dialing =>
      some ({ c.setPhase t.number (.inSession now) with
        isConnected := true, outbox := some (.new outboxDepth) }, [.connected])
    | _ => none
  | .dialFailed e =>
    match t.phase with
    | .dialing =>
      let (c, events) := c.afterSession t now .zero
      some (c, .failed e :: events)
    | _ => none
  | .received payload isBinary =>
    match t.phase with
    | .inSession _ => some (c, [.message payload isBinary])
    | _ => none
  | .transmitted =>
    match t.phase with
    | .inSession _ => some ({ c with outbox := c.outbox.map fun q => q.pop.2 }, [])
    | _ => none
  | .peerClosed =>
    match t.phase with
    | .inSession since => some (c.endSession t now since)
    | _ => none
  | .broken e =>
    match t.phase with
    | .inSession since =>
      let (c, events) := c.endSession t now since
      some (c, .failed e :: events)
    | _ => none
  | .stopped =>
    if c.stopRequested then
      match t.phase with
      | .dialing | .waiting _ => some (c.abort t.number, [])
      | .inSession since => some (c.setPhase t.number (.closing since), [])
      | .starting | .closing _ => none
    else none
  | .saidGoodbye =>
    match t.phase with
    | .closing since => some (c.endSession t now since)
    | _ => none
  | .woken =>
    match t.phase with
    | .waiting wakeAt => if wakeAt ≤ now then some (c.setPhase t.number .dialing, []) else none
    | _ => none

/-- One step of the task with this number. -/
def taskStep (c : OutboundClient) (number : Nat) (now : Duration) (s : NetworkStep) :
    Option (OutboundClient × List ClientEvent) :=
  (c.tasks.find? fun t => t.number = number).bind fun t => c.stepOf t now s

end OutboundClient

end DeviceRelay
