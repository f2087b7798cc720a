import DeviceRelay.Endpoint.Clients
import DeviceRelay.Endpoint.Events
import DeviceRelay.Tunnel.Send

/-!
# Endpoints

An endpoint tracks the clients of one path of the local server, and may have a tunnel attached,
whose far end counts as one more client. Each client has a queue of messages that its connection
drains. Every way into and out of the table is told to the handler.

* `Endpoint.accept`, `release`, `closeAll`: clients come and go.
* `Endpoint.deliver`, `deliverFromTunnel`: frames for the handler.
* `Endpoint.startSendTo`: a frame for one client, up to the waits of the tunnel.
* `Endpoint.sendTo`: a frame for one client.
* `Endpoint.setTopic`, `hasTopic`, `subscribers`: subscriptions.
-/

namespace DeviceRelay

/-- How many clients an endpoint tracks, and the bytes of its largest frames. -/
structure EndpointLimits where
  /-- With one client at most, a new client replaces the old one. -/
  maxClients : Nat
  /-- The bytes of the largest frame that is accepted; zero accepts none. -/
  maxMessageLength : Nat
  /-- The bytes of the largest frame that is sent. -/
  maxBroadcastLength : Nat
  deriving DecidableEq, Repr

def EndpointLimits.isSingle (l : EndpointLimits) : Bool := l.maxClients ≤ 1

inductive EndpointError where
  | pathInUse (path : String)
  | serverUnavailable
  | payloadTooLarge (length limit : Nat)
  | unknownClient (id : ClientId)
  | clientGone (id : ClientId)
  | backpressure (id : ClientId)
  | tunnelNotAttached
  | tunnel (e : TunnelError)
  deriving DecidableEq, Repr

def EndpointError.message : EndpointError → String
  | .pathInUse path => s!"path {path} already has an endpoint"
  | .serverUnavailable => "local server is not accepting new endpoints"
  | .payloadTooLarge length limit => s!"payload of {length} bytes exceeds the {limit} byte limit"
  | .unknownClient id => s!"client {id.name} is not connected"
  | .clientGone id => s!"client {id.name} went away"
  | .backpressure id => s!"client {id.name} is not keeping up; frame dropped"
  | .tunnelNotAttached => "no cloud tunnel is attached"
  | .tunnel e => e.message

/-- A client that is no longer tracked, whose connection may still drain its queue. -/
structure Departed where
  id : ClientId
  outbox : BoundedQueue Message
  /-- Whether the connection was told to end. -/
  shutOut : Bool
  deriving DecidableEq, Repr

structure Endpoint where
  path : String
  limits : EndpointLimits
  /-- The token that an upgrade must show, where one is asked for. -/
  token : Option String
  table : ClientTable
  /-- The clients that have left, the last one first. -/
  departed : List Departed
  /-- The id that is tried next. -/
  nextId : UInt32
  events : EventLine
  tunnel : Option Tunnel
  /-- The subscriptions of the far end of the tunnel. -/
  tunnelTopics : TopicSet
  deriving DecidableEq, Repr

namespace Endpoint

def new (path : String) (limits : EndpointLimits) (token : Option String) : Endpoint where
  path := path
  limits := limits
  token := token
  table := .withCapacity limits.maxClients
  departed := []
  nextId := 1
  events := .empty
  tunnel := none
  tunnelTopics := .empty

def clientCount (e : Endpoint) : Nat := e.table.size

def clientIds (e : Endpoint) : List ClientId := e.table.ids

def notify (e : Endpoint) (event : EndpointEvent) : Endpoint :=
  { e with events := e.events.notify event }

/-! ## Coming and going -/

/-- The next id, and the one to try after it. Zero and the id of the tunnel are passed over. -/
def allocateId (next : UInt32) : ClientId × UInt32 :=
  let number := if next = ClientId.tunnel.number ∨ next = 0 then 1 else next
  (⟨number⟩, number + 1)

/-- A message that closes a connection. -/
def closing (code : UInt16) (reason : String) : Message := .close (some ⟨code, reason⟩)

/-- The closing message for a client that has to go for a new one. -/
def evictionNotice (limits : EndpointLimits) : Message :=
  closing 1001 <|
    if limits.isSingle then "replaced by a newer client" else "evicted: too many clients"

/-- A client that has left, with a last message if its queue has room. -/
def depart (c : Client) (last : Message) : Departed := ⟨c.id, (c.outbox.push last).2, true⟩

/-- Tracks a new connection. Where the table is full the client that came first has to go. -/
def accept (e : Endpoint) (outbox : BoundedQueue Message) : ClientId × Endpoint :=
  let (id, nextId) := allocateId e.nextId
  let (evicted, table) := e.table.insert id outbox
  let e := { e with nextId := nextId, table := table }
  let e :=
    match evicted with
    | some c =>
      { e with departed := depart c (evictionNotice e.limits) :: e.departed }.notify
        (.disconnected c.id)
    | none => e
  (id, e.notify (.connected id))

/-- Stops tracking a client: whether it was tracked. -/
def release (e : Endpoint) (id : ClientId) : Bool × Endpoint :=
  match e.table.remove id with
  | (some c, table) =>
    (true,
      { e with table := table, departed := ⟨c.id, c.outbox, false⟩ :: e.departed }.notify
        (.disconnected id))
  | (none, _) => (false, e)

/-- Stops tracking every client: how many there were. The far end of the tunnel loses its
subscriptions. -/
def closeAll (e : Endpoint) : Nat × Endpoint :=
  let clients := e.table.clients
  let e := { e with table := e.table.cleared, tunnelTopics := .empty }
  (clients.length, clients.foldl
    (fun e c =>
      { e with departed := depart c (closing 1000 "endpoint shutting down") :: e.departed }.notify
        (.disconnected c.id))
    e)

/-! ## Frames for the handler -/

/-- A frame of a client. A frame of a local client that is not tracked is dropped. -/
def deliver (e : Endpoint) (id : ClientId) (f : Frame) : Endpoint :=
  if !id.isTunnel && (e.table.find? id).isNone then e
  else { e with events := e.events.enqueue (.frame id f) }

/-- A frame that the tunnel hands on. -/
def deliverFromTunnel (e : Endpoint) (f : Frame) : Endpoint :=
  { e with events := e.events.offer (.frame .tunnel f) }

/-! ## Frames for a client -/

/-- A frame over the limit is refused before anything else is looked at. -/
def checkLength (e : Endpoint) (f : Frame) : Except EndpointError Unit :=
  if e.limits.maxBroadcastLength < f.length then
    .error (.payloadTooLarge f.length e.limits.maxBroadcastLength)
  else .ok ()

/-- What becomes of a frame for one client without a wait. -/
inductive SendStart where
  | over (result : Except EndpointError Unit)
  /-- The frame is left to the attached tunnel, whose sends wait. -/
  | leftToTunnel (f : Frame)

/-- The frame that is left to the tunnel, if any. -/
def SendStart.left? : SendStart → Option Frame
  | .over _ => none
  | .leftToTunnel f => some f

/-- Begins to send a frame to one client: all of it but the send through the tunnel. A client whose
queue is closed is gone, and no longer tracked. -/
def startSendTo (e : Endpoint) (id : ClientId) (f : Frame) : SendStart × Endpoint :=
  match e.checkLength f with
  | .error err => (.over (.error err), e)
  | .ok () =>
    if id.isTunnel then
      (if e.tunnel.isSome then .leftToTunnel f else .over (.error .tunnelNotAttached), e)
    else
      match e.table.find? id with
      | none => (.over (.error (.unknownClient id)), e)
      | some c =>
        match c.outbox.push (.data f) with
        | (.queued, q) =>
          (.over (.ok ()), { e with table := e.table.modify id fun c => { c with outbox := q } })
        | (.full, _) => (.over (.error (.backpressure id)), e)
        | (.closed, _) => (.over (.error (.clientGone id)), (e.release id).2)

/-- Sends a frame through the attached tunnel, with nothing else during its waits. -/
def sendToTunnel (e : Endpoint) (f : Frame) : Except EndpointError Unit × Endpoint :=
  match e.tunnel with
  | none => (.error .tunnelNotAttached, e)
  | some t =>
    let (r, t) := t.sendNow f
    (r.mapError .tunnel, { e with tunnel := some t })

/-- The endpoint after the send of a frame that was left to the tunnel, with nothing else during its
waits. -/
def finishSend (e : Endpoint) : Option Frame → Endpoint
  | none => e
  | some f => (e.sendToTunnel f).2

/-- Sends a frame to one client, with nothing else during the waits of the tunnel. -/
def sendTo (e : Endpoint) (id : ClientId) (f : Frame) : Except EndpointError Unit × Endpoint :=
  match e.startSendTo id f with
  | (.over r, e) => (r, e)
  | (.leftToTunnel f, e) => e.sendToTunnel f

/-! ## The connection's side -/

/-- What the connection of a client sees of it. -/
structure Connection where
  outbox : BoundedQueue Message
  tracked : Bool
  /-- Whether the connection was told to end. -/
  shutOut : Bool
  deriving DecidableEq, Repr

/-- The connection of a client that is tracked or has left. -/
def connection? (e : Endpoint) (id : ClientId) : Option Connection :=
  match e.table.find? id with
  | some c => some ⟨c.outbox, true, false⟩
  | none => (e.departed.find? fun d => d.id = id).map fun d => ⟨d.outbox, false, d.shutOut⟩

/-- The endpoint after a connection has read or closed its queue. -/
def setOutbox (e : Endpoint) (id : ClientId) (f : BoundedQueue Message → BoundedQueue Message) :
    Endpoint :=
  if (e.table.find? id).isSome then
    { e with table := e.table.modify id fun c => { c with outbox := f c.outbox } }
  else
    { e with departed := e.departed.map fun d =>
      if d.id = id then { d with outbox := f d.outbox } else d }

/-- A connection takes every message that waits for it. -/
def drain (e : Endpoint) (id : ClientId) : Endpoint :=
  e.setOutbox id fun q => { q with waiting := [] }

/-- A connection goes away: its queue takes no more messages. -/
def hangUp (e : Endpoint) (id : ClientId) : Endpoint := e.setOutbox id BoundedQueue.close

/-! ## Subscriptions -/

/-- Subscribes or unsubscribes a client: whether the client is known. -/
def setTopic (e : Endpoint) (id : ClientId) (topic : Topic) (on : Bool) : Bool × Endpoint :=
  if id.isTunnel then
    if e.tunnel.isSome then (true, { e with tunnelTopics := e.tunnelTopics.set topic on })
    else (false, e)
  else if (e.table.find? id).isSome then
    (true,
      { e with table := e.table.modify id fun c => { c with topics := c.topics.set topic on } })
  else (false, e)

def hasTopic (e : Endpoint) (id : ClientId) (topic : Topic) : Bool :=
  if id.isTunnel then e.tunnelTopics.contains topic
  else (e.table.find? id).any fun c => c.topics.contains topic

/-- How many local clients are subscribed. -/
def subscribers (e : Endpoint) (topic : Topic) : Nat :=
  e.table.clients.countP fun c => c.topics.contains topic

/-! ## The tunnel -/

def attachTunnel (e : Endpoint) (t : Tunnel) : Endpoint := { e with tunnel := some t }

/-- Whether the attached tunnel is connected. -/
def tunnelConnected (e : Endpoint) : Bool := e.tunnel.any Tunnel.isConnected

/-- The next event for the handler. Tasks that carry notices run once the line is empty. -/
def nextEvent? (e : Endpoint) : Option (EndpointEvent × Endpoint) :=
  match e.events.pop with
  | some (event, line) => some (event, { e with events := line })
  | none => e.events.runCarriers.pop.map fun (event, line) => (event, { e with events := line })

end Endpoint

end DeviceRelay
