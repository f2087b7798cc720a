import DeviceRelay.Endpoint.Basic

/-!
# Frames for many clients

A frame goes to all local clients, to all of them and the tunnel, or to the subscribers of a topic.
A client whose queue is closed is no longer tracked afterwards, and a client whose queue is full
loses only this frame.

* `Endpoint.fanOut`: one frame to some clients.
* `Endpoint.broadcast`, `publish`, `publishTopic`: the three kinds of frame.
-/

namespace DeviceRelay

/-- How many copies of a frame were queued, how many were dropped, and how many clients turned out
to be gone. -/
structure Report where
  delivered : Nat
  dropped : Nat
  removed : Nat
  deriving DecidableEq, Repr

namespace Report

def zero : Report := ⟨0, 0, 0⟩

def add (a b : Report) : Report :=
  ⟨a.delivered + b.delivered, a.dropped + b.dropped, a.removed + b.removed⟩

/-- The copies that were tried. -/
def total (r : Report) : Nat := r.delivered + r.dropped + r.removed

end Report

namespace Endpoint

/-- Stops tracking some clients: how many of them were tracked. -/
def releaseAll (e : Endpoint) (ids : List ClientId) : Nat × Endpoint :=
  ids.foldl
    (fun (n, e) id =>
      let (removed, e) := e.release id
      (if removed then n + 1 else n, e))
    (0, e)

/-- One copy of a message to every client that is wanted. -/
def fanOut (e : Endpoint) (wanted : Client → Bool) (m : Message) : Report × Endpoint :=
  let targets := e.table.clients.filter wanted
  let outcome (c : Client) : Pushed := (c.outbox.push m).1
  let table := e.table.map fun c =>
    if wanted c then { c with outbox := (c.outbox.push m).2 } else c
  let gone := (targets.filter fun c => outcome c = .closed).map Client.id
  let (removed, e) := { e with table := table }.releaseAll gone
  (⟨targets.countP fun c => outcome c = .queued, targets.countP fun c => outcome c = .full,
    removed⟩, e)

/-- One copy of a frame through the tunnel, if it is connected, with nothing else during its
waits. -/
def forwardToTunnel (e : Endpoint) (f : Frame) : Report × Endpoint :=
  match e.tunnel with
  | none => (.zero, e)
  | some t =>
    if t.isConnected then
      match t.sendNow f with
      | (.ok (), t) => (⟨1, 0, 0⟩, { e with tunnel := some t })
      | (.error _, t) => (⟨0, 1, 0⟩, { e with tunnel := some t })
    else (.zero, e)

/-- One copy to every local client. -/
def broadcast (e : Endpoint) (f : Frame) : Except EndpointError Report × Endpoint :=
  match e.checkLength f with
  | .error err => (.error err, e)
  | .ok () =>
    let (report, e) := e.fanOut (fun _ => true) (.data f)
    (.ok report, e)

/-- One copy to every local client, and one through the tunnel if it is connected. -/
def publish (e : Endpoint) (f : Frame) : Except EndpointError Report × Endpoint :=
  match e.broadcast f with
  | (.error err, e) => (.error err, e)
  | (.ok report, e) =>
    let (more, e) := e.forwardToTunnel f
    (.ok (report.add more), e)

/-- The endpoint after snapshots were served: no local client waits for one. -/
def serveClients (e : Endpoint) : Endpoint :=
  { e with table := e.table.map fun c => { c with topics := c.topics.served } }

/-- One binary copy to every subscriber of a topic, the far end of the tunnel included. Whoever
waits for a snapshot waits no longer, whether or not the copy could be queued. -/
def publishTopic (e : Endpoint) (topic : Topic) (bytes : List UInt8) :
    Except EndpointError Report × Endpoint :=
  let f : Frame := .binary bytes
  match e.checkLength f with
  | .error err => (.error err, e)
  | .ok () =>
    let (report, e) := e.fanOut (fun c => c.topics.wants topic) (.data f)
    let e := e.serveClients
    let tunnelWants := e.tunnelTopics.wants topic
    let e := { e with tunnelTopics := e.tunnelTopics.served }
    let (more, e) := if tunnelWants then e.forwardToTunnel f else (.zero, e)
    (.ok (report.add more), e)

end Endpoint

end DeviceRelay
