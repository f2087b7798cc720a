import DeviceRelay.Endpoint.Publish

/-!
# Sessions of local clients

A session reads what its connection brings, one item at a time, and gives the frames to its
endpoint. Before each item it looks whether the client is still tracked. It ends with the first
item that is no frame, or that is a frame too large; then the client is released.

* `Endpoint.receive`: what one item does, and whether the session goes on.
* `Endpoint.serve`: a session among other things that happen to its endpoint.
-/

namespace DeviceRelay

/-- What a connection brings. -/
inductive Incoming where
  | data (f : Frame)
  | ping
  | pong
  | close
  | failed
  | ended
  deriving DecidableEq, Repr

namespace Endpoint

/-- The closing message for a frame that is too large. -/
def oversizeNotice : Message := closing 1009 "message too large"

/-- How many messages wait for a local client. -/
def outboxDepth : Nat := 16

/-- Whether the session of a client has to end: the client was shut out, or is not tracked. -/
def isOut (e : Endpoint) (id : ClientId) : Bool := (e.table.find? id).isNone

/-- What an item does, and whether the session goes on. An empty frame means nothing. -/
def receive (e : Endpoint) (id : ClientId) (item : Incoming) : Endpoint × Bool :=
  if e.isOut id then ((e.release id).2, false)
  else
    match item with
    | .data f =>
      if f.isEmpty then (e, true)
      else if e.limits.maxMessageLength < f.length then
        let e := { e with table := e.table.modify id fun c =>
          { c with outbox := (c.outbox.push oversizeNotice).2 } }
        ((e.release id).2, false)
      else (e.deliver id f, true)
    | .ping | .pong => (e, true)
    | .close | .failed | .ended => ((e.release id).2, false)

/-- What can happen while a session goes on: its connection brings something, or anything else
happens to the endpoint. -/
inductive SessionEvent (α : Type) where
  | item (i : Incoming)
  | other (a : α)
  deriving DecidableEq, Repr

/-- A session from its first item on, where `act` is what the other things do to the endpoint: the
endpoint afterwards, and whether the session goes on. -/
def serve {α : Type} (act : Endpoint → α → Endpoint) (id : ClientId) :
    Endpoint × Bool → List (SessionEvent α) → Endpoint × Bool
  | s, [] => s
  | (e, live), .item i :: events =>
    serve act id (if live then e.receive id i else (e, false)) events
  | (e, live), .other a :: events => serve act id (act e a, live) events

end Endpoint

end DeviceRelay
